import DroidHost.Proofs.Heeding

/-! A write and its pieces, told from the record: each piece goes out, and its acknowledgement comes
before the next. -/
namespace DroidHost

inductive Beat
  | out (m : Message)
  | heeded
  deriving DecidableEq, Repr

namespace Occurrence

def beat (id peer : UInt32) : Occurrence → Option Beat
  | sent m => if m.command = .write ∧ m.arg0 = id then some (.out m) else none
  | o => if o.heeds id peer then some .heeded else none

/-- The beats in what happened, latest first, in the order in which they came. -/
def beats (id peer : UInt32) (lately : List Occurrence) : List Beat :=
  lately.reverse.filterMap (beat id peer)

theorem beats_append (id peer : UInt32) (later earlier : List Occurrence) :
    beats id peer (later ++ earlier) = beats id peer earlier ++ beats id peer later := by
  rw [beats, List.reverse_append, List.filterMap_append, beats, beats]

theorem beats_sent (id peer : UInt32) (piece : Bytes) :
    beats id peer [sent ⟨.write, id, peer, piece⟩] = [.out ⟨.write, id, peer, piece⟩] := by
  have hout : beat id peer (sent ⟨.write, id, peer, piece⟩) = some (.out ⟨.write, id, peer, piece⟩) :=
    if_pos ⟨rfl, rfl⟩
  rw [beats, List.reverse_singleton, List.filterMap_cons_some hout, List.filterMap_nil]

theorem beats_heeds {id peer : UInt32} {a : Occurrence} (h : a.heeds id peer = true) :
    beats id peer [a] = [.heeded] := by
  have hheeded : beat id peer a = some .heeded := by
    cases a with
    | arrived m phase => exact if_pos h
    | _ => cases h
  rw [beats, List.reverse_singleton, List.filterMap_cons_some hheeded, List.filterMap_nil]

theorem beats_silent {id peer : UInt32} {lately : List Occurrence} (hs : Silent id peer lately)
    (hd : Dutiful lately) : beats id peer lately = [] := by
  refine List.filterMap_eq_nil_iff.mpr ?_
  intro o ho
  have hmem := List.mem_reverse.mp ho
  cases o with
  | sent m =>
    have hokay : m.command = .okay := hd _ hmem m rfl
    rw [beat, hokay]
    exact if_neg nofun
  | arrived m phase => exact if_neg (Bool.eq_false_iff.mp (hs _ hmem))
  | _ => rfl

end Occurrence

namespace Connection
open Occurrence

/-- A piece goes out and is acknowledged. -/
def exchange (id peer : UInt32) (piece : Bytes) : List Beat :=
  [.out ⟨.write, id, peer, piece⟩, .heeded]

/-- A write that failed did so at one of the pieces, which may have got out by then. -/
def Alternates (id peer : UInt32) (pieces : List Bytes) (c : Connection)
    (r : EStateM.Result BridgeError Connection Unit) : Prop :=
  ∃ lately, Since c (final r) lately ∧
    match r with
    | .ok _ _ => beats id peer lately = pieces.flatMap (exchange id peer)
    | .error _ _ => ∃ done piece rest, pieces = done ++ piece :: rest ∧
        (beats id peer lately = done.flatMap (exchange id peer) ∨
          beats id peer lately =
            done.flatMap (exchange id peer) ++ [.out ⟨.write, id, peer, piece⟩])

theorem peer?_of_accepting {id peer : UInt32} {c : Connection} (h : c.Accepting id peer) :
    c.peer? id = some peer := by
  obtain ⟨s, hs, hready⟩ := h
  rw [peer?, hs, Option.bind_some, (StreamState.writable_iff.mp hready).1.2.1]

theorem writePiece_of_not_writable {id : UInt32} {c : Connection} (h : ¬ c.Writable id)
    (deadline : Deadline) (piece : Bytes) : ∃ e, c.writePiece id deadline piece = .error e c := by
  unfold writePiece sendPiece
  cases hs : c.table.find? id with
  | none => exact ⟨.streamClosed id, rfl⟩
  | some s =>
    cases hready : s.writable id with
    | ok peer => exact absurd ⟨s, peer, hs, hready⟩ h
    | error e => exact ⟨e, by simp only [hready]⟩

theorem waitFor_beats {id peer : UInt32} {c : Connection} (h : c.Waiting id peer)
    (deadline : Deadline) :
    match c.waitFor id deadline (.okay id) (StreamState.acknowledging id) with
    | .ok _ after => after.Accepting id peer ∧
        ∃ lately, Since c after lately ∧ beats id peer lately = [.heeded]
    | .error _ after => ∃ lately, Since c after lately ∧ beats id peer lately = [] := by
  have hw := waitFor_waiting h deadline
  have hm := waitFor_waits id deadline (.okay id) (StreamState.acknowledging id) c
  cases hr : c.waitFor id deadline (.okay id) (StreamState.acknowledging id) with
  | ok u after =>
    rw [hr] at hw hm
    obtain ⟨hready, a, earlier, hlately, hheeds, hsilent⟩ := hw
    obtain ⟨mid, hwaits, hi⟩ := hm
    obtain ⟨all, hall, hdutiful⟩ := hwaits.dutiful
    rw [← inspect_same (fun _ _ _ => StreamState.eq_of_acknowledging) hi] at hall
    rw [← hlately.unique hall] at hdutiful
    have hquiet : beats id peer earlier = [] :=
      beats_silent hsilent (fun o ho => hdutiful o (List.mem_cons_of_mem _ ho))
    refine ⟨hready, a :: earlier, hlately, ?_⟩
    rw [← List.singleton_append, beats_append, hquiet, beats_heeds hheeds, List.nil_append]
  | error e after =>
    rw [hr] at hw hm
    obtain ⟨lately, hlately, hsilent⟩ := hw
    obtain ⟨all, hall, hdutiful⟩ := hm.dutiful
    rw [← hlately.unique hall] at hdutiful
    exact ⟨lately, hlately, beats_silent hsilent hdutiful⟩

theorem writePiece_alternates {id peer : UInt32} {c : Connection} (h : c.Accepting id peer)
    (deadline : Deadline) (piece : Bytes) :
    Alternates id peer [piece] c (c.writePiece id deadline piece) ∧
      ∀ u after, c.writePiece id deadline piece = .ok u after → after.Accepting id peer := by
  obtain ⟨s, hs, hready⟩ := h
  rcases c.send_cases ⟨.write, id, peer, piece⟩ deadline with ⟨ch, hsend⟩ | ⟨f, ch, begun, hsend⟩
  · let sent : Connection :=
      ({ c with channel := ch }.note (.sent ⟨.write, id, peer, piece⟩)).setStream id
        { s with awaiting := true }
    have hwrite : c.writePiece id deadline piece =
        sent.waitFor id deadline (.okay id) (StreamState.acknowledging id) := by
      simp only [writePiece, sendPiece, hs, hready, hsend, sent]
    have hp : Since c sent [.sent ⟨.write, id, peer, piece⟩] := rfl
    have hwaiting : sent.Waiting id peer := by
      refine ⟨{ s with awaiting := true }, ?_, (StreamState.writable_iff.mp hready).1, rfl⟩
      change (c.table.set id _).find? id = _
      rw [StreamTable.find?_set, if_pos rfl, hs, Option.map_some]
    have hw := waitFor_beats hwaiting deadline
    rw [hwrite]
    cases hr : sent.waitFor id deadline (.okay id) (StreamState.acknowledging id) with
    | ok u after =>
      rw [hr] at hw
      obtain ⟨hafter, lately, hlately, hbeats⟩ := hw
      refine ⟨⟨_, hp.trans hlately, ?_⟩, ?_⟩
      · dsimp only
        rw [beats_append, beats_sent, hbeats]
        rfl
      · rintro u' after' ⟨⟩
        exact hafter
    | error e after =>
      rw [hr] at hw
      obtain ⟨lately, hlately, hbeats⟩ := hw
      refine ⟨⟨_, hp.trans hlately, [], piece, [], rfl, .inr ?_⟩, ?_⟩
      · rw [beats_append, beats_sent, hbeats]
        rfl
      · intro u after' hok
        cases hok
  · have hwrite : c.writePiece id deadline piece = .error (.link f)
        ({ c with channel := ch }.note (.unsent ⟨.write, id, peer, piece⟩ begun)) := by
      simp only [writePiece, sendPiece, hs, hready, hsend]
    rw [hwrite]
    refine ⟨⟨[_], rfl, [], piece, [], rfl, .inl rfl⟩, ?_⟩
    intro u after hok
    cases hok

theorem writePieces_alternates {id peer : UInt32} {c : Connection} (h : c.Accepting id peer)
    (deadline : Deadline) (pieces : List Bytes) :
    Alternates id peer pieces c (c.writePieces id deadline pieces) := by
  -- A piece that is acknowledged leaves a stream that takes the next one, so `Accepting` carries it.
  induction pieces generalizing c with
  | nil => exact ⟨[], rfl, rfl⟩
  | cons piece rest ih =>
    obtain ⟨hfirst, hnext⟩ := writePiece_alternates h deadline piece
    unfold writePieces
    cases hr : c.writePiece id deadline piece with
    | error e mid =>
      rw [hr] at hfirst
      obtain ⟨lately, hlately, done, last, others, hpieces, hbeats⟩ := hfirst
      refine ⟨lately, hlately, done, last, others ++ rest, ?_, hbeats⟩
      rw [← List.cons_append, ← List.append_assoc, ← hpieces]
      rfl
    | ok u mid =>
      rw [hr] at hfirst
      obtain ⟨earlier, hearlier, hone⟩ := hfirst
      obtain ⟨later, hlater, hrest⟩ := ih (hnext u mid hr)
      dsimp only
      refine ⟨later ++ earlier, hearlier.trans hlater, ?_⟩
      have hfront (more : List Beat) : beats id peer earlier ++ more =
          exchange id peer piece ++ more := by
        rw [hone, List.flatMap_singleton]
      cases hw : mid.writePieces id deadline rest with
      | ok u after =>
        rw [hw] at hrest
        dsimp only at hrest ⊢
        rw [beats_append, hfront, hrest, List.flatMap_cons]
      | error e after =>
        rw [hw] at hrest
        obtain ⟨done, last, others, rfl, hbeats⟩ := hrest
        refine ⟨piece :: done, last, others, rfl, ?_⟩
        rw [beats_append, hfront, List.flatMap_cons, List.append_assoc]
        exact hbeats.imp (congrArg _) (congrArg _)

end Connection

/-- A write cuts its data into as few pieces as the negotiated size allows. If it succeeds each
piece went out in one message and was acknowledged before the next one; if it fails, this is true of
the pieces up to some place, behind which one more may be out. -/
theorem write_in_pieces (c : Connection) (id : UInt32) (bytes : Bytes) (budget : Nat) :
    let size := max c.info.maxData.toNat 1
    let peer := (c.peer? id).getD 0
    let r := c.write id bytes budget
    ∃ (pieces : List Bytes) (lately : List Occurrence),
      pieces.flatten = bytes ∧ pieces.length = (bytes.length + (size - 1)) / size ∧
      (∀ piece ∈ pieces, 1 ≤ piece.length ∧ piece.length ≤ size) ∧
      (∀ piece ∈ pieces.dropLast, piece.length = size) ∧
      (final r).past = lately ++ c.past ∧
      (final r).wire = c.wire ++ Part.join (lately.reverse.flatMap Occurrence.writes) ∧
      match r with
      | .ok _ _ => Occurrence.beats id peer lately =
          pieces.flatMap fun piece => [.out ⟨.write, id, peer, piece⟩, .heeded]
      | .error _ _ => ∃ done piece rest, pieces = done ++ piece :: rest ∧
          let before := done.flatMap fun piece => [.out ⟨.write, id, peer, piece⟩, .heeded]
          (Occurrence.beats id peer lately = before ∨
            Occurrence.beats id peer lately = before ++ [.out ⟨.write, id, peer, piece⟩]) := by
  intro size peer r
  have hsize : 0 < size := Nat.lt_of_lt_of_le Nat.one_pos (Nat.le_max_right _ _)
  have hpieces : Bytes.pieces c.info.maxData.toNat bytes = Bytes.pieces size bytes :=
    (Bytes.pieces_max _ bytes).symm
  have hr : r = c.writePieces id (c.deadline budget) (Bytes.pieces size bytes) := by
    rw [← hpieces]
    rfl
  have halternates : Connection.Alternates id peer (Bytes.pieces size bytes) c r := by
    rw [hr]
    by_cases hopen : c.Writable id
    · obtain ⟨s, known, hs, hready⟩ := hopen
      have haccepts : c.Accepting id known := ⟨s, hs, hready⟩
      have hknown : peer = known := by
        change (c.peer? id).getD 0 = known
        rw [Connection.peer?_of_accepting haccepts, Option.getD_some]
      rw [hknown]
      exact Connection.writePieces_alternates haccepts _ _
    · cases Bytes.pieces size bytes with
      | nil => exact ⟨[], rfl, rfl⟩
      | cons piece rest =>
        obtain ⟨e, hfails⟩ :=
          Connection.writePiece_of_not_writable hopen (c.deadline budget) piece
        rw [Connection.writePieces, hfails]
        exact ⟨[], rfl, [], piece, rest, rfl, .inl rfl⟩
  obtain ⟨lately, hlately, hbeats⟩ := halternates
  have hmoves := Connection.writePieces_moves id (c.deadline budget) (Bytes.pieces size bytes) c
  rw [← hr] at hmoves
  obtain ⟨all, hpast, hwire, _⟩ := hmoves.wrote
  obtain rfl : lately = all := Connection.Since.unique hlately hpast
  refine ⟨Bytes.pieces size bytes, lately, Bytes.flatten_pieces size bytes,
    Bytes.length_pieces hsize bytes, ?_, Bytes.full_pieces hsize bytes, hpast, hwire, hbeats⟩
  intro piece hmem
  obtain ⟨hne, hle⟩ := Bytes.mem_pieces hsize hmem
  exact ⟨List.length_pos_iff.mpr hne, hle⟩

end DroidHost
