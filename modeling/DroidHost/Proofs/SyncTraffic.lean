import DroidHost.Bridge.Sync.Session
import DroidHost.Proofs.ReleasedHandle
import DroidHost.Proofs.Steps

/-! What the operations of a file session write to its stream and take off it, and how they fail. -/
namespace DroidHost

def Occurrence.writtenTo (id : UInt32) : Occurrence → Bytes
  | sent m => if m.command = .write ∧ m.arg0 = id then m.payload else []
  | _ => []

theorem StreamState.closed_apply {s : StreamState} (h : s.phase = .closed) (id : UInt32)
    (m : Message) : (s.apply id m).1.phase = .closed := by
  unfold apply
  split
  · unfold acknowledged
    split
    · exact h
    · split
      · simp only [h, reduceCtorEq, if_false]
      · exact h
  · rfl
  · unfold supplied
    split
    · exact h
    · exact h
    · exact h
  · exact h

namespace Connection

/-- Everything that got out on a stream, in order. -/
def written (id : UInt32) (c : Connection) : Bytes :=
  (c.story id).flatMap (Occurrence.writtenTo id)

theorem written_note {c : Connection} {o : Occurrence} {id : UInt32} (h : o ≠ .entered id) :
    (c.note o).written id = c.written id ++ o.writtenTo id := by
  rw [written, story_note, if_neg h, List.flatMap_append, List.flatMap_singleton, written]

/-- The device has closed the stream with this id, or there is none. -/
def Shut (id : UInt32) (c : Connection) : Prop :=
  ∀ s, c.table.find? id = some s → s.phase = .closed

/-- These bytes were sent on a stream and these were read from it, and if it was closed it
still is. -/
structure Did (id : UInt32) (put got : Bytes) (c after : Connection) : Prop where
  written : after.written id = c.written id ++ put
  taken : after.taken id = c.taken id ++ got
  shut : c.Shut id → after.Shut id

theorem Did.refl (id : UInt32) (c : Connection) : Did id [] [] c c where
  written := (List.append_nil _).symm
  taken := (List.append_nil _).symm
  shut := fun h => h

theorem Did.trans {id : UInt32} {put got put' got' : Bytes} {c mid after : Connection}
    (h : Did id put got c mid) (h' : Did id put' got' mid after) :
    Did id (put ++ put') (got ++ got') c after where
  written := by rw [h'.written, h.written, List.append_assoc]
  taken := by rw [h'.taken, h.taken, List.append_assoc]
  shut := fun hc => h'.shut (h.shut hc)

theorem did_channel (id : UInt32) (c : Connection) (ch : Channel) :
    Did id [] [] c { c with channel := ch } where
  written := (List.append_nil _).symm
  taken := (List.append_nil _).symm
  shut := fun h => h

theorem did_note {id : UInt32} {o : Occurrence} (h : o ≠ .entered id) (c : Connection) :
    Did id (o.writtenTo id) (o.takenFrom id) c (c.note o) where
  written := written_note h
  taken := taken_note h
  shut := fun h => h

theorem did_setStream {k id : UInt32} {c : Connection} {s s' : StreamState}
    (hs : c.table.find? k = some s) (hp : s.phase = .closed → s'.phase = .closed) :
    Did id [] [] c (c.setStream k s') where
  written := (List.append_nil _).symm
  taken := (List.append_nil _).symm
  shut := by
    intro hc t ht
    rw [setStream, StreamTable.find?_set] at ht
    split at ht
    · next hk =>
      rw [hs, Option.map_some, Option.some.injEq] at ht
      rw [← ht]
      exact hp (hc s (hk ▸ hs))
    · exact hc t ht

theorem did_send (id : UInt32) (m : Message) (deadline : Deadline) (c : Connection) :
    match c.send m deadline with
    | .ok _ after => Did id (Occurrence.writtenTo id (.sent m)) [] c after
    | .error _ after => Did id [] [] c after := by
  rcases c.send_cases m deadline with ⟨ch, hs⟩ | ⟨f, ch, begun, hs⟩
  · rw [hs]
    exact (did_channel id c ch).trans (did_note (o := .sent m) nofun { c with channel := ch })
  · rw [hs]
    exact (did_channel id c ch).trans
      (did_note (o := .unsent m begun) nofun { c with channel := ch })

theorem did_acknowledge (id k peer : UInt32) (deadline : Deadline) (c : Connection) :
    Did id [] [] c (c.acknowledge ⟨.okay, k, peer, []⟩ deadline) := by
  have hs := did_send id ⟨.okay, k, peer, []⟩
    (c.deadline (deadline.remainingOrFloor Deadline.transferFloor c.now)) c
  unfold acknowledge
  split
  · next hr =>
    rw [hr] at hs
    exact hs
  · next mid hr =>
    rw [hr] at hs
    have hm : Did id [] [] c mid := hs
    unfold spoil
    split
    · next s hf => exact hm.trans (did_setStream hf (fun h => h))
    · exact hm

theorem did_route {id : UInt32} {c : Connection} {m : Message} (ch : Channel)
    {table : StreamTable} {ack : Option Message} (hr : c.table.route m = .ok (table, ack)) :
    Did id [] [] c { c.hear m ch with table := table } := by
  have hh : Did id [] [] c (c.hear m ch) :=
    (did_channel id c ch).trans (did_note (o := .arrived m _) nofun { c with channel := ch })
  unfold StreamTable.route at hr
  split at hr
  · split at hr
    · next s hs =>
      cases hr
      exact hh.trans (did_setStream hs (fun hp => StreamState.closed_apply hp m.arg1 m))
    · cases hr
      exact hh
  · cases hr

theorem did_takeIn (id : UInt32) (deadline : Deadline) (c : Connection) :
    Did id [] [] c (final (c.takeIn deadline)) := by
  unfold takeIn
  split
  · split
    · exact did_channel id c _
    · exact did_channel id c _
  · next m ch _ =>
    split
    · exact (did_channel id c ch).trans
        (did_note (o := .arrived m _) nofun { c with channel := ch })
    · next table hr => exact did_route ch hr
    · next table ack hr =>
      obtain ⟨peer, rfl⟩ := ack_of_route hr
      exact (did_route ch hr).trans (did_acknowledge id m.arg1 peer deadline _)

theorem Waits.did {deadline : Deadline} {c after : Connection} (h : Waits deadline c after)
    (id : UInt32) : Did id [] [] c after := by
  induction h with
  | refl => exact Did.refl id c
  | tail _ hm ih =>
    subst hm
    exact ih.trans (did_takeIn id deadline _)

structure Used (id : UInt32) (put got : Bytes) (c after : Connection) : Prop where
  moves : Moves c after
  did : Did id put got c after

theorem Used.refl (id : UInt32) (c : Connection) : Used id [] [] c c := ⟨.refl, Did.refl id c⟩

theorem Used.trans {id : UInt32} {put got put' got' : Bytes} {c mid after : Connection}
    (h : Used id put got c mid) (h' : Used id put' got' mid after) :
    Used id (put ++ put') (got ++ got') c after :=
  ⟨h.moves.trans h'.moves, h.did.trans h'.did⟩

theorem Used.accounted {id : UInt32} {put got : Bytes} {c after : Connection}
    (h : Used id put got c after) (hc : c.Accounted) : after.Accounted :=
  h.moves.kept (fun _ _ => Accounted.move) hc

/-- The channel, the stream or the time is at fault, and if the error says that the stream is closed
then it is. -/
structure Failed (id : UInt32) (e : BridgeError) (after : Connection) : Prop where
  cause : e.ofChannel = true ∨ e.isTimeout = true ∨ e.isStreamClosed = true
  shut : e.isStreamClosed = true → after.Shut id

theorem failed_inspect {id : UInt32} {look : StreamState → Look α} {c after : Connection}
    {e : BridgeError}
    (hl : ∀ s e, look s = .failed e → e = .streamClosed id ∧ s.phase = .closed)
    (h : c.inspect id look = some (.error e after)) : Failed id e after := by
  unfold inspect at h
  split at h
  · next hnone =>
    cases h
    refine ⟨.inr (.inr rfl), ?_⟩
    intro _ s hs
    rw [hnone] at hs
    cases hs
  · next s hs =>
    split at h
    · cases h
      exact ⟨.inl rfl, nofun⟩
    · split at h
      · cases h
      · next he =>
        cases h
        obtain ⟨rfl, hp⟩ := hl s _ he
        refine ⟨.inr (.inr rfl), ?_⟩
        intro _ t ht
        rw [hs] at ht
        exact Option.some.inj ht ▸ hp
      · cases h

theorem failed_waitFor {id : UInt32} {deadline : Deadline} {awaited : Awaited}
    {look : StreamState → Look α}
    (hl : ∀ s e, look s = .failed e → e = .streamClosed id ∧ s.phase = .closed)
    {c after : Connection} {e : BridgeError}
    (h : c.waitFor id deadline awaited look = .error e after) : Failed id e after := by
  fun_induction waitFor id deadline awaited look c with
  | case1 c said hs =>
    subst h
    exact failed_inspect hl hs
  | case2 =>
    cases h
    exact ⟨.inr (.inl rfl), by rintro ⟨⟩⟩
  | case3 c hs he u mid ht ih => exact ih h
  | case4 c hs he e' mid ht =>
    cases h
    have hcause : e.ofChannel = true := ofChannel_of_takeIn ht
    refine ⟨.inl hcause, ?_⟩
    intro hclosed
    cases e <;> cases hcause <;> cases hclosed

theorem used_readBy (id : UInt32) (length : Nat) (deadline : Deadline) (c : Connection) :
    match c.readBy id length deadline with
    | .ok bytes after => Used id [] bytes c after
    | .error e after => Used id [] [] c after ∧ Failed id e after := by
  have hw := c.readBy_waits id length deadline
  have hm := c.readBy_moves id length deadline
  cases h : c.readBy id length deadline with
  | ok bytes after =>
    rw [h] at hw hm
    obtain ⟨mid, taken, hwaits, hi, rfl⟩ := hw
    obtain ⟨s, s', hs, hr, rfl⟩ := inspect_ok hi
    obtain ⟨_, he, _, _⟩ := StreamState.supplying_ready hr
    have hset : Did id [] [] mid (mid.setStream id s') := by
      apply did_setStream hs
      intro hp
      rw [he]
      exact hp
    have hnote : Did id [] ((Occurrence.taken id bytes).takenFrom id) (mid.setStream id s')
        ((mid.setStream id s').note (.taken id bytes)) := did_note (o := .taken id bytes) nofun _
    rw [Occurrence.takenFrom, if_pos rfl] at hnote
    exact ⟨hm, ((hwaits.did id).trans hset).trans hnote⟩
  | error e after =>
    rw [h] at hw hm
    refine ⟨⟨hm, hw.did id⟩, ?_⟩
    unfold readBy at h
    split at h
    · cases h
    · next hf =>
      cases h
      refine failed_waitFor ?_ hf
      intro s e he
      unfold StreamState.supplying at he
      split at he
      · split at he <;> cases he
      · split at he
        · next hp =>
          cases he
          exact ⟨rfl, hp⟩
        · cases he

theorem failed_writable {id : UInt32} {c : Connection} {s : StreamState} {e : BridgeError}
    (hs : c.table.find? id = some s) (hm : s.Met) (h : s.writable id = .error e) :
    Failed id e c := by
  have hshut (hclosed : s.phase = .closed) : c.Shut id := by
    intro t ht
    rw [hs] at ht
    exact Option.some.inj ht ▸ hclosed
  unfold StreamState.writable at h
  split at h
  · cases h
    exact ⟨.inl rfl, nofun⟩
  · split at h
    · cases h
      exact ⟨.inl rfl, nofun⟩
    · split at h
      · cases h
        exact ⟨.inl rfl, nofun⟩
      · cases h
    · next hpending hopen =>
      cases h
      refine ⟨.inr (.inr rfl), fun _ => hshut ?_⟩
      cases hp : s.phase with
      | pending => exact absurd hp hpending
      | opened =>
        obtain ⟨peer, hpeer⟩ := Option.isSome_iff_exists.mp (hm hp)
        exact absurd hpeer (hopen peer hp)
      | closed => rfl

theorem used_sendPiece {c : Connection} (hc : c.Accounted) (id : UInt32) (deadline : Deadline)
    (piece : Bytes) :
    match c.sendPiece id deadline piece with
    | .ok _ after => Used id piece [] c after
    | .error e after => Used id [] [] c after ∧ Failed id e after := by
  have hm : Moves c (final (c.sendPiece id deadline piece)) :=
    .single (.sendPiece id deadline piece)
  unfold sendPiece at hm ⊢
  cases hs : c.table.find? id with
  | none =>
    refine ⟨Used.refl id c, .inr (.inr rfl), ?_⟩
    intro _ s hf
    rw [hs] at hf
    cases hf
  | some s =>
    simp only [hs] at hm ⊢
    cases hw : s.writable id with
    | error e => exact ⟨Used.refl id c, failed_writable hs (hc.met id s hs) hw⟩
    | ok peer =>
      simp only [hw] at hm ⊢
      have hd := did_send id ⟨.write, id, peer, piece⟩ deadline c
      have ht := (c.send_weight ⟨.write, id, peer, piece⟩ deadline).2.1
      cases hr : c.send ⟨.write, id, peer, piece⟩ deadline with
      | error f after =>
        rw [hr] at hd hm
        exact ⟨⟨hm, hd⟩, .inl rfl, nofun⟩
      | ok u after =>
        rw [hr] at hd hm ht
        have hsent : Did id piece [] c after := by
          simpa only [Occurrence.writtenTo, true_and, if_true] using hd
        have hfound : after.table.find? id = some s := by
          rw [show after.table = c.table from ht]
          exact hs
        refine ⟨hm, ?_⟩
        have hset : Did id [] [] after (after.setStream id { s with awaiting := true }) :=
          did_setStream hfound (fun hp => hp)
        have hboth := hsent.trans hset
        rw [List.append_nil] at hboth
        exact hboth

theorem used_writePiece {c : Connection} (hc : c.Accounted) (id : UInt32) (deadline : Deadline)
    (piece : Bytes) :
    match c.writePiece id deadline piece with
    | .ok _ after => Used id piece [] c after
    | .error e after => ∃ put, put <+: piece ∧ Used id put [] c after ∧ Failed id e after := by
  have hs := used_sendPiece hc id deadline piece
  unfold writePiece
  cases hr : c.sendPiece id deadline piece with
  | error e mid =>
    rw [hr] at hs
    exact ⟨[], List.nil_prefix, hs⟩
  | ok u mid =>
    rw [hr] at hs
    have hm : Moves mid
        (final (mid.waitFor id deadline (.okay id) (StreamState.acknowledging id))) :=
      final_waitFor_moves _ _ _ (fun _ _ _ => StreamState.eq_of_acknowledging) mid
    have hw := waitFor_waits id deadline (.okay id) (StreamState.acknowledging id) mid
    dsimp only
    cases hf : mid.waitFor id deadline (.okay id) (StreamState.acknowledging id) with
    | ok u after =>
      rw [hf] at hm hw
      obtain ⟨last, hwaits, hi⟩ := hw
      rw [inspect_same (fun _ _ _ => StreamState.eq_of_acknowledging) hi] at hm ⊢
      have hboth := hs.trans ⟨hm, hwaits.did id⟩
      rw [List.append_nil] at hboth
      exact hboth
    | error e after =>
      rw [hf] at hm hw
      have hput : piece ++ [] <+: piece := ⟨[], by rw [List.append_nil, List.append_nil]⟩
      refine ⟨piece ++ [], hput, hs.trans ⟨hm, hw.did id⟩, failed_waitFor ?_ hf⟩
      intro s e he
      unfold StreamState.acknowledging at he
      split at he
      · cases he
      · split at he
        · next hp =>
          cases he
          exact ⟨rfl, hp⟩
        · cases he

theorem used_writePieces (id : UInt32) (deadline : Deadline) (pieces : List Bytes)
    {c : Connection} (hc : c.Accounted) :
    match c.writePieces id deadline pieces with
    | .ok _ after => Used id pieces.flatten [] c after
    | .error e after =>
      ∃ put, put <+: pieces.flatten ∧ Used id put [] c after ∧ Failed id e after := by
  induction pieces generalizing c with
  | nil => exact Used.refl id c
  | cons piece rest ih =>
    have hp := used_writePiece hc id deadline piece
    unfold writePieces
    cases hr : c.writePiece id deadline piece with
    | error e mid =>
      rw [hr] at hp
      obtain ⟨put, hput, hfailed⟩ := hp
      exact ⟨put, hput.trans (List.prefix_append _ _), hfailed⟩
    | ok u mid =>
      rw [hr] at hp
      have hrest := ih (hp.accounted hc)
      dsimp only
      cases hw : mid.writePieces id deadline rest with
      | ok u after =>
        rw [hw] at hrest
        exact hp.trans hrest
      | error e after =>
        rw [hw] at hrest
        obtain ⟨put, hput, hused, hfailed⟩ := hrest
        exact ⟨piece ++ put, (List.prefix_append_right_inj piece).mpr hput, hp.trans hused, hfailed⟩

theorem ask_fresh {destination : String} {deadline : Deadline} {c after : Connection}
    {id : UInt32} (h : c.ask destination deadline = .ok id after) :
    after.written id = [] ∧ after.taken id = [] := by
  unfold ask at h
  split at h
  · cases h
  · next k table _ =>
    let entered : Connection := { c with table := table }.enter k
    have hstory : entered.story k = [] := by
      simp only [entered, enter, story_note, if_true]
    have hs := did_send k ⟨.start, k, 0, Text.Utf8.encode destination ++ [0]⟩ deadline entered
    split at h
    · cases h
    · next hr =>
      cases h
      rw [hr] at hs
      have hd : Did id [] [] entered after := hs
      rw [hd.written, hd.taken, written, taken, hstory]
      exact ⟨rfl, rfl⟩

theorem openStream_fresh {destination : String} {budget : Nat} {c after : Connection}
    {s : Stream} (h : c.openStream destination budget = .ok (some s) after) :
    after.written s.localId = [] ∧ after.taken s.localId = [] := by
  unfold openStream at h
  split at h
  · cases h
  · next id asked ha =>
    have hasked := ask_fresh ha
    have hw := waitFor_waits id (c.deadline budget) (.openReply id) StreamState.opening asked
    split at h
    · next hr =>
      cases h
      rw [hr] at hw
      obtain ⟨mid, hwaits, hi⟩ := hw
      rw [inspect_same (fun _ _ _ => StreamState.eq_of_opening) hi]
      have hd := hwaits.did id
      rw [hd.written, hd.taken, hasked.1, hasked.2]
      exact ⟨rfl, rfl⟩
    · cases h
    · cases h

/-- A run comes to something good or something bad, told from what it gave, wrote and took. -/
def Ends (id : UInt32) (c : Connection) (good : α → Bytes → Bytes → Prop)
    (bad : BridgeError → Bytes → Bytes → Connection → Prop)
    (r : EStateM.Result BridgeError Connection α) : Prop :=
  match r with
  | .ok a after => ∃ put got, Used id put got c after ∧ good a put got
  | .error e after => ∃ put got, Used id put got c after ∧ bad e put got after

theorem Ends.imp {id : UInt32} {c : Connection} {good good' : α → Bytes → Bytes → Prop}
    {bad bad' : BridgeError → Bytes → Bytes → Connection → Prop}
    {r : EStateM.Result BridgeError Connection α} (h : Ends id c good bad r)
    (hg : ∀ a put got, good a put got → good' a put got)
    (hb : ∀ e put got after, bad e put got after → bad' e put got after) :
    Ends id c good' bad' r := by
  cases r with
  | ok a after =>
    obtain ⟨put, got, hu, ha⟩ := h
    exact ⟨put, got, hu, hg a put got ha⟩
  | error e after =>
    obtain ⟨put, got, hu, he⟩ := h
    exact ⟨put, got, hu, hb e put got after he⟩

theorem Ends.after {id : UInt32} {c mid : Connection} {put got : Bytes}
    (hu : Used id put got c mid) {good : α → Bytes → Bytes → Prop}
    {bad : BridgeError → Bytes → Bytes → Connection → Prop}
    {r : EStateM.Result BridgeError Connection α}
    (h : Ends id mid (fun a p g => good a (put ++ p) (got ++ g))
      (fun e p g => bad e (put ++ p) (got ++ g)) r) : Ends id c good bad r := by
  cases r with
  | ok a after =>
    obtain ⟨p, g, hu', ha⟩ := h
    exact ⟨put ++ p, got ++ g, hu.trans hu', ha⟩
  | error e after =>
    obtain ⟨p, g, hu', he⟩ := h
    exact ⟨put ++ p, got ++ g, hu.trans hu', he⟩

theorem Ends.bind {id : UInt32} {c : Connection} {x : EStateM BridgeError Connection α}
    {f : α → EStateM BridgeError Connection β} {first : α → Bytes → Bytes → Prop}
    {good : β → Bytes → Bytes → Prop} {bad : BridgeError → Bytes → Bytes → Connection → Prop}
    (hx : Ends id c first bad (x c))
    (hf : ∀ a put got mid, Used id put got c mid → first a put got →
      Ends id mid (fun b p g => good b (put ++ p) (got ++ g))
        (fun e p g => bad e (put ++ p) (got ++ g)) (f a mid)) :
    Ends id c good bad ((x >>= f) c) := by
  change Ends id c good bad (EStateM.bind x f c)
  unfold EStateM.bind
  cases hr : x c with
  | ok a mid =>
    rw [hr] at hx
    obtain ⟨put, got, hu, ha⟩ := hx
    exact (hf a put got mid hu ha).after hu
  | error e mid =>
    rw [hr] at hx
    exact hx

theorem ends_pure {id : UInt32} {c : Connection} {a : α} {good : α → Bytes → Bytes → Prop}
    {bad : BridgeError → Bytes → Bytes → Connection → Prop} (h : good a [] []) :
    Ends id c good bad (.ok a c) := ⟨[], [], Used.refl id c, h⟩

theorem ends_throw {id : UInt32} {c : Connection} {e : BridgeError}
    {good : α → Bytes → Bytes → Prop} {bad : BridgeError → Bytes → Bytes → Connection → Prop}
    (h : bad e [] [] c) : Ends id c good bad (.error e c : EStateM.Result _ _ α) :=
  ⟨[], [], Used.refl id c, h⟩

theorem failed_protocol (id : UInt32) (violation : Violation) (c : Connection) :
    Failed id (.protocol violation) c := ⟨.inl rfl, nofun⟩

end Connection

/-- So many bytes off the front, and the rest; none if there are fewer. -/
def Bytes.cut (n : Nat) (bytes : Bytes) : Option (Bytes × Bytes) :=
  if n ≤ bytes.length then some (bytes.take n, bytes.drop n) else none

theorem Bytes.cut_append {n : Nat} {bytes : Bytes} (h : bytes.length = n) (rest : Bytes) :
    Bytes.cut n (bytes ++ rest) = some (bytes, rest) := by
  subst h
  rw [cut, if_pos (by rw [List.length_append]; exact Nat.le_add_right _ _), List.take_left,
    List.drop_left]

theorem Bytes.cut_all {n : Nat} {bytes : Bytes} (h : bytes.length = n) :
    Bytes.cut n bytes = some (bytes, []) := by
  have hc := Bytes.cut_append h []
  rw [List.append_nil] at hc
  exact hc

theorem Bytes.cut_more {n : Nat} {bytes front rest : Bytes}
    (h : Bytes.cut n bytes = some (front, rest)) (more : Bytes) :
    Bytes.cut n (bytes ++ more) = some (front, rest ++ more) := by
  unfold cut at h
  split at h
  · next hle =>
    cases h
    have hlong : n ≤ (bytes ++ more).length := by
      rw [List.length_append]
      exact Nat.le_add_right_of_le hle
    rw [cut, if_pos hlong, List.take_append_of_le_length hle, List.drop_append_of_le_length hle]
  · cases h

namespace SyncReply

/-- What follows the first eight bytes of a reply. -/
def parseRest (shape : ReplyShape) (head bytes : Bytes) :
    Option (Except BridgeError SyncReply × Bytes) :=
  match SyncId.ofBytes? (head.take 4) with
  | none => some (.error (.protocol (.unknownSyncId (head.take 4))), bytes)
  | some id =>
    let first := (Bytes.words (head.drop 4)).headD 0
    if id = .fail then do
      let (text, rest) ← Bytes.cut first.toNat bytes
      return (.error (.remote (Text.Utf8.decode text)), rest)
    else do
      let (more, rest) ← Bytes.cut (4 * (shape.words - 1)) bytes
      match SyncSession.layout id shape first (Bytes.words more) with
      | some (length, reply) =>
        let (body, rest) ← Bytes.cut length rest
        return (.ok (reply body), rest)
      | none => return (.error (.protocol (.misplacedReply id shape)), rest)

/-- The first reply in some bytes, to a request that waits for this shape; none while it is not
there in full. -/
def parse (shape : ReplyShape) (bytes : Bytes) : Option (Except BridgeError SyncReply × Bytes) := do
  let (head, rest) ← Bytes.cut 8 bytes
  parseRest shape head rest

theorem parseRest_more {shape : ReplyShape} {head bytes rest : Bytes}
    {said : Except BridgeError SyncReply} (h : parseRest shape head bytes = some (said, rest))
    (more : Bytes) : parseRest shape head (bytes ++ more) = some (said, rest ++ more) := by
  unfold parseRest at h ⊢
  cases hid : SyncId.ofBytes? (head.take 4) with
  | none =>
    rw [hid] at h
    cases h
    rfl
  | some id =>
    simp only [hid, Option.bind_eq_bind] at h ⊢
    by_cases hfail : id = .fail
    · rw [if_pos hfail] at h ⊢
      obtain ⟨⟨text, left⟩, hcut, hsaid⟩ := Option.bind_eq_some_iff.mp h
      cases hsaid
      rw [Bytes.cut_more hcut more]
      rfl
    · rw [if_neg hfail] at h ⊢
      obtain ⟨⟨words, left⟩, hcut, hsaid⟩ := Option.bind_eq_some_iff.mp h
      rw [Bytes.cut_more hcut more, Option.bind_some]
      dsimp only at hsaid ⊢
      split at hsaid
      · next length reply hlayout =>
        obtain ⟨⟨body, last⟩, hbody, hlast⟩ := Option.bind_eq_some_iff.mp hsaid
        cases hlast
        rw [Bytes.cut_more hbody more]
        rfl
      · cases hsaid
        rfl

theorem parse_more {shape : ReplyShape} {bytes rest : Bytes} {said : Except BridgeError SyncReply}
    (h : parse shape bytes = some (said, rest)) (more : Bytes) :
    parse shape (bytes ++ more) = some (said, rest ++ more) := by
  obtain ⟨⟨head, left⟩, hcut, hsaid⟩ := Option.bind_eq_some_iff.mp h
  rw [parse, Bytes.cut_more hcut more]
  exact parseRest_more hsaid more

theorem parse_nil (shape : ReplyShape) : parse shape [] = none := rfl

end SyncReply

namespace SyncSession
open Connection

/-- The read of a reply failed, or the device reported a failure. -/
def Unanswered (id : UInt32) (parse : Bytes → Option (Except BridgeError SyncReply × Bytes))
    (e : BridgeError) (put got : Bytes) (after : Connection) : Prop :=
  put = [] ∧ (Failed id e after ∨
    ∃ text, e = .remote text ∧ parse got = some (.error (.remote text), []))

theorem ends_take (s : SyncSession) (n : Nat) (c : Connection) :
    Ends s.stream.localId c (fun bytes put got => put = [] ∧ got = bytes ∧ bytes.length = n)
      (fun e put _ after => put = [] ∧ Failed s.stream.localId e after) (s.take n c) := by
  unfold take
  split
  · next hn => exact ends_pure ⟨rfl, rfl, hn.symm⟩
  · next hn =>
    have hu := used_readBy s.stream.localId n (c.deadline s.timeout) c
    have hl := c.readBy_fed s.stream.localId n (c.deadline s.timeout)
    unfold Connection.read
    cases h : c.readBy s.stream.localId n (c.deadline s.timeout) with
    | ok bytes after =>
      rw [h] at hu hl
      exact ⟨[], bytes, hu, rfl, rfl, hl.1 hn⟩
    | error e after =>
      rw [h] at hu
      exact ⟨[], [], hu.1, rfl, hu.2⟩

theorem ends_readRest (s : SyncSession) (shape : ReplyShape) (head : Bytes) (c : Connection) :
    Ends s.stream.localId c
      (fun reply put got => put = [] ∧ SyncReply.parseRest shape head got = some (.ok reply, []))
      (Unanswered s.stream.localId (SyncReply.parseRest shape head))
      (s.readRest shape head c) := by
  unfold readRest
  cases hid : SyncId.ofBytes? (head.take 4) with
  | none => exact ends_throw ⟨rfl, .inl (failed_protocol _ _ _)⟩
  | some k =>
    dsimp only
    by_cases hfail : k = .fail
    · rw [if_pos hfail]
      apply Ends.bind ((s.ends_take _ c).imp (fun _ _ _ h => h) fun _ _ _ _ h => ⟨h.1, .inl h.2⟩)
      rintro text put got mid hu ⟨rfl, rfl, hlen⟩
      apply ends_throw
      refine ⟨rfl, .inr ⟨_, rfl, ?_⟩⟩
      simp only [SyncReply.parseRest, hid, hfail, if_true, List.append_nil, Bytes.cut_all hlen]
      rfl
    · rw [if_neg hfail]
      apply Ends.bind ((s.ends_take _ c).imp (fun _ _ _ h => h) fun _ _ _ _ h => ⟨h.1, .inl h.2⟩)
      rintro more put got mid hu ⟨rfl, rfl, hmore⟩
      cases hlayout : layout k shape ((Bytes.words (head.drop 4)).headD 0) (Bytes.words got) with
      | none => exact ends_throw ⟨rfl, .inl (failed_protocol _ _ _)⟩
      | some announced =>
        obtain ⟨length, reply⟩ := announced
        apply Ends.bind ((s.ends_take length mid).imp (fun _ _ _ h => h)
          fun _ _ _ _ h => ⟨h.1, .inl h.2⟩)
        rintro body put' got' last hu' ⟨rfl, rfl, hbody⟩
        apply ends_pure
        refine ⟨rfl, ?_⟩
        simp only [SyncReply.parseRest, hid, hfail, if_false, List.append_nil,
          Bytes.cut_append hmore, hlayout, Bytes.cut_all hbody, Option.bind_eq_bind,
          Option.bind_some]
        rfl

/-- A reply that is read, or a failure that is reported, takes its own bytes and no more. -/
theorem ends_readReply (s : SyncSession) (shape : ReplyShape) (c : Connection) :
    Ends s.stream.localId c
      (fun reply put got => put = [] ∧ SyncReply.parse shape got = some (.ok reply, []))
      (Unanswered s.stream.localId (SyncReply.parse shape)) (s.readReply shape c) := by
  have ht := s.ends_take 8 c
  unfold readReply
  cases h : s.take 8 c with
  | error e mid =>
    rw [h] at ht
    obtain ⟨put, got, hu, hput, hfailed⟩ := ht
    exact ⟨put, got, hu, hput, .inl hfailed⟩
  | ok head mid =>
    rw [h] at ht
    obtain ⟨put, got, hu, rfl, rfl, hhead⟩ := ht
    have hparse (rest : Bytes) :
        SyncReply.parse shape (got ++ rest) = SyncReply.parseRest shape got rest := by
      rw [SyncReply.parse, Bytes.cut_append hhead]
      rfl
    refine Ends.after hu ((s.ends_readRest shape got mid).imp ?_ ?_)
    · rintro reply put rest ⟨rfl, hreply⟩
      exact ⟨rfl, (hparse rest).trans hreply⟩
    · rintro e put rest after ⟨rfl, h⟩
      rw [← hparse rest] at h
      exact ⟨rfl, h⟩

theorem ends_writeFrame {c : Connection} (hc : c.Accounted) (s : SyncSession) (id : SyncId)
    (value : UInt32) (bytes : Bytes) :
    Ends s.stream.localId c (fun _ put got => put = frame id value bytes ∧ got = [])
      (fun e put got after => put <+: frame id value bytes ∧ got = [] ∧
        Failed s.stream.localId e after)
      (s.writeFrame id value bytes c) := by
  have hu := used_writePieces s.stream.localId (c.deadline s.timeout)
    (Bytes.pieces c.info.maxData.toNat (frame id value bytes)) hc
  rw [Bytes.flatten_pieces] at hu
  unfold writeFrame Connection.write
  cases hr : c.writePieces s.stream.localId (c.deadline s.timeout)
      (Bytes.pieces c.info.maxData.toNat (frame id value bytes)) with
  | ok u after =>
    rw [hr] at hu
    exact ⟨frame id value bytes, [], hu, rfl, rfl⟩
  | error e after =>
    rw [hr] at hu
    obtain ⟨put, hput, hused, hfailed⟩ := hu
    exact ⟨put, [], hused, hput, rfl, hfailed⟩

/-- What a request says: its id, and a name with its length. -/
def naming (id : SyncId) (name : Bytes) : Bytes := frame id (UInt32.ofNat name.length) name

theorem ends_request {c : Connection} (hc : c.Accounted) (s : SyncSession) (id : SyncId)
    (name : Bytes) :
    Ends s.stream.localId c (fun _ put got => put = naming id name ∧ got = [])
      (fun e put got after => put <+: naming id name ∧ got = [] ∧
        (Failed s.stream.localId e after ∨
          maxPathLength < name.length ∧ e = .argument (.longPath name.length) ∧ put = [] ∧ after = c))
      (s.request id name c) := by
  unfold request
  by_cases hlong : maxPathLength < name.length
  · rw [if_pos hlong]
    exact ends_throw ⟨List.nil_prefix, rfl, .inr ⟨hlong, rfl, rfl, rfl⟩⟩
  · rw [if_neg hlong]
    exact (ends_writeFrame hc s id _ name).imp (fun _ _ _ h => h)
      (fun _ _ _ _ h => ⟨h.1, h.2.1, .inl h.2.2⟩)

def dataFrames (pieces : List Bytes) : Bytes :=
  pieces.flatMap fun piece => frame .data (UInt32.ofNat piece.length) piece

theorem pushPieces_fill (source : Source) :
    match source.fill maxPush with
    | (.ok piece, rest) =>
      piece.length = maxPush ∧ pushPieces source.contents = piece :: pushPieces rest.contents ∧
          source.contents.2 = rest.contents.2 ∨
        piece.length < maxPush ∧ source.contents = (piece, none)
    | (.error f, _) => pushPieces source.contents = [] ∧ source.contents.2 = some f := by
  have hf := source.contents_fill maxPush
  cases hr : source.fill maxPush with
  | mk got rest =>
    rw [hr] at hf
    cases got with
    | error f =>
      refine ⟨?_, hf.2⟩
      rw [pushPieces, hf.2, Nat.div_eq_of_lt hf.1, List.take_zero]
    | ok piece =>
      obtain ⟨hfull, hcontents⟩ | hshort := hf
      · refine .inl ⟨hfull, ?_, congrArg (·.2) hcontents⟩
        have hpos : 0 < maxPush := by decide
        have hpieces := Bytes.pieces_append hpos hfull rest.contents.1
        rw [hcontents]
        unfold pushPieces
        cases rest.contents.2 with
        | none => exact hpieces
        | some f =>
          dsimp only
          rw [hpieces, List.length_append, hfull, Nat.add_div_left _ hpos, List.take_succ_cons]
      · exact .inr hshort

theorem pushPieces_short {piece : Bytes} (h : piece.length < maxPush) :
    pushPieces (piece, none) = if piece = [] then [] else [piece] := by
  cases piece with
  | nil => exact Bytes.pieces_nil maxPush
  | cons b bs =>
    rw [if_neg (List.cons_ne_nil b bs)]
    exact Bytes.pieces_short (List.cons_ne_nil b bs) (Nat.le_of_lt h)

theorem ends_sendFile (s : SyncSession) (source : Source) {c : Connection} (hc : c.Accounted) :
    Ends s.stream.localId c
      (fun _ put got => put = dataFrames (pushPieces source.contents) ∧ got = [] ∧
        source.contents.2 = none)
      (fun e put got after => put <+: dataFrames (pushPieces source.contents) ∧ got = [] ∧
        (Failed s.stream.localId e after ∨ ∃ f, e = .localFile f ∧ source.contents.2 = some f ∧
          put = dataFrames (pushPieces source.contents)))
      (s.sendFile source c) := by
  fun_induction sendFile s source generalizing c with
  | case1 source f rest hr =>
    have hp := pushPieces_fill source
    rw [hr] at hp
    rw [hp.1]
    exact ends_throw ⟨List.nil_prefix, rfl, .inr ⟨f, rfl, hp.2, rfl⟩⟩
  | case2 source rest hr =>
    have hp := pushPieces_fill source
    rw [hr] at hp
    obtain ⟨hfull, _⟩ | ⟨_, hcontents⟩ := hp
    · cases hfull
    · rw [hcontents, pushPieces_short (by decide), if_pos rfl]
      exact ends_pure ⟨rfl, rfl, rfl⟩
  | case3 source b bs rest hr ih =>
    have hp := pushPieces_fill source
    rw [hr] at hp
    have hframe := ends_writeFrame hc s .data (UInt32.ofNat (bs.length + 1)) (b :: bs)
    have hfront (more : Bytes) : frame .data (UInt32.ofNat (bs.length + 1)) (b :: bs) <+:
        frame .data (UInt32.ofNat (bs.length + 1)) (b :: bs) ++ more := List.prefix_append _ _
    obtain ⟨hfull, hpieces, hsame⟩ | ⟨hshort, hcontents⟩ := hp
    · rw [hpieces, hsame]
      apply Ends.bind (hframe.imp (fun _ _ _ h => h)
        (fun e put got after h => ⟨h.1.trans (hfront _), h.2.1, .inl h.2.2⟩))
      rintro u put got mid hu ⟨rfl, rfl⟩
      have hmore : ¬ bs.length + 1 < maxPush := Nat.not_lt.mpr (Nat.le_of_eq hfull.symm)
      rw [if_neg hmore]
      refine (ih hmore (hu.accounted hc)).imp ?_ ?_
      · rintro u put got ⟨rfl, rfl, hnone⟩
        exact ⟨rfl, rfl, hnone⟩
      · rintro e put got after ⟨hput, rfl, hf⟩
        refine ⟨(List.prefix_append_right_inj _).mpr hput, rfl, hf.imp_right ?_⟩
        rintro ⟨f, rfl, hsome, rfl⟩
        exact ⟨f, rfl, hsome, rfl⟩
    · rw [hcontents, pushPieces_short hshort, if_neg (List.cons_ne_nil b bs)]
      apply Ends.bind (hframe.imp (fun _ _ _ h => h)
        (fun e put got after h => ⟨h.1.trans (hfront _), h.2.1, .inl h.2.2⟩))
      rintro u put got mid hu ⟨rfl, rfl⟩
      have hlast : bs.length + 1 < maxPush := hshort
      rw [if_pos hlast]
      exact ends_pure ⟨rfl, rfl, rfl⟩

/-- What an upload says in front of the frame that ends it. -/
def opening (source : Source) (target : Bytes) : Bytes :=
  naming .send target ++ dataFrames (pushPieces source.contents)

/-- The frame that ends an upload. A source that fails leaves the upload without one. -/
def ending (source : Source) (mtime : UInt32) : Bytes :=
  if source.contents.2 = none then frame .done mtime [] else []

theorem ends_sendBody {c : Connection} (hc : c.Accounted) (s : SyncSession) (source : Source)
    (target : Bytes) (mtime : UInt32) :
    Ends s.stream.localId c
      (fun _ put got => put = opening source target ++ frame .done mtime [] ∧ got = [] ∧
        source.contents.2 = none)
      (fun e put got after => got = [] ∧ put <+: opening source target ++ ending source mtime ∧
        (Failed s.stream.localId e after ∨
          (∃ f, e = .localFile f ∧ source.contents.2 = some f ∧ put = opening source target) ∨
          maxPathLength < target.length ∧ e = .argument (.longPath target.length) ∧ put = [] ∧
            after = c))
      (s.sendBody source target mtime c) := by
  have hname (more : Bytes) : naming .send target <+: opening source target ++ more := by
    rw [opening, List.append_assoc]
    exact List.prefix_append _ _
  unfold sendBody
  apply Ends.bind ((ends_request hc s .send target).imp (fun _ _ _ h => h) ?_)
  · rintro u put got asked hu ⟨rfl, rfl⟩
    have hasked : asked.Accounted := hu.accounted hc
    apply Ends.bind ((ends_sendFile s source hasked).imp (fun _ _ _ h => h) ?_)
    · rintro u put got sent hu' ⟨rfl, rfl, hnone⟩
      refine (ends_writeFrame (hu'.accounted hasked) s .done mtime []).imp ?_ ?_
      · rintro u put got ⟨rfl, rfl⟩
        refine ⟨?_, rfl, hnone⟩
        rw [opening, List.append_assoc]
      · rintro e put got after ⟨hput, rfl, hfailed⟩
        refine ⟨rfl, ?_, .inl hfailed⟩
        rw [ending, if_pos hnone, opening, List.append_assoc]
        exact (List.prefix_append_right_inj _).mpr ((List.prefix_append_right_inj _).mpr hput)
    · rintro e put got after ⟨hput, rfl, hf⟩
      refine ⟨rfl, ?_, ?_⟩
      · rw [opening, List.append_assoc]
        exact (List.prefix_append_right_inj _).mpr (hput.trans (List.prefix_append _ _))
      · refine hf.imp_right ?_
        rintro ⟨f, rfl, hsome, rfl⟩
        exact .inl ⟨f, rfl, hsome, rfl⟩
  · rintro e put got after ⟨hput, rfl, hfailed | ⟨hlong, rfl, rfl, rfl⟩⟩
    · exact ⟨rfl, hput.trans (hname _), .inl hfailed⟩
    · exact ⟨rfl, List.nil_prefix, .inr (.inr ⟨hlong, rfl, rfl, rfl⟩)⟩

end SyncSession
end DroidHost
