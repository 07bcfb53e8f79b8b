import DroidHost.Proofs.Service
import DroidHost.Proofs.SyncTraffic

/-! Writes and their acknowledgements, told from the record. A write is over when its
acknowledgement has come, or some piece on record was not heeded. -/
namespace DroidHost

namespace Occurrence

/-- The peer of a stream acknowledges what was sent on it, while the stream is open. -/
def heeds (id peer : UInt32) : Occurrence → Bool
  | arrived m (some .opened) => m.command = .okay ∧ m.arg0 = peer ∧ m.arg1 = id
  | _ => false

/-- Every piece of data tried on the stream got out and was acknowledged later, the record being
latest first. -/
def Heeded (id : UInt32) (lately : List Occurrence) : Prop :=
  ∀ later o earlier w, lately = later ++ o :: earlier → o.tried = some w → w.command = .write →
    w.arg0 = id → o = .sent w ∧ ∃ a ∈ later, a.heeds id w.arg1 = true

def Silent (id peer : UInt32) (lately : List Occurrence) : Prop :=
  ∀ a ∈ lately, a.heeds id peer = false

theorem silent_nil (id peer : UInt32) : Silent id peer [] := nofun

theorem silent_singleton {id peer : UInt32} {o : Occurrence} (h : o.heeds id peer = false) :
    Silent id peer [o] := List.forall_mem_singleton.mpr h

theorem Silent.append {id peer : UInt32} {later earlier : List Occurrence}
    (h : Silent id peer later) (h' : Silent id peer earlier) : Silent id peer (later ++ earlier) :=
  List.forall_mem_append.mpr ⟨h, h'⟩

/-- The host tried to send nothing but acknowledgements. -/
def Dutiful (lately : List Occurrence) : Prop :=
  ∀ o ∈ lately, ∀ m, o.tried = some m → m.command = .okay

theorem Dutiful.append {later earlier : List Occurrence} (h : Dutiful later)
    (h' : Dutiful earlier) : Dutiful (later ++ earlier) := List.forall_mem_append.mpr ⟨h, h'⟩

theorem not_heeded_append {id : UInt32} {lately : List Occurrence} (h : ¬ Heeded id lately)
    (earlier : List Occurrence) : ¬ Heeded id (lately ++ earlier) := by
  intro hall
  apply h
  intro later o before w hsplit
  apply hall later o (before ++ earlier) w
  rw [hsplit, List.append_assoc]
  rfl

theorem not_heeded_later {id : UInt32} {lately newer : List Occurrence} (h : ¬ Heeded id lately)
    (hs : ∀ peer, Silent id peer newer) : ¬ Heeded id (newer ++ lately) := by
  intro hall
  apply h
  intro later o before w hsplit ho hw hid
  have hmore : newer ++ lately = newer ++ later ++ o :: before := by
    rw [hsplit, List.append_assoc]
  obtain ⟨hsent, a, ha, hheeds⟩ := hall (newer ++ later) o before w hmore ho hw hid
  refine ⟨hsent, a, ?_, hheeds⟩
  rcases List.mem_append.mp ha with ha | ha
  · rw [hs w.arg1 a ha] at hheeds
    cases hheeds
  · exact ha

theorem not_heeded_unsent (id peer : UInt32) (piece : Bytes) (begun : Bool) :
    ¬ Heeded id [unsent ⟨.write, id, peer, piece⟩ begun] := by
  intro hall
  have hsent := (hall [] _ [] ⟨.write, id, peer, piece⟩ rfl rfl rfl rfl).1
  cases hsent

theorem not_heeded_sent (id peer : UInt32) (piece : Bytes) {later : List Occurrence}
    (hs : Silent id peer later) : ¬ Heeded id (later ++ [sent ⟨.write, id, peer, piece⟩]) := by
  intro hall
  obtain ⟨_, a, ha, hheeds⟩ := hall later _ [] ⟨.write, id, peer, piece⟩ rfl rfl rfl rfl
  rw [hs a ha] at hheeds
  cases hheeds

theorem heeds_of_tried {o : Occurrence} {m : Message} (h : o.tried = some m) (id peer : UInt32) :
    o.heeds id peer = false := by
  cases o with
  | sent m' => rfl
  | unsent m' begun => rfl
  | _ => cases h

theorem heeds_arrived {id peer : UInt32} {m : Message}
    (h : m.command = .okay → m.arg0 = peer → m.arg1 ≠ id) (phase : Option Phase) :
    heeds id peer (arrived m phase) = false := by
  rcases phase with _ | _ | _ | _
  · rfl
  · rfl
  · exact decide_eq_false (fun hn => h hn.1 hn.2.1 hn.2.2)
  · rfl

end Occurrence

namespace StreamState

theorem acknowledged_stranger {peer sender : UInt32} {s : StreamState} (h : s.Sound peer)
    (hne : sender ≠ peer) : (s.acknowledged sender).fault ≠ none := by
  have hany : s.peer.any (· ≠ sender) = true := by
    rw [h.2.1, Option.any_some]
    exact decide_eq_true (Ne.symm hne)
  rw [acknowledged, if_pos hany]
  exact Option.some_ne_none _

end StreamState

namespace Connection
open Occurrence

def Writable (id : UInt32) (c : Connection) : Prop :=
  ∃ s peer, c.table.find? id = some s ∧ s.writable id = .ok peer

def Accepting (id peer : UInt32) (c : Connection) : Prop :=
  ∃ s, c.table.find? id = some s ∧ s.writable id = .ok peer

theorem Accepting.writable {id peer : UInt32} {c : Connection} (h : c.Accepting id peer) :
    c.Writable id := by
  obtain ⟨s, hs, hready⟩ := h
  exact ⟨s, peer, hs, hready⟩

/-- The stream is sound, and its peer has still to acknowledge what was sent. -/
def Waiting (id peer : UInt32) (c : Connection) : Prop :=
  ∃ s, c.table.find? id = some s ∧ s.Sound peer ∧ s.awaiting = true

/-- The stream is spoilt, or was closed before what was sent was acknowledged. -/
def Broken (id : UInt32) (c : Connection) : Prop :=
  ∃ s, c.table.find? id = some s ∧ (s.fault ≠ none ∨ s.phase = .closed ∧ s.awaiting = true)

def Since (c after : Connection) (lately : List Occurrence) : Prop := after.past = lately ++ c.past

theorem Since.unique {c after : Connection} {lately lately' : List Occurrence}
    (h : Since c after lately) (h' : Since c after lately') : lately = lately' :=
  List.append_cancel_right (h.symm.trans h')

theorem Since.trans {c mid after : Connection} {earlier later : List Occurrence}
    (h : Since c mid earlier) (h' : Since mid after later) : Since c after (later ++ earlier) := by
  rw [Since, h', h, List.append_assoc]

theorem route_waiting {c : Connection} {id peer : UInt32} (h : c.Waiting id peer) {m : Message}
    (ch : Channel) {table : StreamTable} {ack : Option Message}
    (hr : c.table.route m = .ok (table, ack)) :
    let after : Connection := { c.hear m ch with table := table }
    let o := arrived m ((c.table.find? m.arg1).map StreamState.phase)
    (after.Accepting id peer ∧ ack = none ∧ o.heeds id peer = true) ∨
      (after.Waiting id peer ∨ after.Broken id) ∧ o.heeds id peer = false := by
  intro after o
  obtain ⟨s, hs, hsound, hwaits⟩ := h
  unfold StreamTable.route at hr
  split at hr
  · next hcommand =>
    by_cases hid : m.arg1 = id
    · subst hid
      rw [hs] at hr
      obtain ⟨rfl, rfl⟩ := Prod.mk.inj (Except.ok.inj hr)
      have happly {t : StreamState} (ha : (s.apply m.arg1 m).1 = t) :
          after.table.find? m.arg1 = some t := by
        rw [StreamTable.find?_set, if_pos rfl, hs, Option.map_some, ha]
      obtain hc | hc | hc := hcommand
      · have hstate : s.apply m.arg1 m = (s.acknowledged m.arg0, none) := by
          simp only [StreamState.apply, hc]
        by_cases hpeer : m.arg0 = peer
        · rw [hpeer, StreamState.acknowledged_sound hsound hwaits] at hstate
          have hready : StreamState.writable m.arg1 { s with awaiting := false } = .ok peer :=
            StreamState.writable_iff.mpr ⟨hsound, rfl⟩
          have hheeds : o.heeds m.arg1 peer = true := by
            simp only [o, hs, Option.map_some, hsound.1, heeds, hc, hpeer, and_self, decide_true]
          exact .inl ⟨⟨_, happly (congrArg Prod.fst hstate), hready⟩, congrArg Prod.snd hstate,
            hheeds⟩
        · have hspoilt := StreamState.acknowledged_stranger hsound hpeer
          refine .inr ⟨.inr ⟨_, happly (congrArg Prod.fst hstate), .inl hspoilt⟩, ?_⟩
          exact heeds_arrived (fun _ ha => absurd ha hpeer) _
      · have hstate : (s.apply m.arg1 m).1 = s.closedBy m.arg0 := by
          simp only [StreamState.apply, hc]
        refine .inr ⟨.inr ⟨_, happly hstate, .inr ⟨rfl, hwaits⟩⟩, heeds_arrived ?_ _⟩
        rw [hc]
        rintro ⟨⟩
      · have hstate : (s.apply m.arg1 m).1 = { s with buffer := s.buffer ++ m.payload } := by
          simp only [StreamState.apply, hc, StreamState.supplied_sound hsound]
        refine .inr ⟨.inl ⟨_, happly hstate, hsound, hwaits⟩, heeds_arrived ?_ _⟩
        rw [hc]
        rintro ⟨⟩
    · refine .inr ⟨.inl ⟨s, ?_, hsound, hwaits⟩, heeds_arrived (fun _ _ => hid) _⟩
      split at hr
      · cases hr
        rw [StreamTable.find?_set, if_neg (Ne.symm hid)]
        exact hs
      · cases hr
        exact hs
  · cases hr

theorem acknowledge_waiting {c : Connection} {id peer : UInt32}
    (h : c.Waiting id peer ∨ c.Broken id) (ack : Message) (deadline : Deadline) :
    (c.acknowledge ack deadline).Waiting id peer ∨ (c.acknowledge ack deadline).Broken id := by
  have hs := (c.send_weight ack
    (c.deadline (deadline.remainingOrFloor Deadline.transferFloor c.now))).2.1
  have hsent {mid : Connection} (ht : mid.table = c.table) :
      mid.Waiting id peer ∨ mid.Broken id := by
    unfold Waiting Broken
    rw [ht]
    exact h
  unfold acknowledge
  split
  · next hr =>
    rw [hr] at hs
    exact hsent hs
  · next f mid hr =>
    rw [hr] at hs
    have hmid := hsent hs
    unfold spoil
    split
    · next t ht =>
      by_cases hid : id = ack.arg0
      · refine .inr ⟨{ t with fault := some (.unacknowledged f) }, ?_, .inl nofun⟩
        rw [setStream, StreamTable.find?_set, if_pos hid, ht, Option.map_some]
      · unfold Waiting Broken
        rw [setStream, StreamTable.find?_set, if_neg hid]
        exact hmid
    · exact hmid

theorem takeIn_waiting {c : Connection} {id peer : UInt32} (h : c.Waiting id peer)
    (deadline : Deadline) :
    match c.takeIn deadline with
    | .ok _ after => ∃ lately, Since c after lately ∧
        (after.Accepting id peer ∧ (∃ a, lately = [a] ∧ a.heeds id peer = true) ∨
          (after.Waiting id peer ∨ after.Broken id) ∧ Silent id peer lately)
    | .error _ after => ∃ lately, Since c after lately ∧ Silent id peer lately := by
  unfold takeIn
  cases hr : c.channel.receive deadline with
  | error e ch =>
    by_cases ht : e.isTimeout = true
    · simp only [ht, if_true]
      exact ⟨[], rfl, .inr ⟨.inl h, silent_nil id peer⟩⟩
    · simp only [ht, Bool.false_eq_true, if_false]
      exact ⟨[], rfl, silent_nil id peer⟩
  | ok m ch =>
    dsimp only
    cases hroute : c.table.route m with
    | error e =>
      have hnot := (StreamTable.command_of_route_error hroute).1
      exact ⟨[_], rfl, silent_singleton (heeds_arrived (fun hc => absurd hc hnot) _)⟩
    | ok routed =>
      obtain ⟨table, ack⟩ := routed
      have hw := route_waiting h ch hroute
      cases ack with
      | none =>
        refine ⟨[.arrived m ((c.table.find? m.arg1).map StreamState.phase)], rfl, ?_⟩
        apply hw.imp
        · rintro ⟨hready, _, hheeds⟩
          exact ⟨hready, _, rfl, hheeds⟩
        · exact fun hw => ⟨hw.1, silent_singleton hw.2⟩
      | some ack =>
        obtain ⟨hstate, hsilent⟩ := hw.resolve_left (fun hw => nomatch hw.2.1)
        obtain ⟨o, ho, hpast⟩ :=
          past_acknowledge ack deadline { c.hear m ch with table := table }
        refine ⟨[o, .arrived m ((c.table.find? m.arg1).map StreamState.phase)], hpast, .inr ⟨?_, ?_⟩⟩
        · exact acknowledge_waiting hstate ack deadline
        · exact (silent_singleton (heeds_of_tried ho id peer)).append
            (silent_singleton hsilent)

theorem dutiful_takeIn (deadline : Deadline) (c : Connection) :
    ∃ lately, Since c (final (c.takeIn deadline)) lately ∧ Dutiful lately := by
  have harrived (m : Message) (phase : Option Phase) : Dutiful [.arrived m phase] :=
    List.forall_mem_singleton.mpr nofun
  unfold takeIn
  split
  · split
    · exact ⟨[], rfl, nofun⟩
    · exact ⟨[], rfl, nofun⟩
  · next m ch _ =>
    split
    · exact ⟨[_], rfl, harrived m _⟩
    · exact ⟨[_], rfl, harrived m _⟩
    · next table ack hroute =>
      obtain ⟨peer, rfl⟩ := ack_of_route hroute
      obtain ⟨o, ho, hpast⟩ :=
        past_acknowledge ⟨.okay, m.arg1, peer, []⟩ deadline { c.hear m ch with table := table }
      have hack : Dutiful [o] := by
        intro o' ho' w hw
        rw [List.mem_singleton.mp ho', ho] at hw
        cases hw
        rfl
      exact ⟨[o, _], hpast, hack.append (harrived m _)⟩

theorem Waits.dutiful {deadline : Deadline} {c after : Connection} (h : Waits deadline c after) :
    ∃ lately, Since c after lately ∧ Dutiful lately := by
  induction h with
  | refl => exact ⟨[], rfl, nofun⟩
  | tail _ hm ih =>
    subst hm
    obtain ⟨earlier, he, hearlier⟩ := ih
    obtain ⟨later, hl, hlater⟩ := dutiful_takeIn deadline _
    exact ⟨_, he.trans hl, hlater.append hearlier⟩

theorem waitFor_writable {c : Connection} {id : UInt32} (h : c.Writable id) (deadline : Deadline) :
    c.waitFor id deadline (.okay id) (StreamState.acknowledging id) = .ok () c := by
  obtain ⟨s, peer, hs, hready⟩ := h
  obtain ⟨hsound, hidle⟩ := StreamState.writable_iff.mp hready
  have hlook : s.acknowledging id = .ready () s := by
    rw [StreamState.acknowledging_sound hsound, hidle]
    rfl
  have hinspect : c.inspect id (StreamState.acknowledging id) = some (.ok () c) := by
    rw [inspect_sound hs hsound, hlook]
    dsimp only
    rw [setStream, StreamTable.set_eq_self hs]
  rw [waitFor, hinspect]

theorem waitFor_broken {c : Connection} {id : UInt32} (h : c.Broken id) (deadline : Deadline) :
    ∃ e, c.waitFor id deadline (.okay id) (StreamState.acknowledging id) = .error e c := by
  obtain ⟨s, hs, hbroken⟩ := h
  have hinspect : ∃ e, c.inspect id (StreamState.acknowledging id) = some (.error e c) := by
    cases hf : s.fault with
    | some fault =>
      refine ⟨.protocol (.stream id fault), ?_⟩
      simp only [inspect, hs, hf]
    | none =>
      obtain hspoilt | ⟨hclosed, hwaits⟩ := hbroken
      · exact absurd hf hspoilt
      · refine ⟨.streamClosed id, ?_⟩
        simp only [inspect, hs, hf, StreamState.acknowledging, hwaits, hclosed, Bool.not_true,
          Bool.false_eq_true, if_false, if_true]
  obtain ⟨e, hinspect⟩ := hinspect
  refine ⟨e, ?_⟩
  rw [waitFor, hinspect]

/-- The acknowledgement comes and is the last thing on record, or the wait fails and none has
come. -/
theorem waitFor_waiting {c : Connection} {id peer : UInt32} (h : c.Waiting id peer)
    (deadline : Deadline) :
    match c.waitFor id deadline (.okay id) (StreamState.acknowledging id) with
    | .ok _ after => after.Accepting id peer ∧ ∃ a earlier, Since c after (a :: earlier) ∧
        a.heeds id peer = true ∧ Silent id peer earlier
    | .error _ after => ∃ lately, Since c after lately ∧ Silent id peer lately := by
  fun_induction waitFor id deadline (.okay id) (StreamState.acknowledging id) c with
  | case1 c said hs =>
    obtain ⟨s, hfound, hsound, hwaits⟩ := h
    rw [inspect_sound hfound hsound, StreamState.acknowledging_sound hsound, if_pos hwaits] at hs
    cases hs
  | case2 c hs he => exact ⟨[], rfl, silent_nil id peer⟩
  | case3 c hs he u mid ht ih =>
    have hin := takeIn_waiting h deadline
    rw [ht] at hin
    obtain ⟨lately, hpast, ⟨hready, a, rfl, hheeds⟩ | ⟨hwaits | hbroken, hsilent⟩⟩ := hin
    · rw [waitFor_writable hready.writable]
      exact ⟨hready, a, [], hpast, hheeds, silent_nil id peer⟩
    · have hrest := ih hwaits
      cases hr : mid.waitFor id deadline (.okay id) (StreamState.acknowledging id) with
      | ok u after =>
        rw [hr] at hrest
        obtain ⟨hready, a, later, hlater, hheeds, hquiet⟩ := hrest
        exact ⟨hready, a, _, hpast.trans hlater, hheeds, hquiet.append hsilent⟩
      | error e after =>
        rw [hr] at hrest
        obtain ⟨later, hlater, hquiet⟩ := hrest
        exact ⟨_, hpast.trans hlater, hquiet.append hsilent⟩
    · obtain ⟨e, hr⟩ := waitFor_broken hbroken deadline
      rw [hr]
      exact ⟨lately, hpast, hsilent⟩
  | case4 c hs he e mid ht =>
    have hin := takeIn_waiting h deadline
    rw [ht] at hin
    exact hin

/-- A run that writes leaves the stream ready for more, or a local file fails, or some piece is not
heeded. -/
def Mindful (id : UInt32) (c : Connection) (r : EStateM.Result BridgeError Connection α) : Prop :=
  match r with
  | .ok _ after => after.Writable id ∧ ∃ lately, Since c after lately
  | .error e after => ∃ lately, Since c after lately ∧
      ((∃ f, e = .localFile f) ∨ ¬ Heeded id lately)

theorem Mindful.after {id : UInt32} {c mid : Connection} {earlier : List Occurrence}
    (hp : Since c mid earlier) {r : EStateM.Result BridgeError Connection α}
    (h : Mindful id mid r) : Mindful id c r := by
  cases r with
  | ok a after =>
    obtain ⟨hready, lately, hlately⟩ := h
    exact ⟨hready, _, hp.trans hlately⟩
  | error e after =>
    obtain ⟨lately, hlately, hcause⟩ := h
    exact ⟨_, hp.trans hlately, hcause.imp_right (fun hn => not_heeded_append hn earlier)⟩

theorem mindful_writePiece {c : Connection} {id : UInt32} (h : c.Writable id) (deadline : Deadline)
    (piece : Bytes) : Mindful id c (c.writePiece id deadline piece) := by
  obtain ⟨s, peer, hs, hready⟩ := h
  unfold writePiece sendPiece
  simp only [hs, hready]
  rcases c.send_cases ⟨.write, id, peer, piece⟩ deadline with ⟨ch, hsend⟩ | ⟨f, ch, begun, hsend⟩
  · rw [hsend]
    dsimp only
    -- The stream waits from here on, and everything later is told by `waitFor_waiting`.
    let sent : Connection :=
      ({ c with channel := ch }.note (.sent ⟨.write, id, peer, piece⟩)).setStream id
        { s with awaiting := true }
    have hp : Since c sent [.sent ⟨.write, id, peer, piece⟩] := rfl
    have hwaiting : sent.Waiting id peer := by
      refine ⟨{ s with awaiting := true }, ?_, (StreamState.writable_iff.mp hready).1, rfl⟩
      change (c.table.set id _).find? id = _
      rw [StreamTable.find?_set, if_pos rfl, hs, Option.map_some]
    have hw := waitFor_waiting hwaiting deadline
    change Mindful id c (sent.waitFor id deadline (.okay id) (StreamState.acknowledging id))
    cases hr : sent.waitFor id deadline (.okay id) (StreamState.acknowledging id) with
    | ok u after =>
      rw [hr] at hw
      obtain ⟨hready, a, earlier, hlately, _⟩ := hw
      exact ⟨hready.writable, _, hp.trans hlately⟩
    | error e after =>
      rw [hr] at hw
      obtain ⟨lately, hlately, hsilent⟩ := hw
      exact ⟨_, hp.trans hlately, .inr (not_heeded_sent id peer piece hsilent)⟩
  · rw [hsend]
    exact ⟨[.unsent ⟨.write, id, peer, piece⟩ begun], rfl,
      .inr (not_heeded_unsent id peer piece begun)⟩

theorem mindful_writePieces {c : Connection} {id : UInt32} (h : c.Writable id)
    (deadline : Deadline) (pieces : List Bytes) :
    Mindful id c (c.writePieces id deadline pieces) := by
  induction pieces generalizing c with
  | nil => exact ⟨h, [], rfl⟩
  | cons piece rest ih =>
    have hp := mindful_writePiece h deadline piece
    unfold writePieces
    cases hr : c.writePiece id deadline piece with
    | ok u mid =>
      rw [hr] at hp
      obtain ⟨hready, lately, hlately⟩ := hp
      exact (ih hready).after hlately
    | error e mid =>
      rw [hr] at hp
      exact hp

theorem awaited_of_writable {c : Connection} {id : UInt32} (h : c.Writable id) :
    c.awaited id = 0 := by
  obtain ⟨s, peer, hs, hready⟩ := h
  rw [awaited, hs, Option.map_some, (StreamState.writable_iff.mp hready).2]
  rfl

theorem Step.since {c after : Connection} (h : c.Step after) : ∃ lately, Since c after lately := by
  cases h with
  | channel channel => exact ⟨[], rfl⟩
  | searched h => exact ⟨[], rfl⟩
  | entered h => exact ⟨[_], rfl⟩
  | asked payload h => exact ⟨[_], rfl⟩
  | unsent m begun => exact ⟨[_], rfl⟩
  | routed h => exact ⟨[_], rfl⟩
  | strayed h => exact ⟨[_], rfl⟩
  | acknowledged id peer => exact ⟨[_], rfl⟩
  | spoilt id fault =>
    unfold spoil
    split <;> exact ⟨[], rfl⟩
  | wrote piece hs hp => exact ⟨[_], rfl⟩
  | took hs hr => exact ⟨[_], rfl⟩
  | removed id => exact ⟨[_], rfl⟩
  | parted id peer => exact ⟨[_], rfl⟩

theorem Moves.since {c after : Connection} (h : c.Moves after) :
    ∃ lately, Since c after lately := by
  have hsteps := h.steps
  clear h
  induction hsteps with
  | refl => exact ⟨[], rfl⟩
  | tail _ hstep ih =>
    obtain ⟨earlier, he⟩ := ih
    obtain ⟨later, hl⟩ := hstep.since
    exact ⟨_, he.trans hl⟩

/-- A stream that is shut stays so, and nothing on it is acknowledged. -/
def Calm (id : UInt32) (c after : Connection) : Prop :=
  c.Shut id → after.Shut id ∧ ∃ lately, Since c after lately ∧ ∀ peer, Silent id peer lately

theorem Calm.refl (id : UInt32) (c : Connection) : Calm id c c :=
  fun h => ⟨h, [], rfl, fun peer => silent_nil id peer⟩

theorem Calm.trans {id : UInt32} {c mid after : Connection} (h : Calm id c mid)
    (h' : Calm id mid after) : Calm id c after := by
  intro hc
  obtain ⟨hmid, earlier, he, hquiet⟩ := h hc
  obtain ⟨hafter, later, hl, hquiet'⟩ := h' hmid
  exact ⟨hafter, _, he.trans hl, fun peer => (hquiet' peer).append (hquiet peer)⟩

theorem heeds_shut {c : Connection} {id : UInt32} (h : c.Shut id) (m : Message) (peer : UInt32) :
    heeds id peer (.arrived m ((c.table.find? m.arg1).map StreamState.phase)) = false := by
  by_cases hid : m.arg1 = id
  · cases hs : c.table.find? m.arg1 with
    | none => rfl
    | some s =>
      rw [Option.map_some, h s (hid ▸ hs)]
      rfl
  · exact heeds_arrived (fun _ _ => hid) _

theorem calm_takeIn (id : UInt32) (deadline : Deadline) (c : Connection) :
    Calm id c (final (c.takeIn deadline)) := by
  intro hc
  refine ⟨(did_takeIn id deadline c).shut hc, ?_⟩
  unfold takeIn
  cases c.channel.receive deadline with
  | error e ch =>
    refine ⟨[], ?_, fun peer => silent_nil id peer⟩
    by_cases ht : e.isTimeout = true
    · simp only [ht, if_true]
      rfl
    · simp only [ht, Bool.false_eq_true, if_false]
      rfl
  | ok m ch =>
    have hsilent (peer : UInt32) := silent_singleton (heeds_shut hc m peer)
    dsimp only
    split
    · exact ⟨[_], rfl, hsilent⟩
    · exact ⟨[_], rfl, hsilent⟩
    · next table ack hroute =>
      obtain ⟨o, ho, hpast⟩ := past_acknowledge ack deadline { c.hear m ch with table := table }
      refine ⟨[o, _], hpast, fun peer => ?_⟩
      exact (silent_singleton (heeds_of_tried ho id peer)).append (hsilent peer)

theorem Waits.calm {deadline : Deadline} {c after : Connection} (h : Waits deadline c after)
    (id : UInt32) : Calm id c after := by
  induction h with
  | refl => exact .refl id c
  | tail _ hm ih =>
    subst hm
    exact ih.trans (calm_takeIn id deadline _)

theorem calm_readBy (id : UInt32) (length : Nat) (deadline : Deadline) (c : Connection) :
    Calm id c (final (c.readBy id length deadline)) := by
  have hw := c.readBy_waits id length deadline
  cases h : c.readBy id length deadline with
  | error e after =>
    rw [h] at hw
    exact hw.calm id
  | ok bytes after =>
    rw [h] at hw
    obtain ⟨mid, taken, hwaits, hi, rfl⟩ := hw
    obtain ⟨s, s', hs, hr, rfl⟩ := inspect_ok hi
    refine (hwaits.calm id).trans fun hmid => ⟨?_, [.taken id bytes], rfl, ?_⟩
    · have hstate := (StreamState.supplying_ready hr).2.1
      refine (did_setStream hs (fun hp => ?_)).shut hmid
      rw [hstate]
      exact hp
    · exact fun peer => silent_singleton rfl

end Connection
end DroidHost
