import DroidHost.Proofs.Heeding

/-! The course of one stream, from the request to open it to its removal, in whatever order
messages, reads and writes come. -/
namespace DroidHost

def Phase.next : Command → Phase → Phase
  | .okay, .pending => .opened
  | .close, _ => .closed
  | _, phase => phase

theorem Phase.next_closed (command : Command) : Phase.next command .closed = .closed := by
  cases command <;> rfl

theorem Phase.of_next_pending {command : Command} {phase : Phase}
    (h : phase.next command = .pending) :
    phase = .pending ∧ command ≠ .okay ∧ command ≠ .close := by
  cases command <;> cases phase <;> simp_all [Phase.next]

/-- What can happen to the state of a stream. -/
inductive Change
  | heard (m : Message)
  /-- A write begins, if the stream may be written. -/
  | begun
  | sent
  /-- What a write had to send did not get out. -/
  | unsent
  /-- A read takes so many bytes, or all for zero, if they are there. -/
  | drained (length : Nat)
  /-- The device could not be told what it has to hear. -/
  | spoilt (fault : StreamFault)
  deriving DecidableEq, Repr

/-- A stream, and the writes on it that have begun and not yet sent. -/
structure Course where
  state : StreamState := .fresh
  sending : Nat := 0
  deriving DecidableEq, Repr

namespace Course

def begin (id : UInt32) (c : Course) : Course :=
  match c.state.writable id with
  | .ok _ => ⟨{ c.state with awaiting := true }, c.sending + 1⟩
  | .error _ => c

def giveUp (c : Course) : Course :=
  if c.sending = 0 then c else ⟨{ c.state with awaiting := false }, c.sending - 1⟩

def drain (id : UInt32) (length : Nat) (c : Course) : Course :=
  match c.state.supplying id length with
  | .ready _ s => { c with state := s }
  | _ => c

end Course

namespace Change

def apply (id : UInt32) : Change → Course → Course
  | heard m, c => { c with state := (c.state.apply id m).1 }
  | begun, c => c.begin id
  | sent, c => { c with sending := c.sending - 1 }
  | unsent, c => c.giveUp
  | drained length, c => c.drain id length
  | spoilt fault, c => { c with state := { c.state with fault := some fault } }

/-- The device's id for the stream, as an answer to the request tells it. -/
def answerer : Change → Option UInt32
  | heard m => if m.command = .okay ∨ m.command = .close then some m.arg0 else none
  | _ => none

def phase : Change → Phase → Phase
  | heard m => Phase.next m.command
  | _ => id

end Change

theorem Change.phase_closed (change : Change) : change.phase .closed = .closed := by
  cases change with
  | heard m => exact Phase.next_closed m.command
  | _ => rfl

def Course.after (id : UInt32) (c : Course) (changes : List Change) : Course :=
  changes.foldl (fun c change => change.apply id c) c

namespace StreamState

theorem peer_apply_or (s : StreamState) (id : UInt32) (m : Message) :
    (s.apply id m).1.peer = s.peer.or (Change.heard m).answerer := by
  cases hp : s.peer with
  | some peer => rw [peer_apply hp, Option.some_or]
  | none =>
    rw [Option.none_or, Change.answerer]
    unfold apply
    split
    · next hc =>
      rw [if_pos (.inl hc)]
      unfold acknowledged
      rw [hp, Option.any_none, if_neg Bool.false_ne_true]
      split <;> rfl
    · next hc =>
      rw [if_pos (.inr hc), closedBy, hp, Option.getD_none]
    · next hc =>
      rw [if_neg (by rw [hc]; decide)]
      exact (s.supplied_kept id m.payload).1.trans hp
    · next ho hc _ => rw [if_neg (not_or_intro ho hc), hp]

theorem phase_apply {s : StreamState} (hu : s.Unanswered) (id : UInt32) (m : Message) :
    (s.apply id m).1.phase = s.phase.next m.command := by
  unfold apply
  split
  · next hc =>
    rw [hc]
    unfold acknowledged
    cases hp : s.phase with
    | pending =>
      obtain ⟨hpeer, ha⟩ := hu hp
      rw [hpeer, Option.any_none, if_neg Bool.false_ne_true, if_pos ha]
      rfl
    | opened | closed =>
      repeat' split
      all_goals first | rfl | contradiction
  · next hc =>
    rw [hc]
    rfl
  · next hc =>
    rw [hc]
    exact (s.supplied_kept id m.payload).2.1
  · next ho hc _ =>
    unfold Phase.next
    split
    · next h _ => exact absurd h ho
    · next h => exact absurd h hc
    · rfl

theorem unanswered_apply {s : StreamState} (hu : s.Unanswered) (id : UInt32) (m : Message) :
    (s.apply id m).1.Unanswered := by
  intro hp
  rw [phase_apply hu] at hp
  obtain ⟨hphase, ho, hc⟩ := Phase.of_next_pending hp
  obtain ⟨hpeer, ha⟩ := hu hphase
  refine ⟨?_, ?_⟩
  · rw [peer_apply_or, hpeer, Change.answerer, if_neg (not_or_intro ho hc), Option.none_or]
  · unfold apply
    split
    · contradiction
    · contradiction
    · exact (s.supplied_kept id m.payload).2.2.trans ha
    · exact ha

theorem fault_apply {s : StreamState} (h : s.fault.isSome = true) (id : UInt32) (m : Message) :
    (s.apply id m).1.fault.isSome = true := by
  unfold apply
  split
  · unfold acknowledged
    split
    · rfl
    · split
      · exact h
      · rfl
  · exact h
  · unfold supplied
    split
    · exact h
    · exact h
    · rfl
  · exact h

end StreamState

namespace Course

/-- What the parts of a stream's state mean while nobody has answered, and once it is open. -/
structure Sound (c : Course) : Prop where
  met : c.state.Met
  unanswered : c.state.Unanswered
  unfilled : c.state.phase = .pending → c.state.buffer = []
  unwritten : c.state.phase = .pending → c.sending = 0

theorem sound_fresh : Sound {} where
  met := StreamState.met_fresh
  unanswered := fun _ => ⟨rfl, rfl⟩
  unfilled := fun _ => rfl
  unwritten := fun _ => rfl

theorem Sound.heard {c : Course} (h : c.Sound) (id : UInt32) (m : Message) :
    Sound { c with state := (c.state.apply id m).1 } where
  met := StreamState.met_apply h.met id m
  unanswered := StreamState.unanswered_apply h.unanswered id m
  unfilled := by
    intro hp
    rw [StreamState.phase_apply h.unanswered] at hp
    obtain ⟨hphase, _⟩ := Phase.of_next_pending hp
    rw [StreamState.buffer_apply h.met, h.unfilled hphase, hphase,
      if_neg (fun hopen => nomatch hopen.1)]
    rfl
  unwritten := by
    intro hp
    rw [StreamState.phase_apply h.unanswered] at hp
    exact h.unwritten (Phase.of_next_pending hp).1

/-- All that the device has a say in stays as it is. -/
structure Quiet (c after : Course) : Prop where
  peer : after.state.peer = c.state.peer
  phase : after.state.phase = c.state.phase
  buffer : after.state.buffer <:+ c.state.buffer
  fault : c.state.fault.isSome = true → after.state.fault.isSome = true
  idle : c.state.phase = .pending → c.sending = 0 →
    after.state.awaiting = c.state.awaiting ∧ after.sending = 0

theorem Quiet.refl (c : Course) : Quiet c c :=
  ⟨rfl, rfl, List.suffix_refl _, fun h => h, fun _ h => ⟨rfl, h⟩⟩

theorem quiet_begin (id : UInt32) (c : Course) : Quiet c (c.begin id) := by
  unfold begin
  split
  · next peer hw =>
    refine ⟨rfl, rfl, List.suffix_refl _, fun h => h, ?_⟩
    intro hp
    rw [(StreamState.of_writable hw).1] at hp
    cases hp
  · exact .refl c

theorem quiet_giveUp (c : Course) : Quiet c c.giveUp := by
  unfold giveUp
  split
  · exact .refl c
  · next hsending =>
    exact ⟨rfl, rfl, List.suffix_refl _, fun h => h, fun _ h => absurd h hsending⟩

theorem quiet_drain (id : UInt32) (length : Nat) (c : Course) : Quiet c (c.drain id length) := by
  unfold drain
  split
  · next bytes s hr =>
    obtain ⟨hfront, hs, _, _⟩ := StreamState.supplying_ready hr
    rw [hs]
    exact ⟨rfl, rfl, ⟨bytes, hfront.symm⟩, fun h => h, fun _ h => ⟨rfl, h⟩⟩
  · exact .refl c

theorem quiet_change {change : Change} (h : ∀ m, change ≠ .heard m) (id : UInt32) (c : Course) :
    Quiet c (change.apply id c) := by
  cases change with
  | heard m => exact absurd rfl (h m)
  | begun => exact quiet_begin id c
  | sent =>
    refine ⟨rfl, rfl, List.suffix_refl _, fun h => h, ?_⟩
    intro _ hsending
    exact ⟨rfl, Nat.sub_eq_zero_of_le (by omega)⟩
  | unsent => exact quiet_giveUp c
  | drained length => exact quiet_drain id length c
  | spoilt fault => exact ⟨rfl, rfl, List.suffix_refl _, fun _ => rfl, fun _ h => ⟨rfl, h⟩⟩

theorem Sound.quiet {c after : Course} (h : c.Sound) (hq : Quiet c after) : after.Sound where
  met := by
    intro hp
    rw [hq.peer]
    exact h.met (hq.phase ▸ hp)
  unanswered := by
    intro hp
    rw [hq.phase] at hp
    obtain ⟨hpeer, ha⟩ := h.unanswered hp
    exact ⟨hq.peer.trans hpeer, (hq.idle hp (h.unwritten hp)).1.trans ha⟩
  unfilled := by
    intro hp
    rw [hq.phase] at hp
    apply List.suffix_nil.mp
    rw [← h.unfilled hp]
    exact hq.buffer
  unwritten := by
    intro hp
    rw [hq.phase] at hp
    exact (hq.idle hp (h.unwritten hp)).2

/-- Each fact of a stream is settled by what it was before and by the change alone. -/
structure Follows (change : Change) (c after : Course) : Prop where
  sound : after.Sound
  peer : after.state.peer = c.state.peer.or change.answerer
  phase : after.state.phase = change.phase c.state.phase
  buffer : c.state.phase = .closed → after.state.buffer <:+ c.state.buffer
  fault : c.state.fault.isSome = true → after.state.fault.isSome = true

theorem Sound.follows_quiet {c after : Course} (h : c.Sound) (hq : Quiet c after) {change : Change}
    (ha : change.answerer = none) (hp : change.phase = id) : Follows change c after := by
  refine ⟨h.quiet hq, ?_, ?_, fun _ => hq.buffer, hq.fault⟩
  · rw [hq.peer, ha, Option.or_none]
  · rw [hq.phase, hp, id]

theorem Sound.follows {c : Course} (h : c.Sound) (id : UInt32) (change : Change) :
    Follows change c (change.apply id c) := by
  cases change with
  | heard m =>
    refine ⟨h.heard id m, c.state.peer_apply_or id m, StreamState.phase_apply h.unanswered id m, ?_,
      fun hf => StreamState.fault_apply hf id m⟩
    intro hclosed
    have hsame : (c.state.apply id m).1.buffer = c.state.buffer := by
      rw [StreamState.buffer_apply h.met, hclosed, if_neg (fun hopen => nomatch hopen.1),
        List.append_nil]
    exact ⟨[], hsame⟩
  | _ => exact h.follows_quiet (quiet_change (by rintro m ⟨⟩) id c) rfl rfl

theorem Sound.after {c : Course} (h : c.Sound) (id : UInt32) (changes : List Change) :
    (c.after id changes).Sound := by
  induction changes generalizing c with
  | nil => exact h
  | cons change rest ih => exact ih (h.follows id change).sound

theorem after_append (id : UInt32) (c : Course) (first second : List Change) :
    c.after id (first ++ second) = (c.after id first).after id second :=
  List.foldl_append

theorem Sound.peer_after {c : Course} (h : c.Sound) (id : UInt32) (changes : List Change) :
    (c.after id changes).state.peer = c.state.peer.or (changes.findSome? Change.answerer) := by
  induction changes generalizing c with
  | nil =>
    rw [List.findSome?_nil, Option.or_none]
    rfl
  | cons change rest ih =>
    have hf := h.follows id change
    calc (c.after id (change :: rest)).state.peer
        = (change.apply id c).state.peer.or (rest.findSome? Change.answerer) := ih hf.sound
      _ = c.state.peer.or (change.answerer.or (rest.findSome? Change.answerer)) := by
        rw [hf.peer, Option.or_assoc]
      _ = c.state.peer.or ((change :: rest).findSome? Change.answerer) := by
        rw [List.findSome?_cons]
        cases change.answerer <;> rfl

theorem Sound.closed_after {c : Course} (h : c.Sound) (hclosed : c.state.phase = .closed)
    (id : UInt32) (changes : List Change) :
    (c.after id changes).state.phase = .closed ∧
      (c.after id changes).state.buffer <:+ c.state.buffer := by
  induction changes generalizing c with
  | nil => exact ⟨hclosed, List.suffix_refl _⟩
  | cons change rest ih =>
    have hf := h.follows id change
    have hstill : (change.apply id c).state.phase = .closed := by
      rw [hf.phase, hclosed, Change.phase_closed]
    obtain ⟨hphase, hbuffer⟩ := ih hf.sound hstill
    exact ⟨hphase, hbuffer.trans (hf.buffer hclosed)⟩

theorem Sound.fault_after {c : Course} (h : c.Sound) (hf : c.state.fault.isSome = true)
    (id : UInt32) (changes : List Change) :
    (c.after id changes).state.fault.isSome = true := by
  induction changes generalizing c with
  | nil => exact hf
  | cons change rest ih =>
    have hfollows := h.follows id change
    exact ih hfollows.sound (hfollows.fault hf)

/-- A stream comes from one state to another, with no write begun and not sent in either. -/
def Reaches (id : UInt32) (s s' : StreamState) : Prop :=
  ∃ changes, Course.after id ⟨s, 0⟩ changes = ⟨s', 0⟩

theorem Reaches.refl (id : UInt32) (s : StreamState) : Reaches id s s := ⟨[], rfl⟩

theorem Reaches.trans {id : UInt32} {s s' s'' : StreamState} (h : Reaches id s s')
    (h' : Reaches id s' s'') : Reaches id s s'' := by
  obtain ⟨first, hf⟩ := h
  obtain ⟨second, hs⟩ := h'
  exact ⟨first ++ second, by rw [after_append, hf, hs]⟩

theorem reaches_apply (id : UInt32) (m : Message) (s : StreamState) :
    Reaches id s (s.apply id m).1 := ⟨[.heard m], rfl⟩

theorem reaches_spoilt (id : UInt32) (fault : StreamFault) (s : StreamState) :
    Reaches id s { s with fault := some fault } := ⟨[.spoilt fault], rfl⟩

theorem reaches_written {id peer : UInt32} {s : StreamState} (h : s.writable id = .ok peer) :
    Reaches id s { s with awaiting := true } := by
  refine ⟨[.begun, .sent], ?_⟩
  change Change.apply id .sent (begin id ⟨s, 0⟩) = _
  simp only [begin, h]
  rfl

theorem reaches_drained {id : UInt32} {length : Nat} {bytes : Bytes} {s s' : StreamState}
    (h : s.supplying id length = .ready bytes s') : Reaches id s s' := by
  refine ⟨[.drained length], ?_⟩
  change drain id length ⟨s, 0⟩ = _
  simp only [drain, h]

end Course

namespace Connection

/-- The stream with an id goes on, or there was none. -/
def Continues (id : UInt32) (c after : Connection) : Prop :=
  match c.table.find? id with
  | none => ∀ s, after.table.find? id = some s → s = .fresh
  | some s => ∃ s', after.table.find? id = some s' ∧ Course.Reaches id s s'

theorem continues_of_eq {id : UInt32} {c after : Connection}
    (h : after.table.find? id = c.table.find? id) : Continues id c after := by
  unfold Continues
  split
  · next hn =>
    intro s hs
    rw [h, hn] at hs
    cases hs
  · next s hs => exact ⟨s, h.trans hs, .refl id s⟩

theorem continues_set {id k : UInt32} {c after : Connection} {s s' : StreamState}
    (hs : c.table.find? k = some s) (ht : after.table = c.table.set k s')
    (hr : Course.Reaches k s s') : Continues id c after := by
  have hfound : after.table.find? id = if id = k then some s' else c.table.find? id := by
    rw [ht, StreamTable.find?_set, hs, Option.map_some]
  by_cases hk : id = k
  · subst hk
    rw [if_pos rfl] at hfound
    unfold Continues
    rw [hs]
    exact ⟨s', hfound, hr⟩
  · rw [if_neg hk] at hfound
    exact continues_of_eq hfound

/-- No step does anything else to a stream than what its course allows, but one that removes it. -/
theorem Step.continues {c after : Connection} (h : c.Step after) (id : UInt32) :
    after = c.remove id ∨ Continues id c after := by
  cases h with
  | channel ch => exact .inr (continues_of_eq rfl)
  | searched ha => exact .inr (continues_of_eq (StreamTable.find?_of_allocate ha id))
  | @entered k table ha =>
    right
    have hfound : ({ c with table := table }.enter k).table.find? id =
        if id = k then some .fresh else c.table.find? id := by
      rw [enter, note, StreamTable.find?_insert, StreamTable.find?_of_allocate ha]
    by_cases hk : id = k
    · -- The id was free, so no stream is put out of its place.
      subst hk
      have hfree : c.table.find? id = none := StreamTable.find?_probe ha
      unfold Continues
      rw [hfree]
      intro s hs
      rw [hfound, if_pos rfl] at hs
      exact (Option.some.inj hs).symm
    · rw [if_neg hk] at hfound
      exact continues_of_eq hfound
  | asked payload hs => exact .inr (continues_of_eq rfl)
  | unsent m begun => exact .inr (continues_of_eq rfl)
  | @routed m table ack hr =>
    right
    unfold StreamTable.route at hr
    split at hr
    · split at hr
      · next s hs =>
        cases hr
        exact continues_set hs rfl (Course.reaches_apply m.arg1 m s)
      · cases hr
        exact continues_of_eq rfl
    · cases hr
  | strayed hr => exact .inr (continues_of_eq rfl)
  | acknowledged k peer => exact .inr (continues_of_eq rfl)
  | spoilt k fault =>
    right
    unfold spoil
    split
    · next s hs => exact continues_set hs rfl (Course.reaches_spoilt k fault s)
    · exact continues_of_eq rfl
  | @wrote k peer s piece hs hp => exact .inr (continues_set hs rfl (Course.reaches_written hp))
  | @took k length bytes s s' hs hr =>
    exact .inr (continues_set hs rfl (Course.reaches_drained hr))
  | removed k =>
    by_cases hk : id = k
    · subst hk
      exact .inl rfl
    · right
      apply continues_of_eq
      rw [remove, note, StreamTable.find?_erase, if_neg hk]
  | parted k peer => exact .inr (continues_of_eq rfl)

/-- Every stream has come to its state from where all streams begin. -/
def Charted (c : Connection) : Prop :=
  ∀ id s, c.table.find? id = some s → Course.Reaches id .fresh s

theorem charted_fresh (channel : Channel) (info : DeviceInfo) (settings : HostSettings) :
    (Client.fresh channel info settings).connection.Charted := by
  intro id s h
  cases h

theorem Charted.step {c after : Connection} (hstep : c.Step after) (h : c.Charted) :
    after.Charted := by
  intro id s' hs'
  rcases hstep.continues id with rfl | hc
  · rw [remove, note, StreamTable.find?_erase, if_pos rfl] at hs'
    cases hs'
  · unfold Continues at hc
    split at hc
    · rw [hc s' hs']
      exact .refl id .fresh
    · next s hs =>
      obtain ⟨t, ht, hr⟩ := hc
      cases ht.symm.trans hs'
      exact (h id s hs).trans hr

theorem Steps.reaches {c after : Connection} (h : c.Steps after) {id : UInt32} {s : StreamState}
    (hs : c.table.find? id = some s) : ∃ lately, Since c after lately ∧ (.removed id ∈ lately ∨
      ∃ s', after.table.find? id = some s' ∧ Course.Reaches id s s') := by
  induction h with
  | refl => exact ⟨[], rfl, .inr ⟨s, hs, .refl id s⟩⟩
  | @tail mid after _ hstep ih =>
    obtain ⟨earlier, he, hmid⟩ := ih
    obtain ⟨later, hl⟩ := hstep.since
    refine ⟨later ++ earlier, he.trans hl, ?_⟩
    rcases hmid with hgone | ⟨t, ht, hr⟩
    · exact .inl (List.mem_append_right later hgone)
    · rcases hstep.continues id with rfl | hc
      · have hone : later = [.removed id] :=
          List.append_cancel_right (hl.symm.trans (List.singleton_append ..).symm)
        rw [hone]
        exact .inl (List.mem_cons_self ..)
      · unfold Continues at hc
        rw [ht] at hc
        obtain ⟨s', hs', hr'⟩ := hc
        exact .inr ⟨s', hs', hr.trans hr'⟩

theorem waitFor_of_fault {c : Connection} {id : UInt32} {s : StreamState} {fault : StreamFault}
    (hs : c.table.find? id = some s) (hf : s.fault = some fault) (deadline : Deadline)
    (awaited : Awaited) (look : StreamState → Look α) :
    c.waitFor id deadline awaited look = .error (.protocol (.stream id fault)) c := by
  rw [waitFor, inspect, hs]
  simp only [hf]

theorem calls_of_fault {c : Connection} {id : UInt32} {s : StreamState} {fault : StreamFault}
    (hs : c.table.find? id = some s) (hf : s.fault = some fault) (budget : Nat) :
    (∀ length, c.read id length budget = .error (.protocol (.stream id fault)) c) ∧
      c.readUntilClose id budget = .error (.protocol (.stream id fault)) c ∧
      ∀ bytes, bytes ≠ [] → c.write id bytes budget = .error (.protocol (.stream id fault)) c := by
  have hread (length : Nat) (deadline : Deadline) :
      c.readBy id length deadline = .error (.protocol (.stream id fault)) c := by
    rw [readBy, waitFor_of_fault hs hf]
  refine ⟨fun length => hread length _, ?_, ?_⟩
  · rw [readUntilClose, collect]
    split
    · next h =>
      rw [hread] at h
      cases h
    · next h =>
      rw [hread] at h
      cases h
    · next h =>
      rw [hread] at h
      exact h.symm
  · intro bytes hne
    obtain ⟨piece, rest, hp⟩ := pieces_ne_nil hne c.info.maxData.toNat
    have hw : s.writable id = .error (.protocol (.stream id fault)) := by
      simp only [StreamState.writable, hf]
    rw [write, hp, writePieces, writePiece, sendPiece, hs]
    simp only [hw]

end Connection

/-- In any order of changes a stream knows its peer once it is open, moves its phase forward only,
takes nothing in once closed and stays spoilt. Every stream of a run is at a point of such a course;
once spoilt, it fails every wait, read and write on it. -/
theorem stream_course (channel : Channel) (info : DeviceInfo) (settings : HostSettings)
    (events : List Event) :
    (∀ id changes,
      let s := (Course.after id {} changes).state
      (s.phase = .pending → s.peer = none ∧ s.awaiting = true ∧ s.buffer = []) ∧
      (s.phase = .opened → s.peer.isSome = true) ∧
      s.peer = changes.findSome? Change.answerer ∧
      (∀ change, (Course.after id {} (changes ++ [change])).state.phase = change.phase s.phase) ∧
      ∀ more, let s' := (Course.after id {} (changes ++ more)).state
        (s.phase = .closed → s'.phase = .closed ∧ s'.buffer <:+ s.buffer) ∧
        (s.fault.isSome = true → s'.fault.isSome = true)) ∧
    let c := ((Client.fresh channel info settings).after events).connection
    ∀ id s, c.table.find? id = some s → Course.Reaches id .fresh s ∧
      ∀ later lately, c.Moves later → later.past = lately ++ c.past → .removed id ∉ lately →
        ∃ s', later.table.find? id = some s' ∧ Course.Reaches id s s' ∧
          (s.fault.isSome = true → ∃ fault, s'.fault = some fault ∧
            (∀ (α : Type) deadline awaited (look : StreamState → Look α),
              later.waitFor id deadline awaited look =
                .error (.protocol (.stream id fault)) later) ∧
            ∀ budget,
              (∀ length, later.read id length budget =
                .error (.protocol (.stream id fault)) later) ∧
              later.readUntilClose id budget = .error (.protocol (.stream id fault)) later ∧
              ∀ bytes, bytes ≠ [] → later.write id bytes budget =
                .error (.protocol (.stream id fault)) later) := by
  refine ⟨?_, ?_⟩
  · intro id changes s
    have hc : (Course.after id {} changes).Sound := Course.sound_fresh.after id changes
    refine ⟨?_, hc.met, ?_, ?_, ?_⟩
    · intro hp
      obtain ⟨hpeer, ha⟩ := hc.unanswered hp
      exact ⟨hpeer, ha, hc.unfilled hp⟩
    · exact (Course.sound_fresh.peer_after id changes).trans (Option.none_or ..)
    · intro change
      rw [Course.after_append]
      exact (hc.follows id change).phase
    · intro more s'
      have hs' : s' = ((Course.after id {} changes).after id more).state := by
        rw [← Course.after_append]
      rw [hs']
      exact ⟨fun hclosed => hc.closed_after hclosed id more, fun hf => hc.fault_after hf id more⟩
  · intro c id s hs
    have hc : c.Charted := Client.connection_after_steps
      (fun _ _ => Connection.Charted.step) (Connection.charted_fresh channel info settings) events
    refine ⟨hc id s hs, ?_⟩
    intro later lately hmoves hpast hkept
    obtain ⟨between, hbetween, hreached⟩ := hmoves.steps.reaches hs
    have hsame : between = lately := List.append_cancel_right (hbetween.symm.trans hpast)
    rw [hsame] at hreached
    obtain ⟨s', hs', hr⟩ := hreached.resolve_left hkept
    refine ⟨s', hs', hr, ?_⟩
    intro hspoilt
    -- Going on from a sound state, the stream keeps a fault, though it may be another one.
    obtain ⟨first, hfirst⟩ := hc id s hs
    obtain ⟨rest, hrest⟩ := hr
    have hsound : Course.Sound ⟨s, 0⟩ := by
      rw [← hfirst]
      exact Course.sound_fresh.after id first
    have hfault : s'.fault.isSome = true := by
      have hafter := hsound.fault_after hspoilt id rest
      rw [hrest] at hafter
      exact hafter
    obtain ⟨fault, hfault⟩ := Option.isSome_iff_exists.mp hfault
    refine ⟨fault, hfault, ?_, ?_⟩
    · intro α deadline awaited look
      exact Connection.waitFor_of_fault hs' hfault deadline awaited look
    · intro budget
      exact Connection.calls_of_fault hs' hfault budget

/-- The device closes the stream before a write fails; and the wrong peer acknowledges something on
a stream with two bytes to read. -/
theorem stream_course_stranger :
    let changes : List Change := [.heard ⟨.okay, 101, 1, []⟩, .begun, .heard ⟨.close, 102, 1, []⟩,
      .unsent]
    let link : Link := { inbound := [.chunk (Message.encode ⟨.okay, 101, 1, []⟩),
      .chunk (Message.encode ⟨.write, 101, 1, [97, 98]⟩),
      .chunk (Message.encode ⟨.okay, 102, 1, []⟩)] }
    let client := (Client.fresh { link := link } ⟨"device", "S", "", 0, 4096⟩ {}).after
      [.call (.openStream "a" 10), .call (.read 0 5 10)]
    let later := (client.happen (.pass 3)).connection
    (Course.after 1 {} changes).state = ⟨some 101, .closed, false, [], none⟩ ∧
    (Course.after 1 {} (changes ++ [.heard ⟨.write, 101, 1, [97]⟩])).state.buffer <:+ [] ∧
    later.table.find? 1 = some ⟨some 101, .opened, false, [97, 98], some (.wrongPeer 102 101)⟩ ∧
    later.read 1 1 10 = .error (.protocol (.stream 1 (.wrongPeer 102 101))) later ∧
    later.write 1 [99] 10 = .error (.protocol (.stream 1 (.wrongPeer 102 101))) later := by
  intro changes link client later
  obtain ⟨halone, hrun⟩ := stream_course { link := link } ⟨"device", "S", "", 0, 4096⟩ {}
    [.call (.openStream "a" 10), .call (.read 0 5 10)]
  have hstate : (Course.after 1 {} changes).state = ⟨some 101, .closed, false, [], none⟩ := by
    decide +kernel
  have hs : client.connection.table.find? 1 =
      some ⟨some 101, .opened, false, [97, 98], some (.wrongPeer 102 101)⟩ := by decide +kernel
  have hlater : later.table.find? 1 =
      some ⟨some 101, .opened, false, [97, 98], some (.wrongPeer 102 101)⟩ := hs
  refine ⟨hstate, ?_, hlater, ?_⟩
  · obtain ⟨_, _, _, _, hmore⟩ := halone 1 changes
    have hclosed := (hmore [.heard ⟨.write, 101, 1, [97]⟩]).1 (by rw [hstate])
    rw [hstate] at hclosed
    exact hclosed.2
  · obtain ⟨s', hs', _, hfails⟩ :=
      (hrun 1 _ hs).2 later [] (client.happen_moves (.pass 3)) rfl List.not_mem_nil
    cases hlater.symm.trans hs'
    obtain ⟨fault, hf, _, hcalls⟩ := hfails rfl
    cases hf
    obtain ⟨hread, _, hwrite⟩ := hcalls 10
    exact ⟨hread 1, hwrite [99] (List.cons_ne_nil _ _)⟩

end DroidHost
