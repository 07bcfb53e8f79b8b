import DroidHost.Proofs.Heeding
import DroidHost.Proofs.Promptness
import DroidHost.Proofs.Reception

/-! What a wait hears. A round is the same for every wait: a message goes to its stream, and data
for an open one are acknowledged. -/
namespace DroidHost

namespace StreamState

def told (id : UInt32) (s : StreamState) (heard : List Message) : StreamState :=
  heard.foldl (fun s m => if m.arg1 = id then (s.apply id m).1 else s) s

theorem told_append (id : UInt32) (s : StreamState) (heard more : List Message) :
    s.told id (heard ++ more) = (s.told id heard).told id more := List.foldl_append

theorem apply_spoilt (id : UInt32) (m : Message) (s : StreamState) (fault : StreamFault) :
    ∃ fault', ({ s with fault := some fault }.apply id m).1 =
      { (s.apply id m).1 with fault := some fault' } := by
  unfold apply
  split
  · unfold acknowledged
    dsimp only
    split
    · exact ⟨_, rfl⟩
    · split
      · exact ⟨fault, rfl⟩
      · exact ⟨_, rfl⟩
  · exact ⟨fault, rfl⟩
  · unfold supplied
    dsimp only
    split
    · exact ⟨fault, rfl⟩
    · exact ⟨fault, rfl⟩
    · exact ⟨_, rfl⟩
  · exact ⟨fault, rfl⟩

theorem told_spoilt (id : UInt32) (heard : List Message) (s : StreamState) (fault : StreamFault) :
    ∃ fault', { s with fault := some fault }.told id heard =
      { s.told id heard with fault := some fault' } := by
  induction heard generalizing s fault with
  | nil => exact ⟨fault, rfl⟩
  | cons m rest ih =>
    unfold told
    rw [List.foldl_cons, List.foldl_cons]
    by_cases hid : m.arg1 = id
    · obtain ⟨fault', happly⟩ := apply_spoilt id m s fault
      rw [if_pos hid, if_pos hid, happly]
      exact ih _ fault'
    · rw [if_neg hid, if_neg hid]
      exact ih s fault

end StreamState

namespace Connection
open Occurrence

/-- What became of a stream, or of there being none, in between. -/
def Relayed (id : UInt32) (heard : List Message) (lately : List Occurrence)
    (before after : Option StreamState) : Prop :=
  match before with
  | none => after = none
  | some s => after = some (s.told id heard) ∨
      (∃ m begun, .unsent m begun ∈ lately ∧ m.arg0 = id) ∧
        ∃ fault, after = some { s.told id heard with fault := some fault }

theorem relayed_heard (id : UInt32) (heard : List Message) (lately : List Occurrence)
    (s : Option StreamState) : Relayed id heard lately s (s.map (·.told id heard)) := by
  cases s with
  | none => rfl
  | some s => exact .inl rfl

theorem relayed_nothing (id : UInt32) (lately : List Occurrence) (s : Option StreamState) :
    Relayed id [] lately s s := by
  have htold := relayed_heard id [] lately s
  rw [show s.map (·.told id []) = s from Option.map_id'] at htold
  exact htold

theorem Relayed.phase {id : UInt32} {heard : List Message} {lately : List Occurrence}
    {before after : Option StreamState} (h : Relayed id heard lately before after) :
    after.map StreamState.phase = before.map fun s => (s.told id heard).phase := by
  cases before with
  | none =>
    have hnone : after = none := h
    rw [hnone]
    rfl
  | some s => obtain rfl | ⟨_, fault, rfl⟩ := h <;> rfl

theorem Relayed.trans {id : UInt32} {heard more : List Message} {lately later : List Occurrence}
    {before mid after : Option StreamState} (h : Relayed id heard lately before mid)
    (h' : Relayed id more later mid after) :
    Relayed id (heard ++ more) (later ++ lately) before after := by
  have hmore {ms : List Occurrence} (hsome : ∃ m begun, .unsent m begun ∈ ms ∧ m.arg0 = id)
      (hsub : ms ⊆ later ++ lately) :
      ∃ m begun, .unsent m begun ∈ later ++ lately ∧ m.arg0 = id := by
    obtain ⟨m, begun, hm, hid⟩ := hsome
    exact ⟨m, begun, hsub hm, hid⟩
  cases before with
  | none =>
    have hnone : mid = none := h
    rw [hnone] at h'
    exact h'
  | some s =>
    unfold Relayed
    dsimp only
    rw [StreamState.told_append]
    obtain rfl | ⟨hunsent, fault, rfl⟩ := h
    · obtain hafter | ⟨hunsent, hfault⟩ := h'
      · exact .inl hafter
      · exact .inr ⟨hmore hunsent (List.subset_append_left _ _), hfault⟩
    · obtain ⟨fault', htold⟩ := StreamState.told_spoilt id more (s.told id heard) fault
      refine .inr ⟨hmore hunsent (List.subset_append_right _ _), ?_⟩
      obtain rfl | ⟨_, last, rfl⟩ := h'
      · exact ⟨fault', congrArg some htold⟩
      · exact ⟨last, by rw [htold]⟩

structure Hears (heard : List Message) (lately : List Occurrence) (c after : Connection) : Prop where
  coming : ∀ later, c.coming later = heard.map .ok ++ after.coming later
  streams : ∀ id, Relayed id heard lately (c.table.find? id) (after.table.find? id)
  record : Since c after lately
  dutiful : Dutiful lately

theorem Hears.refl (c : Connection) : Hears [] [] c c where
  coming := fun _ => rfl
  streams := fun id => relayed_nothing id [] _
  record := rfl
  dutiful := List.forall_mem_nil _

theorem Hears.trans {heard more : List Message} {lately later : List Occurrence}
    {c mid after : Connection} (h : Hears heard lately c mid) (h' : Hears more later mid after) :
    Hears (heard ++ more) (later ++ lately) c after where
  coming := fun bytes => by rw [h.coming, h'.coming, List.map_append, List.append_assoc]
  streams := fun id => (h.streams id).trans (h'.streams id)
  record := h.record.trans h'.record
  dutiful := h'.dutiful.append h.dutiful

/-- A message may call for an acknowledgement. -/
def isDue (c : Connection) : Except BridgeError Message → Bool
  | .ok m => m.command = .write && c.table.contains m.arg1
  | .error _ => false

/-- How many acknowledgements messages call for at most. -/
def duties (c : Connection) (ms : List (Except BridgeError Message)) : Nat := ms.countP c.isDue

inductive Rounds (deadline : Deadline) : Nat → Connection → Connection → Prop
  | here (c : Connection) : Rounds deadline 0 c c
  /-- A round begins before the deadline and takes in what comes first, if that is in time. -/
  | more {n : Nat} {c mid after : Connection} (htime : deadline.hasExpired c.now = false)
      (htake : c.takeIn deadline = .ok () mid) (h : Rounds deadline n mid after) :
      Rounds deadline (n + 1) c after

/-- Any wait goes through these rounds, unless there is something to say to it before. -/
theorem Rounds.waitFor {deadline : Deadline} {n : Nat} {c after : Connection}
    (h : Rounds deadline n c after) {id : UInt32} {look : StreamState → Look α}
    (hnothing : ∀ k between, k < n → Rounds deadline k c between → between.inspect id look = none)
    (awaited : Awaited) :
    c.waitFor id deadline awaited look = after.waitFor id deadline awaited look := by
  induction h with
  | here c => rfl
  | more htime htake h ih =>
    have hnow := hnothing 0 _ (Nat.succ_pos _) (.here _)
    rw [waitFor_of_takeIn hnow htime htake]
    apply ih
    intro k between hk hrounds
    exact hnothing (k + 1) between (Nat.succ_lt_succ hk) (.more htime htake hrounds)

theorem route_applied {m : Message} (hm : m.command = .okay ∨ m.command = .close ∨ m.command = .write)
    (t : StreamTable) :
    ∃ table, t.route m = .ok (table, (t.find? m.arg1).bind fun s => (s.apply m.arg1 m).2) ∧
      ∀ id, table.find? id = (t.find? id).map fun s => s.told id [m] := by
  unfold StreamTable.route
  rw [if_pos hm]
  cases hs : t.find? m.arg1 with
  | none =>
    refine ⟨t, rfl, fun id => ?_⟩
    cases hid : t.find? id with
    | none => rfl
    | some s =>
      have hother : m.arg1 ≠ id := by
        intro heq
        rw [heq, hid] at hs
        cases hs
      simp only [StreamState.told, List.foldl_cons, List.foldl_nil, if_neg hother, Option.map_some]
  | some s =>
    refine ⟨_, rfl, fun id => ?_⟩
    rw [StreamTable.find?_set]
    by_cases hid : id = m.arg1
    · subst hid
      simp only [if_true, hs, Option.map_some, StreamState.told, List.foldl_cons, List.foldl_nil]
    · rw [if_neg hid]
      cases t.find? id with
      | none => rfl
      | some s' =>
        simp only [StreamState.told, List.foldl_cons, List.foldl_nil, if_neg (Ne.symm hid),
          Option.map_some]

theorem acknowledge_record (id peer : UInt32) (deadline : Deadline) (c : Connection) :
    let after := c.acknowledge ⟨.okay, id, peer, []⟩ deadline
    ∃ o, Since c after [o] ∧ o.tried = some ⟨.okay, id, peer, []⟩ ∧
      ∀ k, after.table.find? k = c.table.find? k ∨
        k = id ∧ (∃ begun, o = .unsent ⟨.okay, id, peer, []⟩ begun) ∧ ∃ fault,
          after.table.find? k = (c.table.find? k).map fun s => { s with fault := some fault } := by
  intro after
  have hafter := acknowledge_eq id peer deadline c
  cases hput : c.channel.put (Message.header ⟨.okay, id, peer, []⟩)
      (deadline.remainingOrFloor Deadline.transferFloor c.now) with
  | ok u ch =>
    rw [hput] at hafter
    change after = _ at hafter
    rw [hafter]
    exact ⟨_, rfl, rfl, fun k => .inl rfl⟩
  | error f ch =>
    rw [hput] at hafter
    change after = Connection.spoil _ _ _ at hafter
    rw [hafter]
    refine ⟨.unsent _ false, ?_, rfl, fun k => ?_⟩
    · unfold spoil
      split <;> rfl
    · unfold spoil
      split
      · next s hs =>
        by_cases hk : k = id
        · subst hk
          refine .inr ⟨rfl, ⟨false, rfl⟩, .unacknowledged f, ?_⟩
          have hfound : c.table.find? k = some s := hs
          rw [setStream, StreamTable.find?_set, if_pos rfl, hs, hfound]
          rfl
        · refine .inl ?_
          rw [setStream, StreamTable.find?_set, if_neg hk]
          rfl
      · exact .inl rfl

theorem send_framed {c : Connection} (h : c.channel.Framed) (m : Message) (deadline : Deadline) :
    (final (c.send m deadline)).channel.Framed ∧
      (final (c.send m deadline)).channel.stream = c.channel.stream := by
  refine send_kept (P := fun ch => ch.Framed ∧ ch.stream = c.channel.stream) ?_ ⟨h, rfl⟩ m deadline
  rintro ch ⟨hch, hsame⟩ bytes budget
  obtain ⟨hframed, hstream⟩ := (Channel.put_paid hch.steady.isOpen bytes budget).framed hch
  exact ⟨hframed, hstream.trans hsame⟩

theorem acknowledge_paid {c : Connection} (hopen : c.channel.link.isClosed = false) (id peer : UInt32)
    (deadline : Deadline) :
    Channel.Paid 1 c.channel (c.acknowledge ⟨.okay, id, peer, []⟩ deadline).channel := by
  have hpaid := Channel.put_paid hopen (Message.header ⟨.okay, id, peer, []⟩)
    (deadline.remainingOrFloor Deadline.transferFloor c.now)
  rw [acknowledge_eq]
  cases hput : c.channel.put (Message.header ⟨.okay, id, peer, []⟩)
      (deadline.remainingOrFloor Deadline.transferFloor c.now) with
  | ok u ch =>
    rw [hput] at hpaid
    exact hpaid
  | error f ch =>
    rw [hput] at hpaid
    dsimp only
    rw [channel_spoil]
    exact hpaid

theorem isDue_of_ack {c : Connection} {m ack : Message}
    (h : (c.table.find? m.arg1).bind (fun s => (s.apply m.arg1 m).2) = some ack) :
    c.isDue (.ok m) = true := by
  obtain ⟨s, hs, happly⟩ := Option.bind_eq_some_iff.mp h
  have hwrite : m.command = .write := by
    unfold StreamState.apply at happly
    split at happly
    · cases happly
    · cases happly
    · next hw => exact hw
    · cases happly
  rw [isDue, hwrite, StreamTable.contains, hs]
  rfl

theorem takeIn_heard {c : Connection} {deadline : Deadline} {m : Message} {ch : Channel}
    (hr : c.channel.receive deadline = .ok m ch) (hopen : ch.link.isClosed = false)
    (hm : m.command = .okay ∨ m.command = .close ∨ m.command = .write) :
    ∃ after lately, c.takeIn deadline = .ok () after ∧ Since c after lately ∧ Dutiful lately ∧
      Channel.Paid (lately.countP isOkay) ch after.channel ∧
      lately.countP isOkay ≤ c.duties [.ok m] ∧
      (∀ id, Relayed id [m] lately (c.table.find? id) (after.table.find? id)) ∧
      (∀ id, id ≠ m.arg1 → after.table.find? id = c.table.find? id) ∧
      ∀ s, c.table.find? m.arg1 = some s → (s.apply m.arg1 m).2 = none →
        after.table.find? m.arg1 = some (s.apply m.arg1 m).1 := by
  obtain ⟨table, hroute, htable⟩ := route_applied hm c.table
  let o : Occurrence := .arrived m ((c.table.find? m.arg1).map StreamState.phase)
  have harrived : Dutiful [o] := by
    rw [Dutiful, List.forall_mem_singleton]
    intro w hw
    cases hw
  have hother (id : UInt32) (hid : id ≠ m.arg1) : table.find? id = c.table.find? id := by
    rw [htable]
    cases c.table.find? id with
    | none => rfl
    | some s =>
      simp only [StreamState.told, List.foldl_cons, List.foldl_nil, if_neg (Ne.symm hid),
        Option.map_some]
  have htold (id : UInt32) : Relayed id [m] [o] (c.table.find? id) (table.find? id) := by
    rw [htable]
    exact relayed_heard id [m] [o] _
  cases hack : (c.table.find? m.arg1).bind fun s => (s.apply m.arg1 m).2 with
  | none =>
    rw [hack] at hroute
    refine ⟨{ c.hear m ch with table := table }, [o], ?_, rfl, harrived, .refl hopen, Nat.zero_le _,
      htold, hother, fun s hs _ => ?_⟩
    · simp only [takeIn, hr, hroute]
    · change table.find? m.arg1 = _
      rw [htable, hs]
      simp only [StreamState.told, List.foldl_cons, List.foldl_nil, if_true, Option.map_some]
  | some ack =>
    rw [hack] at hroute
    obtain ⟨peer, rfl⟩ := ack_of_route hroute
    let mid : Connection := { c.hear m ch with table := table }
    have hpaid := acknowledge_paid (c := mid) hopen m.arg1 peer deadline
    obtain ⟨w, hw, htried, hstreams⟩ := acknowledge_record m.arg1 peer deadline mid
    have hokay : isOkay w = true := by
      rw [isOkay, htried]
      rfl
    have hdutiful : Dutiful [w] := by
      rw [Dutiful, List.forall_mem_singleton, htried]
      rintro _ ⟨⟩
      rfl
    have hsince : Since c mid [o] := rfl
    have hone : ([w] ++ [o]).countP isOkay = 1 := by
      rw [List.singleton_append, List.countP_cons_of_pos hokay]
      rfl
    refine ⟨mid.acknowledge ⟨.okay, m.arg1, peer, []⟩ deadline, [w] ++ [o], ?_, hsince.trans hw,
      hdutiful.append harrived, ?_, ?_, fun id => ?_, fun id hid => ?_, fun s hs hnone => ?_⟩
    · simp only [takeIn, hr, hroute, mid]
    · rw [hone]
      exact hpaid
    · have hdue : duties c [.ok m] = 1 := by
        rw [duties, List.countP_singleton, if_pos (isDue_of_ack hack)]
      exact Nat.le_of_eq (hone.trans hdue.symm)
    · apply (htold id).trans
      obtain hsame | ⟨rfl, ⟨begun, rfl⟩, fault, hspoilt⟩ := hstreams id
      · rw [hsame]
        exact relayed_nothing id [w] _
      · rw [hspoilt]
        change Relayed _ [] _ (table.find? m.arg1) ((table.find? m.arg1).map _)
        cases table.find? m.arg1 with
        | none => rfl
        | some s => exact .inr ⟨⟨_, _, List.mem_singleton.mpr rfl, rfl⟩, fault, rfl⟩
    · exact ((hstreams id).resolve_right (fun h => hid h.1)).trans (hother id hid)
    · rw [hs, Option.bind_some, hnone] at hack
      cases hack

def OnlyStreams (c : Connection) : Prop :=
  ∀ r ∈ c.coming [], ∃ m, r = .ok m ∧
    (m.command = .okay ∨ m.command = .close ∨ m.command = .write)

theorem Hears.onlyStreams {heard : List Message} {lately : List Occurrence} {c after : Connection}
    (h : Hears heard lately c after) (honly : c.OnlyStreams) : after.OnlyStreams := by
  intro r hr
  apply honly r
  rw [h.coming]
  exact List.mem_append_right _ hr

theorem takeIn_hears {c after : Connection} {deadline : Deadline} {u : Unit}
    (hframed : c.channel.Framed) (ht : c.takeIn deadline = .ok u after) :
    ∃ heard lately, Hears heard lately c after ∧
      Channel.Spent heard (lately.countP isOkay) c.channel after.channel ∧
      lately.countP isOkay ≤ c.duties (heard.map .ok) ∧ after.channel.Framed ∧
      (heard = [] ∧ after.table = c.table ∨ ∃ m, heard = [m] ∧
        (m.command = .okay ∨ m.command = .close ∨ m.command = .write) ∧
        after.channel.fragment = [] ∧
        (∀ id, id ≠ m.arg1 → after.table.find? id = c.table.find? id) ∧
        ∀ s, c.table.find? m.arg1 = some s → (s.apply m.arg1 m).2 = none →
          after.table.find? m.arg1 = some (s.apply m.arg1 m).1) := by
  have hread := Channel.receive_cases hframed deadline
  have hspent := Channel.spent_receive hframed deadline
  cases hr : c.channel.receive deadline with
  | error e ch =>
    rw [hr] at hread hspent
    obtain ⟨hafter, hsame⟩ := hread
    by_cases htimeout : e.isTimeout = true
    · simp only [htimeout, if_true] at hsame
      simp only [takeIn, hr, htimeout, if_true] at ht
      cases ht
      exact ⟨[], [], ⟨hsame, fun id => relayed_nothing id [] _, rfl, List.forall_mem_nil _⟩,
        hspent htimeout, Nat.zero_le _, hafter, .inl ⟨rfl, rfl⟩⟩
    · simp only [takeIn, hr, htimeout] at ht
      cases ht
  | ok m ch =>
    rw [hr] at hread hspent
    obtain ⟨hafter, hnext⟩ := hread
    have hm : m.command = .okay ∨ m.command = .close ∨ m.command = .write := by
      apply Classical.byContradiction
      intro hother
      simp only [takeIn, hr, StreamTable.route, if_neg hother] at ht
      cases ht
    obtain ⟨mid, lately, htake, hsince, hdutiful, hpaid, hduties, htold, hothers, hplain⟩ :=
      takeIn_heard hr hafter.steady.isOpen hm
    cases ht.symm.trans htake
    obtain ⟨hlast, hstream⟩ := hpaid.framed hafter
    refine ⟨[m], lately, ⟨fun later => ?_, htold, hsince, hdutiful⟩,
      Channel.Spent.trans hspent hpaid.spent, hduties, hlast, .inr ⟨m, rfl, hm, ?_, hothers, hplain⟩⟩
    · rw [coming, coming, hstream, hnext]
      rfl
    · rw [hpaid.fragment]
      exact Channel.fragment_of_receive hr

theorem takeIn_of_onlyStreams {c : Connection} (hframed : c.channel.Framed) (honly : c.OnlyStreams)
    (deadline : Deadline) : ∃ after, c.takeIn deadline = .ok () after := by
  have hread := Channel.receive_sound hframed honly deadline
  cases hr : c.channel.receive deadline with
  | error e ch =>
    rw [hr] at hread
    refine ⟨{ c with channel := ch }, ?_⟩
    simp only [takeIn, hr, hread.1, if_true]
  | ok m ch =>
    rw [hr] at hread
    obtain ⟨hm, hafter, _⟩ := hread
    obtain ⟨after, _, htake, _⟩ := takeIn_heard hr hafter.steady.isOpen hm
    exact ⟨after, htake⟩

theorem front_prefix {c : Connection} {front back : List Arrival}
    (hinbound : c.channel.link.inbound = front ++ back) :
    Message.parse (c.channel.fragment ++ front.flatMap Arrival.bytes) <+: c.coming [] := by
  have hstream : c.channel.stream =
      c.channel.fragment ++ front.flatMap Arrival.bytes ++ back.flatMap Arrival.bytes := by
    rw [Channel.stream, Link.coming, hinbound, List.flatMap_append, ← List.append_assoc]
  rw [coming, List.append_nil, hstream]
  exact Message.parse_mono _ _

/-- Whoever has not heard a message yet has not waited for longer than it takes to come, but for the
time that the acknowledgements took. -/
theorem Hears.now_le {heard : List Message} {lately : List Occurrence} {c after : Connection}
    (h : Hears heard lately c after) {writes : Nat}
    (hspent : Channel.Spent heard writes c.channel after.channel) {front back : List Arrival}
    (hinbound : c.channel.link.inbound = front ++ back) {m : Message}
    (hm : .ok m ∈ Message.parse (c.channel.fragment ++ front.flatMap Arrival.bytes))
    (hnot : m ∉ heard) :
    after.now ≤ c.now + Arrival.delay front + c.channel.link.due writes := by
  have hprefix := front_prefix hinbound
  rw [h.coming []] at hprefix
  apply hspent.now_le hinbound
  apply Nat.lt_of_not_le
  intro hle
  -- All that is in front would have been heard.
  have hheard := List.prefix_of_prefix_length_le hprefix (List.prefix_append _ _)
    (by rw [List.length_map]; exact hle)
  obtain ⟨m', hm', heq⟩ := List.mem_map.mp (hheard.subset hm)
  cases heq
  exact hnot hm'

end Connection
end DroidHost
