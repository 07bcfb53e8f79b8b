import DroidHost.Proofs.Run

/-! No byte of a stream is lost, doubled or moved to another stream. -/
namespace DroidHost

namespace Occurrence

/-- What happened, latest first, since a stream was last entered under an id. -/
def since (id : UInt32) (past : List Occurrence) : List Occurrence :=
  past.takeWhile (· ≠ entered id)

/-- The payload of a write that finds the stream open. -/
def broughtTo (id : UInt32) : Occurrence → Bytes
  | arrived m (some .opened) => if m.command = .write ∧ m.arg1 = id then m.payload else []
  | _ => []

def takenFrom (id : UInt32) : Occurrence → Bytes
  | taken k bytes => if k = id then bytes else []
  | _ => []

end Occurrence

namespace Connection

/-- Earliest first. -/
def story (id : UInt32) (c : Connection) : List Occurrence := (Occurrence.since id c.past).reverse

def supplied (id : UInt32) (c : Connection) : Bytes :=
  (c.story id).flatMap (Occurrence.broughtTo id)

def taken (id : UInt32) (c : Connection) : Bytes := (c.story id).flatMap (Occurrence.takenFrom id)

theorem story_note (c : Connection) (o : Occurrence) (id : UInt32) :
    (c.note o).story id = if o = .entered id then [] else c.story id ++ [o] := by
  unfold story note Occurrence.since
  by_cases h : o = .entered id
  · rw [if_pos h, List.takeWhile_cons_of_neg (by simpa using h), List.reverse_nil]
  · rw [if_neg h, List.takeWhile_cons_of_pos (by simpa using h), List.reverse_cons]

theorem supplied_note {c : Connection} {o : Occurrence} {id : UInt32} (h : o ≠ .entered id) :
    (c.note o).supplied id = c.supplied id ++ o.broughtTo id := by
  rw [supplied, story_note, if_neg h, List.flatMap_append, List.flatMap_singleton, supplied]

theorem taken_note {c : Connection} {o : Occurrence} {id : UInt32} (h : o ≠ .entered id) :
    (c.note o).taken id = c.taken id ++ o.takenFrom id := by
  rw [taken, story_note, if_neg h, List.flatMap_append, List.flatMap_singleton, taken]

end Connection

namespace StreamState

/-- An open stream knows its peer. -/
def Met (s : StreamState) : Prop := s.phase = .opened → s.peer.isSome = true

theorem met_fresh : fresh.Met := by
  intro h
  cases h

theorem met_apply {s : StreamState} (h : s.Met) (id : UInt32) (m : Message) :
    (s.apply id m).1.Met := by
  unfold apply
  split
  · unfold acknowledged
    split
    · exact h
    · split
      · intro _
        rfl
      · intro _
        rfl
  · intro hp
    cases hp
  · unfold supplied
    split
    · exact h
    · exact h
    · exact h
  · exact h

theorem buffer_apply {s : StreamState} (h : s.Met) (id : UInt32) (m : Message) :
    (s.apply id m).1.buffer =
      s.buffer ++ if s.phase = .opened ∧ m.command = .write then m.payload else [] := by
  unfold apply
  split
  · next hc =>
    have hb : (s.acknowledged m.arg0).buffer = s.buffer := by
      unfold acknowledged
      repeat' split
      all_goals rfl
    rw [if_neg (by simp only [hc, reduceCtorEq, and_false, not_false_eq_true]), List.append_nil]
    exact hb
  · next hc =>
    rw [if_neg (by simp only [hc, reduceCtorEq, and_false, not_false_eq_true]), List.append_nil]
    rfl
  · next hc =>
    unfold supplied
    split
    · next hp _ => rw [if_pos ⟨hp, hc⟩]
    · next hp =>
      rw [if_neg (by simp only [hp, reduceCtorEq, false_and, not_false_eq_true]), List.append_nil]
    · next hclosed hopen =>
      -- What is left is a stream that waits for its first answer: an open one has a peer.
      have hp : s.phase ≠ .opened := by
        intro hp
        obtain ⟨peer, hpeer⟩ := Option.isSome_iff_exists.mp (h hp)
        exact hopen peer hp hpeer
      rw [if_neg (fun hn => hp hn.1), List.append_nil]
  · next hc₁ hc₂ hc₃ =>
    rw [if_neg (fun hn => hc₃ hn.2), List.append_nil]

end StreamState

namespace Connection

/-- Nothing that came for a stream is missing, and nothing else is there. -/
structure Accounted (c : Connection) : Prop where
  met : ∀ id s, c.table.find? id = some s → s.Met
  balance : ∀ id s, c.table.find? id = some s → c.taken id ++ s.buffer = c.supplied id

theorem accounted_fresh (channel : Channel) (info : DeviceInfo) (settings : HostSettings) :
    (Client.fresh channel info settings).connection.Accounted where
  met := by
    intro id s h
    cases h
  balance := by
    intro id s h
    cases h

/-- An occurrence that neither brings nor takes anything. -/
def Idle (o : Occurrence) : Prop :=
  ∀ id, o ≠ .entered id ∧ o.broughtTo id = [] ∧ o.takenFrom id = []

theorem Accounted.of_eq {c after : Connection} (h : c.Accounted)
    (ht : ∀ id, after.table.find? id = c.table.find? id) (hp : after.past = c.past) :
    after.Accounted where
  met := by
    intro id s hs
    rw [ht] at hs
    exact h.met id s hs
  balance := by
    intro id s hs
    rw [ht] at hs
    have := h.balance id s hs
    simp only [Connection.taken, Connection.supplied, story, hp] at this ⊢
    exact this

theorem Accounted.note {c : Connection} (h : c.Accounted) {o : Occurrence} (ho : Idle o) :
    (c.note o).Accounted where
  met := h.met
  balance := by
    intro id s hs
    rw [taken_note (ho id).1, supplied_note (ho id).1, (ho id).2.1, (ho id).2.2, List.append_nil,
      List.append_nil]
    exact h.balance id s hs

theorem Accounted.setStream {c : Connection} (h : c.Accounted) {id : UInt32} {s s' : StreamState}
    (hs : c.table.find? id = some s) (hb : s'.buffer = s.buffer) (hm : s'.Met) :
    (c.setStream id s').Accounted where
  met := by
    intro k t ht
    rw [Connection.setStream, StreamTable.find?_set] at ht
    split at ht
    · next hk =>
      rw [hs, Option.map_some, Option.some.injEq] at ht
      exact ht ▸ hm
    · exact h.met k t ht
  balance := by
    intro k t ht
    rw [Connection.setStream, StreamTable.find?_set] at ht
    split at ht
    · next hk =>
      subst hk
      rw [hs, Option.map_some, Option.some.injEq] at ht
      rw [← ht, hb]
      exact h.balance k s hs
    · exact h.balance k t ht

theorem idle_sent (m : Message) : Idle (.sent m) := by
  intro id
  exact ⟨nofun, rfl, rfl⟩

theorem idle_unsent (m : Message) (begun : Bool) : Idle (.unsent m begun) := by
  intro id
  exact ⟨nofun, rfl, rfl⟩

theorem idle_removed (k : UInt32) : Idle (.removed k) := by
  intro id
  exact ⟨nofun, rfl, rfl⟩

theorem Accounted.send {c : Connection} (h : c.Accounted) (m : Message) (deadline : Deadline) :
    (final (c.send m deadline)).Accounted := by
  have hc (ch : Channel) : Accounted { c with channel := ch } := h.of_eq (fun _ => rfl) rfl
  unfold Connection.send
  split
  · exact (hc _).note (idle_unsent m false)
  · split
    · exact (hc _).note (idle_unsent m true)
    · exact (hc _).note (idle_sent m)

theorem Accounted.spoil {c : Connection} (h : c.Accounted) (id : UInt32) (fault : StreamFault) :
    (c.spoil id fault).Accounted := by
  unfold Connection.spoil
  split
  · next s hs => exact h.setStream hs rfl (h.met id s hs)
  · exact h

theorem Accounted.acknowledge {c : Connection} (h : c.Accounted) (ack : Message)
    (deadline : Deadline) : (c.acknowledge ack deadline).Accounted := by
  have hs := h.send ack (c.deadline (deadline.remainingOrFloor Deadline.transferFloor c.now))
  unfold Connection.acknowledge
  split
  · next hr =>
    rw [hr] at hs
    exact hs
  · next hr =>
    rw [hr] at hs
    exact hs.spoil _ _

theorem broughtTo_arrived (m : Message) (phase : Phase) (id : UInt32) :
    Occurrence.broughtTo id (.arrived m (some phase)) =
      if phase = .opened ∧ m.command = .write ∧ m.arg1 = id then m.payload else [] := by
  cases phase with
  | pending => rfl
  | opened => simp only [Occurrence.broughtTo, true_and]
  | closed => rfl

theorem broughtTo_of_not_write {m : Message} (h : m.command ≠ .write) (phase : Option Phase)
    (id : UInt32) : Occurrence.broughtTo id (.arrived m phase) = [] := by
  cases phase with
  | none => rfl
  | some phase => rw [broughtTo_arrived, if_neg (fun hn => h hn.2.1)]

/-- The heart of the matter: what is put on record for a message and what it does to its stream
agree, whatever the message is. -/
theorem Accounted.route {c : Connection} (h : c.Accounted) {m : Message} (ch : Channel)
    {table : StreamTable} {ack : Option Message} (hr : c.table.route m = .ok (table, ack)) :
    Accounted { c.hear m ch with table := table } := by
  let o : Occurrence := .arrived m ((c.table.find? m.arg1).map StreamState.phase)
  have hsup (id : UInt32) : Connection.supplied id { c.hear m ch with table := table } =
      c.supplied id ++ o.broughtTo id :=
    supplied_note (c := { c with channel := ch }) (o := o) nofun
  have htak (id : UInt32) : Connection.taken id { c.hear m ch with table := table } = c.taken id :=
    (taken_note (c := { c with channel := ch }) (o := o) nofun).trans (List.append_nil _)
  unfold StreamTable.route at hr
  split at hr
  · split at hr
    · next s hs =>
      cases hr
      have hm := h.met m.arg1 s hs
      constructor
      · intro id t ht
        rw [StreamTable.find?_set] at ht
        split at ht
        · next hid =>
          rw [hs, Option.map_some, Option.some.injEq] at ht
          exact ht ▸ StreamState.met_apply hm m.arg1 m
        · exact h.met id t ht
      · intro id t ht
        simp only [hsup, htak, o, hs, Option.map_some, broughtTo_arrived]
        rw [StreamTable.find?_set] at ht
        split at ht
        · next hid =>
          subst hid
          rw [hs, Option.map_some, Option.some.injEq] at ht
          rw [← ht, StreamState.buffer_apply hm, ← List.append_assoc, h.balance m.arg1 s hs]
          simp only [and_true]
        · next hid =>
          rw [if_neg (fun hn => hid hn.2.2.symm), List.append_nil]
          exact h.balance id t ht
    · next hs =>
      cases hr
      constructor
      · exact h.met
      · intro id t ht
        simp only [hsup, htak, o, hs, Option.map_none]
        exact (h.balance id t ht).trans (List.append_nil _).symm
  · cases hr

theorem Accounted.takeIn {c : Connection} (h : c.Accounted) (deadline : Deadline) :
    (final (c.takeIn deadline)).Accounted := by
  unfold Connection.takeIn
  split
  · split
    · exact h.of_eq (fun _ => rfl) rfl
    · exact h.of_eq (fun _ => rfl) rfl
  · next m ch _ =>
    split
    · next e hr =>
      have hw : m.command ≠ .write := by
        intro hw
        unfold StreamTable.route at hr
        rw [if_pos (.inr (.inr hw))] at hr
        split at hr <;> cases hr
      have hc : Accounted { c with channel := ch } := h.of_eq (fun _ => rfl) rfl
      apply hc.note
      intro id
      exact ⟨nofun, broughtTo_of_not_write hw _ id, rfl⟩
    · next table hr => exact h.route ch hr
    · next table ack hr => exact (h.route ch hr).acknowledge ack deadline

theorem Accounted.enter {c : Connection} (h : c.Accounted) (id : UInt32) :
    (c.enter id).Accounted where
  met := by
    intro k t ht
    rw [Connection.enter, Connection.note, StreamTable.find?_insert] at ht
    split at ht
    · cases ht
      exact StreamState.met_fresh
    · exact h.met k t ht
  balance := by
    intro k t ht
    rw [Connection.enter, Connection.note, StreamTable.find?_insert] at ht
    rw [Connection.taken, Connection.supplied, Connection.enter, story_note]
    split at ht
    · next hk =>
      cases ht
      rw [hk, if_pos rfl]
      rfl
    · next hk =>
      have hne : Occurrence.entered id ≠ .entered k := by
        intro he
        exact hk (Occurrence.entered.inj he).symm
      rw [if_neg hne, List.flatMap_append, List.flatMap_append]
      simp only [List.flatMap_singleton, Occurrence.takenFrom, Occurrence.broughtTo,
        List.append_nil]
      exact h.balance k t ht

theorem Accounted.remove {c : Connection} (h : c.Accounted) (id : UInt32) :
    (c.remove id).Accounted := by
  have he : Accounted { c with table := c.table.erase id } := by
    constructor
    · intro k t ht
      rw [StreamTable.find?_erase] at ht
      split at ht
      · cases ht
      · exact h.met k t ht
    · intro k t ht
      rw [StreamTable.find?_erase] at ht
      split at ht
      · cases ht
      · exact h.balance k t ht
  exact he.note (idle_removed id)

theorem Accounted.release {c : Connection} (h : c.Accounted) (id : UInt32) :
    (c.release id).Accounted := by
  unfold Connection.release
  split
  · exact h
  · split
    · exact h.remove id
    · exact (h.remove id).send _ _

theorem Accounted.ask {c : Connection} (h : c.Accounted) (destination : String)
    (deadline : Deadline) : (final (c.ask destination deadline)).Accounted := by
  have he := StreamTable.entries_probe c.settings.streamIdLimit StreamTable.maxProbes c.table
  unfold Connection.ask
  split
  · next table ha =>
    rw [show table = (c.table.allocate c.settings.streamIdLimit).2 by rw [ha]]
    exact h.of_eq (fun id => congrArg (List.lookup id) he) rfl
  · next id table ha =>
    have ht : Accounted { c with table := table } := by
      rw [show table = (c.table.allocate c.settings.streamIdLimit).2 by rw [ha]]
      exact h.of_eq (fun id => congrArg (List.lookup id) he) rfl
    have hs := (ht.enter id).send
      ⟨.start, id, 0, Text.Utf8.encode destination ++ [0]⟩ deadline
    split
    · next hr =>
      rw [hr] at hs
      exact hs.release id
    · next hr =>
      rw [hr] at hs
      exact hs

theorem Accounted.sendPiece {c : Connection} (h : c.Accounted) (id : UInt32) (deadline : Deadline)
    (piece : Bytes) : (final (c.sendPiece id deadline piece)).Accounted := by
  unfold Connection.sendPiece
  split
  · exact h
  · next s hs =>
    split
    · exact h
    · next peer _ =>
      have hw := h.send ⟨.write, id, peer, piece⟩ deadline
      have ht := (c.send_weight ⟨.write, id, peer, piece⟩ deadline).2.1
      split
      · next hr =>
        rw [hr] at hw
        exact hw
      · next hr =>
        rw [hr] at hw ht
        rw [← ht] at hs
        exact hw.setStream hs rfl (hw.met id s hs)

end Connection

namespace StreamState

theorem supplying_ready {id : UInt32} {length : Nat} {s after : StreamState} {bytes : Bytes}
    (h : s.supplying id length = .ready bytes after) :
    s.buffer = bytes ++ after.buffer ∧ after = { s with buffer := after.buffer } ∧
      (length = 0 → bytes ≠ [] ∧ after.buffer = []) ∧ (length ≠ 0 → bytes.length = length) := by
  unfold supplying at h
  split at h
  · next hle =>
    split at h
    · next h0 =>
      cases h
      refine ⟨(List.append_nil _).symm, rfl, ?_, fun hn => absurd h0 hn⟩
      intro _
      refine ⟨?_, rfl⟩
      apply List.ne_nil_of_length_pos
      omega
    · next h0 =>
      cases h
      refine ⟨(List.take_append_drop length s.buffer).symm, rfl, fun hz => absurd hz h0, ?_⟩
      intro _
      rw [List.length_take]
      omega
  · split at h <;> cases h

end StreamState

namespace Connection

theorem Accounted.take {c after : Connection} (h : c.Accounted) {id : UInt32} {length : Nat}
    {bytes : Bytes}
    (hi : c.inspect id (StreamState.supplying id length) = some (.ok bytes after)) :
    (after.note (.taken id bytes)).Accounted := by
  obtain ⟨s, s', hs, hr, rfl⟩ := inspect_ok hi
  obtain ⟨hb, he, _, _⟩ := StreamState.supplying_ready hr
  have hm : s'.Met := by
    rw [he]
    exact h.met id s hs
  constructor
  · intro k t ht
    rw [Connection.note, Connection.setStream, StreamTable.find?_set] at ht
    split at ht
    · rw [hs, Option.map_some, Option.some.injEq] at ht
      exact ht ▸ hm
    · exact h.met k t ht
  · intro k t ht
    have hne : Occurrence.taken id bytes ≠ .entered k := by
      intro he
      cases he
    rw [taken_note hne, supplied_note hne]
    have htak : (c.setStream id s').taken k = c.taken k := rfl
    have hsup : (c.setStream id s').supplied k = c.supplied k := rfl
    rw [htak, hsup, Connection.note, Connection.setStream, StreamTable.find?_set] at *
    simp only [Occurrence.takenFrom, Occurrence.broughtTo, List.append_nil]
    split at ht
    · next hk =>
      rw [hs, Option.map_some, Option.some.injEq] at ht
      rw [hk, if_pos rfl, ← ht, List.append_assoc, ← hb]
      exact h.balance id s hs
    · next hk =>
      rw [if_neg (fun hn => hk hn.symm), List.append_nil]
      exact h.balance k t ht

theorem Accounted.move {c after : Connection} (hm : c.Move after) (h : c.Accounted) :
    after.Accounted := by
  cases hm with
  | outside link hp => exact h.of_eq (fun _ => rfl) rfl
  | ask destination deadline => exact h.ask destination deadline
  | takeIn deadline => exact h.takeIn deadline
  | sendPiece id deadline piece => exact h.sendPiece id deadline piece
  | take id length bytes hi => exact h.take hi
  | release id => exact h.release id

/-- Nothing was handed out, and every stream is still there with at least what it had. -/
structure Fed (c after : Connection) : Prop where
  taken : ∀ id, after.taken id = c.taken id
  grown : ∀ id s, c.table.find? id = some s →
    ∃ t, after.table.find? id = some t ∧ s.buffer <+: t.buffer

theorem Fed.refl (c : Connection) : Fed c c where
  taken := by
    intro id
    rfl
  grown := by
    intro id s hs
    exact ⟨s, hs, List.prefix_refl _⟩

theorem Fed.trans {c mid after : Connection} (h : Fed c mid) (h' : Fed mid after) :
    Fed c after where
  taken := by
    intro id
    rw [h'.taken, h.taken]
  grown := by
    intro id s hs
    obtain ⟨t, ht, hst⟩ := h.grown id s hs
    obtain ⟨u, hu, htu⟩ := h'.grown id t ht
    exact ⟨u, hu, hst.trans htu⟩

theorem fed_channel (c : Connection) (ch : Channel) : Fed c { c with channel := ch } where
  taken := by
    intro id
    rfl
  grown := (Fed.refl c).grown

theorem fed_note {c : Connection} {o : Occurrence} (he : ∀ id, o ≠ .entered id)
    (ht : ∀ id, o.takenFrom id = []) : Fed c (c.note o) where
  taken := by
    intro id
    rw [taken_note (he id), ht, List.append_nil]
  grown := (Fed.refl c).grown

theorem fed_setStream {c : Connection} {id : UInt32} {s s' : StreamState}
    (hs : c.table.find? id = some s) (hb : s.buffer <+: s'.buffer) : Fed c (c.setStream id s') where
  taken := by
    intro k
    rfl
  grown := by
    intro k t ht
    rw [Connection.setStream, StreamTable.find?_set]
    by_cases hk : k = id
    · subst hk
      rw [hs, Option.some.injEq] at ht
      rw [if_pos rfl, hs]
      exact ⟨s', rfl, ht ▸ hb⟩
    · rw [if_neg hk]
      exact ⟨t, ht, List.prefix_refl _⟩

theorem fed_send (m : Message) (deadline : Deadline) (c : Connection) :
    Fed c (final (c.send m deadline)) := by
  unfold Connection.send
  split
  · exact (fed_channel c _).trans (fed_note nofun (fun _ => rfl))
  · split
    · exact (fed_channel c _).trans (fed_note nofun (fun _ => rfl))
    · exact (fed_channel c _).trans (fed_note nofun (fun _ => rfl))

theorem fed_acknowledge (ack : Message) (deadline : Deadline) (c : Connection) :
    Fed c (c.acknowledge ack deadline) := by
  have hs := fed_send ack (c.deadline (deadline.remainingOrFloor Deadline.transferFloor c.now)) c
  unfold Connection.acknowledge
  split
  · next hr =>
    rw [hr] at hs
    exact hs
  · next mid hr =>
    rw [hr] at hs
    apply hs.trans
    unfold Connection.spoil
    split
    · next s hf => exact fed_setStream hf (List.prefix_refl _)
    · exact Fed.refl _

theorem buffer_prefix_apply (id : UInt32) (m : Message) (s : StreamState) :
    s.buffer <+: (s.apply id m).1.buffer := by
  unfold StreamState.apply
  split
  · unfold StreamState.acknowledged
    repeat' split
    all_goals exact List.prefix_refl _
  · exact List.prefix_refl _
  · unfold StreamState.supplied
    split
    · exact List.prefix_append _ _
    · exact List.prefix_refl _
    · exact List.prefix_refl _
  · exact List.prefix_refl _

theorem fed_route {c : Connection} {m : Message} (ch : Channel) {table : StreamTable}
    {ack : Option Message} (hr : c.table.route m = .ok (table, ack)) :
    Fed c { c.hear m ch with table := table } := by
  have hh : Fed c (c.hear m ch) := (fed_channel c ch).trans (fed_note nofun (fun _ => rfl))
  unfold StreamTable.route at hr
  split at hr
  · split at hr
    · next s hs =>
      cases hr
      exact hh.trans (fed_setStream hs (buffer_prefix_apply m.arg1 m s))
    · cases hr
      exact hh
  · cases hr

theorem fed_takeIn (deadline : Deadline) (c : Connection) :
    Fed c (final (c.takeIn deadline)) := by
  unfold Connection.takeIn
  split
  · split
    · exact fed_channel c _
    · exact fed_channel c _
  · next m ch _ =>
    split
    · exact (fed_channel c ch).trans (fed_note nofun (fun _ => rfl))
    · next table hr => exact fed_route ch hr
    · next table ack hr => exact (fed_route ch hr).trans (fed_acknowledge ack deadline _)

theorem Waits.fed {deadline : Deadline} {c after : Connection} (h : Waits deadline c after) :
    Fed c after := by
  induction h with
  | refl => exact Fed.refl c
  | tail _ hm ih =>
    subst hm
    exact ih.trans (fed_takeIn deadline _)

theorem readBy_fed (id : UInt32) (length : Nat) (deadline : Deadline) (c : Connection) :
    match c.readBy id length deadline with
    | .error _ after => Fed c after
    | .ok bytes after =>
      (length ≠ 0 → bytes.length = length) ∧
      (length = 0 → bytes ≠ [] ∧ ∃ s, after.table.find? id = some s ∧ s.buffer = []) ∧
      after.taken id = c.taken id ++ bytes ∧ ∀ k, k ≠ id → after.taken k = c.taken k := by
  have hw := readBy_waits id length deadline c
  cases h : c.readBy id length deadline with
  | error e after =>
    rw [h] at hw
    exact hw.fed
  | ok bytes after =>
    rw [h] at hw
    obtain ⟨mid, left, hm, hi, rfl⟩ := hw
    obtain ⟨s, s', hs, hr, rfl⟩ := inspect_ok hi
    obtain ⟨_, _, hall, hexact⟩ := StreamState.supplying_ready hr
    have htaken (k : UInt32) : ((mid.setStream id s').note (.taken id bytes)).taken k =
        c.taken k ++ if id = k then bytes else [] := by
      rw [taken_note (o := .taken id bytes) nofun, ← hm.fed.taken k]
      rfl
    have hfound : ((mid.setStream id s').note (.taken id bytes)).table.find? id = some s' := by
      rw [Connection.note, Connection.setStream, StreamTable.find?_set, if_pos rfl, hs,
        Option.map_some]
    refine ⟨hexact, ?_, ?_, ?_⟩
    · intro h0
      exact ⟨(hall h0).1, s', hfound, (hall h0).2⟩
    · rw [htaken, if_pos rfl]
    · intro k hk
      rw [htaken, if_neg (fun hn => hk hn.symm), List.append_nil]

theorem readBy_of_closed {c : Connection} {id : UInt32} {s : StreamState} {length : Nat}
    (hs : c.table.find? id = some s) (hf : s.fault = none)
    (hl : max length 1 ≤ s.buffer.length) (deadline : Deadline) :
    ∃ after, c.readBy id length deadline =
      .ok (if length = 0 then s.buffer else s.buffer.take length) after := by
  have hi : c.inspect id (StreamState.supplying id length) =
      some (.ok (if length = 0 then s.buffer else s.buffer.take length)
        (c.setStream id { s with
          buffer := if length = 0 then [] else s.buffer.drop length })) := by
    simp only [inspect, hs, hf, StreamState.supplying, if_pos hl]
    split
    · next h0 =>
      split at h0
      · cases h0
        simp only [*, if_true]
      · cases h0
        simp only [*, if_false]
    · next h0 => split at h0 <;> cases h0
    · next h0 => split at h0 <;> cases h0
  rw [readBy, waitFor, hi]
  exact ⟨_, rfl⟩

end Connection

/-- For every stream, whoever's call read its messages off the link: what was read from it and what
is in its buffer are the payloads that came for it while it was open, each once and in order. A read
that fails takes nothing, one that succeeds takes what it was asked for from its own stream, and a
stream that is not spoilt gives what it has got, also once it is closed. -/
theorem stream_delivery (channel : Channel) (info : DeviceInfo) (settings : HostSettings)
    (events : List Event) :
    let c := ((Client.fresh channel info settings).after events).connection
    (∀ id s, c.table.find? id = some s → c.taken id ++ s.buffer = c.supplied id) ∧
    (∀ id length deadline,
      match c.readBy id length deadline with
      | .error _ after =>
        (∀ k, after.taken k = c.taken k) ∧
        ∀ k s, c.table.find? k = some s →
          ∃ t, after.table.find? k = some t ∧ s.buffer <+: t.buffer
      | .ok bytes after =>
        (length ≠ 0 → bytes.length = length) ∧
        (length = 0 → bytes ≠ [] ∧ ∃ s, after.table.find? id = some s ∧ s.buffer = []) ∧
        after.taken id = c.taken id ++ bytes ∧ ∀ k, k ≠ id → after.taken k = c.taken k) ∧
    ∀ id s length deadline, c.table.find? id = some s → s.fault = none →
      max length 1 ≤ s.buffer.length →
      ∃ after, c.readBy id length deadline =
        .ok (if length = 0 then s.buffer else s.buffer.take length) after := by
  intro c
  have hc : c.Accounted := Client.connection_after (fun _ _ => Connection.Accounted.move)
    (Connection.accounted_fresh channel info settings) events
  refine ⟨hc.balance, ?_, ?_⟩
  · intro id length deadline
    have hr := c.readBy_fed id length deadline
    cases h : c.readBy id length deadline with
    | error e after =>
      rw [h] at hr
      exact ⟨hr.taken, hr.grown⟩
    | ok bytes after =>
      rw [h] at hr
      exact hr
  · intro id s length deadline hs hf hl
    exact Connection.readBy_of_closed hs hf hl deadline

/-- A read on the second stream finds the first one's data and its end. -/
theorem stream_delivery_foreign_read :
    let message (m : Message) : Arrival := .chunk m.encode
    let link : Link := { inbound := [message ⟨.okay, 101, 1, []⟩, message ⟨.okay, 102, 2, []⟩,
      message ⟨.write, 101, 1, [97, 98]⟩, message ⟨.write, 101, 1, [99]⟩,
      message ⟨.close, 101, 1, []⟩] }
    let c := ((Client.fresh { link := link } ⟨"device", "S", "", 0, 4096⟩ {}).after
      [.call (.openStream "a" 10), .call (.openStream "b" 10), .call (.read 1 1 10),
        .call (.read 0 1 10)]).connection
    let s : StreamState := ⟨some 101, .closed, false, [98, 99], none⟩
    c.table.find? 1 = some s ∧ c.taken 1 = [97] ∧ c.supplied 1 = [97, 98, 99] ∧
      c.taken 1 ++ s.buffer = c.supplied 1 ∧
      ∃ after, c.readBy 1 0 ⟨10, 0⟩ = .ok [98, 99] after := by
  intro message link c s
  have h := stream_delivery { link := link } ⟨"device", "S", "", 0, 4096⟩ {}
    [.call (.openStream "a" 10), .call (.openStream "b" 10), .call (.read 1 1 10),
      .call (.read 0 1 10)]
  have hs : c.table.find? 1 = some s := by decide +kernel
  exact ⟨hs, by decide +kernel, by decide +kernel, h.1 1 s hs,
    h.2.2 1 s 0 ⟨10, 0⟩ hs rfl (by decide)⟩

end DroidHost
