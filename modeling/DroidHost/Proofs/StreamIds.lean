import DroidHost.Proofs.Ownership
import DroidHost.Proofs.Steps
import Mathlib.Data.List.Induction

/-! The ids in the table told from the calls alone: one for each stream that lives. -/
namespace DroidHost

namespace StreamTable

/-- Zero is nobody's, and `limit` counts as two if it is less. -/
def InRange (limit id : UInt32) : Prop := 1 ≤ id.toNat ∧ id.toNat < max limit.toNat 2

/-- The successor wraps around before it reaches the limit. -/
theorem InRange.following {limit id : UInt32} (h : InRange limit id) :
    InRange limit (following limit id) := by
  obtain ⟨_, hlt⟩ := h
  unfold StreamTable.following
  split
  · refine ⟨Nat.le_refl 1, ?_⟩
    exact Nat.lt_of_lt_of_le Nat.one_lt_two (Nat.le_max_right _ _)
  · next hbelow =>
    have hsmall : limit.toNat < 2 ^ 32 := limit.toNat_lt
    have hnext : (id + 1).toNat = id.toNat + 1 := by
      rw [UInt32.toNat_add]
      exact Nat.mod_eq_of_lt (by change id.toNat + 1 < 2 ^ 32; omega)
    rw [InRange, hnext]
    omega

theorem inRange_probe {limit : UInt32} {probes : Nat} {t after : StreamTable}
    {found : Option UInt32} (h : probe limit probes t = (found, after))
    (ht : InRange limit t.nextId) :
    InRange limit after.nextId ∧ ∀ id, found = some id → InRange limit id := by
  induction probes generalizing t with
  | zero =>
    cases h
    exact ⟨ht, nofun⟩
  | succ probes ih =>
    rw [probe] at h
    split at h
    · exact ih h ht.following
    · cases h
      refine ⟨ht.following, ?_⟩
      rintro id ⟨⟩
      exact ht

theorem nextId_of_route {m : Message} {t after : StreamTable} {ack : Option Message}
    (h : t.route m = .ok (after, ack)) : after.nextId = t.nextId := by
  unfold route at h
  split at h
  · split at h <;> cases h <;> rfl
  · cases h

end StreamTable

namespace Connection

/-- The next search starts in range, and every id in the table is in range. -/
structure Ranged (limit : UInt32) (c : Connection) : Prop where
  settled : c.settings.streamIdLimit = limit
  starts : StreamTable.InRange limit c.table.nextId
  held : ∀ id ∈ c.ids, StreamTable.InRange limit id

theorem ranged_fresh (channel : Channel) (info : DeviceInfo) (settings : HostSettings) :
    Ranged settings.streamIdLimit
      { channel := channel, info := info, settings := settings } where
  settled := rfl
  starts := ⟨Nat.le_refl 1, Nat.lt_of_lt_of_le Nat.one_lt_two (Nat.le_max_right _ _)⟩
  held := nofun

theorem Ranged.of_table {limit : UInt32} {c after : Connection} (h : c.Ranged limit)
    (hset : after.settings = c.settings) (hnext : after.table.nextId = c.table.nextId)
    (hids : ∀ id ∈ after.ids, id ∈ c.ids) : after.Ranged limit where
  settled := by
    rw [hset]
    exact h.settled
  starts := by
    rw [hnext]
    exact h.starts
  held := fun id hid => h.held id (hids id hid)

theorem Ranged.note {limit : UInt32} {c : Connection} (h : c.Ranged limit) (o : Occurrence) :
    (c.note o).Ranged limit := h.of_table rfl rfl (fun _ hid => hid)

theorem Ranged.setStream {limit : UInt32} {c : Connection} (h : c.Ranged limit) (id : UInt32)
    (s : StreamState) : (c.setStream id s).Ranged limit := by
  refine h.of_table rfl rfl ?_
  intro k hk
  rw [ids_setStream] at hk
  exact hk

theorem Ranged.allocate {limit : UInt32} {c : Connection} (h : c.Ranged limit)
    {found : Option UInt32} {table : StreamTable}
    (ha : c.table.allocate c.settings.streamIdLimit = (found, table)) :
    Ranged limit { c with table := table } ∧
      ∀ id, found = some id → StreamTable.InRange limit id := by
  rw [h.settled] at ha
  obtain ⟨hnext, hfound⟩ := StreamTable.inRange_probe ha h.starts
  have hids : table.ids = c.ids := by
    have hi := c.table.ids_allocate limit
    rw [ha] at hi
    exact hi
  refine ⟨⟨h.settled, hnext, ?_⟩, hfound⟩
  intro id hid
  change id ∈ table.ids at hid
  rw [hids] at hid
  exact h.held id hid

theorem Ranged.step {limit : UInt32} {c after : Connection} (hm : c.Step after)
    (h : c.Ranged limit) : after.Ranged limit := by
  cases hm with
  | channel ch => exact h.of_table rfl rfl (fun _ hid => hid)
  | searched ha => exact (h.allocate ha).1
  | @entered new table ha =>
    obtain ⟨hsearched, hnew⟩ := h.allocate ha
    refine ⟨h.settled, hsearched.starts, ?_⟩
    intro id hid
    rcases List.mem_cons.mp hid with rfl | hid
    · exact hnew id rfl
    · exact hsearched.held id hid
  | asked payload hs => exact h.note _
  | unsent m begun => exact h.note _
  | @routed m table ack hr =>
    refine h.of_table rfl (StreamTable.nextId_of_route hr) ?_
    intro id hid
    have hids : table.ids = c.table.ids := StreamTable.ids_route hr
    change id ∈ table.ids at hid
    rw [hids] at hid
    exact hid
  | strayed hr => exact (h.of_table rfl rfl (fun _ hid => hid)).note _
  | acknowledged id peer => exact h.note _
  | spoilt id fault =>
    unfold spoil
    split
    · exact h.setStream id _
    · exact h
  | @wrote id peer s piece hs hp => exact (h.setStream id { s with awaiting := true }).note _
  | @took id length bytes s s' hs hr => exact (h.setStream id s').note _
  | removed id =>
    have hremoved : Ranged limit { c with table := c.table.erase id } := by
      refine h.of_table rfl rfl ?_
      intro k hk
      change k ∈ (c.table.erase id).ids at hk
      rw [StreamTable.ids_erase] at hk
      exact (List.mem_filter.mp hk).1
    exact hremoved.note _
  | parted id peer => exact h.note _

end Connection

namespace Call

def asks : Call → Bool
  | .openStream _ _ => true
  | .openService _ _ => true
  | _ => false

def ends (i : Nat) : Call → Bool
  | .close j => j = i
  | .drop j => j = i
  | _ => false

end Call

namespace Client

/-- Some call opened the stream under this number with this id, and its handle has been neither
closed nor dropped since. -/
def Live (start : Client) (events : List Event) (i : Nat) (id : UInt32) : Prop :=
  ∃ earlier call later s, events = earlier ++ .call call :: later ∧
    ((start.after earlier).perform call).1 = .opened i s ∧ s.localId = id ∧
    ∀ call', .call call' ∈ later → call'.ends i = false

theorem after_append (start : Client) (events : List Event) (e : Event) :
    start.after (events ++ [e]) = (start.after events).happen e := by
  rw [after, after, List.foldl_append]
  rfl

theorem live_append {start : Client} {events : List Event} {e : Event} {i : Nat} {id : UInt32} :
    start.Live (events ++ [e]) i id ↔
      (start.Live events i id ∧ ∀ call, e = .call call → call.ends i = false) ∨
      ∃ call s, e = .call call ∧ ((start.after events).perform call).1 = .opened i s ∧
        s.localId = id := by
  constructor
  · rintro ⟨earlier, call, later, s, hevents, hopened, hid, hkept⟩
    rcases List.eq_nil_or_concat later with rfl | ⟨middle, last, rfl⟩
    · obtain ⟨rfl, he⟩ := List.append_inj' hevents rfl
      exact .inr ⟨call, s, List.singleton_inj.mp he, hopened, hid⟩
    · have hsplit : events ++ [e] = (earlier ++ .call call :: middle) ++ [last] := by
        rw [hevents, List.concat_eq_append, List.append_assoc, List.cons_append]
      obtain ⟨rfl, he⟩ := List.append_inj' hsplit rfl
      rw [List.concat_eq_append] at hkept
      refine .inl ⟨⟨earlier, call, middle, s, rfl, hopened, hid, ?_⟩, ?_⟩
      · intro call' hm
        exact hkept call' (List.mem_append_left _ hm)
      · rintro call' rfl
        apply hkept call'
        rw [← he]
        exact List.mem_append_right _ (List.mem_singleton_self _)
  · rintro (⟨⟨earlier, call, later, s, rfl, hopened, hid, hkept⟩, hlast⟩ | ⟨call, s, rfl, h⟩)
    · refine ⟨earlier, call, later ++ [e], s, ?_, hopened, hid, ?_⟩
      · rw [List.append_assoc, List.cons_append]
      · intro call' hm
        rcases List.mem_append.mp hm with hm | hm
        · exact hkept call' hm
        · exact hlast call' (List.mem_singleton.mp hm).symm
    · exact ⟨events, call, [], s, rfl, h.1, h.2, nofun⟩

theorem holds_of_handles {client after : Client} (h : after.handles = client.handles) (i : Nat)
    (id : UInt32) : after.Holds i id ↔ client.Holds i id := by
  rw [Holds, Holds, h]

theorem holds_keep {client : Client} {r : EStateM.Result BridgeError Connection (Option Stream)}
    (hr : ∀ s after, r = .ok (some s) after → s.released = false) (i : Nat) (id : UInt32) :
    (client.keep r).2.Holds i id ↔
      client.Holds i id ∨ ∃ s, (client.keep r).1 = .opened i s ∧ s.localId = id := by
  rcases r with ⟨_ | s, after⟩ | ⟨e, after⟩
  · have hno (s : Stream) : (client.keep (.ok none after)).1 ≠ .opened i s := by rintro ⟨⟩
    simp only [hno, false_and, exists_false, or_false]
    exact holds_of_handles rfl i id
  · rw [Client.keep, holds_append (hr s after rfl)]
    apply or_congr_right
    constructor
    · rintro ⟨rfl, hid⟩
      exact ⟨s, rfl, hid⟩
    · rintro ⟨t, ht, hid⟩
      obtain ⟨hi, rfl⟩ := Answer.opened.inj ht
      exact ⟨hi.symm, hid⟩
  · have hno (s : Stream) : (client.keep (.error e after)).1 ≠ .opened i s := by rintro ⟨⟩
    simp only [hno, false_and, exists_false, or_false]
    exact holds_of_handles rfl i id

theorem holds_answering {client : Client} {handle : Nat} {answer : α → Answer}
    (ha : ∀ a i t, answer a ≠ .opened i t)
    (act : Stream → EStateM.Result BridgeError Connection α) (i : Nat) (id : UInt32) :
    (client.withHandle handle fun s => client.answering answer (act s)).2.Holds i id ↔
      client.Holds i id ∨
      ∃ s, (client.withHandle handle fun s => client.answering answer (act s)).1 = .opened i s ∧
        s.localId = id := by
  unfold withHandle
  split
  · next s _ =>
    dsimp only
    generalize act s = r
    cases r with
    | ok a c =>
      simp only [answering, ha, false_and, exists_false, or_false]
      exact holds_of_handles rfl i id
    | error e c =>
      simp only [answering, reduceCtorEq, false_and, exists_false, or_false]
      exact holds_of_handles rfl i id
  · simp only [reduceCtorEq, false_and, exists_false, or_false]
  · simp only [reduceCtorEq, false_and, exists_false, or_false]

theorem holds_withHandle_closing {client : Client} {handle : Nat} (kept : Stream → Option Stream)
    (hk : ∀ t, t.released = true → ∀ u, kept t = some u → u.released = true)
    (answer : Stream → Answer) (ho : ∀ s i t, answer s ≠ .opened i t) (i : Nat) (id : UInt32) :
    (client.withHandle handle fun s => (answer s, client.closing handle s kept)).2.Holds i id ↔
      (client.Holds i id ∧ i ≠ handle) ∨
      ∃ t, (client.withHandle handle fun s => (answer s, client.closing handle s kept)).1 =
        .opened i t ∧ t.localId = id := by
  have hgone (hnone : ∀ s, client.handles[handle]? ≠ some (some s)) :
      client.Holds i id ↔ client.Holds i id ∧ i ≠ handle := by
    refine ⟨fun hi => ⟨hi, ?_⟩, And.left⟩
    rintro rfl
    obtain ⟨s, hs, _⟩ := hi
    exact hnone s hs
  unfold withHandle
  split
  · next s hs =>
    simp only [ho, false_and, exists_false, or_false]
    exact holds_set (hk _ (Connection.released_closeStream s client.connection)) i id
  · next hs =>
    simp only [reduceCtorEq, false_and, exists_false, or_false]
    exact hgone (by rw [hs]; nofun)
  · next hs =>
    simp only [reduceCtorEq, false_and, exists_false, or_false]
    exact hgone (by rw [hs]; nofun)

theorem released_of_openStream {destination : String} {budget : Nat} {c after : Connection}
    {s : Stream} (h : c.openStream destination budget = .ok (some s) after) :
    s.released = false := by
  have hs := c.ids_openStream destination budget
  rw [h] at hs
  exact hs.1

theorem holds_perform (client : Client) (call : Call) (i : Nat) (id : UInt32) :
    (client.perform call).2.Holds i id ↔ (client.Holds i id ∧ call.ends i = false) ∨
      ∃ s, (client.perform call).1 = .opened i s ∧ s.localId = id := by
  cases call with
  | openStream destination budget =>
    simp only [Call.ends, and_true]
    exact holds_keep (fun s after h => released_of_openStream h) i id
  | openService destination budget =>
    simp only [Call.ends, and_true, perform]
    cases h : client.connection.openService destination budget with
    | error e after => exact holds_keep (fun _ _ h => by cases h) i id
    | ok s after =>
      have hlive : s.released = false := by
        unfold Connection.openService at h
        split at h
        · next hs =>
          cases h
          exact released_of_openStream hs
        · cases h
        · cases h
      refine holds_keep ?_ i id
      rintro _ _ ⟨⟩
      exact hlive
  | write handle bytes budget =>
    simp only [Call.ends, and_true]
    exact holds_answering (fun _ _ _ h => by cases h)
      (fun s => client.connection.write s.localId bytes budget) i id
  | read handle length budget =>
    simp only [Call.ends, and_true]
    exact holds_answering (fun _ _ _ h => by cases h)
      (fun s => client.connection.read s.localId length budget) i id
  | readUntilClose handle budget =>
    simp only [Call.ends, and_true]
    exact holds_answering (fun _ _ _ h => by cases h)
      (fun s => client.connection.readUntilClose s.localId budget) i id
  | close handle =>
    simp only [Call.ends, decide_eq_false_iff_not, eq_comm (a := handle)]
    exact holds_withHandle_closing some (fun t ht u hu => Option.some.inj hu ▸ ht)
      (fun s => .closed ((client.closing handle s some).connection.isClosed
        { s with released := true })) (fun _ _ _ h => by cases h) i id
  | drop handle =>
    simp only [Call.ends, decide_eq_false_iff_not, eq_comm (a := handle)]
    exact holds_withHandle_closing (fun _ => none) (fun _ _ _ h => by cases h) (fun _ => .dropped)
      (fun _ _ _ h => by cases h) i id

theorem holds_after_iff {channel : Channel} {info : DeviceInfo} {settings : HostSettings}
    (events : List Event) (i : Nat) (id : UInt32) :
    ((fresh channel info settings).after events).Holds i id ↔
      (fresh channel info settings).Live events i id := by
  induction events using List.reverseRecOn with
  | nil =>
    constructor
    · rintro ⟨s, hs, _⟩
      cases hs
    · rintro ⟨earlier, call, later, s, hnil, _⟩
      exact absurd hnil.symm (List.append_ne_nil_of_right_ne_nil _ (List.cons_ne_nil _ _))
  | append_singleton events e ih =>
    rw [after_append, live_append, ← ih]
    have houtside (hh : (happen ((fresh channel info settings).after events) e).handles =
        ((fresh channel info settings).after events).handles) (hno : ∀ call, e ≠ .call call) :
        (happen ((fresh channel info settings).after events) e).Holds i id ↔
          (((fresh channel info settings).after events).Holds i id ∧
            ∀ call, e = .call call → call.ends i = false) ∨
          ∃ call s, e = .call call ∧
            (((fresh channel info settings).after events).perform call).1 = .opened i s ∧
              s.localId = id := by
      simp only [hno, false_implies, implies_true, and_true, false_and, exists_false, or_false]
      exact holds_of_handles hh i id
    cases e with
    | call call =>
      simp only [happen, holds_perform, Event.call.injEq, forall_eq', exists_and_left,
        exists_eq_left']
    | supply arrivals => exact houtside rfl nofun
    | plan deliveries => exact houtside rfl nofun
    | pass nanos => exact houtside rfl nofun
    | hangUp => exact houtside rfl nofun

theorem ids_perform_of_asks {client : Client} {call : Call} (hasks : call.asks = true)
    (hno : ∀ i s, (client.perform call).1 ≠ .opened i s) :
    (client.perform call).2.connection.ids = client.connection.ids := by
  cases call with
  | openStream destination budget =>
    have ho := client.connection.ids_openStream destination budget
    rw [perform] at hno ⊢
    rcases hr : client.connection.openStream destination budget with ⟨_ | s, after⟩ | ⟨e, after⟩
    · rw [hr] at ho
      exact ho
    · rw [hr] at hno
      exact absurd rfl (hno client.handles.length s)
    · rw [hr] at ho
      exact ho
  | openService destination budget =>
    have ho := client.connection.ids_openStream destination budget
    rw [perform, Connection.openService] at hno ⊢
    rcases hr : client.connection.openStream destination budget with ⟨_ | s, after⟩ | ⟨e, after⟩
    · rw [hr] at ho
      exact ho
    · rw [hr] at hno
      exact absurd rfl (hno client.handles.length s)
    · rw [hr] at ho
      exact ho
  | write handle bytes budget => cases hasks
  | read handle length budget => cases hasks
  | readUntilClose handle budget => cases hasks
  | close handle => cases hasks
  | drop handle => cases hasks

theorem connection_perform_of_ends (client : Client) {call : Call} {i : Nat}
    (hends : call.ends i = true) :
    (∃ id, client.Holds i id ∧
      (client.perform call).2.connection = client.connection.release id) ∨
    (∀ id, ¬ client.Holds i id) ∧ (client.perform call).2.connection = client.connection := by
  have hclosing (kept : Stream → Option Stream) (answer : Stream → Answer) :
      (∃ id, client.Holds i id ∧
        (client.withHandle i fun s => (answer s, client.closing i s kept)).2.connection =
          client.connection.release id) ∨
      (∀ id, ¬ client.Holds i id) ∧
        (client.withHandle i fun s => (answer s, client.closing i s kept)).2.connection =
          client.connection := by
    unfold withHandle
    split
    · next s hs =>
      cases hr : s.released with
      | false =>
        refine .inl ⟨s.localId, ⟨s, hs, hr, rfl⟩, ?_⟩
        simp only [closing, Connection.closeStream, hr, Bool.false_eq_true, if_false]
      | true =>
        refine .inr ⟨?_, ?_⟩
        · rintro id ⟨t, ht, hlive, _⟩
          rw [hs] at ht
          cases ht
          rw [hr] at hlive
          cases hlive
        · simp only [closing, Connection.closeStream, hr, if_true]
    · next hs =>
      refine .inr ⟨?_, rfl⟩
      rintro id ⟨t, ht, _⟩
      rw [hs] at ht
      cases ht
    · next hs =>
      refine .inr ⟨?_, rfl⟩
      rintro id ⟨t, ht, _⟩
      rw [hs] at ht
      cases ht
  cases call with
  | close handle =>
    obtain rfl : handle = i := of_decide_eq_true hends
    exact hclosing some _
  | drop handle =>
    obtain rfl : handle = i := of_decide_eq_true hends
    exact hclosing (fun _ => none) _
  | openStream destination budget => cases hends
  | openService destination budget => cases hends
  | write handle bytes budget => cases hends
  | read handle length budget => cases hends
  | readUntilClose handle budget => cases hends

end Client

theorem Connection.find?_release {id k : UInt32} (hk : k ≠ id) (c : Connection) :
    (c.release id).table.find? k = c.table.find? k := by
  have hr : (c.remove id).table.find? k = c.table.find? k := by
    rw [Connection.remove, Connection.note, StreamTable.find?_erase, if_neg hk]
  unfold Connection.release
  split
  · rfl
  · split
    · exact hr
    · next m _ =>
      rw [((c.remove id).tell_weight m c.settings.closeTimeout).2.1]
      exact hr

/-- After every run the ids in the table are those of the streams that live, distinct and in range.
A call that opens no stream leaves them as they were. Closing or dropping a handle ends the stream
that lives under its number; if none does, nothing changes at all. -/
theorem stream_ids (channel : Channel) (info : DeviceInfo) (settings : HostSettings)
    (events : List Event) :
    let start := Client.fresh channel info settings
    let client := start.after events
    let c := client.connection
    (∀ id, id ∈ c.ids ↔ ∃ i, start.Live events i id) ∧ c.ids.Nodup ∧
    (∀ i j id, start.Live events i id → start.Live events j id → i = j) ∧
    (∀ id ∈ c.ids, StreamTable.InRange settings.streamIdLimit id) ∧
    (∀ call, call.asks = true → (∀ i s, (client.perform call).1 ≠ .opened i s) →
      (client.perform call).2.connection.ids = c.ids) ∧
    ∀ call i, call.ends i = true →
      ((∀ id, ¬ start.Live events i id) → (client.perform call).2.connection = c) ∧
      ∀ j id, start.Live events j id → j ≠ i →
        id ∈ (client.perform call).2.connection.ids ∧
          (client.perform call).2.connection.table.find? id = c.table.find? id := by
  intro start client c
  have howned : client.Owned := (Client.owned_fresh channel info settings).after events
  have hlive (i : Nat) (id : UInt32) : client.Holds i id ↔ start.Live events i id :=
    Client.holds_after_iff events i id
  have hranged : c.Ranged settings.streamIdLimit :=
    Client.connection_after_steps (fun _ _ => Connection.Ranged.step)
      (Connection.ranged_fresh channel info settings) events
  simp only [← hlive]
  refine ⟨howned.held, howned.nodup, howned.alone, hranged.held, ?_, ?_⟩
  · intro call hasks hno
    exact Client.ids_perform_of_asks hasks hno
  · intro call i hends
    rcases client.connection_perform_of_ends hends with
      ⟨freed, hfreed, hc⟩ | ⟨hnobody, hc⟩
    · refine ⟨fun hnone => absurd hfreed (hnone freed), ?_⟩
      intro j id hj hne
      -- The id that is freed is another's, for each id has one holder.
      have hother : id ≠ freed := by
        rintro rfl
        exact hne (howned.alone j i id hj hfreed)
      have hfound : (c.release freed).table.find? id = c.table.find? id :=
        Connection.find?_release hother c
      refine ⟨?_, by rw [hc, hfound]⟩
      rw [hc, Connection.ids_release, List.mem_filter]
      exact ⟨(howned.held id).mpr ⟨j, hj⟩, decide_eq_true hother⟩
    · refine ⟨fun _ => hc, ?_⟩
      intro j id hj _
      rw [hc]
      exact ⟨(howned.held id).mpr ⟨j, hj⟩, rfl⟩

/-- The second stream gets the only id once the first is closed; closing the first again does
nothing, and a third finds none. -/
theorem stream_ids_handed_on :
    let link : Link := { inbound := [.chunk (Message.encode ⟨.okay, 100, 1, []⟩),
      .chunk (Message.encode ⟨.okay, 101, 1, []⟩)] }
    let start := Client.fresh { link := link } ⟨"device", "S", "", 0, 4096⟩ { streamIdLimit := 2 }
    let events : List Event := [.call (.openStream "a" 10), .call (.close 0),
      .call (.openStream "b" 10)]
    let client := start.after events
    start.Live events 1 1 ∧ (∀ id, ¬ start.Live events 0 id) ∧
      (client.perform (.close 0)).2.connection = client.connection ∧
      1 ∈ (client.perform (.drop 0)).2.connection.ids ∧
      (client.perform (.openStream "c" 10)).1 = .failed (.unavailable .outOfIds) ∧
      (client.perform (.openStream "c" 10)).2.connection.ids = client.connection.ids := by
  intro link start events client
  obtain ⟨_, _, _, _, hopen, hend⟩ := stream_ids { link := link }
    ⟨"device", "S", "", 0, 4096⟩ { streamIdLimit := 2 } events
  have hclosed : ∀ id, ¬ start.Live events 0 id := by
    intro id hlive
    obtain ⟨s, hs, hkept, _⟩ := (Client.holds_after_iff events 0 id).mpr hlive
    have hhandles : client.handles[0]? = some (some ⟨"a", 1, true⟩) := by decide +kernel
    rw [hhandles] at hs
    cases hs
    cases hkept
  have hlive : start.Live events 1 1 :=
    ⟨[.call (.openStream "a" 10), .call (.close 0)], .openStream "b" 10, [], ⟨"b", 1, false⟩, rfl,
      by decide +kernel, rfl, nofun⟩
  have hnone : (client.perform (.openStream "c" 10)).1 = .failed (.unavailable .outOfIds) := by
    decide +kernel
  refine ⟨hlive, hclosed, ?_, ?_, hnone, ?_⟩
  · exact (hend (.close 0) 0 rfl).1 hclosed
  · exact ((hend (.drop 0) 0 rfl).2 1 1 hlive Nat.one_ne_zero).1
  · apply hopen (.openStream "c" 10) rfl
    intro i s
    rw [hnone]
    nofun

end DroidHost
