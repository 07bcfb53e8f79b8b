import DroidHost.Proofs.Run

/-! Whose a local id is. After every run the ids in the table are those of the handles that are
neither closed nor dropped. -/
namespace DroidHost

namespace StreamTable

theorem ids_erase (t : StreamTable) (id : UInt32) : (t.erase id).ids = t.ids.filter (· ≠ id) := by
  rw [ids, erase, ids, List.filter_map]
  rfl

theorem ids_route {m : Message} {t after : StreamTable} {ack : Option Message}
    (h : t.route m = .ok (after, ack)) : after.ids = t.ids := by
  unfold route at h
  split at h
  · split at h <;> cases h
    · exact ids_set _ _ _
    · rfl
  · cases h

theorem ids_allocate (limit : UInt32) (t : StreamTable) : (t.allocate limit).2.ids = t.ids :=
  congrArg (List.map _) (entries_probe limit maxProbes t)

theorem not_mem_ids_allocate {limit id : UInt32} {t after : StreamTable}
    (h : t.allocate limit = (some id, after)) : id ∉ t.ids := by
  intro hm
  obtain ⟨s, hs⟩ := mem_ids.mp hm
  rw [find?_probe h] at hs
  cases hs

end StreamTable

namespace Connection

def ids (c : Connection) : List UInt32 := c.table.ids

theorem ids_send (m : Message) (deadline : Deadline) (c : Connection) :
    (final (c.send m deadline)).ids = c.ids :=
  congrArg StreamTable.ids (c.send_weight m deadline).2.1

theorem ids_setStream (c : Connection) (id : UInt32) (s : StreamState) :
    (c.setStream id s).ids = c.ids := StreamTable.ids_set _ _ _

theorem ids_acknowledge (ack : Message) (deadline : Deadline) (c : Connection) :
    (c.acknowledge ack deadline).ids = c.ids := by
  have h := c.ids_send ack (c.deadline (deadline.remainingOrFloor Deadline.transferFloor c.now))
  unfold acknowledge
  split
  · next hs =>
    rw [hs] at h
    exact h
  · next hs =>
    rw [hs] at h
    unfold spoil
    split
    · exact (ids_setStream _ _ _).trans h
    · exact h

theorem ids_takeIn (deadline : Deadline) (c : Connection) :
    (final (c.takeIn deadline)).ids = c.ids := by
  unfold takeIn
  split
  · split
    · rfl
    · rfl
  · split
    · rfl
    · next hr => exact StreamTable.ids_route hr
    · next hr => exact (ids_acknowledge _ _ _).trans (StreamTable.ids_route hr)

theorem Waits.ids {deadline : Deadline} {c after : Connection} (h : Waits deadline c after) :
    after.ids = c.ids := by
  induction h with
  | refl => rfl
  | tail _ hm ih =>
    subst hm
    exact (ids_takeIn deadline _).trans ih

theorem ids_inspect {id : UInt32} {look : StreamState → Look α} {c after : Connection} {a : α}
    (h : c.inspect id look = some (.ok a after)) : after.ids = c.ids := by
  obtain ⟨s, s', _, _, rfl⟩ := inspect_ok h
  exact ids_setStream _ _ _

theorem ids_waitFor (id : UInt32) (deadline : Deadline) (awaited : Awaited)
    (look : StreamState → Look α) (c : Connection) :
    (final (c.waitFor id deadline awaited look)).ids = c.ids := by
  have hw := waitFor_waits id deadline awaited look c
  cases h : c.waitFor id deadline awaited look with
  | error e after =>
    rw [h] at hw
    exact hw.ids
  | ok a after =>
    rw [h] at hw
    obtain ⟨mid, hm, hi⟩ := hw
    exact (ids_inspect hi).trans hm.ids

theorem ids_readBy (id : UInt32) (length : Nat) (deadline : Deadline) (c : Connection) :
    (final (c.readBy id length deadline)).ids = c.ids := by
  have h := ids_waitFor id deadline (.data id) (StreamState.supplying id length) c
  unfold readBy
  split
  all_goals
    next hr =>
    rw [hr] at h
    exact h

theorem ids_collect (id : UInt32) (deadline : Deadline) (got : List Bytes) (c : Connection) :
    (final (c.collect id deadline got)).ids = c.ids :=
  collect_of_reads (R := fun c after => after.ids = c.ids) (fun h h' => h'.trans h)
    (ids_readBy id 0 deadline) got c

theorem ids_sendPiece (id : UInt32) (deadline : Deadline) (piece : Bytes) (c : Connection) :
    (final (c.sendPiece id deadline piece)).ids = c.ids := by
  unfold sendPiece
  split
  · rfl
  · split
    · rfl
    · next peer _ =>
      have h := c.ids_send ⟨.write, id, peer, piece⟩ deadline
      split
      · next hs =>
        rw [hs] at h
        exact h
      · next hs =>
        rw [hs] at h
        exact (ids_setStream _ _ _).trans h

theorem ids_writePiece (id : UInt32) (deadline : Deadline) (piece : Bytes) (c : Connection) :
    (final (c.writePiece id deadline piece)).ids = c.ids := by
  have hs := ids_sendPiece id deadline piece c
  unfold writePiece
  split
  · next mid h =>
    rw [h] at hs
    exact (ids_waitFor _ _ _ _ mid).trans hs
  · next h =>
    rw [h] at hs
    exact hs

theorem ids_writePieces (id : UInt32) (deadline : Deadline) (pieces : List Bytes)
    (c : Connection) : (final (c.writePieces id deadline pieces)).ids = c.ids := by
  induction pieces generalizing c with
  | nil => rfl
  | cons piece rest ih =>
    have hp := ids_writePiece id deadline piece c
    unfold writePieces
    split
    · next mid h =>
      rw [h] at hp
      exact (ih mid).trans hp
    · next h =>
      rw [h] at hp
      exact hp

theorem ids_release (id : UInt32) (c : Connection) :
    (c.release id).ids = c.ids.filter (· ≠ id) := by
  unfold release
  split
  · next hn =>
    have hm : id ∉ c.ids := by
      intro hm
      obtain ⟨s, hs⟩ := StreamTable.mem_ids.mp hm
      rw [hn] at hs
      cases hs
    symm
    rw [List.filter_eq_self]
    intro k hk
    exact decide_eq_true (fun he : k = id => hm (he ▸ hk))
  · have hr : (c.remove id).ids = c.ids.filter (· ≠ id) := c.table.ids_erase id
    split
    · exact hr
    · exact (ids_send _ _ _).trans hr

theorem filter_ids_cons {id : UInt32} {ids : List UInt32} (h : id ∉ ids) :
    (id :: ids).filter (· ≠ id) = ids := by
  rw [List.filter_cons_of_neg (by simp), List.filter_eq_self]
  intro k hk
  exact decide_eq_true (fun he : k = id => h (he ▸ hk))

theorem ids_ask (destination : String) (deadline : Deadline) (c : Connection) :
    match c.ask destination deadline with
    | .ok id after => id ∉ c.ids ∧ after.ids = id :: c.ids
    | .error _ after => after.ids = c.ids := by
  have ha := c.table.ids_allocate c.settings.streamIdLimit
  unfold ask
  cases h : c.table.allocate c.settings.streamIdLimit with
  | mk found table =>
    rw [h] at ha
    cases found with
    | none => exact ha
    | some id =>
      have hfree : id ∉ c.ids := StreamTable.not_mem_ids_allocate h
      have he : ({ c with table := table }.enter id).ids = id :: c.ids := congrArg (id :: ·) ha
      have hs := ids_send ⟨.start, id, 0, Text.Utf8.encode destination ++ [0]⟩ deadline
        ({ c with table := table }.enter id)
      rw [he] at hs
      dsimp only
      cases hr : ({ c with table := table }.enter id).send
          ⟨.start, id, 0, Text.Utf8.encode destination ++ [0]⟩ deadline with
      | ok u after =>
        rw [hr] at hs
        exact ⟨hfree, hs⟩
      | error f after =>
        rw [hr] at hs
        have hs' : after.ids = id :: c.ids := hs
        dsimp only
        rw [ids_release, hs']
        exact filter_ids_cons hfree

theorem ids_openStream (destination : String) (budget : Nat) (c : Connection) :
    match c.openStream destination budget with
    | .ok (some s) after =>
      s.released = false ∧ s.localId ∉ c.ids ∧ after.ids = s.localId :: c.ids
    | .ok none after => after.ids = c.ids
    | .error _ after => after.ids = c.ids := by
  have ha := c.ids_ask destination (c.deadline budget)
  unfold openStream
  cases h : c.ask destination (c.deadline budget) with
  | error e after =>
    rw [h] at ha
    exact ha
  | ok id asked =>
    rw [h] at ha
    obtain ⟨hfree, hasked⟩ := ha
    have hw := ids_waitFor id (c.deadline budget) (.openReply id) StreamState.opening asked
    rw [hasked] at hw
    dsimp only
    cases hr : asked.waitFor id (c.deadline budget) (.openReply id) StreamState.opening with
    | ok accepted after =>
      rw [hr] at hw
      have hw' : after.ids = id :: c.ids := hw
      cases accepted with
      | true => exact ⟨rfl, hfree, hw'⟩
      | false =>
        dsimp only
        rw [ids_release, hw']
        exact filter_ids_cons hfree
    | error e after =>
      rw [hr] at hw
      have hw' : after.ids = id :: c.ids := hw
      dsimp only
      rw [ids_release, hw']
      exact filter_ids_cons hfree

end Connection

namespace Client

def Holds (client : Client) (i : Nat) (id : UInt32) : Prop :=
  ∃ s, client.handles[i]? = some (some s) ∧ s.released = false ∧ s.localId = id

/-- Every id in the table has one holder, and every holder's id is in the table. -/
structure Owned (client : Client) : Prop where
  held : ∀ id, id ∈ client.connection.ids ↔ ∃ i, client.Holds i id
  alone : ∀ i j id, client.Holds i id → client.Holds j id → i = j
  nodup : client.connection.ids.Nodup

theorem owned_fresh (channel : Channel) (info : DeviceInfo) (settings : HostSettings) :
    (fresh channel info settings).Owned where
  held := by
    intro id
    constructor
    · intro h
      cases h
    · rintro ⟨i, s, hs, _⟩
      cases hs
  alone := by
    rintro i j id ⟨s, hs, _⟩
    cases hs
  nodup := List.nodup_nil

theorem Owned.of_eq {client after : Client} (h : client.Owned)
    (hh : after.handles = client.handles) (hi : after.connection.ids = client.connection.ids) :
    after.Owned where
  held := by
    intro id
    rw [hi]
    simp only [Holds, hh]
    exact h.held id
  alone := by
    simp only [Holds, hh]
    exact h.alone
  nodup := by
    rw [hi]
    exact h.nodup

theorem Owned.answering {client : Client} (h : client.Owned) (answer : α → Answer)
    {r : EStateM.Result BridgeError Connection α} (hr : (final r).ids = client.connection.ids) :
    (client.answering answer r).2.Owned := by
  cases r with
  | ok a c => exact h.of_eq rfl hr
  | error e c => exact h.of_eq rfl hr

theorem holds_append {client : Client} {c : Connection} {s : Stream} (hs : s.released = false)
    (i : Nat) (id : UInt32) : Holds ⟨c, client.handles ++ [some s]⟩ i id ↔
      client.Holds i id ∨ i = client.handles.length ∧ s.localId = id := by
  unfold Holds
  rw [List.getElem?_append]
  split
  · next hlt =>
    constructor
    · exact .inl
    · rintro (h | ⟨rfl, _⟩)
      · exact h
      · exact absurd hlt (Nat.lt_irrefl _)
  · next hge =>
    have hnone : client.handles[i]? = none := List.getElem?_eq_none (Nat.le_of_not_lt hge)
    constructor
    · rintro ⟨t, ht, _, hid⟩
      obtain ⟨hlt, he⟩ := List.getElem?_eq_some_iff.mp ht
      rw [List.length_singleton] at hlt
      have hzero : i - client.handles.length = 0 := by omega
      simp only [hzero, List.getElem_singleton, Option.some.injEq] at he
      subst he
      exact .inr ⟨by omega, hid⟩
    · rintro (⟨t, ht, _⟩ | ⟨rfl, hid⟩)
      · rw [hnone] at ht
        cases ht
      · refine ⟨s, ?_, hs, hid⟩
        rw [Nat.sub_self]
        rfl

theorem Owned.keep {client : Client} (h : client.Owned)
    {r : EStateM.Result BridgeError Connection (Option Stream)}
    (hr : match r with
      | .ok (some s) after => s.released = false ∧ s.localId ∉ client.connection.ids ∧
          after.ids = s.localId :: client.connection.ids
      | .ok none after => after.ids = client.connection.ids
      | .error _ after => after.ids = client.connection.ids) : (client.keep r).2.Owned := by
  rcases r with ⟨_ | s, after⟩ | ⟨e, after⟩
  · exact h.of_eq rfl hr
  · obtain ⟨hlive, hfree, hids⟩ := hr
    have hnobody (i : Nat) : ¬ client.Holds i s.localId := by
      intro hi
      exact hfree ((h.held s.localId).mpr ⟨i, hi⟩)
    constructor
    · intro id
      change id ∈ after.ids ↔ _
      rw [hids, List.mem_cons, h.held id]
      simp only [Client.keep, holds_append hlive]
      constructor
      · rintro (rfl | ⟨i, hi⟩)
        · exact ⟨_, .inr ⟨rfl, rfl⟩⟩
        · exact ⟨i, .inl hi⟩
      · rintro ⟨i, hi | ⟨_, hid⟩⟩
        · exact .inr ⟨i, hi⟩
        · exact .inl hid.symm
    · intro i j id hi hj
      simp only [Client.keep, holds_append hlive] at hi hj
      rcases hi with hi | ⟨hi, rfl⟩
      · rcases hj with hj | ⟨hj, rfl⟩
        · exact h.alone i j id hi hj
        · exact absurd hi (hnobody i)
      · rcases hj with hj | ⟨hj, _⟩
        · exact absurd hj (hnobody j)
        · rw [hi, hj]
    · change after.ids.Nodup
      rw [hids, List.nodup_cons]
      exact ⟨hfree, h.nodup⟩
  · exact h.of_eq rfl hr

theorem holds_set {client : Client} {c : Connection} {i : Nat} {kept : Option Stream}
    (hk : ∀ s, kept = some s → s.released = true) (j : Nat) (id : UInt32) :
    Holds ⟨c, client.handles.set i kept⟩ j id ↔ client.Holds j id ∧ j ≠ i := by
  unfold Holds
  rw [List.getElem?_set]
  by_cases hj : i = j
  · subst hj
    rw [if_pos rfl]
    constructor
    · rintro ⟨s, hs, hlive, _⟩
      split at hs
      · have hreleased := hk s (Option.some.inj hs)
        rw [hlive] at hreleased
        cases hreleased
      · cases hs
    · rintro ⟨_, hn⟩
      exact absurd rfl hn
  · rw [if_neg hj]
    exact ⟨fun h => ⟨h, fun he => hj he.symm⟩, fun h => h.1⟩

theorem Owned.closing {client : Client} (h : client.Owned) {i : Nat} {s : Stream}
    (hi : client.handles[i]? = some (some s)) {kept : Stream → Option Stream}
    (hk : ∀ t, t.released = true → ∀ u, kept t = some u → u.released = true) :
    (client.closing i s kept).Owned := by
  have hkept := hk (client.connection.closeStream s).1
    (Connection.released_closeStream s client.connection)
  have hids : (client.connection.closeStream s).2.ids =
      if s.released then client.connection.ids
      else client.connection.ids.filter (· ≠ s.localId) := by
    unfold Connection.closeStream
    split
    · rfl
    · exact Connection.ids_release _ _
  have hmem (id : UInt32) : id ∈ (client.connection.closeStream s).2.ids ↔
      ∃ j, client.Holds j id ∧ j ≠ i := by
    rw [hids]
    by_cases hr : s.released = true
    · rw [if_pos hr, h.held id]
      constructor
      · rintro ⟨j, hj⟩
        refine ⟨j, hj, ?_⟩
        rintro rfl
        obtain ⟨t, ht, hlive, _⟩ := hj
        rw [hi] at ht
        cases ht
        rw [hr] at hlive
        cases hlive
      · rintro ⟨j, hj, _⟩
        exact ⟨j, hj⟩
    · -- Its id was this handle's alone, so whoever holds another id is another handle.
      have hown : client.Holds i s.localId := ⟨s, hi, Bool.eq_false_iff.mpr hr, rfl⟩
      rw [if_neg hr, List.mem_filter, h.held id, decide_eq_true_iff]
      constructor
      · rintro ⟨⟨j, hj⟩, hne⟩
        refine ⟨j, hj, ?_⟩
        rintro rfl
        obtain ⟨t, ht, _, hid⟩ := hj
        rw [hi] at ht
        cases ht
        exact hne hid.symm
      · rintro ⟨j, hj, hne⟩
        refine ⟨⟨j, hj⟩, ?_⟩
        rintro rfl
        exact hne (h.alone j i _ hj hown)
  constructor
  · intro id
    simp only [Client.closing, holds_set hkept]
    exact hmem id
  · intro j k id hj hk'
    simp only [Client.closing, holds_set hkept] at hj hk'
    exact h.alone j k id hj.1 hk'.1
  · change (client.connection.closeStream s).2.ids.Nodup
    rw [hids]
    split
    · exact h.nodup
    · exact h.nodup.filter _

theorem Owned.withHandle {client : Client} (h : client.Owned) {handle : Nat}
    {act : Stream → Answer × Client}
    (ha : ∀ s, client.handles[handle]? = some (some s) → (act s).2.Owned) :
    (client.withHandle handle act).2.Owned := by
  unfold Client.withHandle
  split
  · next s hs => exact ha s hs
  · exact h
  · exact h

theorem Owned.perform {client : Client} (h : client.Owned) (call : Call) :
    (client.perform call).2.Owned := by
  cases call with
  | openStream destination budget =>
    rw [Client.perform]
    exact h.keep (client.connection.ids_openStream destination budget)
  | openService destination budget =>
    have ho := client.connection.ids_openStream destination budget
    rw [Client.perform, Connection.openService]
    rcases hr : client.connection.openStream destination budget with ⟨_ | s, after⟩ | ⟨e, after⟩
    all_goals
      rw [hr] at ho
      exact h.keep ho
  | write handle bytes budget =>
    apply h.withHandle
    intro s _
    exact h.answering _ (Connection.ids_writePieces _ _ _ _)
  | read handle length budget =>
    apply h.withHandle
    intro s _
    exact h.answering _ (Connection.ids_readBy _ _ _ _)
  | readUntilClose handle budget =>
    apply h.withHandle
    intro s _
    exact h.answering _ (Connection.ids_collect _ _ _ _)
  | close handle =>
    apply h.withHandle
    intro s hs
    apply h.closing hs
    rintro t ht u ⟨⟩
    exact ht
  | drop handle =>
    apply h.withHandle
    intro s hs
    change (client.closing handle s fun _ => none).Owned
    apply h.closing hs
    rintro t _ u ⟨⟩

theorem Owned.happen {client : Client} (h : client.Owned) (e : Event) :
    (client.happen e).Owned := by
  cases e with
  | call call => exact h.perform call
  | supply arrivals => exact h.of_eq rfl rfl
  | plan deliveries => exact h.of_eq rfl rfl
  | pass nanos => exact h.of_eq rfl rfl
  | hangUp => exact h.of_eq rfl rfl

theorem Owned.after {client : Client} (h : client.Owned) (events : List Event) :
    (client.after events).Owned := by
  induction events generalizing client with
  | nil => exact h
  | cons e rest ih => exact ih (h.happen e)

end Client

end DroidHost
