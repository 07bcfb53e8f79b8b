import DroidHost.Proofs.StreamIds
import Mathlib.Data.Finset.Card
import Mathlib.Logic.Function.Iterate

/-! The search for a free id, in the cyclic order of the ids. It gives up only where as many are in
use as it looks at, or all there are. -/
namespace DroidHost

namespace StreamTable

/-- How many ids there are. -/
def span (limit : UInt32) : Nat := max limit.toNat 2 - 1

/-- The id whose turn it is `i` turns after that of `start`. -/
def turn (limit start : UInt32) (i : Nat) : UInt32 := (following limit)^[i] start

def ahead (limit start id : UInt32) : Nat := (id.toNat + span limit - start.toNat) % span limit

variable {limit start id : UInt32} {t : StreamTable}

theorem span_pos (limit : UInt32) : 0 < span limit := by
  unfold span
  omega

theorem turn_succ (limit start : UInt32) (i : Nat) :
    turn limit start (i + 1) = turn limit (following limit start) i :=
  Function.iterate_succ_apply ..

theorem turn_step (limit start : UInt32) (i : Nat) :
    turn limit start (i + 1) = following limit (turn limit start i) :=
  Function.iterate_succ_apply' ..

theorem inRange_turn (h : InRange limit start) (i : Nat) : InRange limit (turn limit start i) := by
  induction i with
  | zero => exact h
  | succ i ih =>
    rw [turn_step]
    exact ih.following

theorem InRange.succ_lt_size (h : InRange limit id) : id.toNat + 1 < UInt32.size := by
  have hlimit : limit.toNat < UInt32.size := limit.toNat_lt
  have htwo : 2 < UInt32.size := by decide
  obtain ⟨_, hlt⟩ := h
  omega

theorem InRange.le_span (h : InRange limit id) : id.toNat ≤ span limit := by
  have hlt := h.2
  unfold span
  omega

theorem toNat_following (h : InRange limit id) :
    (following limit id).toNat = id.toNat % span limit + 1 := by
  have hspan : span limit + 1 = max limit.toNat 2 := by
    unfold span
    omega
  have hlast := h.le_span
  unfold following
  split
  · next hreached =>
    have hend : id.toNat = span limit := by omega
    rw [hend, Nat.mod_self]
    rfl
  · next hbelow =>
    have hnext : (id + 1).toNat = id.toNat + 1 := by
      rw [UInt32.toNat_add]
      exact Nat.mod_eq_of_lt h.succ_lt_size
    rw [hnext, Nat.mod_eq_of_lt (by omega)]

theorem toNat_turn (h : InRange limit start) (i : Nat) :
    (turn limit start i).toNat = (start.toNat - 1 + i) % span limit + 1 := by
  have hone := h.1
  have hlast := h.le_span
  induction i with
  | zero =>
    have hsum : (start.toNat - 1 + 0) % span limit = start.toNat - 1 :=
      Nat.mod_eq_of_lt (by omega)
    rw [hsum, Nat.sub_add_cancel hone]
    rfl
  | succ i ih =>
    calc (turn limit start (i + 1)).toNat
        = (turn limit start i).toNat % span limit + 1 := by
          rw [turn_step]
          exact toNat_following (inRange_turn h i)
      _ = (start.toNat - 1 + (i + 1)) % span limit + 1 := by
          rw [ih, Nat.mod_add_mod, Nat.add_assoc]

theorem ahead_turn (h : InRange limit start) {i : Nat} (hi : i < span limit) :
    ahead limit start (turn limit start i) = i := by
  have hone := h.1
  have hlast := h.le_span
  rw [ahead, toNat_turn h]
  -- The turns either stay below the last id or come round once.
  rcases Nat.lt_or_ge (start.toNat - 1 + i) (span limit) with hbelow | hround
  · have hsum : (start.toNat - 1 + i) + 1 + span limit - start.toNat = i + span limit := by omega
    rw [Nat.mod_eq_of_lt hbelow, hsum, Nat.add_mod_right, Nat.mod_eq_of_lt hi]
  · have hrest : (start.toNat - 1 + i) % span limit = start.toNat - 1 + i - span limit := by
      rw [Nat.mod_eq_sub_mod hround]
      exact Nat.mod_eq_of_lt (by omega)
    have hsum : (start.toNat - 1 + i - span limit) + 1 + span limit - start.toNat = i := by omega
    rw [hrest, hsum, Nat.mod_eq_of_lt hi]

theorem turn_ahead (h : InRange limit start) (hid : InRange limit id) :
    turn limit start (ahead limit start id) = id := by
  have hone := h.1
  have hstart := h.le_span
  have hone' := hid.1
  have hlast := hid.le_span
  apply UInt32.toNat_inj.mp
  have hsum : start.toNat - 1 + (id.toNat + span limit - start.toNat) =
      id.toNat - 1 + span limit := by omega
  calc (turn limit start (ahead limit start id)).toNat
      = (start.toNat - 1 + (id.toNat + span limit - start.toNat)) % span limit + 1 := by
        rw [toNat_turn h, ahead, Nat.add_mod_mod]
    _ = (id.toNat - 1) % span limit + 1 := by rw [hsum, Nat.add_mod_right]
    _ = id.toNat := by
        rw [Nat.mod_eq_of_lt (show id.toNat - 1 < span limit from by omega),
          Nat.sub_add_cancel hone']

/-- A search goes on as long as the ids are in use. It ends at the first free one, and the next
search starts behind it. -/
theorem probe_cases (limit : UInt32) (probes : Nat) (t : StreamTable) :
    (∃ i < probes, t.find? (turn limit t.nextId i) = none ∧
      (∀ j < i, turn limit t.nextId j ∈ t.ids) ∧
      probe limit probes t = (some (turn limit t.nextId i),
        { t with nextId := turn limit t.nextId (i + 1) })) ∨
    (∀ j < probes, turn limit t.nextId j ∈ t.ids) ∧
      probe limit probes t = (none, { t with nextId := turn limit t.nextId probes }) := by
  -- The search after one probe is a search of the table that is one turn on.
  induction probes generalizing t with
  | zero => exact .inr ⟨fun j hj => absurd hj (Nat.not_lt_zero j), rfl⟩
  | succ probes ih =>
    cases hfound : t.find? t.nextId with
    | none =>
      have hfree : t.contains t.nextId = false := by rw [contains, hfound, Option.isSome_none]
      refine .inl ⟨0, Nat.succ_pos probes, hfound, fun j hj => absurd hj (Nat.not_lt_zero j), ?_⟩
      simp only [probe, hfree, Bool.false_eq_true, if_false]
      rfl
    | some s =>
      have hused : t.contains t.nextId = true := by rw [contains, hfound, Option.isSome_some]
      have hmem : turn limit t.nextId 0 ∈ t.ids := mem_ids.mpr ⟨s, hfound⟩
      let moved : StreamTable := { t with nextId := following limit t.nextId }
      have hprobe : probe limit (probes + 1) t = probe limit probes moved := by
        simp only [probe, hused, if_true, moved]
      have hturn (i : Nat) : turn limit moved.nextId i = turn limit t.nextId (i + 1) :=
        (turn_succ limit t.nextId i).symm
      have hbefore {n : Nat} (h : ∀ j < n, turn limit moved.nextId j ∈ moved.ids) :
          ∀ j < n + 1, turn limit t.nextId j ∈ t.ids := by
        intro j hj
        cases j with
        | zero => exact hmem
        | succ j =>
          rw [← hturn]
          exact h j (Nat.lt_of_succ_lt_succ hj)
      rcases ih moved with ⟨i, hi, hnone, hall, hr⟩ | ⟨hall, hr⟩
      · rw [hturn] at hnone
        rw [hturn, hturn] at hr
        exact .inl ⟨i + 1, Nat.succ_lt_succ hi, hnone, hbefore hall, hprobe.trans hr⟩
      · rw [hturn] at hr
        exact .inr ⟨hbefore hall, hprobe.trans hr⟩

theorem first_of_probe (h : InRange limit t.nextId) {i : Nat}
    (hall : ∀ j < i, turn limit t.nextId j ∈ t.ids) {k : UInt32} (hk : InRange limit k)
    (hfree : t.find? k = none) (hne : k ≠ turn limit t.nextId i) :
    ahead limit t.nextId (turn limit t.nextId i) < ahead limit t.nextId k := by
  have hround : ahead limit t.nextId k < span limit := Nat.mod_lt _ (span_pos limit)
  have hturn := turn_ahead h hk
  have hlt : i < ahead limit t.nextId k := by
    refine Nat.lt_of_not_le (fun hle => ?_)
    rcases Nat.lt_or_eq_of_le hle with hlt | heq
    · have hused := hall _ hlt
      rw [hturn] at hused
      obtain ⟨s, hs⟩ := mem_ids.mp hused
      rw [hfree] at hs
      cases hs
    · rw [heq] at hturn
      exact hne hturn.symm
  rw [ahead_turn h (Nat.lt_trans hlt hround)]
  exact hlt

theorem card_of_turns (h : InRange limit t.nextId) {n : Nat} (hn : n ≤ span limit)
    (hall : ∀ j < n, turn limit t.nextId j ∈ t.ids) : n ≤ t.ids.toFinset.card := by
  have hinj : Set.InjOn (turn limit t.nextId) (Finset.range n : Set Nat) := by
    intro i hi j hj hij
    have hi' : i < span limit := Nat.lt_of_lt_of_le (Finset.mem_range.mp hi) hn
    have hj' : j < span limit := Nat.lt_of_lt_of_le (Finset.mem_range.mp hj) hn
    calc i = ahead limit t.nextId (turn limit t.nextId i) := (ahead_turn h hi').symm
      _ = ahead limit t.nextId (turn limit t.nextId j) := by rw [hij]
      _ = j := ahead_turn h hj'
  have hsub : (Finset.range n).image (turn limit t.nextId) ⊆ t.ids.toFinset := by
    intro id hid
    obtain ⟨j, hj, rfl⟩ := Finset.mem_image.mp hid
    exact List.mem_toFinset.mpr (hall j (Finset.mem_range.mp hj))
  calc n = ((Finset.range n).image (turn limit t.nextId)).card := by
        rw [Finset.card_image_of_injOn hinj, Finset.card_range]
    _ ≤ t.ids.toFinset.card := Finset.card_le_card hsub

/-- Tables as they come about under a limit, with the ids that were given out so far. -/
inductive Used (limit : UInt32) : List UInt32 → StreamTable → Prop
  | fresh : Used limit [] {}
  | searched {given : List UInt32} {t : StreamTable} (h : Used limit given t) :
    Used limit ((t.allocate limit).1.toList ++ given) (t.allocate limit).2
  | entered {given : List UInt32} {t : StreamTable} (h : Used limit given t) {id : UInt32}
    (hid : id ∈ given) (s : StreamState) : Used limit given (t.insert id s)
  | changed {given : List UInt32} {t : StreamTable} (h : Used limit given t) (id : UInt32)
    (s : StreamState) : Used limit given (t.set id s)
  | removed {given : List UInt32} {t : StreamTable} (h : Used limit given t) (id : UInt32) :
    Used limit given (t.erase id)

theorem Used.inRange {given : List UInt32} {t : StreamTable} (h : Used limit given t) :
    InRange limit t.nextId ∧ (∀ id ∈ given, InRange limit id) ∧ ∀ id ∈ t.ids, id ∈ given := by
  induction h with
  | fresh =>
    refine ⟨⟨Nat.le_refl 1, ?_⟩, nofun, nofun⟩
    exact Nat.lt_of_lt_of_le Nat.one_lt_two (Nat.le_max_right _ _)
  | @searched given t h ih =>
    obtain ⟨hstart, hgiven, hheld⟩ := ih
    obtain ⟨hnext, hfound⟩ := inRange_probe (Prod.mk.eta (p := t.allocate limit)).symm hstart
    refine ⟨hnext, ?_, ?_⟩
    · intro id hid
      rcases List.mem_append.mp hid with hid | hid
      · exact hfound id (Option.mem_toList.mp hid)
      · exact hgiven id hid
    · intro id hid
      rw [ids_allocate] at hid
      exact List.mem_append_right _ (hheld id hid)
  | entered h hid s ih =>
    obtain ⟨hstart, hgiven, hheld⟩ := ih
    refine ⟨hstart, hgiven, ?_⟩
    intro k hk
    rcases List.mem_cons.mp hk with rfl | hk
    · exact hid
    · exact hheld k hk
  | changed h id s ih =>
    obtain ⟨hstart, hgiven, hheld⟩ := ih
    refine ⟨hstart, hgiven, ?_⟩
    intro k hk
    rw [ids_set] at hk
    exact hheld k hk
  | removed h id ih =>
    obtain ⟨hstart, hgiven, hheld⟩ := ih
    refine ⟨hstart, hgiven, ?_⟩
    intro k hk
    rw [ids_erase] at hk
    exact hheld k (List.mem_filter.mp hk).1

theorem card_of_allocate_none {t : StreamTable} (h : InRange limit t.nextId)
    (hnone : (t.allocate limit).1 = none) :
    min maxProbes (span limit) ≤ t.ids.toFinset.card := by
  rcases probe_cases limit maxProbes t with ⟨i, _, _, _, hr⟩ | ⟨hall, _⟩
  · rw [allocate, hr] at hnone
    cases hnone
  · apply card_of_turns h (Nat.min_le_right _ _)
    intro j hj
    exact hall j (Nat.lt_of_lt_of_le hj (Nat.min_le_left _ _))

end StreamTable

namespace Connection

theorem Step.used {limit : UInt32} {c after : Connection} (h : c.Step after)
    (hc : c.settings.streamIdLimit = limit ∧ ∃ given, StreamTable.Used limit given c.table) :
    after.settings.streamIdLimit = limit ∧
      ∃ given, StreamTable.Used limit given after.table := by
  obtain ⟨hlimit, given, hused⟩ := hc
  cases h with
  | channel ch => exact ⟨hlimit, given, hused⟩
  | searched ha =>
    rw [hlimit] at ha
    have hsearched := hused.searched
    rw [ha] at hsearched
    exact ⟨hlimit, _, hsearched⟩
  | @entered id table ha =>
    rw [hlimit] at ha
    have hsearched := hused.searched
    rw [ha] at hsearched
    exact ⟨hlimit, _, hsearched.entered (List.mem_cons_self ..) .fresh⟩
  | asked payload hs => exact ⟨hlimit, given, hused⟩
  | unsent m begun => exact ⟨hlimit, given, hused⟩
  | @routed m table ack hr =>
    refine ⟨hlimit, given, ?_⟩
    unfold StreamTable.route at hr
    split at hr
    · split at hr
      · cases hr
        exact hused.changed m.arg1 _
      · cases hr
        exact hused
    · cases hr
  | strayed hr => exact ⟨hlimit, given, hused⟩
  | acknowledged id peer => exact ⟨hlimit, given, hused⟩
  | spoilt id fault =>
    unfold spoil
    split
    · exact ⟨hlimit, given, hused.changed id _⟩
    · exact ⟨hlimit, given, hused⟩
  | @wrote id peer s piece hs hp => exact ⟨hlimit, given, hused.changed id _⟩
  | @took id length bytes s s' hs hr => exact ⟨hlimit, given, hused.changed id s'⟩
  | removed id => exact ⟨hlimit, given, hused.removed id⟩
  | parted id peer => exact ⟨hlimit, given, hused⟩

end Connection

theorem id_for_few_streams (channel : Channel) (info : DeviceInfo) (settings : HostSettings)
    (events : List Event) :
    let c := ((Client.fresh channel info settings).after events).connection
    c.openStreams < min 64 (max settings.streamIdLimit.toNat 2 - 1) →
      ∃ id, (c.table.allocate c.settings.streamIdLimit).1 = some id := by
  intro c hfew
  obtain ⟨hlimit, given, hused⟩ : c.settings.streamIdLimit = settings.streamIdLimit ∧
      ∃ given, StreamTable.Used settings.streamIdLimit given c.table :=
    Client.connection_after_steps (fun _ _ hstep hc => hstep.used hc) ⟨rfl, [], .fresh⟩ events
  rw [hlimit]
  refine Option.ne_none_iff_exists'.mp (fun hnone => ?_)
  have hmany := StreamTable.card_of_allocate_none hused.inRange.1 hnone
  have hopen : c.table.ids.toFinset.card ≤ c.openStreams := by
    calc c.table.ids.toFinset.card
        ≤ c.table.ids.length := List.toFinset_card_le _
      _ = c.openStreams := List.length_map ..
  exact absurd hfew (Nat.not_lt.mpr (Nat.le_trans hmany hopen))

/-- Under any limit, whatever was done to the table before: an id that is found is in range, free,
and the first such from where the search starts. None is found only where at least 64 ids are in
use, or all there are. -/
theorem first_free_id {limit : UInt32} {given : List UInt32} {t : StreamTable}
    (h : StreamTable.Used limit given t) :
    let found := (t.allocate limit).1
    let after := (t.allocate limit).2
    StreamTable.InRange limit t.nextId ∧ StreamTable.InRange limit after.nextId ∧
    after.entries = t.entries ∧
    (∀ i, (StreamTable.turn limit t.nextId i).toNat + 1 < UInt32.size) ∧
    (∀ id, found = some id →
      StreamTable.InRange limit id ∧ t.find? id = none ∧
      after.nextId = StreamTable.following limit id ∧
      ∀ k, StreamTable.InRange limit k → t.find? k = none → k ≠ id →
        StreamTable.ahead limit t.nextId id < StreamTable.ahead limit t.nextId k) ∧
    (found = none → min 64 (max limit.toNat 2 - 1) ≤ t.ids.toFinset.card) := by
  intro found after
  have hstart := h.inRange.1
  have hwhole : t.allocate limit = (found, after) := rfl
  refine ⟨hstart, (StreamTable.inRange_probe hwhole hstart).1,
    StreamTable.entries_probe limit StreamTable.maxProbes t, ?_, ?_,
    StreamTable.card_of_allocate_none hstart⟩
  · intro i
    exact (StreamTable.inRange_turn hstart i).succ_lt_size
  · intro id hid
    rcases StreamTable.probe_cases limit StreamTable.maxProbes t with
      ⟨i, _, hfree, hall, hr⟩ | ⟨_, hr⟩
    · obtain ⟨hfound, hafter⟩ := Prod.mk.inj (hwhole.symm.trans hr)
      obtain rfl : StreamTable.turn limit t.nextId i = id :=
        Option.some.inj (hfound.symm.trans hid)
      refine ⟨StreamTable.inRange_turn hstart i, hfree, ?_, ?_⟩
      · rw [hafter]
        exact StreamTable.turn_step limit t.nextId i
      · intro k hk hnone hne
        exact StreamTable.first_of_probe hstart hall hk hnone hne
    · obtain ⟨hfound, _⟩ := Prod.mk.inj (hwhole.symm.trans hr)
      rw [hfound] at hid
      cases hid

/-- Three ids, two of them in use: the search comes round to the one in between, and then finds
none. -/
theorem first_free_id_round :
    let table : StreamTable := ⟨3, [(3, .fresh), (1, .fresh)]⟩
    let full := (table.allocate 4).2.insert 2 .fresh
    (table.allocate 4).1 = some 2 ∧ StreamTable.ahead 4 3 2 = 2 ∧
    (∀ k, StreamTable.InRange 4 k → table.find? k = none → k ≠ 2 →
      StreamTable.ahead 4 3 2 < StreamTable.ahead 4 3 k) ∧
    (full.allocate 4).1 = none ∧ 3 ≤ full.ids.toFinset.card := by
  intro table full
  have hone : StreamTable.Used 4 [1] ⟨2, [(1, .fresh)]⟩ :=
    StreamTable.Used.fresh.searched.entered (List.mem_cons_self ..) .fresh
  have hthree : StreamTable.Used 4 [3, 2, 1] ⟨1, [(3, .fresh), (1, .fresh)]⟩ :=
    hone.searched.searched.entered (List.mem_cons_self ..) .fresh
  have htable : StreamTable.Used 4 [2, 3, 2, 1] table := hthree.searched
  have hfull : StreamTable.Used 4 [2, 2, 3, 2, 1] full :=
    htable.searched.entered (List.mem_cons_self ..) .fresh
  have hfound : (table.allocate 4).1 = some 2 := by decide +kernel
  have hnone : (full.allocate 4).1 = none := by decide +kernel
  obtain ⟨_, _, _, _, hfirst, _⟩ := first_free_id htable
  obtain ⟨_, _, _, _, _, hmany⟩ := first_free_id hfull
  exact ⟨hfound, by decide +kernel, (hfirst 2 hfound).2.2.2, hnone, hmany hnone⟩

end DroidHost
