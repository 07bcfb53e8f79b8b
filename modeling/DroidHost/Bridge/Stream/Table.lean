import DroidHost.Bridge.Stream.State

/-! The streams of a connection by their local ids, and the choice of the next id. -/
namespace DroidHost

structure StreamTable where
  /-- Where the search for a free id starts. -/
  nextId : UInt32 := 1
  entries : List (UInt32 × StreamState) := []
  deriving DecidableEq, Repr

namespace StreamTable

/-- Ids looked at before a search is given up. -/
def maxProbes : Nat := 64

def find? (t : StreamTable) (id : UInt32) : Option StreamState := t.entries.lookup id

def contains (t : StreamTable) (id : UInt32) : Bool := (t.find? id).isSome

def ids (t : StreamTable) : List UInt32 := t.entries.map (·.1)

def insert (t : StreamTable) (id : UInt32) (s : StreamState) : StreamTable :=
  { t with entries := (id, s) :: t.entries }

def erase (t : StreamTable) (id : UInt32) : StreamTable :=
  { t with entries := t.entries.filter (·.1 ≠ id) }

def replaceIn (id : UInt32) (s : StreamState) :
    List (UInt32 × StreamState) → List (UInt32 × StreamState)
  | [] => []
  | (k, old) :: rest => if id == k then (k, s) :: rest else (k, old) :: replaceIn id s rest

def set (t : StreamTable) (id : UInt32) (s : StreamState) : StreamTable :=
  { t with entries := replaceIn id s t.entries }

/-- Ids lie below `limit`, which counts as two if it is less, and come round to one. -/
def following (limit id : UInt32) : UInt32 :=
  if max limit.toNat 2 ≤ id.toNat + 1 then 1 else id + 1

def probe (limit : UInt32) : (probes : Nat) → StreamTable → Option UInt32 × StreamTable
  | 0, t => (none, t)
  | probes + 1, t =>
    let moved := { t with nextId := following limit t.nextId }
    if t.contains t.nextId then probe limit probes moved else (some t.nextId, moved)

def allocate (limit : UInt32) (t : StreamTable) : Option UInt32 × StreamTable :=
  probe limit maxProbes t

/-- A message to an unknown stream is dropped. -/
def route (m : Message) (t : StreamTable) : Except BridgeError (StreamTable × Option Message) :=
  if m.command = .okay ∨ m.command = .close ∨ m.command = .write then
    match t.find? m.arg1 with
    | some s => .ok (t.set m.arg1 (s.apply m.arg1 m).1, (s.apply m.arg1 m).2)
    | none => .ok (t, none)
  else .error (.protocol (.unexpected m.command m.arg0 m.arg1 m.payload.length))

theorem lookup_replaceIn (id k : UInt32) (s : StreamState) (entries : List (UInt32 × StreamState)) :
    (replaceIn id s entries).lookup k =
      if k = id then (entries.lookup id).map fun _ => s else entries.lookup k := by
  induction entries with
  | nil =>
    split <;> rfl
  | cons e rest ih =>
    obtain ⟨j, old⟩ := e
    by_cases hj : id = j
    · subst hj
      by_cases hk : k = id
      · subst hk
        simp only [replaceIn, beq_self_eq_true, if_true, List.lookup_cons, Option.map_some]
      · have hkf : (k == id) = false := beq_false_of_ne hk
        simp only [replaceIn, beq_self_eq_true, if_true, List.lookup_cons, hkf, if_neg hk]
    · have hjf : (id == j) = false := beq_false_of_ne hj
      simp only [replaceIn, hjf, Bool.false_eq_true, if_false, List.lookup_cons, ih]
      by_cases hk : k = id
      · subst hk
        simp only [hjf, if_true]
      · simp only [if_neg hk]

theorem find?_set (t : StreamTable) (id k : UInt32) (s : StreamState) :
    (t.set id s).find? k = if k = id then (t.find? id).map fun _ => s else t.find? k :=
  lookup_replaceIn id k s t.entries

theorem find?_insert (t : StreamTable) (id k : UInt32) (s : StreamState) :
    (t.insert id s).find? k = if k = id then some s else t.find? k := by
  by_cases hk : k = id
  · subst hk
    simp only [find?, insert, List.lookup_cons, beq_self_eq_true, if_true]
  · have hkf : (k == id) = false := beq_false_of_ne hk
    simp only [find?, insert, List.lookup_cons, hkf, if_neg hk]

theorem find?_erase (t : StreamTable) (id k : UInt32) :
    (t.erase id).find? k = if k = id then none else t.find? k := by
  obtain ⟨nextId, entries⟩ := t
  simp only [find?, erase]
  induction entries with
  | nil =>
    split <;> rfl
  | cons e rest ih =>
    obtain ⟨j, old⟩ := e
    by_cases hj : j = id
    · subst hj
      rw [List.filter_cons_of_neg (by simp only [ne_eq, not_true_eq_false, decide_false,
        Bool.false_eq_true, not_false_eq_true]), ih]
      by_cases hk : k = j
      · rw [if_pos hk, if_pos hk]
      · have hkf : (k == j) = false := beq_false_of_ne hk
        simp only [if_neg hk, List.lookup_cons, hkf]
    · rw [List.filter_cons_of_pos (by simp only [ne_eq, hj, not_false_eq_true, decide_true])]
      by_cases hk : k = j
      · subst hk
        simp only [List.lookup_cons, beq_self_eq_true, if_neg hj]
      · have hkf : (k == j) = false := beq_false_of_ne hk
        simp only [List.lookup_cons, hkf, ih]

theorem set_eq_self {t : StreamTable} {id : UInt32} {s : StreamState} (h : t.find? id = some s) :
    t.set id s = t := by
  obtain ⟨nextId, entries⟩ := t
  simp only [find?, set, mk.injEq, true_and] at h ⊢
  induction entries with
  | nil => rfl
  | cons e rest ih =>
    obtain ⟨j, old⟩ := e
    rw [List.lookup_cons] at h
    by_cases hj : id = j
    · subst hj
      simp only [beq_self_eq_true, Option.some.injEq] at h
      subst h
      simp only [replaceIn, beq_self_eq_true, if_true]
    · have hjf : (id == j) = false := beq_false_of_ne hj
      simp only [hjf] at h
      simp only [replaceIn, hjf, Bool.false_eq_true, if_false, ih h]

theorem ids_set (t : StreamTable) (id : UInt32) (s : StreamState) : (t.set id s).ids = t.ids := by
  obtain ⟨nextId, entries⟩ := t
  simp only [ids, set]
  induction entries with
  | nil => rfl
  | cons e rest ih =>
    rw [replaceIn]
    split
    · rfl
    · rw [List.map_cons, List.map_cons, ih]

theorem mem_ids {t : StreamTable} {id : UInt32} : id ∈ t.ids ↔ ∃ s, t.find? id = some s := by
  obtain ⟨nextId, entries⟩ := t
  simp only [ids, find?]
  induction entries with
  | nil => simp only [List.map_nil, List.not_mem_nil, List.lookup_nil, reduceCtorEq, exists_false]
  | cons e rest ih =>
    obtain ⟨j, old⟩ := e
    by_cases hj : id = j
    · subst hj
      simp only [List.map_cons, List.mem_cons, true_or, List.lookup_cons, beq_self_eq_true,
        Option.some.injEq, exists_eq']
    · have hjf : (id == j) = false := beq_false_of_ne hj
      simp only [List.map_cons, List.mem_cons, hj, false_or, List.lookup_cons, hjf, ih]

theorem entries_probe (limit : UInt32) (probes : Nat) (t : StreamTable) :
    (probe limit probes t).2.entries = t.entries := by
  induction probes generalizing t with
  | zero => rfl
  | succ probes ih =>
    rw [probe]
    split
    · exact ih _
    · rfl

theorem find?_of_allocate {limit : UInt32} {t after : StreamTable} {found : Option UInt32}
    (h : t.allocate limit = (found, after)) (id : UInt32) : after.find? id = t.find? id := by
  have he : after.entries = t.entries := by
    have hp := entries_probe limit maxProbes t
    rw [← allocate, h] at hp
    exact hp
  rw [find?, he, find?]

theorem find?_probe {limit : UInt32} {probes : Nat} {t after : StreamTable} {id : UInt32}
    (h : probe limit probes t = (some id, after)) : t.find? id = none := by
  induction probes generalizing t with
  | zero => cases h
  | succ probes ih =>
    rw [probe] at h
    split at h
    · have hm := ih h
      exact hm
    · next hc =>
      cases h
      exact Option.not_isSome_iff_eq_none.mp hc

def bufferedIn : List (UInt32 × StreamState) → Nat
  | [] => 0
  | (_, s) :: rest => s.buffer.length + bufferedIn rest

def buffered (t : StreamTable) : Nat := bufferedIn t.entries

theorem buffered_set {t : StreamTable} {id : UInt32} {old s : StreamState}
    (h : t.find? id = some old) :
    (t.set id s).buffered + old.buffer.length = t.buffered + s.buffer.length := by
  obtain ⟨nextId, entries⟩ := t
  simp only [find?, set, buffered] at h ⊢
  induction entries with
  | nil => cases h
  | cons e rest ih =>
    obtain ⟨k, v⟩ := e
    rw [List.lookup_cons] at h
    rw [replaceIn, bufferedIn]
    cases hk : id == k with
    | true =>
      rw [hk, Option.some.injEq] at h
      rw [if_pos rfl, bufferedIn, h]
      omega
    | false =>
      rw [hk] at h
      have hrest := ih h
      rw [if_neg Bool.false_ne_true, bufferedIn]
      omega

theorem buffered_erase_le (t : StreamTable) (id : UInt32) :
    (t.erase id).buffered ≤ t.buffered := by
  obtain ⟨nextId, entries⟩ := t
  simp only [erase, buffered]
  induction entries with
  | nil => exact Nat.le_refl _
  | cons e rest ih =>
    rw [List.filter_cons]
    split <;> simp only [bufferedIn] <;> omega

theorem buffered_route {m : Message} {t after : StreamTable} {ack : Option Message}
    (h : t.route m = .ok (after, ack)) : after.buffered ≤ t.buffered + m.payload.length := by
  unfold route at h
  split at h
  · split at h
    · next s hs =>
      cases h
      have := buffered_set (s := (s.apply m.arg1 m).1) hs
      have := s.length_buffer_apply m.arg1 m
      omega
    · cases h
      exact Nat.le_add_right _ _
  · cases h

end StreamTable
end DroidHost
