import DroidHost.Bytes
import DroidHost.Link.Fault

/-! Something to read bytes from, with what its reads give written down. -/
namespace DroidHost

/-- No bytes at all are the end. -/
inductive Reading
  | bytes (bytes : Bytes)
  | interrupted
  /-- A failure for good, other than an interruption. -/
  | failed (fault : IoFault)
  deriving DecidableEq, Repr

/-- Past the last reading is the end. -/
abbrev Source := List Reading

namespace Source

def ofBytes (bytes : Bytes) : Source := [.bytes bytes]

/-- Puts an interruption behind every `n` readings. -/
def interruptedAfter (n : Nat) (readings : Source) : Source :=
  readings.zipIdx.flatMap fun (r, i) => if (i + 1) % n = 0 then [r, .interrupted] else [r]

/-- A source that gives its bytes at most so many at a time and ends with a failure if there
is one. -/
def paced (bytes : Bytes) (atMost : Nat) (fault : Option IoFault) : Source :=
  if atMost = 0 ∧ bytes ≠ [] then []
  else (Bytes.pieces atMost bytes).map .bytes ++ fault.toList.map .failed

/-- All that can be read, up to the end or a failure, with the failure. -/
def contents : Source → Bytes × Option IoFault
  | [] => ([], none)
  | .bytes [] :: _ => ([], none)
  | .bytes (b :: bs) :: rest => (b :: bs ++ (contents rest).1, (contents rest).2)
  | .interrupted :: rest => contents rest
  | .failed fault :: _ => ([], some fault)

/-- Passes over interruptions. -/
def read (size : Nat) : Source → Except IoFault Bytes × Source
  | [] => (.ok [], [])
  | .interrupted :: rest => read size rest
  | .failed fault :: rest => (.error fault, rest)
  | .bytes bs :: rest =>
    if bs.length ≤ size then (.ok bs, rest) else (.ok (bs.take size), .bytes (bs.drop size) :: rest)

def weight : Source → Nat
  | [] => 0
  | .bytes bytes :: rest => bytes.length + 1 + weight rest
  | _ :: rest => 1 + weight rest

theorem weight_read {size : Nat} {source rest : Source} {bytes : Bytes}
    (h : read size source = (.ok bytes, rest)) : rest.weight + bytes.length ≤ source.weight := by
  fun_induction read size source with
  | case1 => cases h; exact Nat.le_refl _
  | case2 rest' ih =>
    have := ih h
    simp only [weight] at this ⊢
    omega
  | case3 => cases h
  | case4 bs rest' hle =>
    cases h
    simp only [weight]
    omega
  | case5 bs rest' hle =>
    cases h
    simp only [weight, List.length_take, List.length_drop]
    omega

theorem contents_bytes {bytes : Bytes} (h : bytes ≠ []) (rest : Source) :
    contents (.bytes bytes :: rest) = (bytes ++ (contents rest).1, (contents rest).2) := by
  cases bytes with
  | nil => exact absurd rfl h
  | cons b bs => rfl

theorem contents_read {size : Nat} (hsize : 0 < size) (source : Source) :
    match read size source with
    | (.ok [], _) => contents source = ([], none)
    | (.ok (b :: bs), rest) => bs.length + 1 ≤ size ∧
        contents source = (b :: bs ++ (contents rest).1, (contents rest).2)
    | (.error fault, _) => contents source = ([], some fault) := by
  fun_induction read size source with
  | case1 => rfl
  | case2 rest ih => exact ih
  | case3 fault rest => rfl
  | case4 bs rest hle =>
    cases bs with
    | nil => rfl
    | cons b bs => exact ⟨hle, rfl⟩
  | case5 bs rest hgt =>
    have hdrop : bs.drop size ≠ [] := by
      rw [ne_eq, List.drop_eq_nil_iff]
      exact hgt
    have hwhole : contents (.bytes bs :: rest) =
        (bs.take size ++ (contents (.bytes (bs.drop size) :: rest)).1,
          (contents (.bytes (bs.drop size) :: rest)).2) := by
      rw [contents_bytes hdrop, contents_bytes (List.ne_nil_of_drop_ne_nil hdrop),
        ← List.append_assoc, List.take_append_drop]
    have hlen : (bs.take size).length = size := by
      rw [List.length_take]
      omega
    cases ht : bs.take size with
    | nil =>
      rw [ht] at hlen
      exact absurd hlen (Nat.ne_of_lt hsize)
    | cons b front =>
      rw [ht] at hlen hwhole
      exact ⟨Nat.le_of_eq hlen, hwhole⟩

def fill (size : Nat) (source : Source) : Except IoFault Bytes × Source :=
  if size = 0 then (.ok [], source)
  else
    match source.read size with
    | (.error fault, rest) => (.error fault, rest)
    | (.ok [], rest) => (.ok [], rest)
    | (.ok (b :: bs), rest) =>
      match fill (size - (bs.length + 1)) rest with
      | (.ok more, rest) => (.ok (b :: bs ++ more), rest)
      | (.error fault, rest) => (.error fault, rest)
termination_by size
decreasing_by omega

theorem weight_fill {size : Nat} {source rest : Source} {bytes : Bytes}
    (h : fill size source = (.ok bytes, rest)) : rest.weight + bytes.length ≤ source.weight := by
  fun_induction fill size source generalizing bytes with
  | case1 => cases h; exact Nat.le_refl _
  | case2 => cases h
  | case3 size source _ rest' hr =>
    cases h
    have := weight_read hr
    omega
  | case4 size source _ b bs rest' hr more last hm ih =>
    cases h
    have hread := weight_read hr
    have hmore := ih hm
    simp only [List.length_append, List.length_cons] at hread hmore ⊢
    omega
  | case5 => cases h

theorem contents_fill (size : Nat) (source : Source) :
    match fill size source with
    | (.ok bytes, rest) =>
      bytes.length = size ∧ contents source = (bytes ++ (contents rest).1, (contents rest).2) ∨
        bytes.length < size ∧ contents source = (bytes, none)
    | (.error fault, _) => (contents source).1.length < size ∧ (contents source).2 = some fault := by
  fun_induction fill size source with
  | case1 source => exact .inl ⟨rfl, rfl⟩
  | case2 size source hsize fault rest hr =>
    have hread := contents_read (Nat.pos_of_ne_zero hsize) source
    rw [hr] at hread
    rw [hread]
    exact ⟨Nat.pos_of_ne_zero hsize, rfl⟩
  | case3 size source hsize rest hr =>
    have hread := contents_read (Nat.pos_of_ne_zero hsize) source
    rw [hr] at hread
    exact .inr ⟨Nat.pos_of_ne_zero hsize, hread⟩
  | case4 size source hsize b bs rest hr more last hm ih =>
    have hread := contents_read (Nat.pos_of_ne_zero hsize) source
    rw [hr] at hread
    obtain ⟨hle, hread⟩ := hread
    rw [hm] at ih
    simp only [List.length_append, List.length_cons]
    obtain ⟨hlen, hmore⟩ | ⟨hlen, hmore⟩ := ih
    · refine .inl ⟨by omega, ?_⟩
      rw [hread, hmore, List.append_assoc]
    · refine .inr ⟨by omega, ?_⟩
      rw [hread, hmore]
  | case5 size source hsize b bs rest hr fault last hm ih =>
    have hread := contents_read (Nat.pos_of_ne_zero hsize) source
    rw [hr] at hread
    obtain ⟨hle, hread⟩ := hread
    rw [hm] at ih
    rw [hread]
    simp only [List.length_append, List.length_cons]
    exact ⟨by omega, ih.2⟩

end Source
end DroidHost
