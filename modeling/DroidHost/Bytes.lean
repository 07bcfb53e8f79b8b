/-! Byte strings and the little-endian words inside them. -/
namespace DroidHost

abbrev Bytes := List UInt8

namespace Bytes

def ofWord (w : UInt32) : Bytes :=
  [UInt8.ofNat w.toNat, UInt8.ofNat (w.toNat / 256), UInt8.ofNat (w.toNat / 65536),
    UInt8.ofNat (w.toNat / 16777216)]

def toWord (a b c d : UInt8) : UInt32 :=
  UInt32.ofNat (a.toNat + 256 * b.toNat + 65536 * c.toNat + 16777216 * d.toNat)

@[simp] theorem length_ofWord (w : UInt32) : (ofWord w).length = 4 := rfl

theorem toWord_ofWord (w : UInt32) :
    toWord (UInt8.ofNat w.toNat) (UInt8.ofNat (w.toNat / 256)) (UInt8.ofNat (w.toNat / 65536))
      (UInt8.ofNat (w.toNat / 16777216)) = w := by
  apply UInt32.toNat_inj.mp
  have hw : w.toNat < 4294967296 := w.toNat_lt
  simp only [toWord, UInt32.toNat_ofNat', UInt8.toNat_ofNat']
  omega

theorem ofWord_toWord (a b c d : UInt8) : ofWord (toWord a b c d) = [a, b, c, d] := by
  have ha : a.toNat < 256 := a.toNat_lt
  have hb : b.toNat < 256 := b.toNat_lt
  have hc : c.toNat < 256 := c.toNat_lt
  have hd : d.toNat < 256 := d.toNat_lt
  simp only [ofWord, toWord, UInt32.toNat_ofNat', List.cons.injEq, and_true]
  refine ⟨?_, ?_, ?_, ?_⟩ <;> apply UInt8.toNat_inj.mp <;> simp only [UInt8.toNat_ofNat'] <;> omega

/-- A rest of fewer than four bytes is no word. -/
def words : Bytes → List UInt32
  | a :: b :: c :: d :: rest => toWord a b c d :: words rest
  | _ => []

/-- Wrapping at 2³². -/
def sum (bytes : Bytes) : UInt32 :=
  bytes.foldl (fun total b => total + b.toUInt32) 0

/-- The last piece may be shorter. A size of zero counts as one. -/
def pieces (size : Nat) : Bytes → List Bytes
  | [] => []
  | b :: rest => (b :: rest.take (size - 1)) :: pieces size (rest.drop (size - 1))
termination_by bytes => bytes.length
decreasing_by
  simp only [List.length_drop, List.length_cons]
  omega

theorem flatten_pieces (size : Nat) (bytes : Bytes) : (pieces size bytes).flatten = bytes := by
  fun_induction pieces size bytes with
  | case1 => rfl
  | case2 b rest ih =>
    rw [List.flatten_cons, ih, List.cons_append, List.take_append_drop]

theorem length_pieces_le (size : Nat) (bytes : Bytes) :
    (pieces size bytes).length ≤ bytes.length := by
  fun_induction pieces size bytes with
  | case1 => exact Nat.le_refl _
  | case2 b rest ih =>
    simp only [List.length_cons, List.length_drop] at ih ⊢
    omega

@[simp] theorem pieces_nil (size : Nat) : pieces size [] = [] := by rw [pieces]

theorem pieces_max (size : Nat) (bytes : Bytes) : pieces (max size 1) bytes = pieces size bytes := by
  fun_induction pieces size bytes with
  | case1 => exact pieces_nil _
  | case2 b rest ih =>
    have hsize : max size 1 - 1 = size - 1 := by omega
    rw [pieces, hsize, ih]

theorem pieces_append {size : Nat} (hsize : 0 < size) {front : Bytes} (h : front.length = size)
    (rest : Bytes) : pieces size (front ++ rest) = front :: pieces size rest := by
  cases front with
  | nil => exact absurd h (Nat.ne_of_lt hsize)
  | cons b bs =>
    have hbs : bs.length = size - 1 := by
      rw [← h, List.length_cons, Nat.add_sub_cancel]
    rw [List.cons_append, pieces, ← hbs, List.take_left, List.drop_left]

theorem pieces_short {size : Nat} {bytes : Bytes} (hne : bytes ≠ []) (h : bytes.length ≤ size) :
    pieces size bytes = [bytes] := by
  cases bytes with
  | nil => exact absurd rfl hne
  | cons b bs =>
    have hbs : bs.length ≤ size - 1 := Nat.le_sub_one_of_lt h
    rw [pieces, List.take_of_length_le hbs, List.drop_eq_nil_of_le hbs, pieces_nil]

theorem length_pieces {size : Nat} (hsize : 0 < size) (bytes : Bytes) :
    (pieces size bytes).length = (bytes.length + (size - 1)) / size := by
  fun_induction pieces size bytes with
  | case1 =>
    rw [List.length_nil, List.length_nil, Nat.zero_add]
    exact (Nat.div_eq_of_lt (Nat.sub_lt hsize Nat.one_pos)).symm
  | case2 b rest ih =>
    have hone : (rest.length + size) / size = rest.length / size + 1 :=
      Nat.add_div_right _ hsize
    have hsum : rest.length + 1 + (size - 1) = rest.length + size := by omega
    rw [List.length_cons, List.length_cons, ih, List.length_drop, hsum, hone]
    rcases Nat.lt_or_ge rest.length (size - 1) with hlt | hge
    · have hnone : rest.length - (size - 1) + (size - 1) = size - 1 := by omega
      rw [hnone, Nat.div_eq_of_lt (by omega), Nat.div_eq_of_lt (by omega)]
    · rw [Nat.sub_add_cancel hge]

theorem mem_pieces {size : Nat} (hsize : 0 < size) {bytes piece : Bytes}
    (h : piece ∈ pieces size bytes) : piece ≠ [] ∧ piece.length ≤ size := by
  fun_induction pieces size bytes with
  | case1 => cases h
  | case2 b rest ih =>
    rcases List.mem_cons.mp h with rfl | h
    · refine ⟨List.cons_ne_nil _ _, ?_⟩
      rw [List.length_cons, List.length_take]
      omega
    · exact ih h

theorem full_pieces {size : Nat} (hsize : 0 < size) (bytes : Bytes) :
    ∀ piece ∈ (pieces size bytes).dropLast, piece.length = size := by
  fun_induction pieces size bytes with
  | case1 => nofun
  | case2 b rest ih =>
    cases hmore : rest.drop (size - 1) with
    | nil =>
      rw [pieces_nil, List.dropLast_singleton]
      nofun
    | cons b' more =>
      have hlong : size - 1 < rest.length := by
        have hlength := congrArg List.length hmore
        rw [List.length_drop, List.length_cons] at hlength
        omega
      have hnext : pieces size (b' :: more) ≠ [] := by
        rw [pieces]
        exact List.cons_ne_nil _ _
      rw [hmore] at ih
      rw [List.dropLast_cons_of_ne_nil hnext]
      refine List.forall_mem_cons.mpr ⟨?_, ih⟩
      rw [List.length_cons, List.length_take]
      omega

end Bytes
end DroidHost
