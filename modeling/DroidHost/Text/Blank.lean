/-! White space and its removal from the ends of a text. -/
namespace DroidHost.Text

/-- The property `White_Space`. -/
def isBlank (c : Char) : Bool :=
  let n := c.toNat
  (0x9 ≤ n && n ≤ 0xD) || n == 0x20 || n == 0x85 || n == 0xA0 || n == 0x1680 ||
    (0x2000 ≤ n && n ≤ 0x200A) || n == 0x2028 || n == 0x2029 || n == 0x202F || n == 0x205F ||
    n == 0x3000

/-- What Mathlib, on which the program itself does not depend, has as `List.rdropWhile`. -/
def dropEnd (p : Char → Bool) (cs : List Char) : List Char :=
  (cs.reverse.dropWhile p).reverse

def trimBlank (cs : List Char) : List Char :=
  dropEnd isBlank (cs.dropWhile isBlank)

/-- Neither the first character nor the last is white space. -/
def IsTrimmed (cs : List Char) : Prop :=
  (∀ c ∈ cs.head?, isBlank c = false) ∧ ∀ c ∈ cs.getLast?, isBlank c = false

instance (cs : List Char) : Decidable (IsTrimmed cs) :=
  decidable_of_iff (cs.head?.all (!isBlank ·) ∧ cs.getLast?.all (!isBlank ·)) <| by
    simp only [IsTrimmed, Option.all_eq_true, Option.mem_def, Bool.not_eq_true']

variable {p : Char → Bool}

theorem dropEnd_append (front : List Char) {back : List Char} (h : ∀ c ∈ back, p c = true) :
    dropEnd p (front ++ back) = dropEnd p front := by
  have hreverse : ∀ c ∈ back.reverse, p c = true := fun c hc => h c (List.mem_reverse.mp hc)
  rw [dropEnd, List.reverse_append, List.dropWhile_append_of_pos hreverse, dropEnd]

theorem count_dropEnd {c : Char} (hc : p c = false) (cs : List Char) :
    (dropEnd p cs).count c = cs.count c := by
  have hdrop (cs : List Char) : (cs.dropWhile p).count c = cs.count c := by
    induction cs with
    | nil => rfl
    | cons d cs ih =>
      by_cases hd : p d = true
      · have hne : d ≠ c := by
          rintro rfl
          rw [hc] at hd
          cases hd
        rw [List.dropWhile_cons_of_pos hd, ih, List.count_cons_of_ne hne]
      · rw [List.dropWhile_cons_of_neg hd]
  rw [dropEnd, List.count_reverse, hdrop, List.count_reverse]

end DroidHost.Text
