import DroidHost.Text.Blank
import DroidHost.Text.Numeral
import Mathlib.Data.List.DropRight
import Mathlib.Data.Nat.Digits.Defs

/-! Numbers are read back from their digits, in every base up to sixteen. -/
namespace DroidHost.Text

theorem digitValue_digitChar {k : Nat} (h : k < 16) : digitValue (Nat.digitChar k) = some k := by
  revert k
  decide

theorem readDigits_append (base value : Nat) (front back : List Char) :
    readDigits base value (front ++ back) =
      (readDigits base value front).bind fun v => readDigits base v back := by
  induction front generalizing value with
  | nil => rfl
  | cons c front ih =>
    rw [List.cons_append, readDigits, readDigits]
    cases digitValue c with
    | none => rfl
    | some d =>
      dsimp only
      split
      · exact ih _
      · rfl

theorem readDigits_digitChar {base k : Nat} (hbase : base ≤ 16) (h : k < base) (value : Nat) :
    readDigits base value [Nat.digitChar k] = some (value * base + k) := by
  have hvalue := digitValue_digitChar (Nat.lt_of_lt_of_le h hbase)
  simp only [readDigits, hvalue, if_pos h]

variable {base : Nat}

theorem readDigits_toDigits (hone : 1 < base) (hbase : base ≤ 16) (n : Nat) :
    readDigits base 0 (Nat.toDigits base n) = some n := by
  induction n using Nat.strongRecOn with
  | _ n ih =>
    rcases Nat.lt_or_ge n base with hlt | hge
    · rw [Nat.toDigits_of_lt_base hlt, readDigits_digitChar hbase hlt, Nat.zero_mul, Nat.zero_add]
    · have hquot := ih (n / base) (Nat.div_lt_self (by omega) hone)
      have hrem := Nat.mod_lt n (by omega : base > 0)
      rw [Nat.toDigits_of_base_le hone hge, readDigits_append, hquot, Option.bind_some,
        readDigits_digitChar hbase hrem, Nat.mul_comm, Nat.div_add_mod]

theorem mem_toDigits (hone : 1 < base) {n : Nat} {c : Char} (h : c ∈ Nat.toDigits base n) :
    ∃ k < base, c = Nat.digitChar k := by
  induction n using Nat.strongRecOn with
  | _ n ih =>
    rcases Nat.lt_or_ge n base with hlt | hge
    · rw [Nat.toDigits_of_lt_base hlt, List.mem_singleton] at h
      exact ⟨n, hlt, h⟩
    · rw [Nat.toDigits_of_base_le hone hge] at h
      rcases List.mem_append.mp h with h | h
      · exact ih (n / base) (Nat.div_lt_self (by omega) hone) h
      · exact ⟨n % base, Nat.mod_lt n (by omega), List.mem_singleton.mp h⟩

theorem head?_toDigits (hone : 1 < base) (hbase : base ≤ 16) {n : Nat} (hn : n ≠ 0) :
    (Nat.toDigits base n).head? ≠ some '0' := by
  induction n using Nat.strongRecOn with
  | _ n ih =>
    rcases Nat.lt_or_ge n base with hlt | hge
    · have hdigit : ∀ k < 16, k ≠ 0 → Nat.digitChar k ≠ '0' := by decide
      rw [Nat.toDigits_of_lt_base hlt, List.head?_cons, ne_eq, Option.some.injEq]
      exact hdigit n (Nat.lt_of_lt_of_le hlt hbase) hn
    · have hquot := ih (n / base) (Nat.div_lt_self (by omega) hone)
        (Nat.div_ne_zero_iff.mpr ⟨by omega, hge⟩)
      rw [Nat.toDigits_of_base_le hone hge]
      cases htext : Nat.toDigits base (n / base) with
      | nil => exact absurd htext Nat.toDigits_ne_nil
      | cons c cs =>
        rw [htext] at hquot
        exact hquot

theorem readNumber_eq {bound n : Nat} {text : List Char} (hread : readDigits base 0 text = some n)
    (hne : text ≠ []) (hplus : '+' ∉ text) (h : n < bound) :
    readNumber base bound text = some n := by
  cases text with
  | nil => exact absurd rfl hne
  | cons c rest =>
    have hfirst : c ≠ '+' := by
      rintro rfl
      exact hplus (List.mem_cons_self ..)
    rw [readNumber, hread, Option.filter_some, if_pos (decide_eq_true h)]
    intro more heq
    cases heq
    exact hfirst rfl

theorem readNumber_digits (hone : 1 < base) (hbase : base ≤ 16) {n bound : Nat} (h : n < bound) :
    readNumber base bound (digits base n).toList = some n := by
  have hplus : ∀ k < 16, '+' ≠ Nat.digitChar k := by decide
  rw [digits, String.toList_ofList]
  apply readNumber_eq (readDigits_toDigits hone hbase n) Nat.toDigits_ne_nil _ h
  intro hmem
  obtain ⟨k, hk, hc⟩ := mem_toDigits hone hmem
  exact hplus k (Nat.lt_of_lt_of_le hk hbase) hc

theorem readDigits_zeros (hone : 1 < base) (count : Nat) (text : List Char) :
    readDigits base 0 (List.replicate count '0' ++ text) = readDigits base 0 text := by
  have hzero : digitValue '0' = some 0 := by decide
  induction count with
  | zero => rfl
  | succ count ih =>
    rw [List.replicate_succ, List.cons_append, readDigits, hzero]
    dsimp only
    rw [if_pos (Nat.zero_lt_of_lt hone), Nat.zero_mul]
    exact ih

/-- A text is a decimal numeral of a number: digits, behind a plus sign or none. -/
def IsDecimal (text : List Char) (n : Nat) : Prop :=
  ∃ digits : List Char, digits ≠ [] ∧ (∀ c ∈ digits, c.isDigit = true) ∧
    (text = digits ∨ text = '+' :: digits) ∧
    n = Nat.ofDigits 10 (digits.reverse.map fun c => c.toNat - '0'.toNat)

theorem isDigit_iff {c : Char} : c.isDigit = true ↔ '0' ≤ c ∧ c ≤ '9' := by
  simp only [Char.isDigit, Bool.and_eq_true, decide_eq_true_eq]
  exact Iff.rfl

theorem digitValue_lt_ten {c : Char} {d : Nat} :
    digitValue c = some d ∧ d < 10 ↔ c.isDigit = true ∧ d = c.toNat - '0'.toNat := by
  unfold digitValue
  by_cases hc : '0' ≤ c ∧ c ≤ '9'
  · have hlt : c.toNat - '0'.toNat < 10 := by
      have hle : c.toNat ≤ 57 := UInt32.le_iff_toNat_le.mp hc.2
      change c.toNat - 48 < 10
      omega
    rw [if_pos hc, isDigit_iff]
    constructor
    · rintro ⟨h, -⟩
      exact ⟨hc, (Option.some.inj h).symm⟩
    · rintro ⟨-, rfl⟩
      exact ⟨rfl, hlt⟩
  · rw [if_neg hc, isDigit_iff]
    constructor
    · rintro ⟨h, hd⟩
      split at h
      · cases h
        omega
      · split at h
        · cases h
          omega
        · cases h
    · rintro ⟨h, -⟩
      exact absurd h hc

theorem readDigits_ten {value n : Nat} {text : List Char} :
    readDigits 10 value text = some n ↔ (∀ c ∈ text, c.isDigit = true) ∧
      n = value * 10 ^ text.length +
        Nat.ofDigits 10 (text.reverse.map fun c => c.toNat - '0'.toNat) := by
  induction text generalizing value with
  | nil =>
    simp only [readDigits, Option.some.injEq, List.length_nil, pow_zero, Nat.mul_one,
      List.reverse_nil, List.map_nil, Nat.ofDigits_nil, Nat.add_zero]
    exact ⟨fun h => ⟨nofun, h.symm⟩, fun h => h.2.symm⟩
  | cons c rest ih =>
    have hplace (d : Nat) : (value * 10 + d) * 10 ^ rest.length =
        value * 10 ^ (rest.length + 1) + 10 ^ rest.length * d := by
      rw [Nat.add_mul, Nat.mul_assoc, ← Nat.pow_succ', Nat.mul_comm d]
    rw [readDigits, List.forall_mem_cons, List.reverse_cons, List.map_append, Nat.ofDigits_append,
      List.length_map, List.length_reverse, List.map_singleton, Nat.ofDigits_singleton,
      List.length_cons, Nat.add_comm (Nat.ofDigits _ _), ← Nat.add_assoc, ← hplace]
    constructor
    · intro h
      split at h
      · next d hd =>
        by_cases hlt : d < 10
        · rw [if_pos hlt, ih] at h
          obtain ⟨hc, rfl⟩ := digitValue_lt_ten.mp ⟨hd, hlt⟩
          exact ⟨⟨hc, h.1⟩, h.2⟩
        · rw [if_neg hlt] at h
          cases h
      · cases h
    · rintro ⟨⟨hc, hrest⟩, hn⟩
      obtain ⟨hvalue, hlt⟩ := digitValue_lt_ten.mpr ⟨hc, rfl⟩
      rw [hvalue]
      dsimp only
      rw [if_pos hlt]
      exact ih.mpr ⟨hrest, hn⟩

variable {bound n : Nat}

theorem readNumber_signed {body : List Char} :
    readNumber base bound ('+' :: body) = some n ↔
      body ≠ [] ∧ readDigits base 0 body = some n ∧ n < bound := by
  cases body with
  | nil => exact ⟨fun h => (by cases h), fun h => absurd rfl h.1⟩
  | cons c rest =>
    rw [readNumber, Option.filter_eq_some_iff, decide_eq_true_eq]
    exact ⟨fun h => ⟨List.cons_ne_nil _ _, h⟩, fun h => h.2⟩

theorem readNumber_unsigned {text : List Char} (h : text.head? ≠ some '+') :
    readNumber base bound text = some n ↔
      text ≠ [] ∧ readDigits base 0 text = some n ∧ n < bound := by
  cases text with
  | nil => exact ⟨fun h => (by cases h), fun h => absurd rfl h.1⟩
  | cons c rest =>
    rw [readNumber, Option.filter_eq_some_iff, decide_eq_true_eq]
    · exact ⟨fun h => ⟨List.cons_ne_nil _ _, h⟩, fun h => h.2⟩
    · rintro more heq
      cases heq
      exact h rfl

/-- In base ten the numbers below the bound are read from their numerals and from no other text. -/
theorem readNumber_ten {text : List Char} :
    readNumber 10 bound text = some n ↔ IsDecimal text n ∧ n < bound := by
  have hdigits {body : List Char} : readDigits 10 0 body = some n ↔
      (∀ c ∈ body, c.isDigit = true) ∧
        n = Nat.ofDigits 10 (body.reverse.map fun c => c.toNat - '0'.toNat) := by
    rw [readDigits_ten, Nat.zero_mul, Nat.zero_add]
  have hplus : '+'.isDigit ≠ true := by decide
  constructor
  · intro h
    by_cases hsign : text.head? = some '+'
    · obtain ⟨body, rfl⟩ := List.head?_eq_some_iff.mp hsign
      obtain ⟨hne, hread, hlt⟩ := readNumber_signed.mp h
      obtain ⟨hall, hn⟩ := hdigits.mp hread
      exact ⟨⟨body, hne, hall, .inr rfl, hn⟩, hlt⟩
    · obtain ⟨hne, hread, hlt⟩ := (readNumber_unsigned hsign).mp h
      obtain ⟨hall, hn⟩ := hdigits.mp hread
      exact ⟨⟨text, hne, hall, .inl rfl, hn⟩, hlt⟩
  · rintro ⟨⟨digits, hne, hall, rfl | rfl, hn⟩, hlt⟩
    · refine (readNumber_unsigned fun hsign => ?_).mpr ⟨hne, hdigits.mpr ⟨hall, hn⟩, hlt⟩
      obtain ⟨rest, rfl⟩ := List.head?_eq_some_iff.mp hsign
      exact hplus (hall _ (List.mem_cons_self ..))
    · exact readNumber_signed.mpr ⟨hne, hdigits.mpr ⟨hall, hn⟩, hlt⟩

theorem dropEnd_eq_self {p : Char → Bool} {cs : List Char} :
    dropEnd p cs = cs ↔ ∀ c ∈ cs.getLast?, p c = false := by
  change cs.rdropWhile p = cs ↔ _
  rw [List.rdropWhile_eq_self_iff]
  constructor
  · intro h c hc
    obtain ⟨hne, rfl⟩ := List.mem_getLast?_eq_getLast hc
    exact Bool.eq_false_iff.mpr (h hne)
  · intro h hne
    rw [h _ (List.getLast_mem_getLast? hne)]
    exact Bool.false_ne_true

theorem trimBlank_of_isTrimmed {cs : List Char} (h : IsTrimmed cs) : trimBlank cs = cs := by
  have hfront : cs.dropWhile isBlank = cs := by
    cases cs with
    | nil => rfl
    | cons c rest => exact List.dropWhile_cons_of_neg (by rw [h.1 c rfl]; exact Bool.false_ne_true)
  rw [trimBlank, hfront, dropEnd_eq_self.mpr h.2]

theorem trimBlank_of_clear {text : List Char} (h : ∀ c ∈ text, isBlank c = false) :
    trimBlank text = text :=
  trimBlank_of_isTrimmed ⟨fun c hc => h c (List.mem_of_mem_head? hc),
    fun c hc => h c (List.mem_of_getLast? hc)⟩

end DroidHost.Text
