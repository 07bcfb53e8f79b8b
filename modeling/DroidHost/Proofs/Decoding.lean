import DroidHost.Text.Utf8

/-! A text is read back from its bytes, whatever stands behind them. -/
namespace DroidHost.Text.Utf8

theorem continued_within {more bits v : Nat} {low high : UInt8} (hlow : low.toNat ≤ v % 64 + 128)
    (hhigh : v % 64 + 128 ≤ high.toNat) (rest : Bytes) :
    continued (more + 1) low high bits (UInt8.ofNat (v % 64 + 128) :: rest) =
      continued more 0x80 0xBF (bits * 64 + v % 64) rest := by
  have hbyte : (UInt8.ofNat (v % 64 + 128)).toNat = v % 64 + 128 :=
    UInt8.toNat_ofNat_of_lt' (show v % 64 + 128 < 256 by omega)
  have hbits : (v % 64 + 128) % 64 = v % 64 := by omega
  have hbounds : low ≤ UInt8.ofNat (v % 64 + 128) ∧ UInt8.ofNat (v % 64 + 128) ≤ high := by
    rw [UInt8.le_iff_toNat_le, UInt8.le_iff_toNat_le, hbyte]
    exact ⟨hlow, hhigh⟩
  rw [continued, if_pos hbounds, hbyte, hbits]

theorem continued_any (more bits v : Nat) (rest : Bytes) :
    continued (more + 1) 0x80 0xBF bits (UInt8.ofNat (v % 64 + 128) :: rest) =
      continued more 0x80 0xBF (bits * 64 + v % 64) rest :=
  continued_within (Nat.le_add_left 128 _) (show v % 64 + 128 ≤ 191 by omega) rest

variable {v : Nat} (rest : Bytes)

theorem next_one (hhigh : v < 128) : next (UInt8.ofNat v) rest = (Char.ofNat v, rest) := by
  have hlead : (UInt8.ofNat v).toNat = v := UInt8.toNat_ofNat_of_lt' (show v < 256 by omega)
  simp only [next, UInt8.lt_iff_toNat_lt, hlead, UInt8.reduceToNat]
  rw [if_pos (by omega)]

theorem next_two (hlow : 128 ≤ v) (hhigh : v < 2048) :
    next (UInt8.ofNat (v / 64 % 32 + 192)) rest = continued 1 0x80 0xBF (v / 64) rest := by
  have hlead : (UInt8.ofNat (v / 64 % 32 + 192)).toNat = v / 64 + 192 := by
    rw [UInt8.toNat_ofNat_of_lt' (show v / 64 % 32 + 192 < 256 by omega)]
    omega
  have hbits : (v / 64 + 192) % 32 = v / 64 := by omega
  simp only [next, UInt8.lt_iff_toNat_lt, hlead, UInt8.reduceToNat]
  rw [if_neg (by omega), if_neg (by omega), if_pos (by omega), hbits]

theorem next_three (hlow : 2048 ≤ v) (hhigh : v < 65536) (hvalid : v < 55296 ∨ 57344 ≤ v) :
    next (UInt8.ofNat (v / 4096 % 16 + 224)) (UInt8.ofNat (v / 64 % 64 + 128) :: rest) =
      continued 1 0x80 0xBF (v / 64) rest := by
  have hlead : (UInt8.ofNat (v / 4096 % 16 + 224)).toNat = v / 4096 + 224 := by
    rw [UInt8.toNat_ofNat_of_lt' (show v / 4096 % 16 + 224 < 256 by omega)]
    omega
  have hbits : (v / 4096 + 224) % 16 = v / 4096 := by omega
  have hsum : v / 4096 * 64 + v / 64 % 64 = v / 64 := by omega
  simp only [next, UInt8.lt_iff_toNat_lt, ← UInt8.toNat_inj, hlead, UInt8.reduceToNat]
  rw [if_neg (by omega), if_neg (by omega), if_neg (by omega), hbits]
  split
  · have hzero : v / 4096 = 0 := by omega
    rw [hzero, Nat.zero_mul] at hsum
    rw [continued_within (show 160 ≤ v / 64 % 64 + 128 by omega)
      (show v / 64 % 64 + 128 ≤ 191 by omega), Nat.zero_mul, hsum]
  · split
    · have hlast : v / 4096 = 13 := by omega
      rw [hlast] at hsum
      rw [continued_within (show 128 ≤ v / 64 % 64 + 128 by omega)
        (show v / 64 % 64 + 128 ≤ 159 by omega), hsum]
    · rw [if_pos (by omega), continued_any, hsum]

theorem next_four (hlow : 65536 ≤ v) (hhigh : v < 1114112) :
    next (UInt8.ofNat (v / 262144 % 8 + 240)) (UInt8.ofNat (v / 4096 % 64 + 128) :: rest) =
      continued 2 0x80 0xBF (v / 4096) rest := by
  have hlead : (UInt8.ofNat (v / 262144 % 8 + 240)).toNat = v / 262144 + 240 := by
    rw [UInt8.toNat_ofNat_of_lt' (show v / 262144 % 8 + 240 < 256 by omega)]
    omega
  have hbits : (v / 262144 + 240) % 8 = v / 262144 := by omega
  have hsum : v / 262144 * 64 + v / 4096 % 64 = v / 4096 := by omega
  simp only [next, UInt8.lt_iff_toNat_lt, ← UInt8.toNat_inj, hlead, UInt8.reduceToNat]
  rw [if_neg (by omega), if_neg (by omega), if_neg (by omega), if_neg (by omega),
    if_neg (by omega), if_neg (by omega), hbits]
  split
  · have hzero : v / 262144 = 0 := by omega
    rw [hzero, Nat.zero_mul] at hsum
    rw [continued_within (show 144 ≤ v / 4096 % 64 + 128 by omega)
      (show v / 4096 % 64 + 128 ≤ 191 by omega), Nat.zero_mul, hsum]
  · split
    · rw [continued_any, hsum]
    · have hlast : v / 262144 = 4 := by omega
      rw [hlast] at hsum
      rw [if_pos (by omega), continued_within (show 128 ≤ v / 4096 % 64 + 128 by omega)
        (show v / 4096 % 64 + 128 ≤ 143 by omega), hsum]

/-- All the bytes of a character are taken for it, and no more. -/
theorem next_utf8EncodeChar (c : Char) :
    ∃ b more, String.utf8EncodeChar c = b :: more ∧ next b (more ++ rest) = (c, rest) := by
  have hc : Char.ofNat c.val.toNat = c := Char.ofNat_toNat c
  have hvalid : c.val.toNat < 55296 ∨ 57343 < c.val.toNat ∧ c.val.toNat < 1114112 := c.valid
  unfold String.utf8EncodeChar
  generalize c.val.toNat = v at hc hvalid
  dsimp only
  split
  · refine ⟨_, _, rfl, ?_⟩
    rw [next_one _ (by omega), hc, List.nil_append]
  split
  · refine ⟨_, _, rfl, ?_⟩
    have hsum : v / 64 * 64 + v % 64 = v := by omega
    rw [next_two _ (by omega) (by omega), List.singleton_append, continued_any, hsum, continued, hc]
  split
  · refine ⟨_, _, rfl, ?_⟩
    have hsum : v / 64 * 64 + v % 64 = v := by omega
    rw [List.cons_append, next_three _ (by omega) (by omega) (by omega), List.singleton_append,
      continued_any, hsum, continued, hc]
  · refine ⟨_, _, rfl, ?_⟩
    have hsum : (v / 4096 * 64 + v / 64 % 64) * 64 + v % 64 = v := by omega
    rw [List.cons_append, next_four _ (by omega) (by omega), List.cons_append, continued_any,
      List.singleton_append, continued_any, hsum, continued, hc]

theorem charsOnto_eq (seen : List Char) (bytes : Bytes) :
    charsOnto seen bytes = seen.reverse ++ chars bytes := by
  induction hn : bytes.length using Nat.strongRecOn generalizing seen bytes with
  | _ n ih =>
    cases bytes with
    | nil => rw [chars, charsOnto, charsOnto, List.reverse_nil, List.append_nil]
    | cons b rest =>
      have hlt : (next b rest).2.length < n := hn ▸ Nat.lt_succ_of_le (length_next b rest)
      rw [chars, charsOnto, charsOnto, ih _ hlt _ _ rfl, ih _ hlt _ _ rfl, List.reverse_cons,
        List.append_assoc]
      rfl

theorem chars_cons (b : UInt8) : chars (b :: rest) = (next b rest).1 :: chars (next b rest).2 := by
  rw [chars, charsOnto, charsOnto_eq]
  rfl

/-- The bytes of a text are read as that text, and what stands behind them as if it stood alone. -/
theorem chars_append (text : List Char) :
    chars (text.flatMap String.utf8EncodeChar ++ rest) = text ++ chars rest := by
  induction text with
  | nil => rfl
  | cons c text ih =>
    obtain ⟨b, more, hbytes, hnext⟩ :=
      next_utf8EncodeChar (text.flatMap String.utf8EncodeChar ++ rest) c
    rw [List.flatMap_cons, List.append_assoc, hbytes, List.cons_append, chars_cons, hnext, ih,
      List.cons_append]

theorem chars_encode_padded (text : String) (padding : Nat) :
    chars (encode text ++ List.replicate padding 0) =
      text.toList ++ List.replicate padding '\x00' := by
  have hzero : String.utf8EncodeChar '\x00' = [0] := by decide
  have hpadding : List.replicate padding 0 =
      (List.replicate padding '\x00').flatMap String.utf8EncodeChar := by
    rw [List.flatMap_replicate, hzero, List.flatten_replicate_singleton]
  have hnil : chars [] = [] := by rw [chars, charsOnto, List.reverse_nil]
  calc chars (encode text ++ List.replicate padding 0)
      = chars ((text.toList ++ List.replicate padding '\x00').flatMap
          String.utf8EncodeChar ++ []) := by
        rw [encode, hpadding, List.flatMap_append, List.append_nil]
    _ = text.toList ++ List.replicate padding '\x00' ++ chars [] := chars_append [] _
    _ = text.toList ++ List.replicate padding '\x00' := by rw [hnil, List.append_nil]

end DroidHost.Text.Utf8
