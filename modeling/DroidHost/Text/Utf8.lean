import DroidHost.Bytes

/-! UTF-8 both ways. Each maximal ill-formed piece is read as one replacement character. -/
namespace DroidHost.Text.Utf8

def replacement : Char := '\uFFFD'

def encode (text : String) : Bytes :=
  text.toList.flatMap String.utf8EncodeChar

/-- A byte out of place is left where it is. -/
def continued : (more : Nat) → (low high : UInt8) → (bits : Nat) → Bytes → Char × Bytes
  | 0, _, _, bits, rest => (Char.ofNat bits, rest)
  | _ + 1, _, _, _, [] => (replacement, [])
  | more + 1, low, high, bits, b :: rest =>
    if low ≤ b ∧ b ≤ high then continued more 0x80 0xBF (bits * 64 + b.toNat % 64) rest
    else (replacement, b :: rest)

/-- The bounds on the second byte rule out overlong forms, surrogates, and values above U+10FFFF. -/
def next (b : UInt8) (rest : Bytes) : Char × Bytes :=
  if b < 0x80 then (Char.ofNat b.toNat, rest)
  else if b < 0xC2 then (replacement, rest)
  else if b < 0xE0 then continued 1 0x80 0xBF (b.toNat % 32) rest
  else if b = 0xE0 then continued 2 0xA0 0xBF 0 rest
  else if b = 0xED then continued 2 0x80 0x9F 13 rest
  else if b < 0xF0 then continued 2 0x80 0xBF (b.toNat % 16) rest
  else if b = 0xF0 then continued 3 0x90 0xBF 0 rest
  else if b < 0xF4 then continued 3 0x80 0xBF (b.toNat % 8) rest
  else if b = 0xF4 then continued 3 0x80 0x8F 4 rest
  else (replacement, rest)

theorem length_continued (more : Nat) (low high : UInt8) (bits : Nat) (bytes : Bytes) :
    (continued more low high bits bytes).2.length ≤ bytes.length := by
  fun_induction continued more low high bits bytes with
  | case1 => exact Nat.le_refl _
  | case2 => exact Nat.le_refl _
  | case3 _ _ _ _ _ _ _ ih => exact Nat.le_succ_of_le ih
  | case4 => exact Nat.le_refl _

theorem length_next (b : UInt8) (rest : Bytes) : (next b rest).2.length ≤ rest.length := by
  unfold next
  repeat' split
  all_goals first | exact Nat.le_refl _ | exact length_continued _ _ _ _ _

/-- Put behind the characters already `seen`, latest first. -/
def charsOnto (seen : List Char) : Bytes → List Char
  | [] => seen.reverse
  | b :: rest => charsOnto ((next b rest).1 :: seen) (next b rest).2
termination_by bytes => bytes.length
decreasing_by exact Nat.lt_succ_of_le (length_next b rest)

def chars (bytes : Bytes) : List Char := charsOnto [] bytes

def decode (bytes : Bytes) : String := String.ofList (chars bytes)

end DroidHost.Text.Utf8
