namespace DroidHost.Text

/-- Least significant digit last; zero has one digit. -/
def digits (base n : Nat) : String := String.ofList (Nat.toDigits base n)

def padLeft (width : Nat) (fill : Char) (text : String) : String :=
  String.ofList (List.replicate (width - text.length) fill) ++ text

def decimal (n : Nat) : String := digits 10 n

def hex (n : Nat) : String := "0x" ++ digits 16 n

def hexWord (w : UInt32) : String := "0x" ++ padLeft 8 '0' (digits 16 w.toNat)

/-- Letters of either case stand for ten and up. -/
def digitValue (c : Char) : Option Nat :=
  if '0' ≤ c ∧ c ≤ '9' then some (c.toNat - '0'.toNat)
  else if 'a' ≤ c ∧ c ≤ 'z' then some (c.toNat - 'a'.toNat + 10)
  else if 'A' ≤ c ∧ c ≤ 'Z' then some (c.toNat - 'A'.toNat + 10)
  else none

def readDigits (base : Nat) : (value : Nat) → List Char → Option Nat
  | value, [] => some value
  | value, c :: rest =>
    match digitValue c with
    | some d => if d < base then readDigits base (value * base + d) rest else none
    | none => none

/-- An optional plus sign, then at least one digit and nothing else. -/
def readNumber (base bound : Nat) (text : List Char) : Option Nat :=
  let body := match text with
    | '+' :: rest => rest
    | other => other
  match body with
  | [] => none
  | c :: rest => (readDigits base 0 (c :: rest)).filter (· < bound)

end DroidHost.Text
