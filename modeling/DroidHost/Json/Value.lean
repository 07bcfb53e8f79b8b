/-! JSON values, as far as this library has a use for them. -/
namespace DroidHost.Json

/-- Escapes can name half of a surrogate pair on its own, and then there is no text. -/
abbrev Label := Option String

inductive Value
  | null
  | bool (b : Bool)
  | natural (n : Nat)
  /-- A number with a sign, a fraction or an exponent. -/
  | otherNumber
  | string (label : Label)
  | list (items : List Value)
  /-- A name may occur more than once. -/
  | record (fields : List (Label × Value))

namespace Value

def ofText (text : String) : Value := .string (some text)

def ofWord (w : UInt32) : Value := .natural w.toNat

def ofFields (fields : List (String × Value)) : Value :=
  .record (fields.map fun field => (some field.1, field.2))

def text? : Value → Option String
  | .string label => label
  | _ => none

def below? (bound : Nat) : Value → Option Nat
  | .natural n => if n < bound then some n else none
  | _ => none

def word? (v : Value) : Option UInt32 := (v.below? UInt32.size).map UInt32.ofNat

end Value
end DroidHost.Json
