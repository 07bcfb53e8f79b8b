import DroidHost.Json.Value
import DroidHost.Text.Numeral

/-! JSON values as text for people, one item or field to a line. -/
namespace DroidHost.Json

def escapeChar (c : Char) : String :=
  if c = '"' then "\\\""
  else if c = '\\' then "\\\\"
  else if c = '\x08' then "\\b"
  else if c = '\x0C' then "\\f"
  else if c = '\n' then "\\n"
  else if c = '\r' then "\\r"
  else if c = '\t' then "\\t"
  else if c.toNat < 0x20 then "\\u" ++ Text.padLeft 4 '0' (Text.digits 16 c.toNat)
  else c.toString

def stringText (text : String) : String :=
  "\"" ++ text.foldl (fun shown c => shown ++ escapeChar c) "" ++ "\""

/-- A string without a text is shown as the replacement character. -/
def labelText (label : Label) : String := stringText (label.getD "\uFFFD")

/-- Lines at a depth, with commas between them, in brackets. -/
def block (opening closing : String) (depth : Nat) : List String → String
  | [] => opening ++ closing
  | first :: rest =>
    let line := fun (deep : Nat) => "\n" ++ String.ofList (List.replicate (2 * deep) ' ')
    opening ++ line (depth + 1) ++ ("," ++ line (depth + 1)).intercalate (first :: rest) ++
      line depth ++ closing

mutual

def Value.textAt (depth : Nat) : Value → String
  | .null => "null"
  | .bool b => if b then "true" else "false"
  | .natural n => Text.decimal n
  | .otherNumber => "null"
  | .string label => labelText label
  | .list items => block "[" "]" depth (itemTexts (depth + 1) items)
  | .record fields => block "\x7b" "\x7d" depth (fieldTexts (depth + 1) fields)

def itemTexts (depth : Nat) : List Value → List String
  | [] => []
  | v :: rest => v.textAt depth :: itemTexts depth rest

def fieldTexts (depth : Nat) : List (Label × Value) → List String
  | [] => []
  | (name, v) :: rest => (labelText name ++ ": " ++ v.textAt depth) :: fieldTexts depth rest

end

def Value.pretty (v : Value) : String := v.textAt 0

end DroidHost.Json
