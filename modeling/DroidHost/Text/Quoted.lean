import DroidHost.Text.Unprintable
import DroidHost.Text.Extending
import DroidHost.Text.Numeral

/-! Text between double quotes, as error messages show it. -/
namespace DroidHost.Text

/-- The apostrophe stands for itself. -/
def escapeChar (c : Char) : String :=
  if c = '\x00' then "\\0"
  else if c = '\t' then "\\t"
  else if c = '\r' then "\\r"
  else if c = '\n' then "\\n"
  else if c = '"' then "\\\""
  else if c = '\\' then "\\\\"
  else if 0x20 ≤ c.toNat && c.toNat < 0x7F then c.toString
  else if isUnprintable c || isExtending c then "\\u\x7b" ++ digits 16 c.toNat ++ "\x7d"
  else c.toString

def quoted (text : String) : String :=
  "\"" ++ text.foldl (fun shown c => shown ++ escapeChar c) "" ++ "\""

end DroidHost.Text
