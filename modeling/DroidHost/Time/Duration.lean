import DroidHost.Text.Blank
import DroidHost.Text.Numeral

/-! Times and lengths of time are natural numbers of nanoseconds. -/
namespace DroidHost.Duration

def ofMillis (n : Nat) : Nat := n * 1000000

def ofSeconds (n : Nat) : Nat := n * 1000000000

def toMillis (nanos : Nat) : Nat := nanos / 1000000

/-- Exactly, without trailing zeros. -/
def quotientText (places n : Nat) : String :=
  let fraction := Text.padLeft places '0' (Text.decimal (n % Nat.pow 10 places))
  let shown := Text.dropEnd (· = '0') fraction.toList
  Text.decimal (n / Nat.pow 10 places) ++
    (if shown.isEmpty then "" else "." ++ String.ofList shown)

/-- Seconds from one second up, then milliseconds, microseconds, and nanoseconds. -/
def text (nanos : Nat) : String :=
  if 1000000000 ≤ nanos then quotientText 9 nanos ++ "s"
  else if 1000000 ≤ nanos then quotientText 6 nanos ++ "ms"
  else if 1000 ≤ nanos then quotientText 3 nanos ++ "µs"
  else Text.decimal nanos ++ "ns"

end DroidHost.Duration
