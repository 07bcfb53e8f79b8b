import DroidHost.Bytes
import DroidHost.Text.Numeral

/-! Messages of the debug bridge. -/
namespace DroidHost

inductive Command
  | sync
  | connect
  | auth
  | start
  | okay
  | close
  | write
  deriving DecidableEq, Repr

namespace Command

def all : List Command := [sync, connect, auth, start, okay, close, write]

/-- As it is on the wire. -/
def name : Command → String
  | sync => "SYNC"
  | connect => "CNXN"
  | auth => "AUTH"
  | start => "OPEN"
  | okay => "OKAY"
  | close => "CLSE"
  | write => "WRTE"

def label : Command → String
  | sync => "Sync"
  | connect => "Cnxn"
  | auth => "Auth"
  | start => "Open"
  | okay => "Okay"
  | close => "Clse"
  | write => "Wrte"

/-- The letters of the name read as one word. -/
def word : Command → UInt32
  | sync => 0x434e5953
  | connect => 0x4e584e43
  | auth => 0x48545541
  | start => 0x4e45504f
  | okay => 0x59414b4f
  | close => 0x45534c43
  | write => 0x45545257

def ofWord? (word : UInt32) : Option Command := all.find? (·.word = word)

theorem ofWord?_word (c : Command) : ofWord? c.word = some c := by cases c <;> decide

theorem ofWord?_eq_some {w : UInt32} {c : Command} : ofWord? w = some c ↔ w = c.word := by
  refine ⟨fun h => ?_, fun h => h ▸ ofWord?_word c⟩
  have := List.find?_some h
  exact (of_decide_eq_true this).symm

end Command

structure Message where
  command : Command
  arg0 : UInt32
  arg1 : UInt32
  payload : Bytes
  deriving DecidableEq, Repr

namespace Message

def summary (command : Command) (arg0 arg1 : UInt32) (length : Nat) : String :=
  s!"{command.name}({Text.hex arg0.toNat}, {Text.hex arg1.toNat}, {length} bytes)"

def text (m : Message) : String := summary m.command m.arg0 m.arg1 m.payload.length

/-- A plain sum, in spite of its name on the wire. -/
def checksum (m : Message) : UInt32 := Bytes.sum m.payload

def magic (m : Message) : UInt32 := m.command.word ^^^ 0xFFFFFFFF

end Message

structure Header where
  command : Command
  arg0 : UInt32
  arg1 : UInt32
  length : UInt32
  checksum : UInt32
  deriving DecidableEq, Repr

/-- Six words. -/
def Header.size : Nat := 24

end DroidHost
