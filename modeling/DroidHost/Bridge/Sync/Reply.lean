import DroidHost.Bytes
import DroidHost.Text.Quoted

/-! The vocabulary of file transfer inside a `sync:` stream. -/
namespace DroidHost

inductive SyncId
  | stat
  | list
  | send
  | recv
  | entry
  | data
  | done
  | okay
  | fail
  | quit
  deriving DecidableEq, Repr

namespace SyncId

def all : List SyncId := [stat, list, send, recv, entry, data, done, okay, fail, quit]

def bytes : SyncId → Bytes
  | stat => [0x53, 0x54, 0x41, 0x54]
  | list => [0x4C, 0x49, 0x53, 0x54]
  | send => [0x53, 0x45, 0x4E, 0x44]
  | recv => [0x52, 0x45, 0x43, 0x56]
  | entry => [0x44, 0x45, 0x4E, 0x54]
  | data => [0x44, 0x41, 0x54, 0x41]
  | done => [0x44, 0x4F, 0x4E, 0x45]
  | okay => [0x4F, 0x4B, 0x41, 0x59]
  | fail => [0x46, 0x41, 0x49, 0x4C]
  | quit => [0x51, 0x55, 0x49, 0x54]

def label : SyncId → String
  | stat => "Stat"
  | list => "List"
  | send => "Send"
  | recv => "Recv"
  | entry => "Dent"
  | data => "Data"
  | done => "Done"
  | okay => "Okay"
  | fail => "Fail"
  | quit => "Quit"

def ofBytes? (bytes : Bytes) : Option SyncId := all.find? (·.bytes = bytes)

theorem ofBytes?_bytes (id : SyncId) : ofBytes? id.bytes = some id := by cases id <;> decide

end SyncId

/-- The fixed part of the reply that a request waits for. -/
inductive ReplyShape
  | stat
  | entry
  | data
  deriving DecidableEq, Repr

namespace ReplyShape

def words : ReplyShape → Nat
  | stat => 3
  | entry => 4
  | data => 1

def label : ReplyShape → String
  | stat => "Stat"
  | entry => "Dent"
  | data => "Data"

end ReplyShape

inductive SyncReply
  | stat (mode size mtime : UInt32)
  | entry (mode size mtime : UInt32) (name : String)
  | data (bytes : Bytes)
  | done (value : UInt32)
  | okay
  deriving DecidableEq, Repr

def SyncReply.text : SyncReply → String
  | stat mode size mtime =>
    "Stat \x7b mode: " ++ Text.decimal mode.toNat ++ ", size: " ++ Text.decimal size.toNat ++
      ", mtime: " ++ Text.decimal mtime.toNat ++ " \x7d"
  | entry mode size mtime name =>
    "Dent \x7b mode: " ++ Text.decimal mode.toNat ++ ", size: " ++ Text.decimal size.toNat ++
      ", mtime: " ++ Text.decimal mtime.toNat ++ ", name: " ++ Text.quoted name ++ " \x7d"
  | data bytes =>
    "Data \x7b bytes: [" ++ ", ".intercalate (bytes.map fun b => Text.decimal b.toNat) ++
      "] \x7d"
  | done value => "Done \x7b value: " ++ Text.decimal value.toNat ++ " \x7d"
  | okay => "Okay"

end DroidHost
