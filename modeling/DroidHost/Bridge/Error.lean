import DroidHost.Bridge.Message.Basic
import DroidHost.Bridge.Sync.Reply
import DroidHost.Link.Fault
import DroidHost.Text.Utf8

/-! Everything that can go wrong on the debug bridge. -/
namespace DroidHost

/-- What spoils one stream while the connection lives on. -/
inductive StreamFault
  /-- An acknowledgement from another stream of the device. -/
  | wrongPeer (got expected : UInt32)
  /-- An acknowledgement that nothing waits for. -/
  | strayOkay
  /-- Data before the stream was accepted. -/
  | earlyData
  /-- Data whose acknowledgement could not be sent. -/
  | unacknowledged (cause : LinkFault)
  deriving DecidableEq, Repr

inductive Violation
  | shortMessage (length : Nat)
  | headerSize (length : Nat)
  | unknownCommand (word : UInt32)
  | badMagic (magic : UInt32) (command : Command)
  | hungUp
  | unexpected (command : Command) (arg0 arg1 : UInt32) (length : Nat)
  | malformedBanner (payload : Bytes)
  | challengeType (type : UInt32)
  | stream (id : UInt32) (fault : StreamFault)
  | writtenBeforeOpen (id : UInt32)
  | writeUnresolved (id : UInt32)
  | unknownSyncId (bytes : Bytes)
  | misplacedReply (id : SyncId) (shape : ReplyShape)
  | notStat (reply : SyncReply)
  | notEntry (reply : SyncReply)
  | notData (reply : SyncReply)
  | notOkay (reply : SyncReply)
  | noted (text : String)
  deriving DecidableEq, Repr

/-- What an operation was waiting for when its time ran out. -/
inductive Awaited
  | oneOf (commands : List Command)
  | openReply (stream : UInt32)
  | okay (stream : UInt32)
  | data (stream : UInt32)
  | noted (text : String)
  deriving DecidableEq, Repr

inductive Refusal
  | noKeys
  | keyNotAccepted
  | noted (text : String)
  deriving DecidableEq, Repr

inductive Unavailable
  | outOfIds
  | unsupported (destination : String)
  | noted (text : String)
  deriving DecidableEq, Repr

inductive BadArgument
  | longPath (length : Nat)
  | noted (text : String)
  deriving DecidableEq, Repr

structure Mismatch where
  expectedLength : UInt32
  actualLength : UInt32
  expectedChecksum : UInt32
  actualChecksum : UInt32
  deriving DecidableEq, Repr

inductive BridgeError
  | link (fault : LinkFault)
  | protocol (violation : Violation)
  | integrity (mismatch : Mismatch)
  | timeout (budget : Nat) (awaited : Awaited)
  | auth (refusal : Refusal)
  | streamClosed (id : UInt32)
  | unavailable (cause : Unavailable)
  | remote (text : String)
  | argument (bad : BadArgument)
  | localFile (fault : IoFault)
  deriving DecidableEq, Repr

/-- In bytes. -/
def maxPathLength : Nat := 1024

def StreamFault.message (id : UInt32) : StreamFault → String
  | wrongPeer got expected =>
    s!"stream {id} got OKAY from remote id {Text.hex got.toNat}, " ++
      s!"expected {Text.hex expected.toNat}"
  | strayOkay => s!"stream {id} received unexpected OKAY"
  | earlyData => s!"stream {id} received WRTE before OKAY/CLSE"
  | unacknowledged cause =>
    s!"stream {id} could not ack WRTE: ADB transport error: {cause.message}"

def Violation.message : Violation → String
  | shortMessage length =>
    s!"message too short: {length} bytes, need at least {Header.size}"
  | headerSize length => s!"bad header size: {length} bytes, expected {Header.size}"
  | unknownCommand word =>
    s!"unknown command {Text.hexWord word} (" ++
      Text.quoted (Text.Utf8.decode (Bytes.ofWord word)) ++ ")"
  | badMagic magic command => s!"bad magic {Text.hexWord magic} for {command.name}"
  | hungUp => "connection lost"
  | unexpected command arg0 arg1 length =>
    s!"unexpected {Message.summary command arg0 arg1 length} on an established connection"
  | malformedBanner payload =>
    "malformed CNXN banner " ++ Text.quoted (Text.Utf8.decode payload)
  | challengeType type => s!"unexpected AUTH type {type} from device"
  | stream id fault => fault.message id
  | writtenBeforeOpen id => s!"stream {id} written before it was opened"
  | writeUnresolved id => s!"stream {id}: previous WRTE unresolved"
  | unknownSyncId bytes =>
    "unknown filesync id " ++ Text.quoted (Text.Utf8.decode bytes)
  | misplacedReply id shape =>
    s!"unexpected filesync reply {id.label} while expecting {shape.label}"
  | notStat reply => s!"expected STAT reply, got {reply.text}"
  | notEntry reply => s!"expected DENT or DONE during LIST, got {reply.text}"
  | notData reply => s!"expected DATA or DONE during RECV, got {reply.text}"
  | notOkay reply => s!"expected OKAY after SEND, got {reply.text}"
  | noted text => text

def Awaited.message : Awaited → String
  | oneOf commands =>
    "waiting for one of [" ++ ", ".intercalate (commands.map Command.label) ++ "]"
  | openReply id => s!"stream {id} waiting for OPEN reply"
  | okay id => s!"stream {id} waiting for OKAY"
  | data id => s!"stream {id} waiting for data"
  | noted text => text

def Refusal.message : Refusal → String
  | noKeys => "device requires authentication but no keys were provided"
  | keyNotAccepted => "accept auth key on device, then retry"
  | noted text => text

def Unavailable.message : Unavailable → String
  | outOfIds => "ran out of ids"
  | unsupported destination => s!"device does not support '{destination}'"
  | noted text => text

def BadArgument.message : BadArgument → String
  | longPath length =>
    s!"path is {length} bytes, longer than the {maxPathLength} byte limit"
  | noted text => text

def Mismatch.message (m : Mismatch) : String :=
  s!"expected {m.expectedLength} bytes with checksum {Text.hex m.expectedChecksum.toNat}, " ++
    s!"got {m.actualLength} bytes with checksum {Text.hex m.actualChecksum.toNat}"

namespace BridgeError

def message : BridgeError → String
  | link fault => s!"ADB transport error: {fault.message}"
  | protocol violation => s!"ADB protocol error: {violation.message}"
  | integrity mismatch => s!"ADB message failed integrity check: {mismatch.message}"
  | timeout budget awaited =>
    s!"Operation timed out after {Duration.text budget}: {awaited.message}"
  | auth refusal => s!"Device authentication failed: {refusal.message}"
  | streamClosed id => s!"ADB stream {id} is closed"
  | unavailable cause => s!"ADB stream unavailable: {cause.message}"
  | remote text => s!"Device reported failure: {text}"
  | argument bad => s!"Invalid argument: {bad.message}"
  | localFile fault => s!"Local I/O failed: {fault.text}"

def isTimeout : BridgeError → Bool
  | timeout .. => true
  | link fault => fault.isTimeout
  | _ => false

def isStreamClosed : BridgeError → Bool
  | streamClosed _ => true
  | _ => false

def isProtocol : BridgeError → Bool
  | protocol _ => true
  | _ => false

end BridgeError
end DroidHost
