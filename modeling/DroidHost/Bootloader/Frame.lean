import DroidHost.Text.Blank
import DroidHost.Text.Quoted
import DroidHost.Text.Utf8
import DroidHost.Link.Fault

/-! What a bootloader answers with: frames of four letters and text. -/
namespace DroidHost

inductive FrameTag
  | okay
  | fail
  | data
  | info
  deriving DecidableEq, Repr

namespace FrameTag

def all : List FrameTag := [okay, fail, data, info]

def name : FrameTag → String
  | okay => "OKAY"
  | fail => "FAIL"
  | data => "DATA"
  | info => "INFO"

def bytes : FrameTag → Bytes
  | okay => [0x4F, 0x4B, 0x41, 0x59]
  | fail => [0x46, 0x41, 0x49, 0x4C]
  | data => [0x44, 0x41, 0x54, 0x41]
  | info => [0x49, 0x4E, 0x46, 0x4F]

def ofBytes? (bytes : Bytes) : Option FrameTag := all.find? (·.bytes = bytes)

theorem ofBytes?_bytes (t : FrameTag) : ofBytes? t.bytes = some t := by cases t <;> decide

end FrameTag

inductive BootError
  | link (fault : LinkFault)
  /-- The frame is not the one that was due. -/
  | stateMismatch (expected actual : String)
  | remoteFailure (text : String)
  | invalidResponse (tag text : String)
  /-- The bootloader is ready for another number of bytes. -/
  | transfer (requested accepted : Nat)
  | localFile (fault : IoFault)
  deriving DecidableEq, Repr

namespace BootError

def message : BootError → String
  | link fault => s!"Fastboot transport error: {fault.message}"
  | stateMismatch expected actual => s!"Expected {expected} from bootloader, got {actual}"
  | remoteFailure text => s!"Bootloader reported failure: {text}"
  | invalidResponse tag text =>
    "Invalid bootloader response " ++ Text.quoted tag ++ ": " ++ Text.quoted text
  | transfer requested accepted =>
    s!"Bootloader accepted {accepted} bytes, {requested} were requested"
  | localFile fault => s!"Local I/O failed: {fault.text}"

/-- Another attempt may go better. -/
def isLink : BootError → Bool
  | link _ => true
  | _ => false

end BootError

structure Frame where
  tag : Bytes
  text : String
  deriving DecidableEq, Repr

namespace Frame

def size : Nat := 64

/-- Zero bytes at the end are padding. Nothing at all means that the bootloader is gone. -/
def ofBytes (bytes : Bytes) : Except BootError Frame :=
  if bytes.isEmpty then .error (.link .closed)
  else if bytes.length < 4 then .error (.invalidResponse (Text.Utf8.decode bytes) "")
  else
    .ok ⟨bytes.take 4,
      String.ofList (Text.dropEnd (· = '\x00') (Text.Utf8.chars (bytes.drop 4)))⟩

theorem length_of_ofBytes {bytes : Bytes} {f : Frame} (h : ofBytes bytes = .ok f) :
    4 ≤ bytes.length := by
  unfold ofBytes at h
  split at h
  · cases h
  · split at h
    · cases h
    · omega

end Frame
end DroidHost
