import DroidHost.Bytes
import DroidHost.Link.Fault

/-! Something to write bytes to that may be full, or may fail at the end. -/
namespace DroidHost

structure Sink where
  held : Bytes := []
  /-- Bytes there is room for. -/
  limit : Option Nat := none
  flushFails : Bool := false
  deriving DecidableEq, Repr

namespace Sink

/-- Takes all the bytes or none. -/
def write (bytes : Bytes) (sink : Sink) : Except IoFault Sink :=
  if bytes.isEmpty then .ok sink
  else if sink.limit.any (· < sink.held.length + bytes.length) then
    .error ⟨.other, "sink full"⟩
  else .ok { sink with held := sink.held ++ bytes }

def flush (sink : Sink) : Except IoFault Unit :=
  if sink.flushFails then .error ⟨.other, "flush failed"⟩ else .ok ()

end Sink
end DroidHost
