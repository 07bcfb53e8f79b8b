import DroidHost.Time.Duration

namespace DroidHost

inductive IoKind
  | timedOut
  | wouldBlock
  | brokenPipe
  | interrupted
  | notFound
  | other
  deriving DecidableEq, Repr

structure IoFault where
  kind : IoKind
  text : String
  deriving DecidableEq, Repr

inductive LinkFault
  | timeout (budget : Nat)
  | readFailed (text : String)
  | writeFailed (text : String)
  | closed
  | io (fault : IoFault)
  deriving DecidableEq, Repr

namespace LinkFault

/-- The link itself is sound. -/
def isTimeout : LinkFault → Bool
  | timeout _ => true
  | io fault => fault.kind = .timedOut || fault.kind = .wouldBlock
  | _ => false

def message : LinkFault → String
  | timeout budget => s!"Transport operation timed out after {Duration.text budget}"
  | readFailed text => s!"Transport read failed: {text}"
  | writeFailed text => s!"Transport write failed: {text}"
  | closed => "Transport is closed"
  | io fault => s!"Transport I/O error: {fault.text}"

end LinkFault
end DroidHost
