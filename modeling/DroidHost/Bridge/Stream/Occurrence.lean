import DroidHost.Bridge.Stream.State

/-! What a connection does with its streams and its channel, one step at a time. Nothing it does
depends on this record. -/
namespace DroidHost

inductive Occurrence
  | entered (id : UInt32)
  /-- For a stream in this phase, or for none that is known. -/
  | arrived (m : Message) (phase : Option Phase)
  | sent (m : Message)
  /-- The header was out by then if `begun`. -/
  | unsent (m : Message) (begun : Bool)
  | taken (id : UInt32) (bytes : Bytes)
  | removed (id : UInt32)
  deriving DecidableEq, Repr

end DroidHost
