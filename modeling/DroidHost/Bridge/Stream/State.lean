import DroidHost.Bridge.Error

/-! One logical stream as the host sees it, and what each message from the device does to it. -/
namespace DroidHost

inductive Phase
  /-- Asked for; the device has not answered. -/
  | pending
  | opened
  | closed
  deriving DecidableEq, Repr

structure StreamState where
  /-- Learned from the device's first answer. -/
  peer : Option UInt32 := none
  phase : Phase := .pending
  /-- Something sent, be it the request to open, waits for its OKAY. -/
  awaiting : Bool := true
  buffer : Bytes := []
  fault : Option StreamFault := none
  deriving DecidableEq, Repr

namespace StreamState

def fresh : StreamState := {}

/-- The first acknowledgement names the peer; a later one has to come from it, and something has to
wait for it. -/
def acknowledged (sender : UInt32) (s : StreamState) : StreamState :=
  if s.peer.any (· ≠ sender) then
    { s with fault := some (.wrongPeer sender (s.peer.getD sender)) }
  else if s.awaiting then
    { s with
      peer := some sender
      awaiting := false
      phase := if s.phase = .pending then .opened else s.phase }
  else { s with peer := some sender, fault := some .strayOkay }

def closedBy (sender : UInt32) (s : StreamState) : StreamState :=
  { s with peer := some (s.peer.getD sender), phase := .closed }

def supplied (id : UInt32) (bytes : Bytes) (s : StreamState) : StreamState × Option Message :=
  match s.phase, s.peer with
  | .opened, some peer => ({ s with buffer := s.buffer ++ bytes }, some ⟨.okay, id, peer, []⟩)
  | .closed, _ => (s, none)
  | _, _ => ({ s with fault := some .earlyData }, none)

def apply (id : UInt32) (m : Message) (s : StreamState) : StreamState × Option Message :=
  match m.command with
  | .okay => (s.acknowledged m.arg0, none)
  | .close => (s.closedBy m.arg0, none)
  | .write => s.supplied id m.payload
  | _ => (s, none)

theorem length_buffer_apply (id : UInt32) (m : Message) (s : StreamState) :
    (s.apply id m).1.buffer.length ≤ s.buffer.length + m.payload.length := by
  unfold apply
  split
  · unfold acknowledged
    repeat' split
    all_goals exact Nat.le_add_right _ _
  · exact Nat.le_add_right _ _
  · unfold supplied
    split
    · simp only [List.length_append, Nat.le_refl]
    all_goals exact Nat.le_add_right _ _
  · exact Nat.le_add_right _ _

end StreamState
end DroidHost
