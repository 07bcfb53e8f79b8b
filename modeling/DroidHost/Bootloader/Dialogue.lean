import DroidHost.Bootloader.Frame
import DroidHost.Link.Basic
import DroidHost.Time.Deadline

/-! The dialogue with a bootloader: one line of text out, then frames in until one that ends it.
INFO frames in front of that are told to the user. -/
namespace DroidHost

structure Dialogue where
  link : Link
  /-- Latest first. -/
  notes : List String := []
  /-- Bytes sent and bytes in all after each piece, latest first. -/
  progress : List (Nat × Nat) := []
  deriving DecidableEq, Repr

namespace Dialogue

def note (d : Dialogue) (text : String) : Dialogue := { d with notes := text :: d.notes }

def advance (d : Dialogue) (sent total : Nat) : Dialogue :=
  { d with progress := (sent, total) :: d.progress }

def sleep (d : Dialogue) (nanos : Nat) : Dialogue := { d with link := d.link.sleep nanos }

def write (bytes : Bytes) (budget : Nat) (d : Dialogue) :
    EStateM.Result BootError Dialogue Unit :=
  match d.link.write bytes budget with
  | .ok _ link => .ok () { d with link := link }
  | .error f link => .error (.link f) { d with link := link }

def sendCommand (command : String) (argument : Option String) (budget : Nat) :
    EStateM BootError Dialogue Unit :=
  match argument with
  | some argument => write (Text.Utf8.encode (command ++ ":" ++ argument)) budget
  | none => write (Text.Utf8.encode command) budget

def readFrame (budget : Nat) (d : Dialogue) : EStateM.Result BootError Dialogue Frame :=
  match d.link.read Frame.size budget with
  | .error f link => .error (.link f) { d with link := link }
  | .ok bytes link =>
    match Frame.ofBytes bytes with
    | .ok f => .ok f { d with link := link }
    | .error e => .error e { d with link := link }

theorem readFrame_ok {budget : Nat} {d after : Dialogue} {f : Frame}
    (h : d.readFrame budget = .ok f after) : after.link.weight + 4 ≤ d.link.weight := by
  unfold readFrame at h
  split at h
  · cases h
  · next bytes link hr =>
    split at h
    · next hf =>
      cases h
      have := Frame.length_of_ofBytes hf
      have := Link.read_ok_weight hr
      dsimp only
      omega
    · cases h

/-- Waits for the frame that ends the dialogue. -/
def awaitBy (expected : FrameTag) (deadline : Deadline) (d : Dialogue) :
    EStateM.Result BootError Dialogue String :=
  if deadline.hasExpired d.link.now then .error (.link (.timeout deadline.budget)) d
  else
    match _ : d.readFrame (deadline.remaining d.link.now) with
    | .error e after => .error e after
    | .ok f after =>
      -- A note does not end the wait, and does not prolong it either.
      match FrameTag.ofBytes? f.tag with
      | none => .error (.invalidResponse (Text.Utf8.decode f.tag) f.text) after
      | some .info => awaitBy expected deadline (after.note f.text)
      | some .fail => .error (.remoteFailure f.text) after
      | some tag =>
        if tag = expected then .ok f.text after
        else .error (.stateMismatch expected.name tag.name) after
termination_by d.link.weight
decreasing_by
  have := readFrame_ok ‹d.readFrame _ = _›
  simp only [note]
  omega

def await (expected : FrameTag) (budget : Nat) (d : Dialogue) :
    EStateM.Result BootError Dialogue String :=
  d.awaitBy expected ⟨d.link.now, budget⟩

def sendPieces (budget total : Nat) : (sent : Nat) → List Bytes →
    EStateM BootError Dialogue Unit
  | _, [] => return ()
  | sent, piece :: rest => do
    write piece budget
    modify (·.advance (sent + piece.length) total)
    sendPieces budget total (sent + piece.length) rest

/-- A hexadecimal number below 2⁶⁴, white space around it aside. -/
def readyFor? (text : String) : Option Nat :=
  Text.readNumber 16 UInt64.size (Text.trimBlank text.toList)

/-- The second half of a download. -/
def sendData (pieceSize : Nat) (bytes : Bytes) (budget : Nat) :
    EStateM BootError Dialogue String := do
  let reply ← await .data budget
  match readyFor? reply with
  | none => throw (.invalidResponse FrameTag.data.name reply)
  | some accepted =>
    if accepted ≠ bytes.length then throw (.transfer bytes.length accepted)
    else
      sendPieces budget bytes.length 0 (Bytes.pieces pieceSize bytes)
      await .okay budget

end Dialogue
end DroidHost
