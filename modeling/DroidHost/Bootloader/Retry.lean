import DroidHost.Bootloader.Command

/-! Trying again after a failure of the link, with a pause in between. -/
namespace DroidHost

/-- A state in which time can pass. -/
class Clocked (σ : Type) where
  sleep : (nanos : Nat) → σ → σ

instance clockedDialogue : Clocked Dialogue := ⟨fun nanos d => d.sleep nanos⟩

structure RetryPolicy where
  retries : Nat
  pause : Nat := Duration.ofMillis 100
  deriving DecidableEq, Repr

namespace RetryPolicy

/-- The first outcome stands. -/
def once : RetryPolicy := ⟨0, 0⟩

/-- Tries `x`, and `more` times again as long as the link fails. -/
def attempt [Clocked σ] (pause : Nat) (x : EStateM BootError σ α) :
    (more : Nat) → EStateM BootError σ α
  | 0 => x
  | more + 1 => fun s =>
    match x s with
    | .ok a s => .ok a s
    | .error e s =>
      if e.isLink then attempt pause x more (Clocked.sleep pause s) else .error e s

def apply [Clocked σ] (policy : RetryPolicy) (x : EStateM BootError σ α) :
    EStateM BootError σ α := attempt policy.pause x policy.retries

end RetryPolicy

/-- Anything that carries out the commands of a bootloader. -/
abbrev BootDevice (σ : Type) := BootCommand → EStateM BootError σ String

namespace BootDevice

/-- The device with each command tried as often as a policy says. -/
def retrying [Clocked σ] (policy : RetryPolicy) (device : BootDevice σ) : BootDevice σ :=
  fun command => policy.apply (device command)

def flashImage (device : BootDevice σ) (partition : String) (image : EStateM BootError σ Bytes) :
    EStateM BootError σ String := do
  let bytes ← image
  let _ ← device (.download bytes)
  device (.flash partition none)

end BootDevice

structure Bootloader where
  settings : BootSettings
  policy : RetryPolicy := .once
  deriving DecidableEq, Repr

namespace Bootloader

/-- Size of the pieces of a download; it is never zero. -/
def pieceSize (b : Bootloader) : Nat := max b.settings.chunkSize 1

def run (b : Bootloader) : BootDevice Dialogue :=
  BootDevice.retrying b.policy (BootCommand.run b.settings)

/-- Downloads a local file and flashes it, each tried again on its own. -/
def flashFile (b : Bootloader) (partition : String) (file : Except IoFault Bytes) :
    EStateM BootError Dialogue String :=
  BootDevice.flashImage b.run partition <|
    match file with
    | .ok image => return image
    | .error f => throw (.localFile f)

end Bootloader
end DroidHost
