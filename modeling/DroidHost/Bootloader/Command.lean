import DroidHost.Bootloader.Dialogue
import DroidHost.Settings.Basic

/-! Commands that a bootloader understands. -/
namespace DroidHost

inductive BootCommand
  | download (bytes : Bytes)
  | flash (partition : String) (budget : Option Nat)
  | erase (partition : String) (budget : Option Nat)
  | getvar (name : String)
  | oem (command : String) (budget : Option Nat)
  /-- Goes on with the normal start of the device. -/
  | resume
  | reboot (mode : Option String)
  | rebootBootloader
  deriving DecidableEq, Repr

namespace BootCommand

/-- A command that is answered by a single confirmation. -/
def simple (settings : BootSettings) (command : String) (argument : Option String)
    (budget : Option Nat) : EStateM BootError Dialogue String := do
  let budget := budget.getD settings.timeout
  Dialogue.sendCommand command argument budget
  Dialogue.await .okay budget

/-- Eight hexadecimal digits at least. -/
def lengthText (length : Nat) : String := Text.padLeft 8 '0' (Text.digits 16 length)

def run (settings : BootSettings) : BootCommand → EStateM BootError Dialogue String
  | download bytes => do
    Dialogue.sendCommand "download" (some (lengthText bytes.length)) settings.timeout
    Dialogue.sendData settings.chunkSize bytes settings.timeout
  | flash partition budget => simple settings "flash" (some partition) budget
  | erase partition budget => simple settings "erase" (some partition) budget
  | getvar name => simple settings "getvar" (some name) none
  | oem command budget => simple settings ("oem " ++ command) none budget
  | resume => simple settings "continue" none none
  | reboot mode => simple settings "reboot" mode none
  | rebootBootloader => simple settings "reboot-bootloader" none none

end BootCommand
end DroidHost
