import DroidHost.Bridge.Stream

namespace DroidHost.Shell

/-- No echo and no translation of line ends, so that binary output comes through unchanged. -/
def rawTerminal : String :=
  "ioctl -l 23 -a 1 /proc/self/fd/0 0x5403 0 0 0 0 0 0 0 0 0xbf 0 0 0 0 0 0 0 0 " ++
    "0x3 0x1c 0x7f 0x15 0x4 0xff &>/dev/null;"

def destination (command : String) (raw : Bool) : String :=
  "shell:" ++ (if raw then rawTerminal else "") ++ command

def run (command : String) (raw : Bool) (budget : Nat) :
    EStateM BridgeError Connection Bytes := fun c =>
  c.runService (destination command raw) budget

def runText (command : String) (raw : Bool) (budget : Nat) :
    EStateM BridgeError Connection String := do
  return Text.Utf8.decode (← run command raw budget)

end DroidHost.Shell
