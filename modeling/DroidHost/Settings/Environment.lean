import DroidHost.Settings.Basic
import DroidHost.Text.Blank
import DroidHost.Text.Numeral

/-! Settings from environment variables. A variable that holds no number in range counts as
absent. -/
namespace DroidHost

abbrev Environment := String → Option String

namespace Environment

def timeoutName : String := "ANDROID_USB_LINK_TIMEOUT_SECS"

def maxDataName : String := "ANDROID_USB_LINK_MAX_DATA"

def chunkKbName : String := "ANDROID_USB_LINK_CHUNK_KB"

def retriesName : String := "ANDROID_USB_LINK_RETRIES"

def names : List String := [timeoutName, maxDataName, chunkKbName, retriesName]

def number (env : Environment) (name : String) (bound : Nat) : Option Nat :=
  (env name).bind fun value => Text.readNumber 10 bound (Text.trimBlank value.toList)

/-- In whole seconds. -/
def timeout (env : Environment) : Option Nat :=
  (env.number timeoutName UInt64.size).map Duration.ofSeconds

def maxData (env : Environment) : Option UInt32 :=
  (env.number maxDataName UInt32.size).map UInt32.ofNat

/-- Pieces of zero KiB are not to be had. -/
def chunkKb (env : Environment) : Option Nat :=
  (env.number chunkKbName UInt64.size).filter (0 < ·)

def retries (env : Environment) : Option Nat :=
  env.number retriesName UInt32.size

def hostSettings (env : Environment) : HostSettings :=
  { timeout := env.timeout.getD (Duration.ofSeconds 10)
    maxData := env.maxData.getD 262144 }

def bootSettings (env : Environment) : BootSettings :=
  { chunkKb := env.chunkKb.getD 1024
    timeout := env.timeout.getD (Duration.ofSeconds 10)
    retries := env.retries.getD 3 }

end Environment
end DroidHost
