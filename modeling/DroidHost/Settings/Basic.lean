import DroidHost.Time.Duration

namespace DroidHost

/-- Times in nanoseconds. -/
structure HostSettings where
  /-- Sent to the device as `host::banner`. -/
  banner : String := "android-usb-link"
  /-- For the handshake as a whole, and for operations that are given no time of their own. -/
  timeout : Nat := Duration.ofSeconds 10
  /-- For the user to accept a new key on the device. -/
  authTimeout : Nat := Duration.ofSeconds 30
  /-- The device may lower it. -/
  maxData : UInt32 := 262144
  /-- Stream ids stay below this and start again at one. -/
  streamIdLimit : UInt32 := 2147483648
  closeTimeout : Nat := Duration.ofMillis 100
  deriving DecidableEq, Repr

/-- So that running out of ids and of time is soon reached. -/
def HostSettings.small : HostSettings :=
  { timeout := Duration.ofMillis 500
    authTimeout := Duration.ofMillis 200
    streamIdLimit := 8
    closeTimeout := Duration.ofMillis 50 }

structure BootSettings where
  /-- Size of the pieces an image is sent in. -/
  chunkKb : Nat := 1024
  /-- For one response. -/
  timeout : Nat := Duration.ofSeconds 10
  retries : Nat := 3
  deriving DecidableEq, Repr

def BootSettings.chunkSize (s : BootSettings) : Nat := s.chunkKb * 1024

end DroidHost
