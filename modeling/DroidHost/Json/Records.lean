import DroidHost.Bridge.DeviceInfo
import DroidHost.Bridge.FileStat
import DroidHost.Json.Value
import DroidHost.Settings.Basic

/-! The records of this library in JSON. -/
namespace DroidHost

namespace Json.Value

def only? (fields : List (Label × Value)) (name : String) : Option Value :=
  match fields.filter (·.1 = some name) with
  | [(_, v)] => some v
  | _ => none

/-- Fields of other names are passed over unless `strict`. -/
def parts? (strict : Bool) (names : List String) : Value → Option (List Value)
  | .list items => if items.length = names.length then some items else none
  | .record fields =>
    if fields.all fun field => field.1.any fun name => !strict || names.contains name then
      names.mapM (only? fields)
    else none
  | _ => none

end Json.Value

open Json (Value)

namespace Duration

def toJson (nanos : Nat) : Value :=
  .ofFields [("secs", .natural (nanos / 1000000000)), ("nanos", .natural (nanos % 1000000000))]

/-- More nanoseconds than a second has carry over; the seconds stay below 2⁶⁴. -/
def ofJson? (v : Value) : Option Nat := do
  match ← v.parts? true ["secs", "nanos"] with
  | [secs, nanos] =>
    let total := ofSeconds (← secs.below? UInt64.size) + (← nanos.below? UInt32.size)
    if total < ofSeconds UInt64.size then return total else none
  | _ => none

end Duration

namespace HostSettings

def toJson (s : HostSettings) : Value :=
  .ofFields [("banner", .ofText s.banner), ("timeout", Duration.toJson s.timeout),
    ("auth_timeout", Duration.toJson s.authTimeout), ("max_data", .ofWord s.maxData),
    ("stream_id_limit", .ofWord s.streamIdLimit),
    ("local_close_timeout", Duration.toJson s.closeTimeout)]

def ofJson? (v : Value) : Option HostSettings := do
  match ← v.parts? false ["banner", "timeout", "auth_timeout", "max_data", "stream_id_limit",
      "local_close_timeout"] with
  | [banner, timeout, authTimeout, maxData, streamIdLimit, closeTimeout] =>
    return ⟨← banner.text?, ← Duration.ofJson? timeout, ← Duration.ofJson? authTimeout,
      ← maxData.word?, ← streamIdLimit.word?, ← Duration.ofJson? closeTimeout⟩
  | _ => none

end HostSettings

namespace BootSettings

def toJson (s : BootSettings) : Value :=
  .ofFields [("chunk_kb", .natural s.chunkKb), ("timeout", Duration.toJson s.timeout),
    ("num_retries", .natural s.retries)]

def ofJson? (v : Value) : Option BootSettings := do
  match ← v.parts? false ["chunk_kb", "timeout", "num_retries"] with
  | [chunkKb, timeout, retries] =>
    return ⟨← chunkKb.below? UInt64.size, ← Duration.ofJson? timeout, ← retries.below? UInt32.size⟩
  | _ => none

end BootSettings

namespace DeviceInfo

def toJson (info : DeviceInfo) : Value :=
  .ofFields [("systemtype", .ofText info.systemType), ("serial", .ofText info.serial),
    ("banner", .ofText info.banner), ("version", .ofWord info.version),
    ("max_data", .ofWord info.maxData)]

def ofJson? (v : Value) : Option DeviceInfo := do
  match ← v.parts? false ["systemtype", "serial", "banner", "version", "max_data"] with
  | [systemType, serial, banner, version, maxData] =>
    return ⟨← systemType.text?, ← serial.text?, ← banner.text?, ← version.word?, ← maxData.word?⟩
  | _ => none

end DeviceInfo

namespace FileStat

def toJson (s : FileStat) : Value :=
  .ofFields [("filename", .ofText s.name), ("mode", .ofWord s.mode), ("size", .ofWord s.size),
    ("mtime", .ofWord s.mtime)]

def ofJson? (v : Value) : Option FileStat := do
  match ← v.parts? false ["filename", "mode", "size", "mtime"] with
  | [name, mode, size, mtime] =>
    return ⟨← name.text?, ← mode.word?, ← size.word?, ← mtime.word?⟩
  | _ => none

end FileStat
end DroidHost
