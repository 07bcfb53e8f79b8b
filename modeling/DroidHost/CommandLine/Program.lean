import DroidHost.Bridge.Device
import DroidHost.Bridge.Handshake
import DroidHost.CommandLine.Help
import DroidHost.Json.Printer
import DroidHost.Json.Records
import DroidHost.Settings.Environment

/-! The program as a function of its arguments, its environment, the local files and the link to the
device. -/
namespace DroidHost

structure Report where
  output : String := ""
  complaints : String := ""
  succeeded : Bool := true
  /-- With its contents. -/
  written : Option (String × Bytes) := none
  deriving DecidableEq, Repr

structure LocalFiles where
  contents : String → Except IoFault Bytes
  creation : String → Except IoFault Unit

namespace Report

def done (output : String) : Report := { output := output }

def misused (e : UsageError) : Report :=
  { output := helpText, complaints := s!"❌ {e.message}\n", succeeded := false }

def complaint : BridgeError → String
  | .auth refusal =>
    s!"🔒 Device wants authentication and no key is available: {refusal.message}\n"
  | e => s!"❌ {e.message}\n"

def failed (printed : String) (e : BridgeError) : Report :=
  { output := printed, complaints := complaint e, succeeded := false }

end Report

namespace DeviceInfo

def summary (info : DeviceInfo) : String :=
  let version := Text.hex info.version.toNat
  s!"📱 {info.systemType} '{info.serial}' (protocol {version}, " ++
    s!"max payload {info.maxData} bytes)\n" ++
    String.join (info.properties.map fun (key, value) => s!"    {key} = {value}\n")

end DeviceInfo

namespace FileStat

/-- Kind, permissions in octal, size and name. -/
def row (s : FileStat) : String :=
  let kind := if s.isDirectory then "d" else "-"
  let permissions := Text.padLeft 4 '0' (Text.digits 8 s.permissions.toNat)
  let size := Text.padLeft 10 ' ' (Text.decimal s.size.toNat)
  s!"{kind}{permissions} {size} {s.name}\n"

def summary (s : FileStat) (path : String) : String :=
  let mode := Text.digits 8 s.mode.toNat
  if s.isThere then s!"📄 {path}: mode {mode}, {s.size} bytes, mtime {s.mtime}\n"
  else s!"❌ {path}: not found\n"

end FileStat

def Json.Value.line (v : Json.Value) : String := v.pretty ++ "\n"

namespace Job

def showInfo (choices : Choices) : EStateM BridgeError Device String := do
  let info := (← get).connection.info
  return if choices.json then info.toJson.line else info.summary

def showList (choices : Choices) (path : String) : EStateM BridgeError Device String := do
  let entries ← Device.list path
  return if choices.json then (Json.Value.list (entries.map FileStat.toJson)).line
    else String.join (entries.map FileStat.row)

def showStat (choices : Choices) (path : String) : EStateM BridgeError Device String := do
  let stat ← Device.stat path
  return if choices.json then stat.toJson.line else stat.summary path

def upload (contents : Except IoFault Bytes) (file path : String) :
    EStateM BridgeError Device String := do
  Device.pushFile contents path
  return s!"✅ Pushed {file} -> {path}\n"

def restart (target : String) : EStateM BridgeError Device String := do
  let _ ← Device.reboot target
  let into := if target.isEmpty then "system" else target
  return s!"🔄 Rebooting into {into}\n"

/-- The file keeps what has come when the download fails. -/
def download (created : Except IoFault Unit) (path file : String) (d : Device) :
    EStateM.Result BridgeError Device String × Option (String × Bytes) :=
  match Device.pullFile path created d with
  | (.ok size d, contents) =>
    (.ok s!"✅ Pulled {path} -> {file} ({size} bytes)\n" d, contents.map (file, ·))
  | (.error e d, contents) => (.error e d, contents.map (file, ·))

def run (job : Job) (choices : Choices) (files : LocalFiles) (d : Device) :
    EStateM.Result BridgeError Device String × Option (String × Bytes) :=
  match job with
  | .info => (showInfo choices d, none)
  | .shell command => (Device.shell command choices.timeout d, none)
  | .list path => (showList choices path d, none)
  | .stat path => (showStat choices path d, none)
  | .push file path => (upload (files.contents file) file path d, none)
  | .pull path file => download (files.creation file) path file d
  | .reboot target => (restart target d, none)

end Job

namespace Program

/-- What is printed before the device is looked for. -/
def opening (choices : Choices) : String :=
  if choices.json then "" else s!"🔌 Connecting to {choices.address}...\n"

/-- A timeout among the arguments comes before the environment's. -/
def settings (choices : Choices) (env : Environment) : HostSettings :=
  { env.hostSettings with timeout := choices.timeout.getD env.hostSettings.timeout }

/-- A run that does not get as far as a link. -/
def unreachable (choices : Choices) (f : LinkFault) : Report :=
  .failed (opening choices) (.link f)

/-- Without keys there is no answer to a device that asks for one. -/
def converse (choices : Choices) (job : Job) (env : Environment) (files : LocalFiles)
    (link : Link) : Report × Link :=
  let s := settings choices env
  match Channel.connect [] s { link := link } with
  | .error e ch => (.failed (opening choices) e, ch.link)
  | .ok info ch =>
    match job.run choices files { connection := { channel := ch, info := info, settings := s } } with
    | (.ok text d, file) =>
      ({ output := opening choices ++ text, written := file }, d.close.channel.link)
    | (.error e d, file) =>
      ({ Report.failed (opening choices) e with written := file }, d.drop.channel.link)

/-- A report at once, or a job for a device. -/
def plan (arguments : List String) : Report ⊕ Choices × Job :=
  match Request.read arguments with
  | .ok .help => .inl (.done helpText)
  | .ok .version => .inl (.done versionText)
  | .ok (.run choices job) => .inr (choices, job)
  | .error e => .inl (.misused e)

end Program
end DroidHost
