import DroidHost.Bridge.Shell
import DroidHost.Bridge.Sync.Session
import DroidHost.LocalFile.Fault

/-! A device with one connection, and a file session that is kept from call to call. -/
namespace DroidHost

structure Device where
  connection : Connection
  sync : Option SyncSession := none
  deriving DecidableEq, Repr

namespace Device

def timeout (d : Device) : Nat := d.connection.settings.timeout

def describe (d : Device) : String :=
  "AdbDevice \x7b serial: " ++ Text.quoted d.connection.info.serial ++ ", sync_open: " ++
    (if d.sync.isSome then "true" else "false") ++ " \x7d"

def onConnection (x : EStateM BridgeError Connection α) : EStateM BridgeError Device α := fun d =>
  match x d.connection with
  | .ok a c => .ok a { d with connection := c }
  | .error e c => .error e { d with connection := c }

def dropClosedSync (d : Device) : Device :=
  match d.sync with
  | some s =>
    if d.connection.isClosed s.stream then ⟨s.abandon d.connection, none⟩ else d
  | none => d

/-- Opens one if there is none. -/
def openSync : EStateM BridgeError Device SyncSession := fun d =>
  match d.dropClosedSync with
  | ⟨c, some s⟩ => .ok s ⟨c, some s⟩
  | ⟨c, none⟩ =>
    match SyncSession.start d.timeout c with
    | .ok s c => .ok s ⟨c, some s⟩
    | .error e c => .error e ⟨c, none⟩

/-- A failure of this kind leaves the session at an unknown position. -/
def losesPosition (e : BridgeError) : Bool := e.isProtocol || e.isTimeout

def settle (s : SyncSession) :
    EStateM.Result BridgeError Connection α → EStateM.Result BridgeError Device α
  | .ok a c => .ok a ⟨c, some s⟩
  | .error e c =>
    if losesPosition e then .error e ⟨s.abandon c, none⟩ else .error e ⟨c, some s⟩

def withSync (x : SyncSession → EStateM BridgeError Connection α) :
    EStateM BridgeError Device α := fun d =>
  match openSync d with
  | .ok s d => settle s (x s d.connection)
  | .error e d => .error e d

def stat (path : String) : EStateM BridgeError Device FileStat := withSync (·.stat path)

/-- A listing that fails has no entries. -/
def list (path : String) : EStateM BridgeError Device (List FileStat) :=
  withSync fun s => do
    let items ← s.list path none
    ofExcept (items.mapM id)

def push (source : Source) (path : String) (mode : Option UInt32) :
    EStateM BridgeError Device Unit :=
  withSync fun s c =>
    s.send source path (mode.getD SyncSession.defaultMode) c.channel.link.calendarTime c

def pull (path : String) (sink : Sink) (d : Device) :
    EStateM.Result BridgeError Device Nat × Sink :=
  match openSync d with
  | .error e d => (.error e d, sink)
  | .ok s d =>
    let result := s.receive path sink d.connection
    (settle s result.1, result.2)

def pushFile (file : Except IoFault Bytes) (path : String) : EStateM BridgeError Device Unit :=
  match file with
  | .ok contents => push (Source.ofBytes contents) path none
  | .error f => throw (.localFile f)

/-- The file is created first; what has come of it by the time of a failure stays in it. -/
def pullFile (path : String) (created : Except IoFault Unit) (d : Device) :
    EStateM.Result BridgeError Device Nat × Option Bytes :=
  match created with
  | .error f => (.error (.localFile f) d, none)
  | .ok _ =>
    let result := pull path {} d
    (result.1, some result.2.held)

def shell (command : String) (budget : Option Nat) : EStateM BridgeError Device String := fun d =>
  onConnection (Shell.runText command false (budget.getD d.timeout)) d

def service (destination : String) : EStateM BridgeError Device String := fun d =>
  onConnection (do return Text.Utf8.decode (← Connection.runService destination d.timeout)) d

def reboot (target : String) : EStateM BridgeError Device String := service ("reboot:" ++ target)

def remount : EStateM BridgeError Device String := service "remount:"

def root : EStateM BridgeError Device String := service "root:"

def close (d : Device) : Connection :=
  match d.sync with
  | some s => (s.close d.connection).close
  | none => d.connection.close

/-- Lets go of the device without closing the connection. -/
def drop (d : Device) : Connection :=
  match d.sync with
  | some s => s.abandon d.connection
  | none => d.connection

end Device
end DroidHost
