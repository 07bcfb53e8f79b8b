import DroidHost.CommandLine.Program
import Std.Time.DateTime.Timestamp

/-! The command line, on a byte device that can be opened as a file. The program is a function of
everything that arrives on its link, so it is run on what has arrived so far, and again when a read
comes upon the end of that. -/
namespace DroidHost.Main

/-- Where the known part of a link ends. -/
def mark : LinkFault := .readFailed "nothing known from here on"

/-- The writes before the first read that came upon the mark, and how much that read wanted and how
long it could wait. -/
def upToMark (sent : List Bytes) : List Transfer → List Bytes × Option (Nat × Nat)
  | [] => (sent.reverse, none)
  | .missed wanted budget fault :: rest =>
    if fault = mark then (sent.reverse, some (wanted, budget)) else upToMark sent rest
  | .sent bytes _ :: rest => upToMark (bytes :: sent) rest
  | _ :: rest => upToMark sent rest

def ioFault : IO.Error → IoFault
  | .noFileOrDirectory _ code details => ⟨.notFound, s!"{details} (os error {code})"⟩
  | .permissionDenied _ code details => ⟨.other, s!"{details} (os error {code})"⟩
  | e => ⟨.other, e.toString⟩

def attempt (act : IO α) : IO (Except IoFault α) := do
  try return .ok (← act)
  catch e => return .error (ioFault e)

/-- The two directions of an open device, and a read that is under way. -/
structure Line where
  reader : IO.FS.Handle
  writer : IO.FS.Handle
  pending : Option (Task (Except IO.Error ByteArray)) := none

/-- The time that the read took, or none if it took too long. -/
partial def await (task : Task (Except IO.Error ByteArray)) (budget start : Nat) :
    IO (Option Nat) := do
  let waited := (← IO.monoNanosNow) - start
  if ← IO.hasFinished task then return some waited
  if budget ≤ waited then return none
  IO.sleep 1
  await task budget start

def receive (line : Line) (wanted budget : Nat) : IO (List Arrival × Line) := do
  let task ← match line.pending with
    | some task => pure task
    | none => IO.asTask (line.reader.read wanted.toUSize) Task.Priority.dedicated
  match ← await task budget (← IO.monoNanosNow) with
  | none => return ([.pause budget], { line with pending := some task })
  | some waited =>
    let arrival ← match task.get with
      | .ok bytes => pure (Arrival.chunk bytes.toList)
      | .error e => pure (Arrival.fault (.readFailed (ioFault e).text))
    return ([.pause (min waited budget), arrival], { line with pending := none })

/-- Until the program no longer wants to know what arrives. -/
partial def converse (program : Link → Report × Link) (epoch : Nat) (line : Line)
    (known : List Arrival) (flushed : Nat) : IO Report := do
  let (report, link) := program { inbound := known ++ [.fault mark], epoch := epoch }
  let (sent, open?) := upToMark [] link.past.reverse
  for bytes in sent.drop flushed do
    line.writer.write (ByteArray.mk bytes.toArray)
  line.writer.flush
  match open? with
  | none => return report
  | some (wanted, budget) =>
    let (arrivals, line) ← receive line wanted budget
    converse program epoch line (known ++ arrivals) sent.length

/-- The local file that a job reads. -/
def contentsFor : Job → IO (Except IoFault Bytes)
  | .push file _ => attempt do return (← IO.FS.readBinFile file).toList
  | _ => return .error IoFault.noSuchFile

/-- The file is opened, and left as it was or removed. -/
def creationFor : Job → IO (Except IoFault Unit)
  | .pull _ file => do
    let before ← attempt (IO.FS.Handle.mk file .read)
    let created ← attempt (IO.FS.Handle.mk file .append)
    match before, created with
    | .error _, .ok _ => attempt (IO.FS.removeFile file)
    | _, .ok _ => return .ok ()
    | _, .error f => return .error f
  | _ => return .ok ()

def environment : IO Environment := do
  let pairs ← Environment.names.mapM fun name => do return (name, ← IO.getEnv name)
  return fun name => (pairs.lookup name).join

def execute (choices : Choices) (job : Job) : IO Report := do
  let opened ← attempt do
    return (Line.mk (← IO.FS.Handle.mk choices.address .read)
      (← IO.FS.Handle.mk choices.address .append) none)
  match opened with
  | .error f => return Program.unreachable choices (.io f)
  | .ok line =>
    let env ← environment
    let contents ← contentsFor job
    let creation ← creationFor job
    let epoch := (← Std.Time.Timestamp.now).toSecondsSinceUnixEpoch.val.toNat
    converse (Program.converse choices job env ⟨fun _ => contents, fun _ => creation⟩) epoch line [] 0

def deliver (report : Report) : IO UInt32 := do
  IO.print report.output
  IO.eprint report.complaints
  match report.written with
  | some (file, bytes) => IO.FS.writeBinFile file (ByteArray.mk bytes.toArray)
  | none => pure ()
  return if report.succeeded then 0 else 1

end DroidHost.Main

open DroidHost in
def main (arguments : List String) : IO UInt32 := do
  match Program.plan arguments with
  | .inl report => Main.deliver report
  | .inr (choices, job) => Main.deliver (← Main.execute choices job)
