import DroidHost.Bridge.Stream

/-! A connection with the handles on its streams, numbered in the order of opening. -/
namespace DroidHost

structure Client where
  connection : Connection
  /-- None where the handle has been dropped. -/
  handles : List (Option Stream) := []
  deriving DecidableEq, Repr

/-- Times are budgets in nanoseconds. -/
inductive Call
  | openStream (destination : String) (budget : Nat)
  | openService (destination : String) (budget : Nat)
  | write (handle : Nat) (bytes : Bytes) (budget : Nat)
  | read (handle length : Nat) (budget : Nat)
  | readUntilClose (handle : Nat) (budget : Nat)
  | close (handle : Nat)
  | drop (handle : Nat)
  deriving DecidableEq, Repr

inductive Answer
  | opened (handle : Nat) (stream : Stream)
  | refused
  | written
  | data (bytes : Bytes)
  | closed (isClosed : Bool)
  | dropped
  | gone
  /-- No stream was ever opened under this number. -/
  | unknown
  | failed (e : BridgeError)
  deriving DecidableEq, Repr

namespace Client

def answering (client : Client) (answer : α → Answer) :
    EStateM.Result BridgeError Connection α → Answer × Client
  | .ok a c => (answer a, { client with connection := c })
  | .error e c => (.failed e, { client with connection := c })

def keep (client : Client) :
    EStateM.Result BridgeError Connection (Option Stream) → Answer × Client
  | .ok (some s) c =>
    (.opened client.handles.length s, ⟨c, client.handles ++ [some s]⟩)
  | .ok none c => (.refused, { client with connection := c })
  | .error e c => (.failed e, { client with connection := c })

def withHandle (client : Client) (handle : Nat) (act : Stream → Answer × Client) : Answer × Client :=
  match client.handles[handle]? with
  | some (some s) => act s
  | some none => (.gone, client)
  | none => (.unknown, client)

/-- Closes a handle's stream and keeps the given handle in its place. -/
def closing (client : Client) (handle : Nat) (s : Stream) (kept : Stream → Option Stream) :
    Client :=
  let closed := client.connection.closeStream s
  ⟨closed.2, client.handles.set handle (kept closed.1)⟩

def perform : Call → Client → Answer × Client
  | .openStream destination budget, client =>
    client.keep (client.connection.openStream destination budget)
  | .openService destination budget, client =>
    match client.connection.openService destination budget with
    | .ok s c => client.keep (.ok (some s) c)
    | .error e c => client.keep (.error e c)
  | .write handle bytes budget, client => client.withHandle handle fun s =>
    client.answering (fun _ => .written) (client.connection.write s.localId bytes budget)
  | .read handle length budget, client => client.withHandle handle fun s =>
    client.answering .data (client.connection.read s.localId length budget)
  | .readUntilClose handle budget, client => client.withHandle handle fun s =>
    client.answering .data (client.connection.readUntilClose s.localId budget)
  | .close handle, client => client.withHandle handle fun s =>
    let client := client.closing handle s some
    (.closed (client.connection.isClosed { s with released := true }), client)
  | .drop handle, client => client.withHandle handle fun s =>
    (.dropped, client.closing handle s fun _ => none)

def run : List Call → Client → List Answer × Client
  | [], client => ([], client)
  | call :: rest, client =>
    let first := perform call client
    let others := run rest first.2
    (first.1 :: others.1, others.2)

end Client
end DroidHost
