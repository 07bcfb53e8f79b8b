import DroidHost.Bridge.Auth
import DroidHost.Bridge.Channel
import DroidHost.Bridge.DeviceInfo
import DroidHost.Settings.Basic

/-! The first words on a connection: a greeting, then the device's banner or a token to sign. -/
namespace DroidHost

def protocolVersion : UInt32 := 0x01000000

namespace Channel

def post (m : Message) (deadline : Deadline) : EStateM BridgeError Channel Unit := fun ch =>
  match ch.send m deadline with
  | .ok _ ch => .ok () ch
  | .error f ch => .error (.link f) ch

/-- One token per key, until the device accepts. -/
def tryKeys (deadline : Deadline) : List Signer → (challenge : Message) →
    EStateM BridgeError Channel (Option Message)
  | [], _ => return none
  | key :: rest, challenge => do
    if AuthType.ofWord? challenge.arg0 ≠ some .token then
      throw (.protocol (.challengeType challenge.arg0))
    post ⟨.auth, AuthType.signature.word, 0, key.sign challenge.payload⟩ deadline
    let reply ← receiveOneOf [.auth, .connect] deadline
    if reply.command = .connect then return some reply
    tryKeys deadline rest reply

def offerKey (key : Signer) (settings : HostSettings) (deadline : Deadline) :
    EStateM BridgeError Channel Message := do
  post ⟨.auth, AuthType.publicKey.word, 0, key.publicKey ++ [0]⟩ deadline
  let patience : Deadline := ⟨(← get).now, settings.authTimeout⟩
  try receiveOneOf [.connect] patience
  catch
    | .timeout _ _ => throw (.auth .keyNotAccepted)
    | e => throw e

def authenticate (signers : List Signer) (settings : HostSettings) (deadline : Deadline)
    (challenge : Message) : EStateM BridgeError Channel Message := do
  match signers with
  | [] => throw (.auth .noKeys)
  | first :: _ =>
    match ← tryKeys deadline signers challenge with
    | some reply => return reply
    | none => offerKey first settings deadline

def greeting (settings : HostSettings) : Message :=
  ⟨.connect, protocolVersion, settings.maxData,
    Text.Utf8.encode ("host::" ++ settings.banner) ++ [0]⟩

/-- A device that names no payload size of its own gets the host's. -/
def connect (signers : List Signer) (settings : HostSettings) :
    EStateM BridgeError Channel DeviceInfo := do
  let deadline : Deadline := ⟨(← get).now, settings.timeout⟩
  post (greeting settings) deadline
  let mut reply ← receiveOneOf [.auth, .connect] deadline
  if reply.command = .auth then
    reply ← authenticate signers settings deadline reply
  let maxData := if reply.arg1 = 0 then settings.maxData else reply.arg1
  match DeviceInfo.parse reply.payload reply.arg0 maxData with
  | some info => return info
  | none => throw (.protocol (.malformedBanner reply.payload))

end Channel
end DroidHost
