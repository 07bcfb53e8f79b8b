import DroidHost.Bridge.Connection

/-! Streams as their users see them. A handle names its stream by local id, and only one write may
be out at a time. -/
namespace DroidHost

structure Stream where
  destination : String
  localId : UInt32
  released : Bool := false
  deriving DecidableEq, Repr

def Stream.describe (s : Stream) : String :=
  "Stream \x7b destination: " ++ Text.quoted s.destination ++ ", local_id: " ++
    Text.decimal s.localId.toNat ++ " \x7d"

namespace StreamState

def opening (s : StreamState) : Look Bool :=
  match s.phase with
  | .pending => .notYet
  | .opened => .ready true s
  | .closed => .ready false s

def acknowledging (id : UInt32) (s : StreamState) : Look Unit :=
  if !s.awaiting then .ready () s
  else if s.phase = .closed then .failed (.streamClosed id)
  else .notYet

/-- `length` bytes exactly, or for zero all that is there, at least one byte. -/
def supplying (id : UInt32) (length : Nat) (s : StreamState) : Look Bytes :=
  if max length 1 ≤ s.buffer.length then
    if length = 0 then .ready s.buffer { s with buffer := [] }
    else .ready (s.buffer.take length) { s with buffer := s.buffer.drop length }
  else if s.phase = .closed then .failed (.streamClosed id)
  else .notYet

/-- The device's id to write to, if the stream may be written now. -/
def writable (id : UInt32) (s : StreamState) : Except BridgeError UInt32 :=
  match s.fault with
  | some fault => .error (.protocol (.stream id fault))
  | none =>
    match s.phase, s.peer with
    | .pending, _ => .error (.protocol (.writtenBeforeOpen id))
    | .opened, some peer =>
      if s.awaiting then .error (.protocol (.writeUnresolved id)) else .ok peer
    | _, _ => .error (.streamClosed id)

/-- Nothing if the device closed the stream itself or never answered. -/
def farewell (id : UInt32) (s : StreamState) : Option Message :=
  match s.phase, s.peer with
  | .closed, _ => none
  | _, none => none
  | _, some peer => some ⟨.close, id, peer, []⟩

theorem length_of_supplying {id : UInt32} {length : Nat} {s after : StreamState} {bytes : Bytes}
    (h : s.supplying id length = .ready bytes after) :
    after.buffer.length + bytes.length ≤ s.buffer.length ∧ max length 1 ≤ bytes.length := by
  unfold supplying at h
  split at h
  · split at h <;> cases h
    · simp only [List.length_nil]
      omega
    · simp only [List.length_drop, List.length_take]
      omega
  · split at h <;> cases h

end StreamState

namespace Connection

def peer? (c : Connection) (id : UInt32) : Option UInt32 := (c.table.find? id).bind (·.peer)

/-- No more will come of the stream: its owner or the device has closed it. -/
def isClosed (c : Connection) (s : Stream) : Bool :=
  s.released || (c.table.find? s.localId).all (·.phase = .closed)

def openStreams (c : Connection) : Nat := c.table.entries.length

/-- It does not matter whether the message gets out. -/
def tell (m : Message) (budget : Nat) (c : Connection) : Connection :=
  final (c.send m (c.deadline budget))

def enter (id : UInt32) (c : Connection) : Connection :=
  { c with table := c.table.insert id .fresh }.note (.entered id)

def remove (id : UInt32) (c : Connection) : Connection :=
  { c with table := c.table.erase id }.note (.removed id)

/-- The id is free whether or not the device can be told. -/
def release (id : UInt32) (c : Connection) : Connection :=
  match c.table.find? id with
  | none => c
  | some s =>
    match s.farewell id with
    | none => c.remove id
    | some m => (c.remove id).tell m c.settings.closeTimeout

/-- Closing a handle again does nothing, whatever stream has its id by then. -/
def closeStream (s : Stream) (c : Connection) : Stream × Connection :=
  if s.released then (s, c) else ({ s with released := true }, c.release s.localId)

/-- The id is taken before anything is sent, so that the answer finds its stream. -/
def ask (destination : String) (deadline : Deadline) (c : Connection) :
    EStateM.Result BridgeError Connection UInt32 :=
  match c.table.allocate c.settings.streamIdLimit with
  | (none, table) => .error (.unavailable .outOfIds) { c with table := table }
  | (some id, table) =>
    match ({ c with table := table }.enter id).send
        ⟨.start, id, 0, Text.Utf8.encode destination ++ [0]⟩ deadline with
    | .error f c => .error (.link f) (c.release id)
    | .ok _ c => .ok id c

/-- None if the device refuses. -/
def openStream (destination : String) (budget : Nat) (c : Connection) :
    EStateM.Result BridgeError Connection (Option Stream) :=
  match c.ask destination (c.deadline budget) with
  | .error e c => .error e c
  | .ok id asked =>
    match asked.waitFor id (c.deadline budget) (.openReply id) StreamState.opening with
    | .ok true c => .ok (some ⟨destination, id, false⟩) c
    | .ok false c => .ok none (c.release id)
    | .error e c => .error e (c.release id)

/-- A refusal is a failure here. -/
def openService (destination : String) (budget : Nat) (c : Connection) :
    EStateM.Result BridgeError Connection Stream :=
  match c.openStream destination budget with
  | .ok (some s) c => .ok s c
  | .ok none c => .error (.unavailable (.unsupported destination)) c
  | .error e c => .error e c

/-- If the piece cannot be sent, no acknowledgement is waited for. -/
def sendPiece (id : UInt32) (deadline : Deadline) (piece : Bytes) (c : Connection) :
    EStateM.Result BridgeError Connection Unit :=
  match c.table.find? id with
  | none => .error (.streamClosed id) c
  | some s =>
    match s.writable id with
    | .error e => .error e c
    | .ok peer =>
      match c.send ⟨.write, id, peer, piece⟩ deadline with
      | .error f c => .error (.link f) c
      | .ok _ c => .ok () (c.setStream id { s with awaiting := true })

def writePiece (id : UInt32) (deadline : Deadline) (piece : Bytes) (c : Connection) :
    EStateM.Result BridgeError Connection Unit :=
  match c.sendPiece id deadline piece with
  | .ok _ c => c.waitFor id deadline (.okay id) (StreamState.acknowledging id)
  | .error e c => .error e c

def writePieces (id : UInt32) (deadline : Deadline) :
    List Bytes → Connection → EStateM.Result BridgeError Connection Unit
  | [], c => .ok () c
  | piece :: rest, c =>
    match c.writePiece id deadline piece with
    | .ok _ c => writePieces id deadline rest c
    | .error e c => .error e c

/-- Writes data in pieces of the size the device takes, each acknowledged before the next. -/
def write (id : UInt32) (bytes : Bytes) (budget : Nat) (c : Connection) :
    EStateM.Result BridgeError Connection Unit :=
  c.writePieces id (c.deadline budget) (Bytes.pieces c.info.maxData.toNat bytes)

def readBy (id : UInt32) (length : Nat) (deadline : Deadline) (c : Connection) :
    EStateM.Result BridgeError Connection Bytes :=
  match c.waitFor id deadline (.data id) (StreamState.supplying id length) with
  | .ok bytes c => .ok bytes (c.note (.taken id bytes))
  | .error e c => .error e c

def read (id : UInt32) (length : Nat) (budget : Nat) (c : Connection) :
    EStateM.Result BridgeError Connection Bytes :=
  c.readBy id length (c.deadline budget)

theorem readBy_ok {id : UInt32} {length : Nat} {deadline : Deadline} {c after : Connection}
    {bytes : Bytes} (h : c.readBy id length deadline = .ok bytes after) :
    after.load + bytes.length ≤ c.load ∧ c.now ≤ after.now ∧ max length 1 ≤ bytes.length := by
  unfold readBy at h
  split at h
  · next hf =>
    cases h
    obtain ⟨hw, hn⟩ := waitFor_ok List.length
      (fun s a s' hl => (StreamState.length_of_supplying hl).1) hf
    exact ⟨hw, hn, waitFor_result (fun bs => max length 1 ≤ bs.length)
      (fun s a s' hl => (StreamState.length_of_supplying hl).2) hf⟩
  · cases h

theorem readBy_error {id : UInt32} {length : Nat} {deadline : Deadline} {c after : Connection}
    {e : BridgeError} (h : c.readBy id length deadline = .error e after) :
    after.load ≤ c.load ∧ c.now ≤ after.now := by
  unfold readBy at h
  split at h
  · cases h
  · next hf =>
    cases h
    exact waitFor_error hf

/-- `got` holds what was read before, latest first. -/
def collect (id : UInt32) (deadline : Deadline) (got : List Bytes) (c : Connection) :
    EStateM.Result BridgeError Connection Bytes :=
  match _ : c.readBy id 0 deadline with
  | .ok bytes after => collect id deadline (bytes :: got) after
  | .error (.streamClosed _) after => .ok got.reverse.flatten after
  | .error e after => .error e after
termination_by c.load
decreasing_by
  obtain ⟨hl, _, hb⟩ := readBy_ok ‹c.readBy id 0 deadline = _›
  omega

def readUntilClose (id : UInt32) (budget : Nat) (c : Connection) :
    EStateM.Result BridgeError Connection Bytes :=
  c.collect id (c.deadline budget) []

def runService (destination : String) (budget : Nat) (c : Connection) :
    EStateM.Result BridgeError Connection Bytes :=
  match c.openService destination budget with
  | .error e c => .error e c
  | .ok s c =>
    match c.readUntilClose s.localId budget with
    | .ok output c => .ok output (c.closeStream s).2
    | .error e c => .error e (c.closeStream s).2

def close (c : Connection) : Connection := { c with channel := c.channel.close }

theorem tell_weight (m : Message) (budget : Nat) (c : Connection) :
    (c.tell m budget).channel.weight = c.channel.weight ∧
      (c.tell m budget).table = c.table ∧ c.now ≤ (c.tell m budget).now :=
  c.send_weight m (c.deadline budget)

theorem release_load (id : UInt32) (c : Connection) :
    (c.release id).channel.weight = c.channel.weight ∧ (c.release id).load ≤ c.load ∧
      c.now ≤ (c.release id).now := by
  unfold release
  split
  · exact ⟨rfl, Nat.le_refl _, Nat.le_refl _⟩
  · have he := c.table.buffered_erase_le id
    split
    · exact ⟨rfl, Nat.add_le_add_left he _, Nat.le_refl _⟩
    · next m _ =>
      obtain ⟨hw, ht, hn⟩ := tell_weight m c.settings.closeTimeout (c.remove id)
      refine ⟨hw, ?_, hn⟩
      simp only [load, hw, ht]
      exact Nat.add_le_add_left he _

theorem closeStream_load (s : Stream) (c : Connection) :
    (c.closeStream s).2.channel.weight = c.channel.weight ∧ (c.closeStream s).2.load ≤ c.load ∧
      c.now ≤ (c.closeStream s).2.now := by
  unfold closeStream
  split
  · exact ⟨rfl, Nat.le_refl _, Nat.le_refl _⟩
  · exact release_load s.localId c

@[simp] theorem released_closeStream (s : Stream) (c : Connection) :
    (c.closeStream s).1.released = true := by
  unfold closeStream
  split
  · assumption
  · rfl

theorem sendPiece_error {id : UInt32} {deadline : Deadline} {piece : Bytes} {c after : Connection}
    {e : BridgeError} (h : c.sendPiece id deadline piece = .error e after) :
    after.channel.weight = c.channel.weight ∧ after.load = c.load ∧ c.now ≤ after.now := by
  unfold sendPiece at h
  split at h
  · cases h; exact ⟨rfl, rfl, Nat.le_refl _⟩
  · split at h
    · cases h; exact ⟨rfl, rfl, Nat.le_refl _⟩
    · next peer _ =>
      split at h
      · next hs =>
        cases h
        have hw := c.send_weight ⟨.write, id, peer, piece⟩ deadline
        have hl := c.send_load ⟨.write, id, peer, piece⟩ deadline
        rw [hs] at hw hl
        exact ⟨hw.1, hl, hw.2.2⟩
      · cases h

end Connection
end DroidHost
