import DroidHost.Bridge.FileStat
import DroidHost.Bridge.Stream
import DroidHost.LocalFile.Sink
import DroidHost.LocalFile.Source

/-! File transfer over one long-lived `sync:` stream. The reply that ends a series comes in the
layout of the series; a failure is always an id, a length, and text. -/
namespace DroidHost

structure SyncSession where
  stream : Stream
  timeout : Nat
  deriving DecidableEq, Repr

namespace SyncSession

/-- Largest piece of a file that devices take in one frame. -/
def maxPush : Nat := 65536

/-- Mode of an uploaded file unless the caller says otherwise: a regular file, all rights for its
owner and group. -/
def defaultMode : UInt32 := 0x81F8

def start (timeout : Nat) (c : Connection) : EStateM.Result BridgeError Connection SyncSession :=
  match c.openService "sync:" timeout with
  | .ok stream c => .ok ⟨stream, timeout⟩ c
  | .error e c => .error e c

def frame (id : SyncId) (value : UInt32) (bytes : Bytes) : Bytes :=
  id.bytes ++ Bytes.ofWord value ++ bytes

def writeFrame (s : SyncSession) (id : SyncId) (value : UInt32) (bytes : Bytes) :
    EStateM BridgeError Connection Unit := fun c =>
  c.write s.stream.localId (frame id value bytes) s.timeout

def request (s : SyncSession) (id : SyncId) (name : Bytes) :
    EStateM BridgeError Connection Unit := do
  if maxPathLength < name.length then throw (.argument (.longPath name.length))
  s.writeFrame id (UInt32.ofNat name.length) name

/-- No bytes are not waited for, since reading none from a stream means reading whatever is
there. -/
def take (s : SyncSession) (n : Nat) : EStateM BridgeError Connection Bytes := fun c =>
  if n = 0 then .ok [] c else c.read s.stream.localId n s.timeout

/-- How a reply goes on after its words. One that does not belong where it came has no layout. -/
def layout (id : SyncId) (shape : ReplyShape) (first : UInt32) (more : List UInt32) :
    Option (Nat × (Bytes → SyncReply)) :=
  match id, shape, more with
  | .stat, .stat, [size, mtime] => some (0, fun _ => .stat first size mtime)
  | .entry, .entry, [size, mtime, length] =>
    some (length.toNat, fun name => .entry first size mtime (Text.Utf8.decode name))
  | .data, .data, _ => some (first.toNat, .data)
  | .done, _, _ => some (0, fun _ => .done first)
  | .okay, _, _ => some (0, fun _ => .okay)
  | _, _, _ => none

def readRest (s : SyncSession) (shape : ReplyShape) (head : Bytes) :
    EStateM BridgeError Connection SyncReply := do
  match SyncId.ofBytes? (head.take 4) with
  | none => throw (.protocol (.unknownSyncId (head.take 4)))
  | some id =>
    let first := (Bytes.words (head.drop 4)).headD 0
    -- A failure has the same layout everywhere, so it is looked for before the shape is.
    if id = .fail then do
      let text ← s.take first.toNat
      throw (.remote (Text.Utf8.decode text))
    else do
      let more ← s.take (4 * (shape.words - 1))
      match layout id shape first (Bytes.words more) with
      | some (length, reply) => return reply (← s.take length)
      | none => throw (.protocol (.misplacedReply id shape))

def readReply (s : SyncSession) (shape : ReplyShape) (c : Connection) :
    EStateM.Result BridgeError Connection SyncReply :=
  match s.take 8 c with
  | .error e c => .error e c
  | .ok head c => s.readRest shape head c

/-- However it ends, a run leaves a connection that some relation allows for. -/
def Leads (R : Connection → Connection → Prop) (x : EStateM ε Connection α) : Prop :=
  ∀ c, R c (final (x c))

/-- However it ends, a run leaves no more to arrive or to read than there was. -/
def Lightens (x : EStateM ε Connection α) : Prop := Leads (fun c after => after.load ≤ c.load) x

section Leads
variable {R : Connection → Connection → Prop}
  (ht : ∀ c mid after, R c mid → R mid after → R c after) (hr : ∀ c, R c c)
include ht

theorem Leads.bind {x : EStateM ε Connection α} {f : α → EStateM ε Connection β}
    (hx : Leads R x) (hf : ∀ a, Leads R (f a)) : Leads R (x >>= f) := by
  intro c
  have h := hx c
  show R c (final (EStateM.bind x f c))
  unfold EStateM.bind
  split
  · next a after ha =>
    rw [ha] at h
    exact ht _ _ _ h (hf a after)
  · next e after ha =>
    rw [ha] at h
    exact h

include hr

theorem leads_readRest {s : SyncSession} (hs : ∀ n, Leads R (s.take n)) (shape : ReplyShape)
    (head : Bytes) : Leads R (s.readRest shape head) := by
  unfold readRest
  split
  · exact hr
  · dsimp only
    split
    · exact Leads.bind ht (hs _) fun _ => hr
    · refine Leads.bind ht (hs _) fun more => ?_
      split
      · exact Leads.bind ht (hs _) fun _ => hr
      · exact hr

theorem leads_readReply {s : SyncSession} (hs : ∀ n, Leads R (s.take n)) (shape : ReplyShape) :
    Leads R (s.readReply shape) := by
  intro c
  have h := hs 8 c
  unfold readReply
  split
  · next hhead =>
    rw [hhead] at h
    exact h
  · next head mid hhead =>
    rw [hhead] at h
    exact ht _ _ _ h (leads_readRest ht hr hs shape head mid)

end Leads

theorem lightens_take (s : SyncSession) (n : Nat) : Lightens (s.take n) := by
  intro c
  unfold take
  split
  · exact Nat.le_refl _
  · cases h : c.read s.stream.localId n s.timeout with
    | ok bytes after => exact Nat.le_of_add_right_le (Connection.readBy_ok h).1
    | error e after => exact (Connection.readBy_error h).1

theorem lightens_readRest (s : SyncSession) (shape : ReplyShape) (head : Bytes) :
    Lightens (s.readRest shape head) :=
  leads_readRest (R := fun c after => after.load ≤ c.load) (fun _ _ _ h h' => Nat.le_trans h' h)
    (fun _ => Nat.le_refl _) s.lightens_take shape head

theorem readReply_ok {s : SyncSession} {shape : ReplyShape} {c after : Connection}
    {reply : SyncReply} (h : s.readReply shape c = .ok reply after) : after.load + 8 ≤ c.load := by
  unfold readReply at h
  split at h
  · cases h
  · next head mid ht =>
    have hm : mid.load + head.length ≤ c.load ∧ 8 ≤ head.length := by
      have hr : c.readBy s.stream.localId 8 (c.deadline s.timeout) = .ok head mid := ht
      exact ⟨(Connection.readBy_ok hr).1, (Connection.readBy_ok hr).2.2⟩
    have := s.lightens_readRest shape head mid
    rw [h] at this
    simp only [final] at this
    omega

def stat (s : SyncSession) (path : String) : EStateM BridgeError Connection FileStat := do
  s.request .stat (Text.Utf8.encode path)
  match ← s.readReply .stat with
  | .stat mode size mtime => return ⟨path, mode, size, mtime⟩
  | other => throw (.protocol (.notStat other))

/-- None at its end. -/
def nextEntry (s : SyncSession) (c : Connection) :
    EStateM.Result BridgeError Connection (Option FileStat) :=
  match s.readReply .entry c with
  | .ok (.entry mode size mtime name) c => .ok (some ⟨name, mode, size, mtime⟩) c
  | .ok (.done _) c => .ok none c
  | .ok other c => .error (.protocol (.notEntry other)) c
  | .error e c => .error e c

theorem nextEntry_some {s : SyncSession} {c after : Connection} {entry : FileStat}
    (h : s.nextEntry c = .ok (some entry) after) : after.load < c.load := by
  unfold nextEntry at h
  split at h <;> cases h
  have := readReply_ok ‹_›
  omega

/-- A failure ends a listing and is its last item. -/
def entries (s : SyncSession) (c : Connection) :
    List (Except BridgeError FileStat) × Connection :=
  match _ : s.nextEntry c with
  | .ok (some entry) after =>
    let rest := entries s after
    (.ok entry :: rest.1, rest.2)
  | .ok none after => ([], after)
  | .error e after => ([.error e], after)
termination_by c.load
decreasing_by exact nextEntry_some ‹_›

def drain (s : SyncSession) (c : Connection) : Connection :=
  match _ : s.nextEntry c with
  | .ok (some _) after => drain s after
  | .ok none after => after
  | .error _ after => after
termination_by c.load
decreasing_by exact nextEntry_some ‹_›

/-- What is left of the listing is drained. -/
def firstEntries (s : SyncSession) : (count : Nat) → Connection →
    List (Except BridgeError FileStat) × Connection
  | 0, c => ([], s.drain c)
  | count + 1, c =>
    match s.nextEntry c with
    | .ok (some entry) c =>
      let rest := firstEntries s count c
      (.ok entry :: rest.1, rest.2)
    | .ok none c => ([], c)
    | .error e c => ([.error e], c)

def list (s : SyncSession) (path : String) (limit : Option Nat) (c : Connection) :
    EStateM.Result BridgeError Connection (List (Except BridgeError FileStat)) :=
  match s.request .list (Text.Utf8.encode path) c with
  | .error e c => .error e c
  | .ok _ c =>
    match limit with
    | none => .ok (s.entries c).1 (s.entries c).2
    | some count => .ok (s.firstEntries count c).1 (s.firstEntries count c).2

def receivePieces (s : SyncSession) (total : Nat) (sink : Sink) (c : Connection) :
    EStateM.Result BridgeError Connection Nat × Sink :=
  match _ : s.readReply .data c with
  | .ok (.data bytes) after =>
    match sink.write bytes with
    | .ok sink => receivePieces s (total + bytes.length) sink after
    | .error f => (.error (.localFile f) after, sink)
  | .ok (.done _) after =>
    match sink.flush with
    | .ok _ => (.ok total after, sink)
    | .error f => (.error (.localFile f) after, sink)
  | .ok other after => (.error (.protocol (.notData other)) after, sink)
  | .error e after => (.error e after, sink)
termination_by c.load
decreasing_by
  have := readReply_ok ‹s.readReply .data c = _›
  omega

def receive (s : SyncSession) (path : String) (sink : Sink) (c : Connection) :
    EStateM.Result BridgeError Connection Nat × Sink :=
  match s.request .recv (Text.Utf8.encode path) c with
  | .ok _ c => s.receivePieces 0 sink c
  | .error e c => (.error e c, sink)

/-- The pieces in which a file is sent, as far as it can be read. -/
def pushPieces (contents : Bytes × Option IoFault) : List Bytes :=
  match contents.2 with
  | none => Bytes.pieces maxPush contents.1
  | some _ => (Bytes.pieces maxPush contents.1).take (contents.1.length / maxPush)

/-- A piece that is not full is the last. -/
def sendFile (s : SyncSession) (source : Source) : EStateM BridgeError Connection Unit :=
  match _ : source.fill maxPush with
  | (.error f, _) => throw (.localFile f)
  | (.ok [], _) => return ()
  | (.ok (b :: bs), rest) => do
    s.writeFrame .data (UInt32.ofNat (bs.length + 1)) (b :: bs)
    if bs.length + 1 < maxPush then return () else s.sendFile rest
termination_by source.weight
decreasing_by
  have := Source.weight_fill ‹source.fill maxPush = _›
  simp only [List.length_cons] at this
  omega

/-- A source that fails leaves the upload without an end, and the device then keeps no file. -/
def sendBody (s : SyncSession) (source : Source) (target : Bytes) (mtime : UInt32) :
    EStateM BridgeError Connection Unit := do
  s.request .send target
  s.sendFile source
  s.writeFrame .done mtime []

/-- If the device closes the stream in the middle, one more reply is read for the reason. -/
def send (s : SyncSession) (source : Source) (path : String) (mode mtime : UInt32)
    (c : Connection) : EStateM.Result BridgeError Connection Unit :=
  let target := Text.Utf8.encode (path ++ "," ++ Text.decimal mode.toNat)
  match s.sendBody source target mtime c with
  | .ok _ c =>
    match s.readReply .data c with
    | .ok .okay c => .ok () c
    | .ok other c => .error (.protocol (.notOkay other)) c
    | .error e c => .error e c
  | .error e c =>
    if e.isStreamClosed then
      match s.readReply .data c with
      | .error (.remote text) c => .error (.remote text) c
      | .ok _ c => .error e c
      | .error _ c => .error e c
    else .error e c

/-- Lets go of the stream without a word to the file service. -/
def abandon (s : SyncSession) (c : Connection) : Connection := (c.closeStream s.stream).2

def close (s : SyncSession) (c : Connection) : Connection :=
  if c.isClosed s.stream then s.abandon c
  else
    match s.writeFrame .quit 0 [] c with
    | .ok _ c => s.abandon c
    | .error _ c => s.abandon c

end SyncSession
end DroidHost
