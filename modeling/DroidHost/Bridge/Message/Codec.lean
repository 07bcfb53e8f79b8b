import DroidHost.Bridge.Error

/-! Messages as bytes: command, arg0, arg1, length of the payload, its checksum, the complement of
the command, and the payload. -/
namespace DroidHost

namespace Message

/-- A length beyond 32 bits is cut to its low word. -/
def headerWords (m : Message) : List UInt32 :=
  [m.command.word, m.arg0, m.arg1, UInt32.ofNat m.payload.length, m.checksum, m.magic]

def header (m : Message) : Bytes := m.headerWords.flatMap Bytes.ofWord

def encode (m : Message) : Bytes := m.header ++ m.payload

@[simp] theorem length_header (m : Message) : m.header.length = Header.size := rfl

end Message

namespace Header

def decode (bytes : Bytes) : Except BridgeError Header :=
  if bytes.length ≠ size then .error (.protocol (.headerSize bytes.length))
  else
    match Bytes.words bytes with
    | [word, arg0, arg1, length, checksum, magic] =>
      match Command.ofWord? word with
      | none => .error (.protocol (.unknownCommand word))
      | some command =>
        if magic ≠ word ^^^ 0xFFFFFFFF then .error (.protocol (.badMagic magic command))
        else .ok ⟨command, arg0, arg1, length, checksum⟩
    | _ => .error (.protocol (.headerSize bytes.length))

def finish (h : Header) (payload : Bytes) : Except BridgeError Message :=
  if payload.length = h.length.toNat ∧ Bytes.sum payload = h.checksum then
    .ok ⟨h.command, h.arg0, h.arg1, payload⟩
  else
    .error (.integrity
      ⟨h.length, UInt32.ofNat payload.length, h.checksum, Bytes.sum payload⟩)

theorem protocol_of_decode {bytes : Bytes} {e : BridgeError} (h : decode bytes = .error e) :
    ∃ violation, e = .protocol violation := by
  unfold decode at h
  repeat' split at h
  all_goals cases h <;> exact ⟨_, rfl⟩

theorem integrity_of_finish {hd : Header} {payload : Bytes} {e : BridgeError}
    (h : hd.finish payload = .error e) : ∃ mismatch, e = .integrity mismatch := by
  unfold finish at h
  split at h
  all_goals cases h <;> exact ⟨_, rfl⟩

theorem isTimeout_of_decode {bytes : Bytes} {e : BridgeError} (h : decode bytes = .error e) :
    e.isTimeout = false := by
  obtain ⟨violation, rfl⟩ := protocol_of_decode h
  rfl

theorem isTimeout_of_finish {hd : Header} {payload : Bytes} {e : BridgeError}
    (h : hd.finish payload = .error e) : e.isTimeout = false := by
  obtain ⟨mismatch, rfl⟩ := integrity_of_finish h
  rfl

theorem payload_of_finish {hd : Header} {payload : Bytes} {m : Message}
    (h : hd.finish payload = .ok m) : m.payload = payload := by
  unfold finish at h
  split at h <;> cases h
  rfl

end Header

def Message.decode (bytes : Bytes) : Except BridgeError Message :=
  if bytes.length < Header.size then .error (.protocol (.shortMessage bytes.length))
  else do
    let h ← Header.decode (bytes.take Header.size)
    h.finish (bytes.drop Header.size)

end DroidHost
