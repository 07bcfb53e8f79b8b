import DroidHost.Proofs.Delivery
import DroidHost.Proofs.Ownership
import DroidHost.Proofs.Wire

/-! Calls through a handle that was closed go by its id alone: it is dead only as long as nobody
else has that id. -/
namespace DroidHost

def BridgeError.ofChannel : BridgeError → Bool
  | .link _ => true
  | .protocol _ => true
  | .integrity _ => true
  | _ => false

namespace Channel

theorem ofChannel_of_fill {target : Nat} {deadline : Deadline} {ch after : Channel}
    {e : BridgeError} (h : ch.fill target deadline = .error e after) : e.ofChannel = true := by
  fun_induction fill target deadline ch with
  | case1 => cases h
  | case2 =>
    cases h
    rfl
  | case3 =>
    cases h
    rfl
  | case4 ch hlt b bytes link hr ih => exact ih h

theorem ofChannel_of_gather {deadline : Deadline} {ch after : Channel} {e : BridgeError}
    (h : ch.gather deadline = .error e after) : e.ofChannel = true := by
  unfold gather at h
  split at h
  · next hf =>
    cases h
    exact ofChannel_of_fill hf
  · split at h
    · next hd =>
      cases h
      obtain ⟨violation, rfl⟩ := Header.protocol_of_decode hd
      rfl
    · split at h
      · next hf =>
        cases h
        exact ofChannel_of_fill hf
      · split at h
        · next hd =>
          cases h
          obtain ⟨mismatch, rfl⟩ := Header.integrity_of_finish hd
          rfl
        · cases h

theorem ofChannel_of_receive {deadline : Deadline} {ch after : Channel} {e : BridgeError}
    (h : ch.receive deadline = .error e after) : e.ofChannel = true := by
  unfold receive at h
  split at h
  · cases h
  · next hg =>
    cases h
    exact ofChannel_of_gather hg

end Channel

namespace StreamState

theorem supplying_failed {id : UInt32} {length : Nat} {s : StreamState} :
    s.supplying id length = .failed (.streamClosed id) ↔
      s.phase = .closed ∧ s.buffer.length < max length 1 := by
  unfold supplying
  by_cases hb : max length 1 ≤ s.buffer.length
  · rw [if_pos hb]
    constructor
    · intro h
      split at h <;> cases h
    · intro h
      omega
  · rw [if_neg hb]
    by_cases hp : s.phase = .closed
    · rw [if_pos hp]
      exact ⟨fun _ => ⟨hp, Nat.lt_of_not_le hb⟩, fun _ => rfl⟩
    · rw [if_neg hp]
      exact ⟨nofun, fun h => absurd h.1 hp⟩

theorem writable_closed (id : UInt32) {s : StreamState} (hm : s.Met) :
    s.writable id = .error (.streamClosed id) ↔ s.fault = none ∧ s.phase = .closed := by
  unfold writable
  cases hf : s.fault with
  | some fault => exact ⟨nofun, nofun⟩
  | none =>
    cases hp : s.phase with
    | pending => exact ⟨nofun, nofun⟩
    | closed => exact ⟨fun _ => ⟨rfl, rfl⟩, fun _ => rfl⟩
    | opened =>
      obtain ⟨peer, hpeer⟩ := Option.isSome_iff_exists.mp (hm hp)
      rw [hpeer]
      constructor
      · intro h
        dsimp only at h
        split at h <;> cases h
      · rintro ⟨_, h⟩
        cases h

end StreamState

namespace Connection

theorem ofChannel_of_takeIn {deadline : Deadline} {c after : Connection} {e : BridgeError}
    (h : c.takeIn deadline = .error e after) : e.ofChannel = true := by
  unfold takeIn at h
  split at h
  · next hr =>
    split at h
    · cases h
    · cases h
      exact Channel.ofChannel_of_receive hr
  · split at h
    · next hr =>
      cases h
      unfold StreamTable.route at hr
      split at hr
      · split at hr <;> cases hr
      · cases hr
        rfl
    · cases h
    · cases h

theorem inspect_closed {id : UInt32} {look : StreamState → Look α} {c : Connection} :
    c.inspect id look = some (.error (.streamClosed id) c) ↔
      ∀ s, c.table.find? id = some s → s.fault = none ∧ look s = .failed (.streamClosed id) := by
  unfold inspect
  cases hs : c.table.find? id with
  | none => exact ⟨fun _ => nofun, fun _ => rfl⟩
  | some s =>
    dsimp only
    cases hf : s.fault with
    | some fault =>
      constructor
      · intro h
        cases h
      · intro h
        have hnone := (h s rfl).1
        rw [hf] at hnone
        cases hnone
    | none =>
      dsimp only
      constructor
      · intro h t ht
        cases ht
        refine ⟨hf, ?_⟩
        split at h
        · cases h
        · next he =>
          cases h
          exact he
        · cases h
      · intro h
        rw [(h s rfl).2]

theorem waitFor_closed {id k : UInt32} {deadline : Deadline} {awaited : Awaited}
    {look : StreamState → Look α} {c after : Connection}
    (h : c.waitFor id deadline awaited look = .error (.streamClosed k) after) :
    after.inspect id look = some (.error (.streamClosed k) after) := by
  fun_induction waitFor id deadline awaited look c with
  | case1 c said hs =>
    subst h
    have hc := inspect_error hs
    rw [hc]
    rw [hc] at hs
    exact hs
  | case2 => cases h
  | case3 c hs he u mid ht ih => exact ih h
  | case4 c hs he e' mid ht =>
    cases h
    cases ofChannel_of_takeIn ht

/-- There is nothing to be read, and there never will be. -/
def Spent (id : UInt32) (length : Nat) (c : Connection) : Prop :=
  ∀ s, c.table.find? id = some s →
    s.fault = none ∧ s.phase = .closed ∧ s.buffer.length < max length 1

/-- Nothing can be written any more. -/
def Sealed (id : UInt32) (c : Connection) : Prop :=
  ∀ s, c.table.find? id = some s → s.fault = none ∧ s.phase = .closed

theorem spent_iff {id : UInt32} {length : Nat} {c : Connection} :
    c.Spent id length ↔
      c.inspect id (StreamState.supplying id length) = some (.error (.streamClosed id) c) := by
  rw [inspect_closed]
  simp only [StreamState.supplying_failed, Spent]

theorem readBy_of_spent {id : UInt32} {length : Nat} {c : Connection} (h : c.Spent id length)
    (deadline : Deadline) : c.readBy id length deadline = .error (.streamClosed id) c := by
  rw [readBy, waitFor, spent_iff.mp h]

theorem spent_of_readBy {id : UInt32} {length : Nat} {deadline : Deadline} {c after : Connection}
    (h : c.readBy id length deadline = .error (.streamClosed id) after)
    (ht : after.table = c.table) : c.Spent id length := by
  unfold readBy at h
  split at h
  · cases h
  · next hw =>
    cases h
    have hspent : after.Spent id length := spent_iff.mpr (waitFor_closed hw)
    intro s hs
    rw [← ht] at hs
    exact hspent s hs

theorem sendPiece_ok_wire {id : UInt32} {deadline : Deadline} {piece : Bytes}
    {c after : Connection} {u : Unit} (h : c.sendPiece id deadline piece = .ok u after) :
    ∃ m : Message, after.wire = c.wire ++ m.encode := by
  unfold sendPiece at h
  split at h
  · cases h
  · split at h
    · cases h
    · next peer _ =>
      have hr := c.send_record ⟨.write, id, peer, piece⟩ deadline
      split at h
      · cases h
      · next hs =>
        cases h
        rw [hs] at hr
        exact ⟨_, hr.2⟩

theorem sendPiece_closed {id : UInt32} {c : Connection}
    (hm : ∀ s, c.table.find? id = some s → s.Met) (deadline : Deadline) (piece : Bytes) :
    outcome (c.sendPiece id deadline piece) = .error (.streamClosed id) ↔ c.Sealed id := by
  unfold sendPiece Sealed
  cases hs : c.table.find? id with
  | none => exact ⟨fun _ => nofun, fun _ => rfl⟩
  | some s =>
    have hw := StreamState.writable_closed id (hm s hs)
    dsimp only
    constructor
    · intro h t ht
      cases ht
      apply hw.mp
      split at h
      · next he =>
        rw [he]
        exact congrArg Except.error (Except.error.inj h)
      · split at h <;> cases h
    · intro h
      rw [hw.mpr (h s rfl)]
      rfl

theorem sendPiece_of_sealed {id : UInt32} {c : Connection}
    (hm : ∀ s, c.table.find? id = some s → s.Met) (h : c.Sealed id) (deadline : Deadline)
    (piece : Bytes) : c.sendPiece id deadline piece = .error (.streamClosed id) c := by
  unfold sendPiece
  cases hs : c.table.find? id with
  | none => rfl
  | some s =>
    dsimp only
    rw [(StreamState.writable_closed id (hm s hs)).mpr (h s hs)]

theorem pieces_ne_nil {bytes : Bytes} (h : bytes ≠ []) (size : Nat) :
    ∃ piece rest, Bytes.pieces size bytes = piece :: rest := by
  cases bytes with
  | nil => exact absurd rfl h
  | cons b more =>
    rw [Bytes.pieces]
    exact ⟨_, _, rfl⟩

theorem write_of_sealed {id : UInt32} {c : Connection}
    (hm : ∀ s, c.table.find? id = some s → s.Met) (h : c.Sealed id) {bytes : Bytes}
    (hb : bytes ≠ []) (budget : Nat) : c.write id bytes budget = .error (.streamClosed id) c := by
  obtain ⟨piece, rest, hp⟩ := pieces_ne_nil hb c.info.maxData.toNat
  rw [write, hp, writePieces, writePiece, sendPiece_of_sealed hm h]

theorem writePieces_after_send {id : UInt32} {deadline : Deadline} {piece : Bytes}
    {c mid : Connection} {u : Unit} (h : c.sendPiece id deadline piece = .ok u mid)
    (rest : List Bytes) :
    mid.Moves (final (c.writePieces id deadline (piece :: rest))) := by
  have hw : mid.Moves (final (mid.waitFor id deadline (.okay id) (StreamState.acknowledging id))) :=
    final_waitFor_moves _ _ _ (fun _ _ _ => StreamState.eq_of_acknowledging) mid
  rw [writePieces, writePiece, h]
  dsimp only
  split
  · next acknowledged ha =>
    rw [ha] at hw
    exact hw.trans (writePieces_moves id deadline rest acknowledged)
  · next ha =>
    rw [ha] at hw
    exact hw

theorem sealed_of_write {id : UInt32} {bytes : Bytes} {budget : Nat} {c after : Connection}
    (hm : ∀ s, c.table.find? id = some s → s.Met) (hb : bytes ≠ [])
    (h : c.write id bytes budget = .error (.streamClosed id) after)
    (hwire : after.wire = c.wire) : c.Sealed id := by
  obtain ⟨piece, rest, hp⟩ := pieces_ne_nil hb c.info.maxData.toNat
  rw [write, hp] at h
  apply (sendPiece_closed hm (c.deadline budget) piece).mp
  cases hs : c.sendPiece id (c.deadline budget) piece with
  | error e mid =>
    rw [writePieces, writePiece, hs] at h
    cases h
    rfl
  | ok u mid =>
    exfalso
    have hmoves := writePieces_after_send hs rest
    rw [h, final_error] at hmoves
    obtain ⟨m, hmid⟩ := sendPiece_ok_wire hs
    have hlen := hmoves.wrote.wire_prefix.length_le
    rw [hmid, hwire, List.length_append, Message.encode, List.length_append,
      Message.length_header] at hlen
    have hsize : Header.size = 24 := rfl
    omega

end Connection

namespace Client

/-- The call says that the stream is closed, writes nothing and leaves every stream as it was. -/
def Dead (client : Client) (id : UInt32) (call : Call) : Prop :=
  (client.perform call).1 = .failed (.streamClosed id) ∧
    (client.perform call).2.connection.wire = client.connection.wire ∧
    (client.perform call).2.connection.table = client.connection.table

theorem perform_read {client : Client} {i : Nat} {h : Stream}
    (hh : client.handles[i]? = some (some h)) (length budget : Nat) :
    client.perform (.read i length budget) =
      client.answering .data (client.connection.read h.localId length budget) := by
  rw [perform, withHandle, hh]

theorem perform_write {client : Client} {i : Nat} {h : Stream}
    (hh : client.handles[i]? = some (some h)) (bytes : Bytes) (budget : Nat) :
    client.perform (.write i bytes budget) =
      client.answering (fun _ => .written) (client.connection.write h.localId bytes budget) := by
  rw [perform, withHandle, hh]

theorem read_of_spent {client : Client} {i : Nat} {h : Stream}
    (hh : client.handles[i]? = some (some h)) {length : Nat}
    (hs : client.connection.Spent h.localId length) (budget : Nat) :
    client.perform (.read i length budget) = (.failed (.streamClosed h.localId), client) := by
  rw [perform_read hh, Connection.read, Connection.readBy_of_spent hs]
  rfl

theorem write_of_sealed {client : Client} {i : Nat} {h : Stream}
    (hh : client.handles[i]? = some (some h)) (hm : client.connection.Accounted)
    (hs : client.connection.Sealed h.localId) {bytes : Bytes} (hb : bytes ≠ []) (budget : Nat) :
    client.perform (.write i bytes budget) = (.failed (.streamClosed h.localId), client) := by
  rw [perform_write hh, Connection.write_of_sealed (hm.met _) hs hb]
  rfl

theorem dead_of_same {client : Client} {id : UInt32} {call : Call}
    (h : client.perform call = (.failed (.streamClosed id), client)) : client.Dead id call := by
  unfold Dead
  rw [h]
  exact ⟨rfl, rfl, rfl⟩

theorem dead_read_iff {client : Client} {i : Nat} {h : Stream}
    (hh : client.handles[i]? = some (some h)) (length budget : Nat) :
    client.Dead h.localId (.read i length budget) ↔
      client.connection.Spent h.localId length := by
  constructor
  · intro hd
    unfold Dead at hd
    rw [perform_read hh] at hd
    cases hr : client.connection.read h.localId length budget with
    | ok bytes after =>
      rw [hr] at hd
      cases hd.1
    | error e after =>
      rw [hr] at hd
      obtain ⟨ha, _, ht⟩ := hd
      cases ha
      exact Connection.spent_of_readBy hr ht
  · intro hs
    exact dead_of_same (read_of_spent hh hs budget)

theorem dead_write_iff {client : Client} {i : Nat} {h : Stream}
    (hh : client.handles[i]? = some (some h)) (hm : client.connection.Accounted) {bytes : Bytes}
    (hb : bytes ≠ []) (budget : Nat) :
    client.Dead h.localId (.write i bytes budget) ↔ client.connection.Sealed h.localId := by
  constructor
  · intro hd
    unfold Dead at hd
    rw [perform_write hh] at hd
    cases hr : client.connection.write h.localId bytes budget with
    | ok u after =>
      rw [hr] at hd
      cases hd.1
    | error e after =>
      rw [hr] at hd
      obtain ⟨ha, hw, _⟩ := hd
      cases ha
      exact Connection.sealed_of_write (hm.met _) hb hr hw
  · intro hs
    exact dead_of_same (write_of_sealed hh hm hs hb budget)

end Client

/-- After every run, a closed handle is dead while nobody has its id. Once somebody has, it reads
and writes that stream as the owner does, and is dead only at the stream's end. -/
theorem released_handle_calls (channel : Channel) (info : DeviceInfo) (settings : HostSettings)
    (events : List Event) (i : Nat) (h : Stream) :
    let client := (Client.fresh channel info settings).after events
    client.handles[i]? = some (some h) → h.released = true →
    ((∀ j, ¬ client.Holds j h.localId) → ∀ budget,
      (∀ length, client.perform (.read i length budget) =
        (.failed (.streamClosed h.localId), client)) ∧
      ∀ bytes, bytes ≠ [] → client.perform (.write i bytes budget) =
        (.failed (.streamClosed h.localId), client)) ∧
    (∀ j, client.Holds j h.localId → j ≠ i ∧ ∀ budget,
      (∀ length, client.perform (.read i length budget) =
        client.perform (.read j length budget)) ∧
      ∀ bytes, client.perform (.write i bytes budget) = client.perform (.write j bytes budget)) ∧
    ∀ budget,
      (∀ length, client.Dead h.localId (.read i length budget) ↔
        ∀ s, client.connection.table.find? h.localId = some s →
          s.fault = none ∧ s.phase = .closed ∧ s.buffer.length < max length 1) ∧
      ∀ bytes, bytes ≠ [] → (client.Dead h.localId (.write i bytes budget) ↔
        ∀ s, client.connection.table.find? h.localId = some s →
          s.fault = none ∧ s.phase = .closed) := by
  intro client hh hr
  have howned : client.Owned := (Client.owned_fresh channel info settings).after events
  have hmet : client.connection.Accounted :=
    Client.connection_after (fun _ _ => Connection.Accounted.move)
      (Connection.accounted_fresh channel info settings) events
  refine ⟨?_, ?_, ?_⟩
  · intro hnobody budget
    have hnone (s : StreamState) : client.connection.table.find? h.localId ≠ some s := by
      intro hs
      have hmem : h.localId ∈ client.connection.ids := StreamTable.mem_ids.mpr ⟨s, hs⟩
      obtain ⟨j, hj⟩ := (howned.held h.localId).mp hmem
      exact hnobody j hj
    constructor
    · intro length
      exact Client.read_of_spent hh (fun s hs => absurd hs (hnone s)) budget
    · intro bytes hb
      exact Client.write_of_sealed hh hmet (fun s hs => absurd hs (hnone s)) hb budget
  · rintro j ⟨k, hk, hlive, hid⟩
    refine ⟨?_, ?_⟩
    · rintro rfl
      rw [hh] at hk
      cases hk
      rw [hr] at hlive
      cases hlive
    · intro budget
      constructor
      · intro length
        rw [Client.perform_read hh, Client.perform_read hk, hid]
      · intro bytes
        rw [Client.perform_write hh, Client.perform_write hk, hid]
  · intro budget
    constructor
    · intro length
      exact Client.dead_read_iff hh length budget
    · intro bytes hb
      exact Client.dead_write_iff hh hmet hb budget

/-- Two streams one after the other under the same id, and data for the second. -/
def reusedId : Link :=
  { inbound := [.chunk (Message.encode ⟨.okay, 100, 1, []⟩),
      .chunk (Message.encode ⟨.okay, 101, 1, []⟩),
      .chunk (Message.encode ⟨.write, 101, 1, [115, 101, 99, 114, 101, 116]⟩)] }

/-- The first handle is closed; it reads the second stream's data and writes to it. -/
theorem released_handle_reads_successor :
    let client := (Client.fresh { link := reusedId } ⟨"device", "S", "", 0, 4096⟩
      { streamIdLimit := 2 }).after [.call (.openStream "a" 10), .call (.close 0),
        .call (.openStream "b" 10), .call (.read 1 1 10)]
    client.handles = [some ⟨"a", 1, true⟩, some ⟨"b", 1, false⟩] ∧
      (client.perform (.read 0 0 10)).1 = .data [101, 99, 114, 101, 116] ∧
      (client.perform (.write 0 [7] 10)).2.connection.wire =
        client.connection.wire ++ Message.encode ⟨.write, 1, 101, [7]⟩ ∧
      ¬ client.Dead 1 (.read 0 0 10) := by
  intro client
  have hread : (client.perform (.read 0 0 10)).1 = .data [101, 99, 114, 101, 116] := by
    decide +kernel
  refine ⟨by decide +kernel, hread, by decide +kernel, ?_⟩
  intro hd
  rw [Client.Dead, hread] at hd
  cases hd.1

/-- The first handle while the second has its id, and after the second is closed as well. -/
theorem released_handle_calls_reused :
    let client := (Client.fresh { link := reusedId } ⟨"device", "S", "", 0, 4096⟩
      { streamIdLimit := 2 }).after [.call (.openStream "a" 10), .call (.close 0),
        .call (.openStream "b" 10), .call (.read 1 1 10)]
    let later := client.happen (.call (.close 1))
    client.perform (.read 0 5 10) = client.perform (.read 1 5 10) ∧
      ¬ client.Dead 1 (.write 0 [7] 10) ∧
      later.perform (.read 0 5 10) = (.failed (.streamClosed 1), later) := by
  intro client later
  have hheld := released_handle_calls { link := reusedId } ⟨"device", "S", "", 0, 4096⟩
    { streamIdLimit := 2 } [.call (.openStream "a" 10), .call (.close 0),
      .call (.openStream "b" 10), .call (.read 1 1 10)] 0 ⟨"a", 1, true⟩ (by decide +kernel) rfl
  have hfree := released_handle_calls { link := reusedId } ⟨"device", "S", "", 0, 4096⟩
    { streamIdLimit := 2 } [.call (.openStream "a" 10), .call (.close 0),
      .call (.openStream "b" 10), .call (.read 1 1 10), .call (.close 1)] 0 ⟨"a", 1, true⟩
    (by decide +kernel) rfl
  refine ⟨?_, ?_, ?_⟩
  · have hholds : client.Holds 1 1 := ⟨⟨"b", 1, false⟩, by decide +kernel, rfl, rfl⟩
    exact ((hheld.2.1 1 hholds).2 10).1 5
  · intro hd
    have hopen : client.connection.table.find? 1 =
        some ⟨some 101, .opened, false, [101, 99, 114, 101, 116], none⟩ := by decide +kernel
    have hclosed := (((hheld.2.2 10).2 [7] (List.cons_ne_nil _ _)).mp hd _ hopen).2
    cases hclosed
  · have hhandles : later.handles = [some ⟨"a", 1, true⟩, some ⟨"b", 1, true⟩] := by
      decide +kernel
    have hnobody : ∀ j, ¬ later.Holds j 1 := by
      rintro j ⟨s, hs, hlive, _⟩
      rw [hhandles] at hs
      rcases j with _ | _ | j
      · cases hs
        cases hlive
      · cases hs
        cases hlive
      · cases hs
    exact (hfree.1 hnobody 10).1 5

end DroidHost
