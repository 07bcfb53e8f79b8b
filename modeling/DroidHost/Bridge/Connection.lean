import DroidHost.Bridge.Channel
import DroidHost.Bridge.DeviceInfo
import DroidHost.Bridge.Stream.Occurrence
import DroidHost.Bridge.Stream.Table
import DroidHost.Settings.Basic

/-! A connection that carries many streams. Whoever waits on one stream passes each message on to
the stream that it is for. -/
namespace DroidHost

structure Connection where
  channel : Channel
  info : DeviceInfo
  settings : HostSettings
  table : StreamTable := {}
  /-- Latest first. -/
  past : List Occurrence := []
  deriving DecidableEq, Repr

inductive Look (α : Type)
  | ready (result : α) (state : StreamState)
  | failed (e : BridgeError)
  | notYet

namespace Connection

def now (c : Connection) : Nat := c.channel.now

def deadline (c : Connection) (budget : Nat) : Deadline := ⟨c.now, budget⟩

/-- What is left to arrive, and what has arrived and not been read. -/
def load (c : Connection) : Nat := c.channel.weight + c.table.buffered

def describe (c : Connection) : String :=
  "Connection \x7b info: " ++ c.info.describe ++ ", .. \x7d"

def setStream (c : Connection) (id : UInt32) (s : StreamState) : Connection :=
  { c with table := c.table.set id s }

def spoil (c : Connection) (id : UInt32) (fault : StreamFault) : Connection :=
  match c.table.find? id with
  | some s => c.setStream id { s with fault := some fault }
  | none => c

def note (c : Connection) (o : Occurrence) : Connection := { c with past := o :: c.past }

def send (m : Message) (deadline : Deadline) (c : Connection) :
    EStateM.Result LinkFault Connection Unit :=
  match c.channel.sendHeader m deadline with
  | .error f ch => .error f ({ c with channel := ch }.note (.unsent m false))
  | .ok _ ch =>
    match ch.sendPayload m deadline with
    | .error f ch => .error f ({ c with channel := ch }.note (.unsent m true))
    | .ok _ ch => .ok () ({ c with channel := ch }.note (.sent m))

/-- If the acknowledgement cannot be sent, only the stream that it belongs to is spoilt. -/
def acknowledge (ack : Message) (deadline : Deadline) (c : Connection) : Connection :=
  match c.send ack (c.deadline (deadline.remainingOrFloor Deadline.transferFloor c.now)) with
  | .ok _ c => c
  | .error f c => c.spoil ack.arg0 (.unacknowledged f)

def hear (m : Message) (ch : Channel) (c : Connection) : Connection :=
  { c with channel := ch }.note (.arrived m ((c.table.find? m.arg1).map StreamState.phase))

/-- Running out of time is no failure here. -/
def takeIn (deadline : Deadline) (c : Connection) : EStateM.Result BridgeError Connection Unit :=
  match c.channel.receive deadline with
  | .error e ch =>
    if e.isTimeout then .ok () { c with channel := ch } else .error e { c with channel := ch }
  | .ok m ch =>
    match c.table.route m with
    | .error e => .error e (c.hear m ch)
    | .ok (table, none) => .ok () { c.hear m ch with table := table }
    | .ok (table, some ack) => .ok () ({ c.hear m ch with table := table }.acknowledge ack deadline)

theorem load_setStream {c : Connection} {id : UInt32} {old s : StreamState}
    (h : c.table.find? id = some old) :
    (c.setStream id s).load + old.buffer.length = c.load + s.buffer.length := by
  have := StreamTable.buffered_set (s := s) h
  simp only [load, setStream]
  omega

theorem load_spoil (c : Connection) (id : UInt32) (fault : StreamFault) :
    (c.spoil id fault).load = c.load := by
  unfold spoil
  split
  · next s hs =>
    have := load_setStream (s := { s with fault := some fault }) hs
    simp only at this
    omega
  · rfl

theorem channel_spoil (c : Connection) (id : UInt32) (fault : StreamFault) :
    (c.spoil id fault).channel = c.channel := by
  unfold spoil
  split <;> rfl

theorem send_weight (m : Message) (deadline : Deadline) (c : Connection) :
    (final (c.send m deadline)).channel.weight = c.channel.weight ∧
      (final (c.send m deadline)).table = c.table ∧ c.now ≤ (final (c.send m deadline)).now := by
  have h₁ := c.channel.sendHeader_weight m deadline
  unfold send
  split
  · next hs =>
    rw [hs] at h₁
    exact ⟨h₁.1, rfl, h₁.2⟩
  · next ch hs =>
    rw [hs] at h₁
    have h₂ := ch.sendPayload_weight m deadline
    split
    all_goals
      next hp =>
      rw [hp] at h₂
      exact ⟨h₂.1.trans h₁.1, rfl, Nat.le_trans h₁.2 h₂.2⟩

theorem send_load (m : Message) (deadline : Deadline) (c : Connection) :
    (final (c.send m deadline)).load = c.load := by
  have h := c.send_weight m deadline
  rw [load, load, h.1, h.2.1]

theorem acknowledge_weight (ack : Message) (deadline : Deadline) (c : Connection) :
    (c.acknowledge ack deadline).channel.weight = c.channel.weight ∧
      (c.acknowledge ack deadline).load = c.load ∧ c.now ≤ (c.acknowledge ack deadline).now := by
  have h := c.send_weight ack
    (c.deadline (deadline.remainingOrFloor Deadline.transferFloor c.now))
  have hl := c.send_load ack
    (c.deadline (deadline.remainingOrFloor Deadline.transferFloor c.now))
  unfold acknowledge
  split
  · next hs =>
    rw [hs] at h hl
    exact ⟨h.1, hl, h.2.2⟩
  · next hs =>
    rw [hs] at h hl
    simp only [channel_spoil, load_spoil, now]
    exact ⟨h.1, hl, h.2.2⟩

theorem takeIn_ok {deadline : Deadline} {c after : Connection} {u : Unit}
    (h : c.takeIn deadline = .ok u after) :
    after.channel.weight ≤ c.channel.weight ∧ after.load ≤ c.load ∧ c.now ≤ after.now ∧
      (after.channel.weight < c.channel.weight ∨ deadline.hasExpired after.now = true) := by
  unfold takeIn at h
  split at h
  · next e ch he =>
    obtain ⟨hw, hn, hp⟩ := Channel.receive_error_cases he
    split at h
    · next ht =>
      cases h
      exact ⟨hw, Nat.add_le_add_right hw _, hn, hp ht⟩
    · cases h
  · next m ch hm =>
    obtain ⟨hw, hn⟩ := Channel.receive_ok_weight hm
    simp only [Header.size] at hw
    split at h
    · cases h
    · next table hr =>
      cases h
      have hb := StreamTable.buffered_route hr
      simp only [load, hear, note]
      exact ⟨by omega, by omega, hn, .inl (by omega)⟩
    · next table ack hr =>
      cases h
      have hb := StreamTable.buffered_route hr
      obtain ⟨ha, hl, ht⟩ :=
        acknowledge_weight ack deadline { c.hear m ch with table := table }
      simp only [load, hear, note] at ha hl hb ht ⊢
      exact ⟨by omega, by omega, Nat.le_trans hn ht, .inl (by omega)⟩

theorem takeIn_error {deadline : Deadline} {c after : Connection} {e : BridgeError}
    (h : c.takeIn deadline = .error e after) :
    after.channel.weight ≤ c.channel.weight ∧ after.load ≤ c.load ∧ c.now ≤ after.now := by
  unfold takeIn at h
  split at h
  · next e ch he =>
    obtain ⟨hw, hn, _⟩ := Channel.receive_error_cases he
    split at h
    · cases h
    · cases h
      exact ⟨hw, Nat.add_le_add_right hw _, hn⟩
  · next m ch hm =>
    obtain ⟨hw, hn⟩ := Channel.receive_ok_weight hm
    simp only [Header.size] at hw
    split at h
    · cases h
      simp only [load, hear, note]
      exact ⟨by omega, by omega, hn⟩
    · cases h
    · cases h

/-- Messages that a wait can still take in before its deadline is sure to have passed. -/
def patience (c : Connection) (deadline : Deadline) : Nat :=
  if deadline.hasExpired c.now then 0 else c.channel.weight + 1

/-- A spoilt stream says its fault first. -/
def inspect (id : UInt32) (look : StreamState → Look α) (c : Connection) :
    Option (EStateM.Result BridgeError Connection α) :=
  match c.table.find? id with
  | none => some (.error (.streamClosed id) c)
  | some s =>
    match s.fault with
    | some fault => some (.error (.protocol (.stream id fault)) c)
    | none =>
      match look s with
      | .ready result s => some (.ok result (c.setStream id s))
      | .failed e => some (.error e c)
      | .notYet => none

theorem inspect_ok {id : UInt32} {look : StreamState → Look α} {c after : Connection} {a : α}
    (h : c.inspect id look = some (.ok a after)) :
    ∃ s s', c.table.find? id = some s ∧ look s = .ready a s' ∧ after = c.setStream id s' := by
  unfold inspect at h
  split at h
  · cases h
  · next s hs =>
    split at h
    · cases h
    · split at h
      · next s' hl =>
        cases h
        exact ⟨s, s', hs, hl, rfl⟩
      · cases h
      · cases h

theorem inspect_error {id : UInt32} {look : StreamState → Look α} {c after : Connection}
    {e : BridgeError} (h : c.inspect id look = some (.error e after)) : after = c := by
  unfold inspect at h
  split at h
  · cases h; rfl
  · split at h
    · cases h; rfl
    · split at h <;> cases h
      rfl

theorem inspect_load {id : UInt32} {look : StreamState → Look α} (cost : α → Nat)
    (hl : ∀ s a s', look s = .ready a s' → s'.buffer.length + cost a ≤ s.buffer.length)
    {c after : Connection} {a : α} (h : c.inspect id look = some (.ok a after)) :
    after.load + cost a ≤ c.load ∧ after.channel = c.channel := by
  obtain ⟨s, s', hs, hr, rfl⟩ := inspect_ok h
  have := load_setStream (s := s') hs
  have := hl s a s' hr
  exact ⟨by omega, rfl⟩

def waitFor (id : UInt32) (deadline : Deadline) (awaited : Awaited) (look : StreamState → Look α)
    (c : Connection) : EStateM.Result BridgeError Connection α :=
  match c.inspect id look with
  | some said => said
  | none =>
    if deadline.hasExpired c.now then .error (.timeout deadline.budget awaited) c
    else
      match _ : c.takeIn deadline with
      | .ok _ after => waitFor id deadline awaited look after
      | .error e after => .error e after
termination_by c.patience deadline
decreasing_by
  -- Once the deadline has passed no message is taken in, so patience may drop to nothing.
  obtain ⟨_, _, _, hp⟩ := takeIn_ok ‹c.takeIn deadline = _›
  simp only [patience]
  split
  · omega
  · next hn =>
    have := hp.resolve_right hn
    omega

theorem waitFor_ok {id : UInt32} {deadline : Deadline} {awaited : Awaited}
    {look : StreamState → Look α} (cost : α → Nat)
    (hl : ∀ s a s', look s = .ready a s' → s'.buffer.length + cost a ≤ s.buffer.length)
    {c after : Connection} {a : α} (h : c.waitFor id deadline awaited look = .ok a after) :
    after.load + cost a ≤ c.load ∧ c.now ≤ after.now := by
  fun_induction waitFor id deadline awaited look c with
  | case1 c said hs =>
    subst h
    obtain ⟨hc, hch⟩ := inspect_load cost hl hs
    exact ⟨hc, Nat.le_of_eq (congrArg Channel.now hch).symm⟩
  | case2 => cases h
  | case3 c hs he u mid ht ih =>
    obtain ⟨_, hm, hn, _⟩ := takeIn_ok ht
    have := ih h
    exact ⟨by omega, by omega⟩
  | case4 => cases h

theorem waitFor_result {id : UInt32} {deadline : Deadline} {awaited : Awaited}
    {look : StreamState → Look α} (good : α → Prop) (hl : ∀ s a s', look s = .ready a s' → good a)
    {c after : Connection} {a : α} (h : c.waitFor id deadline awaited look = .ok a after) :
    good a := by
  fun_induction waitFor id deadline awaited look c with
  | case1 c said hs =>
    subst h
    obtain ⟨s, s', _, hr, _⟩ := inspect_ok hs
    exact hl s a s' hr
  | case2 => cases h
  | case3 c hs he u mid ht ih => exact ih h
  | case4 => cases h

theorem waitFor_error {id : UInt32} {deadline : Deadline} {awaited : Awaited}
    {look : StreamState → Look α} {c after : Connection} {e : BridgeError}
    (h : c.waitFor id deadline awaited look = .error e after) :
    after.load ≤ c.load ∧ c.now ≤ after.now := by
  fun_induction waitFor id deadline awaited look c with
  | case1 c said hs =>
    subst h
    cases inspect_error hs
    exact ⟨Nat.le_refl _, Nat.le_refl _⟩
  | case2 => cases h; exact ⟨Nat.le_refl _, Nat.le_refl _⟩
  | case3 c hs he u mid ht ih =>
    obtain ⟨_, hm, hn, _⟩ := takeIn_ok ht
    have := ih h
    exact ⟨by omega, by omega⟩
  | case4 c hs he e' mid ht =>
    cases h
    exact (takeIn_error ht).2

end Connection
end DroidHost
