import DroidHost.Proofs.Run

/-! Moves taken apart. A step puts at most one thing on record and touches at most one stream. -/
namespace DroidHost

namespace Connection

/-- One thing that happens on a connection. -/
inductive Step (c : Connection) : Connection → Prop
  /-- Bytes come or go, or time passes. The next step puts it on record. -/
  | channel (channel : Channel) : Step c { c with channel := channel }
  | searched {table : StreamTable}
      (h : c.table.allocate c.settings.streamIdLimit = (none, table)) :
      Step c { c with table := table }
  | entered {id : UInt32} {table : StreamTable}
      (h : c.table.allocate c.settings.streamIdLimit = (some id, table)) :
      Step c ({ c with table := table }.enter id)
  /-- The request to open a stream is out. -/
  | asked {id : UInt32} (payload : Bytes) (h : c.table.find? id = some .fresh) :
      Step c (c.note (.sent ⟨.start, id, 0, payload⟩))
  | unsent (m : Message) (begun : Bool) : Step c (c.note (.unsent m begun))
  | routed {m : Message} {table : StreamTable} {ack : Option Message}
      (h : c.table.route m = .ok (table, ack)) :
      Step c { c.hear m c.channel with table := table }
  /-- A message came that is not about streams. -/
  | strayed {m : Message} {e : BridgeError} (h : c.table.route m = .error e) :
      Step c (c.hear m c.channel)
  | acknowledged (id peer : UInt32) : Step c (c.note (.sent ⟨.okay, id, peer, []⟩))
  | spoilt (id : UInt32) (fault : StreamFault) : Step c (c.spoil id fault)
  | wrote {id peer : UInt32} {s : StreamState} (piece : Bytes) (hs : c.table.find? id = some s)
      (hp : s.writable id = .ok peer) :
      Step c ((c.setStream id { s with awaiting := true }).note (.sent ⟨.write, id, peer, piece⟩))
  | took {id : UInt32} {length : Nat} {bytes : Bytes} {s s' : StreamState}
      (hs : c.table.find? id = some s) (hr : s.supplying id length = .ready bytes s') :
      Step c ((c.setStream id s').note (.taken id bytes))
  | removed (id : UInt32) : Step c (c.remove id)
  /-- The device has been told that a stream is let go of. -/
  | parted (id peer : UInt32) : Step c (c.note (.sent ⟨.close, id, peer, []⟩))

def Steps : Connection → Connection → Prop := Relation.ReflTransGen Step

theorem send_cases (m : Message) (deadline : Deadline) (c : Connection) :
    (∃ ch, c.send m deadline = .ok () ({ c with channel := ch }.note (.sent m))) ∨
    ∃ f ch begun,
      c.send m deadline = .error f ({ c with channel := ch }.note (.unsent m begun)) := by
  unfold send
  split
  · exact .inr ⟨_, _, _, rfl⟩
  · split
    · exact .inr ⟨_, _, _, rfl⟩
    · exact .inl ⟨_, rfl⟩

theorem send_of_put {P : Channel → Prop}
    (hput : ∀ ch, P ch → ∀ bytes budget, ∃ after, ch.put bytes budget = .ok () after ∧ P after)
    {c : Connection} (h : P c.channel) (m : Message) (deadline : Deadline) :
    ∃ ch, c.send m deadline = .ok () ({ c with channel := ch }.note (.sent m)) ∧ P ch := by
  obtain ⟨mid, hheader, hmid⟩ := hput c.channel h m.header (deadline.remaining c.channel.now)
  unfold send Channel.sendHeader
  rw [hheader]
  dsimp only
  unfold Channel.sendPayload
  by_cases hempty : m.payload.isEmpty = true
  · simp only [hempty, if_true]
    exact ⟨mid, rfl, hmid⟩
  · obtain ⟨last, hpayload, hlast⟩ :=
      hput mid hmid m.payload (deadline.remainingOrFloor Deadline.transferFloor mid.now)
    simp only [hempty, Bool.false_eq_true, if_false, hpayload]
    exact ⟨last, rfl, hlast⟩

theorem send_kept {P : Channel → Prop}
    (hput : ∀ ch, P ch → ∀ bytes budget, P (final (ch.put bytes budget))) {c : Connection}
    (h : P c.channel) (m : Message) (deadline : Deadline) : P (final (c.send m deadline)).channel := by
  have hheader := hput c.channel h m.header (deadline.remaining c.channel.now)
  unfold send Channel.sendHeader
  cases hr : c.channel.put m.header (deadline.remaining c.channel.now) with
  | error f ch =>
    rw [hr] at hheader
    exact hheader
  | ok u ch =>
    rw [hr] at hheader
    have hpayload := hput ch hheader m.payload
      (deadline.remainingOrFloor Deadline.transferFloor ch.now)
    dsimp only
    unfold Channel.sendPayload
    by_cases hempty : m.payload.isEmpty = true
    · rw [if_pos hempty]
      exact hheader
    · rw [if_neg hempty]
      cases hr' : ch.put m.payload (deadline.remainingOrFloor Deadline.transferFloor ch.now) with
      | error f last =>
        rw [hr'] at hpayload
        exact hpayload
      | ok u last =>
        rw [hr'] at hpayload
        exact hpayload

theorem steps_unsent (m : Message) (begun : Bool) (ch : Channel) (c : Connection) :
    Steps c ({ c with channel := ch }.note (.unsent m begun)) := by
  have hch : Steps c { c with channel := ch } := .single (.channel ch)
  exact hch.tail (.unsent m begun)

theorem steps_send {m : Message} {c : Connection}
    (h : ∀ ch, Step { c with channel := ch } ({ c with channel := ch }.note (.sent m)))
    (deadline : Deadline) : Steps c (final (c.send m deadline)) := by
  rcases c.send_cases m deadline with ⟨ch, hs⟩ | ⟨f, ch, begun, hs⟩
  · have hch : Steps c { c with channel := ch } := .single (.channel ch)
    rw [hs]
    exact hch.tail (h ch)
  · rw [hs]
    exact steps_unsent m begun ch c

theorem ack_of_route {m ack : Message} {t table : StreamTable}
    (h : t.route m = .ok (table, some ack)) : ∃ peer, ack = ⟨.okay, m.arg1, peer, []⟩ := by
  unfold StreamTable.route at h
  split at h
  · split at h
    · next s hs =>
      obtain ⟨_, hack⟩ := Prod.mk.inj (Except.ok.inj h)
      unfold StreamState.apply at hack
      split at hack
      · cases hack
      · cases hack
      · unfold StreamState.supplied at hack
        split at hack
        · exact ⟨_, (Option.some.inj hack).symm⟩
        · cases hack
        · cases hack
      · cases hack
    · cases h
  · cases h

theorem steps_acknowledge (id peer : UInt32) (deadline : Deadline) (c : Connection) :
    Steps c (c.acknowledge ⟨.okay, id, peer, []⟩ deadline) := by
  have hs : Steps c (final (c.send ⟨.okay, id, peer, []⟩
      (c.deadline (deadline.remainingOrFloor Deadline.transferFloor c.now)))) :=
    steps_send (fun _ => .acknowledged id peer) _
  unfold acknowledge
  split
  · next hr =>
    rw [hr] at hs
    exact hs
  · next hr =>
    rw [hr] at hs
    exact hs.tail (.spoilt _ _)

theorem steps_takeIn (deadline : Deadline) (c : Connection) :
    Steps c (final (c.takeIn deadline)) := by
  unfold takeIn
  split
  · split
    · exact .single (.channel _)
    · exact .single (.channel _)
  · next m ch _ =>
    have hch : Steps c { c with channel := ch } := .single (.channel ch)
    split
    · next e hr => exact hch.tail (.strayed hr)
    · next table hr => exact hch.tail (.routed hr)
    · next table ack hr =>
      obtain ⟨peer, rfl⟩ := ack_of_route hr
      have hrouted : Steps c { c.hear m ch with table := table } := hch.tail (.routed hr)
      exact hrouted.trans (steps_acknowledge m.arg1 peer deadline _)

theorem message_of_farewell {id : UInt32} {s : StreamState} {m : Message}
    (h : s.farewell id = some m) : ∃ peer, m = ⟨.close, id, peer, []⟩ := by
  unfold StreamState.farewell at h
  split at h
  · cases h
  · cases h
  · exact ⟨_, (Option.some.inj h).symm⟩

theorem steps_release (id : UInt32) (c : Connection) : Steps c (c.release id) := by
  have hr : Steps c (c.remove id) := .single (.removed id)
  unfold release
  split
  · exact .refl
  · split
    · exact hr
    · next hm =>
      obtain ⟨peer, rfl⟩ := message_of_farewell hm
      exact hr.trans (steps_send (fun _ => .parted id peer) _)

theorem steps_ask (destination : String) (deadline : Deadline) (c : Connection) :
    Steps c (final (c.ask destination deadline)) := by
  unfold ask
  split
  · next table h => exact .single (.searched h)
  · next id table h =>
    let entered : Connection := { c with table := table }.enter id
    have he : Steps c entered := .single (.entered h)
    have hfound : entered.table.find? id = some .fresh := by
      simp only [entered, enter, note, StreamTable.find?_insert, if_true]
    have hs : Steps c (final (entered.send
        ⟨.start, id, 0, Text.Utf8.encode destination ++ [0]⟩ deadline)) :=
      he.trans (steps_send (c := entered) (fun _ => .asked _ hfound) deadline)
    split
    · next hr =>
      rw [hr] at hs
      exact hs.trans (steps_release _ _)
    · next hr =>
      rw [hr] at hs
      exact hs

theorem steps_sendPiece (id : UInt32) (deadline : Deadline) (piece : Bytes) (c : Connection) :
    Steps c (final (c.sendPiece id deadline piece)) := by
  unfold sendPiece
  split
  · exact .refl
  · next s hs =>
    split
    · exact .refl
    · next peer hp =>
      rcases c.send_cases ⟨.write, id, peer, piece⟩ deadline with ⟨ch, h⟩ | ⟨f, ch, begun, h⟩
      · have hch : Steps c { c with channel := ch } := .single (.channel ch)
        rw [h]
        exact hch.tail (.wrote piece hs hp)
      · rw [h]
        exact steps_unsent _ begun ch c

theorem Move.steps {c after : Connection} (h : Move c after) : Steps c after := by
  cases h with
  | outside link => exact .single (.channel _)
  | ask destination deadline => exact steps_ask destination deadline c
  | takeIn deadline => exact steps_takeIn deadline c
  | sendPiece id deadline piece => exact steps_sendPiece id deadline piece c
  | take id length bytes hi =>
    obtain ⟨s, s', hs, hr, rfl⟩ := inspect_ok hi
    exact .single (.took hs hr)
  | release id => exact steps_release id c

theorem Moves.steps {c after : Connection} (h : Moves c after) : Steps c after := by
  induction h with
  | refl => exact .refl
  | tail _ hm ih => exact ih.trans hm.steps

/-- What every step keeps, every chain of steps keeps. -/
theorem Steps.kept {P : Connection → Prop} (hp : ∀ c after, Step c after → P c → P after)
    {c after : Connection} (h : Steps c after) (hc : P c) : P after := by
  induction h with
  | refl => exact hc
  | tail _ hm ih => exact hp _ _ hm ih

end Connection

theorem Client.connection_after_steps {P : Connection → Prop}
    (hp : ∀ c after, c.Step after → P c → P after) {channel : Channel} {info : DeviceInfo}
    {settings : HostSettings} (h : P (fresh channel info settings).connection)
    (events : List Event) : P ((fresh channel info settings).after events).connection :=
  ((fresh channel info settings).after_moves events).steps.kept hp h

end DroidHost
