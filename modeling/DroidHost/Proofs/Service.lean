import DroidHost.Proofs.Acknowledgement
import DroidHost.Proofs.Framing

/-! A device that serves a stream: it sends data and acknowledgements on it. The bytes to be read
are the buffer and the data still to come. -/
namespace DroidHost

namespace StreamState

/-- The stream is open to a peer, and nothing is wrong with it. -/
def Sound (peer : UInt32) (s : StreamState) : Prop :=
  s.phase = .opened ∧ s.peer = some peer ∧ s.fault = none

theorem writable_iff {id peer : UInt32} {s : StreamState} :
    s.writable id = .ok peer ↔ s.Sound peer ∧ s.awaiting = false := by
  constructor
  · intro h
    obtain ⟨hopen, hpeer, hidle⟩ := of_writable h
    refine ⟨⟨hopen, hpeer, ?_⟩, hidle⟩
    cases hf : s.fault with
    | none => rfl
    | some fault =>
      rw [writable, hf] at h
      cases h
  · rintro ⟨⟨hopen, hpeer, hfault⟩, hidle⟩
    simp only [writable, hfault, hopen, hpeer, hidle, Bool.false_eq_true, if_false]

theorem acknowledged_sound {peer : UInt32} {s : StreamState} (h : s.Sound peer)
    (hw : s.awaiting = true) : s.acknowledged peer = { s with awaiting := false } := by
  obtain ⟨hopen, hpeer, _⟩ := h
  have hnot : s.peer.any (· ≠ peer) = false := by
    rw [hpeer, Option.any_some, decide_eq_false_iff_not]
    exact not_not_intro rfl
  rw [acknowledged, hnot, if_neg Bool.false_ne_true, if_pos hw, hopen, if_neg nofun, ← hpeer,
    ← hopen]

theorem acknowledging_sound {peer : UInt32} {s : StreamState} (h : s.Sound peer) (id : UInt32) :
    s.acknowledging id = if s.awaiting then .notYet else .ready () s := by
  rw [acknowledging, h.1]
  cases s.awaiting <;> rfl

theorem supplied_sound {peer : UInt32} {s : StreamState} (h : s.Sound peer) (id : UInt32)
    (bytes : Bytes) :
    s.supplied id bytes = ({ s with buffer := s.buffer ++ bytes }, some ⟨.okay, id, peer, []⟩) := by
  simp only [supplied, h.1, h.2.1]

end StreamState

namespace Message

/-- If the message is for the stream, it is data or an acknowledgement from the stream's peer. -/
def Serves (id peer : UInt32) (m : Message) : Prop :=
  (m.command = .okay ∨ m.command = .close ∨ m.command = .write) ∧
    (m.arg1 = id → m.command = .write ∨ m.command = .okay ∧ m.arg0 = peer)

def dataFor (id : UInt32) : Except BridgeError Message → Bytes
  | .ok m => if m.command = .write ∧ m.arg1 = id then m.payload else []
  | .error _ => []

def isOkayFor (id : UInt32) : Except BridgeError Message → Bool
  | .ok m => m.command = .okay ∧ m.arg1 = id
  | .error _ => false

end Message

def Delivery.isTaken : Delivery → Bool
  | taken _ => true
  | refused _ => false

namespace Channel

theorem plan_fill (target : Nat) (deadline : Deadline) (ch : Channel) :
    (final (ch.fill target deadline)).link.plan = ch.link.plan := by
  have hread (wanted budget : Nat) (link : Link) :
      (final (link.read wanted budget)).plan = link.plan := by
    unfold Link.read
    split
    · rfl
    · dsimp only
      split <;> rfl
  fun_induction fill target deadline ch with
  | case1 => rfl
  | case2 ch hlt f link hr =>
    have hl := hread (target - ch.fragment.length) (ch.allowance deadline) ch.link
    rw [hr] at hl
    exact hl
  | case3 ch hlt link hr =>
    have hl := hread (target - ch.fragment.length) (ch.allowance deadline) ch.link
    rw [hr] at hl
    exact hl
  | case4 ch hlt b got link hr ih =>
    have hl := hread (target - ch.fragment.length) (ch.allowance deadline) ch.link
    rw [hr] at hl
    exact ih.trans hl

theorem plan_gather (deadline : Deadline) (ch : Channel) :
    (final (ch.gather deadline)).link.plan = ch.link.plan := by
  have hf := plan_fill Header.size deadline ch
  unfold gather
  split
  · next hr =>
    rw [hr] at hf
    exact hf
  · next mid hr =>
    rw [hr] at hf
    split
    · exact hf
    · next h _ =>
      have hg := plan_fill (Header.size + h.length.toNat) deadline mid
      split
      · next hr' =>
        rw [hr'] at hg
        exact hg.trans hf
      · next hr' =>
        rw [hr'] at hg
        split
        · exact hg.trans hf
        · exact hg.trans hf

theorem plan_receive (deadline : Deadline) (ch : Channel) :
    (final (ch.receive deadline)).link.plan = ch.link.plan := by
  rw [link_receive, plan_gather]

/-- The link is sound both ways. -/
structure Serving (ch : Channel) : Prop where
  framed : ch.Framed
  taken : ∀ d ∈ ch.link.plan, d.isTaken = true

theorem put_serving {ch : Channel} (h : ch.Serving) (bytes : Bytes) (budget : Nat) :
    ∃ after, ch.put bytes budget = .ok () after ∧ after.Serving ∧ after.stream = ch.stream := by
  have hopen := h.framed.steady.isOpen
  have htaken := h.taken
  unfold put Link.write
  rw [if_neg (by rw [hopen]; exact Bool.false_ne_true)]
  cases hp : ch.link.plan with
  | nil =>
    refine ⟨_, rfl, ⟨⟨⟨hopen, h.framed.steady.harmless⟩, h.framed.cut⟩, ?_⟩, rfl⟩
    exact htaken
  | cons d rest =>
    rw [hp, List.forall_mem_cons] at htaken
    cases d with
    | taken nanos =>
      exact ⟨_, rfl, ⟨⟨⟨hopen, h.framed.steady.harmless⟩, h.framed.cut⟩, htaken.2⟩, rfl⟩
    | refused f => cases htaken.1

end Channel

namespace Connection

/-- Bytes that have come for a stream and have not been read. -/
def unread (id : UInt32) (c : Connection) : Bytes := ((c.table.find? id).map (·.buffer)).getD []

def awaited (id : UInt32) (c : Connection) : Nat :=
  ((c.table.find? id).map (·.awaiting.toNat)).getD 0

/-- What is still to be received if these bytes come later. -/
def coming (later : Bytes) (c : Connection) : List (Except BridgeError Message) :=
  Message.parse (c.channel.stream ++ later)

def toRead (id : UInt32) (later : Bytes) (c : Connection) : Bytes :=
  c.unread id ++ (c.coming later).flatMap (Message.dataFor id)

def okays (id : UInt32) (later : Bytes) (c : Connection) : Nat :=
  (c.coming later).countP (Message.isOkayFor id)

/-- The device serves a stream, also with the bytes that come later. -/
structure Serving (id peer : UInt32) (later : Bytes) (c : Connection) : Prop where
  channel : c.channel.Serving
  told : ∀ r ∈ c.coming later, ∃ m, r = .ok m ∧ m.Serves id peer
  sound : ∃ s, c.table.find? id = some s ∧ s.Sound peer

/-- So much was read from a stream, and so many pieces were sent on it. -/
structure Advance (id : UInt32) (got : Bytes) (pieces : Nat) (c after : Connection) : Prop where
  toRead : ∀ later, c.toRead id later = got ++ after.toRead id later
  okays : ∀ later,
    after.okays id later + c.awaited id + pieces = c.okays id later + after.awaited id
  taken : after.taken id = c.taken id ++ got
  info : after.info = c.info
  now : c.now ≤ after.now

theorem Advance.refl (id : UInt32) (c : Connection) : Advance id [] 0 c c where
  toRead := fun _ => rfl
  okays := fun _ => rfl
  taken := (List.append_nil _).symm
  info := rfl
  now := Nat.le_refl _

theorem Advance.trans {id : UInt32} {got more : Bytes} {n k : Nat} {c mid after : Connection}
    (h : Advance id got n c mid) (h' : Advance id more k mid after) :
    Advance id (got ++ more) (n + k) c after where
  toRead := fun later => by rw [h.toRead, h'.toRead, List.append_assoc]
  okays := fun later => by
    have hfirst := h.okays later
    have hsecond := h'.okays later
    omega
  taken := by rw [h'.taken, h.taken, List.append_assoc]
  info := h'.info.trans h.info
  now := Nat.le_trans h.now h'.now

theorem advance_of {id : UInt32} {c after : Connection} {s s' : StreamState}
    (hs : c.table.find? id = some s) (hs' : after.table.find? id = some s')
    {heard : List (Except BridgeError Message)}
    (hheard : ∀ later, c.coming later = heard ++ after.coming later)
    (hbuffer : s'.buffer = s.buffer ++ heard.flatMap (Message.dataFor id))
    (hcount : heard.countP (Message.isOkayFor id) + s'.awaiting.toNat = s.awaiting.toNat)
    (htaken : after.taken id = c.taken id) (hinfo : after.info = c.info)
    (hnow : c.now ≤ after.now) : Advance id [] 0 c after where
  toRead := fun later => by
    simp only [Connection.toRead, unread, hs, hs', hheard, hbuffer, Option.map_some,
      Option.getD_some, List.flatMap_append, List.append_assoc, List.nil_append]
  okays := fun later => by
    simp only [Connection.okays, awaited, hs, hs', hheard, Option.map_some, Option.getD_some,
      List.countP_append]
    omega
  taken := htaken.trans (List.append_nil _).symm
  info := hinfo
  now := hnow

theorem send_serving {c : Connection} (h : c.channel.Serving) (m : Message) (deadline : Deadline) :
    ∃ ch, c.send m deadline = .ok () ({ c with channel := ch }.note (.sent m)) ∧ ch.Serving ∧
      ch.stream = c.channel.stream := by
  refine send_of_put (P := fun ch => ch.Serving ∧ ch.stream = c.channel.stream) ?_ ⟨h, rfl⟩ m
    deadline
  rintro ch ⟨hch, hsame⟩ bytes budget
  obtain ⟨after, hput, hafter, hstream⟩ := Channel.put_serving hch bytes budget
  exact ⟨after, hput, hafter, hstream.trans hsame⟩

theorem acknowledge_serving {c : Connection} (h : c.channel.Serving) (ack : Message)
    (deadline : Deadline) :
    ∃ ch, c.acknowledge ack deadline = { c with channel := ch }.note (.sent ack) ∧ ch.Serving ∧
      ch.stream = c.channel.stream := by
  obtain ⟨ch, hsend, hch⟩ := send_serving h ack
    (c.deadline (deadline.remainingOrFloor Deadline.transferFloor c.now))
  refine ⟨ch, ?_, hch⟩
  rw [acknowledge, hsend]

theorem receive_serving {id peer : UInt32} {later : Bytes} {c : Connection}
    (h : c.Serving id peer later) (deadline : Deadline) :
    match c.channel.receive deadline with
    | .ok m ch => ch.Serving ∧ m.Serves id peer ∧
        ∀ more, c.coming more = .ok m :: Message.parse (ch.stream ++ more)
    | .error e ch => ch.Serving ∧ e.isTimeout = true ∧
        ∀ more, c.coming more = Message.parse (ch.stream ++ more) := by
  have hsound := Channel.receive_sound h.channel.framed h.told deadline
  have hplan := Channel.plan_receive deadline c.channel
  cases hr : c.channel.receive deadline with
  | ok m ch =>
    rw [hr] at hsound hplan
    refine ⟨⟨hsound.2.1, ?_⟩, hsound.1, hsound.2.2⟩
    rw [show ch.link.plan = c.channel.link.plan from hplan]
    exact h.channel.taken
  | error e ch =>
    rw [hr] at hsound hplan
    refine ⟨⟨hsound.2.1, ?_⟩, hsound.1, hsound.2.2⟩
    rw [show ch.link.plan = c.channel.link.plan from hplan]
    exact h.channel.taken

theorem taken_hear (id : UInt32) (m : Message) (ch : Channel) (c : Connection) :
    (c.hear m ch).taken id = c.taken id :=
  (taken_note (c := { c with channel := ch }) (o := .arrived m _) nofun).trans (List.append_nil _)

theorem apply_serving {id peer : UInt32} {s : StreamState} (hsound : s.Sound peer) {m : Message}
    (hserves : m.Serves id peer) (hid : m.arg1 = id)
    (hasked : s.awaiting = true ∨ Message.isOkayFor id (.ok m) = false) :
    ∃ s' : StreamState, (s.apply id m).1 = s' ∧ s'.Sound peer ∧
      s'.buffer = s.buffer ++ Message.dataFor id (.ok m) ∧
      (Message.isOkayFor id (.ok m)).toNat + s'.awaiting.toNat = s.awaiting.toNat := by
  obtain hc | ⟨hc, hpeer⟩ := hserves.2 hid
  · have hstate : (s.apply id m).1 = { s with buffer := s.buffer ++ m.payload } := by
      simp only [StreamState.apply, hc, StreamState.supplied_sound hsound]
    have hnot : Message.isOkayFor id (.ok m) = false := decide_eq_false (fun h => by
      rw [hc] at h
      cases h.1)
    refine ⟨_, hstate, hsound, ?_, ?_⟩
    · rw [Message.dataFor, if_pos ⟨hc, hid⟩]
    · rw [hnot]
      exact Nat.zero_add _
  · have hokay : Message.isOkayFor id (.ok m) = true := decide_eq_true ⟨hc, hid⟩
    have hwaits : s.awaiting = true := hasked.resolve_right (by rw [hokay]; rintro ⟨⟩)
    have hstate : (s.apply id m).1 = { s with awaiting := false } := by
      simp only [StreamState.apply, hc, hpeer, StreamState.acknowledged_sound hsound hwaits]
    refine ⟨_, hstate, hsound, ?_, ?_⟩
    · rw [Message.dataFor, if_neg (fun h => by rw [hc] at h; cases h.1), List.append_nil]
    · rw [hokay, hwaits]
      rfl

theorem route_serving {id peer : UInt32} {c : Connection} {s : StreamState}
    (hs : c.table.find? id = some s) (hsound : s.Sound peer) {m : Message}
    (hserves : m.Serves id peer)
    (hasked : s.awaiting = true ∨ Message.isOkayFor id (.ok m) = false) :
    ∃ table ack s', c.table.route m = .ok (table, ack) ∧ table.find? id = some s' ∧
      s'.Sound peer ∧ s'.buffer = s.buffer ++ Message.dataFor id (.ok m) ∧
      (Message.isOkayFor id (.ok m)).toNat + s'.awaiting.toNat = s.awaiting.toNat := by
  rw [StreamTable.route, if_pos hserves.1]
  by_cases hid : m.arg1 = id
  · obtain ⟨s', happly, hsound', hbuffer, hcount⟩ := apply_serving hsound hserves hid hasked
    rw [hid, hs]
    refine ⟨_, _, s', rfl, ?_, hsound', hbuffer, hcount⟩
    rw [StreamTable.find?_set, if_pos rfl, hs, Option.map_some, happly]
  · have hdata : s.buffer = s.buffer ++ Message.dataFor id (.ok m) := by
      rw [Message.dataFor, if_neg (fun h => hid h.2), List.append_nil]
    have hcount : (Message.isOkayFor id (.ok m)).toNat + s.awaiting.toNat = s.awaiting.toNat := by
      rw [Message.isOkayFor, decide_eq_false (fun h => hid h.2)]
      exact Nat.zero_add _
    cases hf : c.table.find? m.arg1 with
    | none => exact ⟨_, _, s, rfl, hs, hsound, hdata, hcount⟩
    | some t =>
      refine ⟨_, _, s, rfl, ?_, hsound, hdata, hcount⟩
      rw [StreamTable.find?_set, if_neg (Ne.symm hid)]
      exact hs

theorem serving_heard {id peer : UInt32} {later : Bytes} {c after : Connection}
    (h : c.Serving id peer later) {s s' : StreamState} (hs : c.table.find? id = some s)
    (hs' : after.table.find? id = some s') (hsound : s'.Sound peer)
    {heard : List (Except BridgeError Message)}
    (hheard : ∀ more, c.coming more = heard ++ after.coming more)
    (hbuffer : s'.buffer = s.buffer ++ heard.flatMap (Message.dataFor id))
    (hcount : heard.countP (Message.isOkayFor id) + s'.awaiting.toNat = s.awaiting.toNat)
    (hchannel : after.channel.Serving) (htaken : after.taken id = c.taken id)
    (hinfo : after.info = c.info) (hnow : c.now ≤ after.now) :
    after.Serving id peer later ∧ Advance id [] 0 c after ∧ after.awaited id ≤ c.awaited id := by
  refine ⟨⟨hchannel, ?_, s', hs', hsound⟩, ?_, ?_⟩
  · intro r hmem
    exact h.told r (by rw [hheard]; exact List.mem_append_right _ hmem)
  · exact advance_of hs hs' hheard hbuffer hcount htaken hinfo hnow
  · rw [awaited, awaited, hs, hs', Option.map_some, Option.map_some, Option.getD_some,
      Option.getD_some, ← hcount]
    exact Nat.le_add_left _ _

theorem takeIn_routed {c : Connection} {deadline : Deadline} {m : Message} {ch : Channel}
    (hr : c.channel.receive deadline = .ok m ch) (hch : ch.Serving) {table : StreamTable}
    {ack : Option Message} (hroute : c.table.route m = .ok (table, ack)) (id : UInt32) :
    ∃ after, c.takeIn deadline = .ok () after ∧ after.table = table ∧ after.channel.Serving ∧
      (∀ more, after.coming more = Message.parse (ch.stream ++ more)) ∧
      after.taken id = c.taken id ∧ after.info = c.info := by
  cases ack with
  | none =>
    have htake : c.takeIn deadline = .ok () { c.hear m ch with table := table } := by
      simp only [takeIn, hr, hroute]
    exact ⟨_, htake, rfl, hch, fun _ => rfl, taken_hear id m ch c, rfl⟩
  | some ack =>
    -- What is true of the message alone is true with its acknowledgement behind it.
    obtain ⟨last, hlast, hserving, hstream⟩ :=
      acknowledge_serving (c := { c.hear m ch with table := table }) hch ack deadline
    let mid : Connection := { c.hear m ch with table := table, channel := last }
    have htake : c.takeIn deadline = .ok () (mid.note (.sent ack)) := by
      simp only [takeIn, hr, hroute, hlast, mid]
    have hcoming (more : Bytes) :
        (mid.note (.sent ack)).coming more = Message.parse (ch.stream ++ more) := by
      rw [coming, show (mid.note (.sent ack)).channel.stream = ch.stream from hstream]
    have hnoted : Idle (.sent ack) := idle_sent ack
    have htaken := taken_note (c := mid) (hnoted id).1
    rw [(hnoted id).2.2, List.append_nil] at htaken
    exact ⟨_, htake, rfl, hserving, hcoming, htaken.trans (taken_hear id m ch c), rfl⟩

/-- No byte is lost or made up, and an acknowledgement is one that is waited for. -/
theorem takeIn_serving {id peer : UInt32} {later : Bytes} {c : Connection}
    (h : c.Serving id peer later) (hasked : c.awaited id = 1 ∨ c.okays id [] = 0)
    (deadline : Deadline) :
    ∃ after, c.takeIn deadline = .ok () after ∧ after.Serving id peer later ∧
      Advance id [] 0 c after ∧ after.awaited id ≤ c.awaited id := by
  obtain ⟨s, hs, hsound⟩ := h.sound
  have hin := receive_serving h deadline
  cases hr : c.channel.receive deadline with
  | error e ch =>
    rw [hr] at hin
    obtain ⟨hch, htimeout, hcoming⟩ := hin
    have htake : c.takeIn deadline = .ok () { c with channel := ch } := by
      simp only [takeIn, hr, htimeout, if_true]
    have hheard (more : Bytes) :
        c.coming more = [] ++ Connection.coming more { c with channel := ch } := hcoming more
    exact ⟨_, htake, serving_heard h hs hs hsound hheard (List.append_nil _).symm (Nat.zero_add _)
      hch rfl rfl (takeIn_ok htake).2.2.1⟩
  | ok m ch =>
    rw [hr] at hin
    obtain ⟨hch, hserves, hcoming⟩ := hin
    have hasked' : s.awaiting = true ∨ Message.isOkayFor id (.ok m) = false := by
      rcases hasked with hone | hnone
      · rw [awaited, hs] at hone
        exact .inl (Bool.toNat_eq_one.mp hone)
      · rw [okays, hcoming, List.countP_cons] at hnone
        refine .inr (Bool.eq_false_iff.mpr (fun hokay => ?_))
        rw [if_pos hokay] at hnone
        omega
    obtain ⟨table, ack, s', hroute, hs', hsound', hbuffer, hcount⟩ :=
      route_serving hs hsound hserves hasked'
    have hdata : s'.buffer = s.buffer ++ [.ok m].flatMap (Message.dataFor id) := by
      rw [hbuffer, List.flatMap_singleton]
    have hokays : [.ok m].countP (Message.isOkayFor id) + s'.awaiting.toNat =
        s.awaiting.toNat := by
      rw [← hcount, List.countP_singleton]
      cases Message.isOkayFor id (.ok m) <;> rfl
    obtain ⟨after, htake, htable, hserving, hleft, htaken, hinfo⟩ :=
      takeIn_routed hr hch hroute id
    have hheard (more : Bytes) : c.coming more = [.ok m] ++ after.coming more := by
      rw [hcoming, hleft]
      rfl
    rw [← htable] at hs'
    exact ⟨after, htake, serving_heard h hs hs' hsound' hheard hdata hokays hserving htaken hinfo
      (takeIn_ok htake).2.2.1⟩

/-- Nothing is awaited on the stream, and no acknowledgement is to come for it. -/
def Quiet (id : UInt32) (c : Connection) : Prop := c.awaited id = 0 ∧ c.okays id [] = 0

theorem Quiet.advance {id : UInt32} {got : Bytes} {c after : Connection} (h : c.Quiet id)
    (ha : Advance id got 0 c after) (hidle : after.awaited id ≤ c.awaited id) :
    after.Quiet id := by
  obtain ⟨hnone, hokays⟩ := h
  have hcount := ha.okays []
  exact ⟨by omega, by omega⟩

theorem inspect_sound {id peer : UInt32} {c : Connection} {s : StreamState}
    (hs : c.table.find? id = some s) (hsound : s.Sound peer) (look : StreamState → Look α) :
    c.inspect id look = match look s with
      | .ready result s' => some (.ok result (c.setStream id s'))
      | .failed e => some (.error e c)
      | .notYet => none := by
  cases hlook : look s with
  | ready result s' => simp only [inspect, hs, hsound.2.2, hlook]
  | failed e => simp only [inspect, hs, hsound.2.2, hlook]
  | notYet => simp only [inspect, hs, hsound.2.2, hlook]

theorem look_of_inspect {id peer : UInt32} {look : StreamState → Look α} {c : Connection}
    {s : StreamState} (hl : ∀ s e, s.Sound peer → look s ≠ .failed e)
    (hs : c.table.find? id = some s) (hsound : s.Sound peer) (h : c.inspect id look = none) :
    look s = .notYet := by
  rw [inspect_sound hs hsound] at h
  cases hlook : look s with
  | ready a s' =>
    rw [hlook] at h
    cases h
  | failed e => exact absurd hlook (hl s e hsound)
  | notYet => rfl

theorem welcome_of_inspect {id peer : UInt32} {later : Bytes} {look : StreamState → Look α}
    (hl : ∀ s e, s.Sound peer → look s ≠ .failed e) {c : Connection} (h : c.Serving id peer later)
    (hasked : c.Quiet id ∨ ∀ s, s.Sound peer → look s = .notYet → s.awaiting = true)
    (hnothing : c.inspect id look = none) : c.awaited id = 1 ∨ c.okays id [] = 0 := by
  rcases hasked with hquiet | hwaits
  · exact .inr hquiet.2
  · obtain ⟨s, hs, hsound⟩ := h.sound
    have hone := hwaits s hsound (look_of_inspect hl hs hsound hnothing)
    refine .inl ?_
    rw [awaited, hs, Option.map_some, hone]
    rfl

/-- A wait ends with what it waits for, or out of time. Till then something is awaited, or no
acknowledgement is to come. -/
theorem waitFor_serving {id peer : UInt32} {later : Bytes} {look : StreamState → Look α}
    (hl : ∀ s e, s.Sound peer → look s ≠ .failed e) {c : Connection}
    (h : c.Serving id peer later)
    (hasked : c.Quiet id ∨ ∀ s, s.Sound peer → look s = .notYet → s.awaiting = true)
    (deadline : Deadline) (awaited : Awaited) :
    ∃ mid s, mid.Serving id peer later ∧ Advance id [] 0 c mid ∧
      mid.awaited id ≤ c.awaited id ∧ mid.table.find? id = some s ∧ s.Sound peer ∧
      ((∃ a s', look s = .ready a s' ∧
          c.waitFor id deadline awaited look = .ok a (mid.setStream id s')) ∨
        look s = .notYet ∧ deadline.hasExpired mid.now = true ∧
          c.waitFor id deadline awaited look = .error (.timeout deadline.budget awaited) mid) := by
  fun_induction waitFor id deadline awaited look c with
  | case1 c said hsaid =>
    obtain ⟨s, hs, hsound⟩ := h.sound
    rw [inspect_sound hs hsound] at hsaid
    refine ⟨c, s, h, .refl id c, Nat.le_refl _, hs, hsound, .inl ?_⟩
    cases hlook : look s with
    | ready a s' =>
      rw [hlook] at hsaid
      exact ⟨a, s', rfl, (Option.some.inj hsaid).symm⟩
    | failed e => exact absurd hlook (hl s e hsound)
    | notYet =>
      rw [hlook] at hsaid
      cases hsaid
  | case2 c hsaid he =>
    obtain ⟨s, hs, hsound⟩ := h.sound
    exact ⟨c, s, h, .refl id c, Nat.le_refl _, hs, hsound,
      .inr ⟨look_of_inspect hl hs hsound hsaid, he, rfl⟩⟩
  | case3 c hsaid he u mid ht ih =>
    obtain ⟨after, htake, hserving, hadvance, hidle⟩ :=
      takeIn_serving h (welcome_of_inspect hl h hasked hsaid) deadline
    rw [ht] at htake
    cases htake
    obtain ⟨last, s', hlast, hmore, hidle', hend⟩ :=
      ih hserving (hasked.imp_left (fun hq => hq.advance hadvance hidle))
    exact ⟨last, s', hlast, hadvance.trans hmore, Nat.le_trans hidle' hidle, hend⟩
  | case4 c hsaid he e mid ht =>
    obtain ⟨after, htake, _⟩ :=
      takeIn_serving h (welcome_of_inspect hl h hasked hsaid) deadline
    rw [ht] at htake
    cases htake

theorem advance_taken {id : UInt32} {length : Nat} {c : Connection} {s s' : StreamState}
    {bytes : Bytes} (hs : c.table.find? id = some s)
    (hready : s.supplying id length = .ready bytes s') :
    let after := (c.setStream id s').note (.taken id bytes)
    after.table.find? id = some s' ∧ after.awaited id = c.awaited id ∧ Advance id bytes 0 c after := by
  intro after
  obtain ⟨hbuffer, hstate, _, _⟩ := StreamState.supplying_ready hready
  have hfound : after.table.find? id = some s' := by
    change (c.table.set id s').find? id = some s'
    rw [StreamTable.find?_set, if_pos rfl, hs, Option.map_some]
  have hawait : s'.awaiting = s.awaiting := by rw [hstate]
  have hsame : after.awaited id = c.awaited id := by
    rw [awaited, awaited, hfound, hs, Option.map_some, Option.map_some, hawait]
  refine ⟨hfound, hsame, ?_⟩
  constructor
  · intro later
    simp only [toRead, unread, hfound, hs, Option.map_some, Option.getD_some, hbuffer,
      List.append_assoc]
    rfl
  · intro later
    rw [hsame]
    rfl
  · have hnew : Occurrence.taken id bytes ≠ .entered id := by rintro ⟨⟩
    have htaken := taken_note (c := c.setStream id s') hnew
    rw [Occurrence.takenFrom, if_pos rfl] at htaken
    exact htaken
  · rfl
  · exact Nat.le_refl _

theorem readBy_serving {id peer : UInt32} {later : Bytes} {c : Connection}
    (h : c.Serving id peer later) (hquiet : c.Quiet id) {length : Nat} (hlength : length ≠ 0)
    (deadline : Deadline) :
    match c.readBy id length deadline with
    | .ok bytes after => after.Serving id peer later ∧ after.Quiet id ∧
        Advance id bytes 0 c after ∧ bytes.length = length
    | .error e after => after.Serving id peer later ∧ after.Quiet id ∧ Advance id [] 0 c after ∧
        (after.unread id).length < length ∧ deadline.hasExpired after.now = true ∧
        e = .timeout deadline.budget (.data id) := by
  have hl (s : StreamState) (e : BridgeError) (hsound : s.Sound peer) :
      s.supplying id length ≠ .failed e := by
    unfold StreamState.supplying
    rw [hsound.1]
    split
    · rintro ⟨⟩
    · rintro ⟨⟩
  obtain ⟨mid, s, hmid, hadvance, hidle, hs, hsound, hend⟩ :=
    waitFor_serving hl h (.inl hquiet) deadline (.data id)
  have hrest := hquiet.advance hadvance hidle
  unfold readBy
  obtain ⟨bytes, s', hready, hwait⟩ | ⟨hnot, hlate, hwait⟩ := hend
  · rw [hwait]
    obtain ⟨_, hstate, _, hlen⟩ := StreamState.supplying_ready hready
    obtain ⟨hfound, hsame, htake⟩ := advance_taken hs hready
    have hsound' : s'.Sound peer := by
      rw [hstate]
      exact hsound
    exact ⟨⟨hmid.channel, hmid.told, s', hfound, hsound'⟩, ⟨hsame.trans hrest.1, hrest.2⟩,
      hadvance.trans htake, hlen hlength⟩
  · rw [hwait]
    refine ⟨hmid, hrest, hadvance, ?_, hlate, rfl⟩
    rw [unread, hs]
    unfold StreamState.supplying at hnot
    split at hnot
    · cases hnot
    · next hshort =>
      rw [Option.map_some, Option.getD_some]
      omega

theorem sendPiece_serving {id peer : UInt32} {later : Bytes} {c : Connection}
    (h : c.Serving id peer later) (hidle : c.awaited id = 0) (deadline : Deadline)
    (piece : Bytes) :
    ∃ sent, c.sendPiece id deadline piece = .ok () sent ∧ sent.Serving id peer later ∧
      Advance id [] 1 c sent := by
  obtain ⟨s, hs, hsound⟩ := h.sound
  have hready : s.writable id = .ok peer := by
    rw [awaited, hs, Option.map_some, Option.getD_some, Bool.toNat_eq_zero] at hidle
    exact StreamState.writable_iff.mpr ⟨hsound, hidle⟩
  obtain ⟨ch, hsend, hch, hstream⟩ := send_serving h.channel ⟨.write, id, peer, piece⟩ deadline
  let sent : Connection :=
    ({ c with channel := ch }.note (.sent ⟨.write, id, peer, piece⟩)).setStream id
      { s with awaiting := true }
  have hpiece : c.sendPiece id deadline piece = .ok () sent := by
    simp only [sendPiece, hs, hready, hsend, sent]
  have hfound : sent.table.find? id = some { s with awaiting := true } := by
    change (c.table.set id _).find? id = _
    rw [StreamTable.find?_set, if_pos rfl, hs, Option.map_some]
  have hcoming (more : Bytes) : sent.coming more = c.coming more := by
    rw [coming, coming, show sent.channel.stream = c.channel.stream from hstream]
  refine ⟨sent, hpiece, ⟨hch, ?_, _, hfound, hsound⟩, ?_⟩
  · rw [hcoming]
    exact h.told
  constructor
  · intro more
    simp only [toRead, unread, hfound, hs, hcoming, Option.map_some, Option.getD_some,
      List.nil_append]
  · intro more
    have hone : sent.awaited id = 1 := by
      rw [awaited, hfound]
      rfl
    rw [okays, hcoming, hidle, hone, okays]
  · have hnoted := idle_sent ⟨.write, id, peer, piece⟩
    have htaken := taken_note (c := { c with channel := ch }) (hnoted id).1
    rw [(hnoted id).2.2] at htaken
    exact htaken
  · rfl
  · have hw := (c.send_weight ⟨.write, id, peer, piece⟩ deadline).2.2
    rw [hsend] at hw
    exact hw

theorem writePiece_serving {id peer : UInt32} {later : Bytes} {c : Connection}
    (h : c.Serving id peer later) (hidle : c.awaited id = 0) (deadline : Deadline)
    (piece : Bytes) :
    match c.writePiece id deadline piece with
    | .ok _ after => after.Serving id peer later ∧ after.awaited id = 0 ∧
        Advance id [] 1 c after
    | .error e after => after.Serving id peer later ∧ after.awaited id = 1 ∧
        Advance id [] 1 c after ∧ deadline.hasExpired after.now = true ∧
        e = .timeout deadline.budget (.okay id) := by
  obtain ⟨sent, hpiece, hserving, hadvance⟩ := sendPiece_serving h hidle deadline piece
  have hl (t : StreamState) (e : BridgeError) (ht : t.Sound peer) :
      t.acknowledging id ≠ .failed e := by
    rw [StreamState.acknowledging_sound ht]
    split
    · rintro ⟨⟩
    · rintro ⟨⟩
  have hwelcome (t : StreamState) (ht : t.Sound peer) (hnot : t.acknowledging id = .notYet) :
      t.awaiting = true := by
    rw [StreamState.acknowledging_sound ht] at hnot
    split at hnot
    · next ha => exact ha
    · cases hnot
  obtain ⟨mid, t, hmid, hmore, _, ht, htsound, hend⟩ :=
    waitFor_serving hl hserving (.inr hwelcome) deadline (.okay id)
  have hboth := hadvance.trans hmore
  rw [writePiece, hpiece]
  dsimp only
  obtain ⟨u, t', hlook, hwait⟩ | ⟨hnot, hlate, hwait⟩ := hend
  · rw [hwait]
    have hsame := StreamState.eq_of_acknowledging hlook
    rw [hsame, setStream, StreamTable.set_eq_self ht]
    refine ⟨hmid, ?_, hboth⟩
    rw [awaited, ht, Option.map_some]
    rw [StreamState.acknowledging_sound htsound] at hlook
    split at hlook
    · cases hlook
    · next ha =>
      rw [Bool.not_eq_true] at ha
      rw [ha]
      rfl
  · rw [hwait]
    refine ⟨hmid, ?_, hboth, hlate, rfl⟩
    rw [awaited, ht, Option.map_some, hwelcome t htsound hnot]
    rfl

theorem writePieces_serving {id peer : UInt32} {later : Bytes} {c : Connection}
    (h : c.Serving id peer later) (hidle : c.awaited id = 0) (deadline : Deadline)
    (pieces : List Bytes) :
    match c.writePieces id deadline pieces with
    | .ok _ after => after.Serving id peer later ∧ after.awaited id = 0 ∧
        Advance id [] pieces.length c after
    | .error e after => after.Serving id peer later ∧ after.awaited id = 1 ∧
        (∃ n, Advance id [] n c after) ∧ deadline.hasExpired after.now = true ∧
        e = .timeout deadline.budget (.okay id) := by
  induction pieces generalizing c with
  | nil => exact ⟨h, hidle, .refl id c⟩
  | cons piece rest ih =>
    have hp := writePiece_serving h hidle deadline piece
    unfold writePieces
    cases hr : c.writePiece id deadline piece with
    | error e mid =>
      rw [hr] at hp
      exact ⟨hp.1, hp.2.1, ⟨1, hp.2.2.1⟩, hp.2.2.2⟩
    | ok u mid =>
      rw [hr] at hp
      have hrest := ih hp.1 hp.2.1
      dsimp only
      cases hw : mid.writePieces id deadline rest with
      | ok u after =>
        rw [hw] at hrest
        have hboth := hp.2.2.trans hrest.2.2
        rw [Nat.add_comm] at hboth
        exact ⟨hrest.1, hrest.2.1, hboth⟩
      | error e after =>
        rw [hw] at hrest
        obtain ⟨hserving, hone, ⟨n, hn⟩, hlate⟩ := hrest
        exact ⟨hserving, hone, ⟨_, hp.2.2.trans hn⟩, hlate⟩

end Connection
end DroidHost
