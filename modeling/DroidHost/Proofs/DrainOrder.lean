import DroidHost.Proofs.Promptness
import DroidHost.Proofs.Separation
import DroidHost.Proofs.Service

/-! Streams can be read out in any order. Two sums carry the proof: the wire with all
acknowledgements that are still due, and the time when they will be out. -/
namespace DroidHost

namespace Link

/-- What is to come can be read at once. -/
structure Stocked (link : Link) : Prop where
  isOpen : link.isClosed = false
  chunks : ∀ a ∈ link.inbound, ∃ bytes, bytes ≠ [] ∧ a = .chunk bytes

theorem Stocked.steady {link : Link} (h : link.Stocked) : link.Steady := by
  refine ⟨h.isOpen, ?_⟩
  intro a ha
  obtain ⟨bytes, hne, rfl⟩ := h.chunks a ha
  cases bytes with
  | nil => exact absurd rfl hne
  | cons b bs => rfl

theorem Stocked.read {link : Link} (h : link.Stocked) (hmore : link.coming ≠ [])
    (wanted budget : Nat) :
    ∃ got after, link.read wanted budget = .ok got after ∧ after.Stocked ∧
      after.now = link.now := by
  cases hqueue : link.inbound with
  | nil =>
    rw [coming, hqueue] at hmore
    exact absurd rfl hmore
  | cons a rest =>
    have hchunks := h.chunks
    rw [hqueue] at hchunks
    obtain ⟨⟨bytes, hne, rfl⟩, hrest⟩ := List.forall_mem_cons.mp hchunks
    unfold Link.read
    rw [if_neg (by rw [h.isOpen]; exact Bool.false_ne_true), hqueue]
    unfold Arrival.take
    by_cases hfits : bytes.length ≤ wanted
    · rw [if_pos hfits]
      exact ⟨_, _, rfl, ⟨h.isOpen, hrest⟩, rfl⟩
    · have hleft : bytes.drop wanted ≠ [] := by
        rw [ne_eq, List.drop_eq_nil_iff]
        exact hfits
      rw [if_neg hfits]
      exact ⟨_, _, rfl, ⟨h.isOpen, List.forall_mem_cons.mpr ⟨⟨_, hleft, rfl⟩, hrest⟩⟩, rfl⟩

/-- Nothing was written in between, and no time went by. -/
structure Still (link after : Link) : Prop where
  now : after.now = link.now
  plan : after.plan = link.plan
  wire : after.wire = link.wire

theorem Still.due {link after : Link} (h : Still link after) (count : Nat) :
    after.due count = link.due count := by rw [Link.due, h.plan, Link.due]

theorem Still.trans {link mid after : Link} (h : Still link mid) (h' : Still mid after) :
    Still link after where
  now := h'.now.trans h.now
  plan := h'.plan.trans h.plan
  wire := h'.wire.trans h.wire

end Link

namespace Channel

theorem fill_stocked (target : Nat) (deadline : Deadline) {ch : Channel} (h : ch.link.Stocked)
    (henough : target ≤ ch.stream.length) :
    ∃ after, ch.fill target deadline = .ok () after ∧ after.link.Stocked ∧ after.now = ch.now := by
  have hread {ch : Channel} (h : ch.link.Stocked) (hlt : ¬ target ≤ ch.fragment.length)
      (henough : target ≤ ch.stream.length) :
      ∃ got after, ch.link.read (target - ch.fragment.length) (ch.allowance deadline) =
        .ok got after ∧ after.Stocked ∧ after.now = ch.now := by
    apply h.read
    intro hnone
    rw [stream, hnone, List.append_nil] at henough
    exact hlt henough
  fun_induction fill target deadline ch with
  | case1 ch hle => exact ⟨ch, rfl, h, rfl⟩
  | case2 ch hlt f link hr =>
    obtain ⟨got, after, hok, _⟩ := hread h hlt henough
    cases hr.symm.trans hok
  | case3 ch hlt link hr =>
    have hsome := h.steady.read (Nat.sub_pos_of_lt (Nat.lt_of_not_le hlt)) (ch.allowance deadline)
    rw [hr] at hsome
    exact absurd rfl hsome.2.1
  | case4 ch hlt b got link hr ih =>
    obtain ⟨bytes, after, hok, hstocked, hnow⟩ := hread h hlt henough
    cases hr.symm.trans hok
    have hsome := h.steady.read (Nat.sub_pos_of_lt (Nat.lt_of_not_le hlt)) (ch.allowance deadline)
    rw [hr] at hsome
    have hstream : stream { link := link, fragment := ch.fragment ++ b :: got } = ch.stream := by
      rw [stream, stream, hsome.2.2.2, List.append_assoc]
    rw [← hstream] at henough
    obtain ⟨last, hfill, hlast, hsame⟩ := ih hstocked henough
    exact ⟨last, hfill, hlast, hsame.trans hnow⟩

theorem fill_exact {ch : Channel} (h : ch.link.Stocked) {front back : Bytes}
    (hstream : ch.stream = front ++ back) (hle : ch.fragment.length ≤ front.length)
    (deadline : Deadline) :
    ∃ link, ch.fill front.length deadline = .ok () ⟨link, front⟩ ∧ link.Stocked ∧
      link.coming = back ∧ ch.link.Still link := by
  have henough : front.length ≤ ch.stream.length := by
    rw [hstream, List.length_append]
    omega
  obtain ⟨after, hfill, hstocked, hnow⟩ := fill_stocked front.length deadline h henough
  have hsteady := fill_steady front.length deadline h.steady hle
  have hplan := plan_fill front.length deadline ch
  have hwire := wire_fill front.length deadline ch
  rw [hfill] at hsteady hplan hwire
  obtain ⟨_, hsame, _, hlength⟩ := hsteady
  have hsplit : after.fragment ++ after.link.coming = front ++ back := hsame.trans hstream
  obtain ⟨hfront, hback⟩ := List.append_inj hsplit hlength
  refine ⟨after.link, ?_, hstocked, hback, hnow, hplan, hwire⟩
  rw [hfill, ← hfront]

theorem receive_stocked {ch : Channel} (h : ch.link.Stocked) (hnone : ch.fragment = [])
    {m : Message} {back : Bytes} (hcoming : ch.link.coming = m.encode ++ back)
    (hfits : m.payload.length < UInt32.size) (deadline : Deadline) :
    ∃ link, ch.receive deadline = .ok m ⟨link, []⟩ ∧ link.Stocked ∧ link.coming = back ∧
      ch.link.Still link := by
  have hstream : ch.stream = m.header ++ (m.payload ++ back) := by
    rw [stream, hnone, hcoming, Message.encode, List.nil_append, List.append_assoc]
  have hlength : m.heading.length.toNat = m.payload.length := UInt32.toNat_ofNat_of_lt' hfits
  have hwhole : m.encode.length = Header.size + m.heading.length.toNat := by
    rw [Message.encode, List.length_append, m.length_header, hlength]
  obtain ⟨link, hheader, hstocked, hback, hstill⟩ :=
    fill_exact h hstream (by rw [hnone]; exact Nat.zero_le _) deadline
  let half : Channel := ⟨link, m.header⟩
  have hhalf : half.stream = m.encode ++ back := by
    change m.header ++ link.coming = _
    rw [hback, Message.encode, List.append_assoc]
  have hshort : half.fragment.length ≤ m.encode.length := by
    rw [Message.encode, List.length_append]
    exact Nat.le_add_right _ _
  obtain ⟨last, hpayload, hlast, hrest, hstill'⟩ := fill_exact hstocked hhalf hshort deadline
  have hdecode : Header.decode (m.header.take Header.size) = .ok m.heading :=
    Header.decode_encode m.heading
  have hfinish : m.heading.finish (m.encode.drop Header.size) = .ok m := by
    rw [m.drop_encode]
    exact Message.finish_eq_ok.mpr ⟨rfl, rfl, hfits⟩
  refine ⟨last, ?_, hlast, hrest, hstill.trans hstill'⟩
  rw [m.length_header] at hheader
  rw [hwhole] at hpayload
  rw [receive, gather, hheader]
  simp only [hdecode, half] at hpayload ⊢
  simp only [hpayload, hfinish, restart]

theorem put_taken {ch : Channel} (hopen : ch.link.isClosed = false)
    (htaken : ∀ d ∈ ch.link.plan, d.isTaken = true) (bytes : Bytes) (budget : Nat) :
    ∃ link, ch.put bytes budget = .ok () { ch with link := link } ∧
      link.inbound = ch.link.inbound ∧ link.isClosed = false ∧
      (∀ d ∈ link.plan, d.isTaken = true) ∧ link.wire = ch.link.wire ++ bytes ∧
      ∀ count, link.now + link.due count = ch.link.now + ch.link.due (count + 1) := by
  have hwire := ch.wire_put bytes budget
  have hpaid := put_paid hopen bytes budget
  unfold put Link.write at hwire hpaid ⊢
  rw [if_neg (by rw [hopen]; exact Bool.false_ne_true)] at hwire hpaid ⊢
  cases hp : ch.link.plan with
  | nil =>
    rw [hp] at hwire hpaid
    exact ⟨_, rfl, hpaid.inbound, hpaid.isOpen, htaken, hwire, hpaid.time⟩
  | cons d rest =>
    rw [hp] at htaken hwire hpaid
    obtain ⟨hd, hrest⟩ := List.forall_mem_cons.mp htaken
    cases d with
    | taken nanos => exact ⟨_, rfl, hpaid.inbound, hpaid.isOpen, hrest, hwire, hpaid.time⟩
    | refused f => cases hd

end Channel

namespace Message

def own (id : UInt32) (queue : List Message) : List Message := queue.filter (·.arg1 = id)

inductive Closing : List Message → Prop
  | last {m : Message} (h : m.command = .close) : Closing [m]
  | more {m : Message} {rest : List Message} (h : m.command = .write) (hrest : Closing rest) :
    Closing (m :: rest)

def dataTo (id : UInt32) (queue : List Message) : Bytes :=
  ((own id queue).filter (·.command = .write)).flatMap (·.payload)

def acks (peers : UInt32 → UInt32) (queue : List Message) : List Message :=
  (queue.filter (·.command = .write)).map fun m => ⟨.okay, m.arg1, peers m.arg1, []⟩

variable {m : Message} {queue : List Message} {id : UInt32}

theorem own_cons_same (h : m.arg1 = id) : own id (m :: queue) = m :: own id queue :=
  List.filter_cons_of_pos (decide_eq_true h)

theorem own_cons_other (h : m.arg1 ≠ id) : own id (m :: queue) = own id queue :=
  List.filter_cons_of_neg (by rw [decide_eq_true_eq]; exact h)

theorem dataTo_cons_other (h : m.arg1 ≠ id) : dataTo id (m :: queue) = dataTo id queue := by
  rw [dataTo, own_cons_other h, dataTo]

theorem filter_write (hw : m.command = .write) (rest : List Message) :
    (m :: rest).filter (·.command = .write) = m :: rest.filter (·.command = .write) :=
  List.filter_cons_of_pos (decide_eq_true hw)

theorem filter_close (hc : m.command = .close) (rest : List Message) :
    (m :: rest).filter (·.command = .write) = rest.filter (·.command = .write) :=
  List.filter_cons_of_neg (by rw [hc]; decide)

theorem dataTo_cons_write (h : m.arg1 = id) (hw : m.command = .write) :
    dataTo id (m :: queue) = m.payload ++ dataTo id queue := by
  rw [dataTo, own_cons_same h, filter_write hw, List.flatMap_cons, dataTo]

theorem dataTo_cons_close (h : m.arg1 = id) (hc : m.command = .close) :
    dataTo id (m :: queue) = dataTo id queue := by
  rw [dataTo, own_cons_same h, filter_close hc, dataTo]

theorem dataTo_of_own_nil (h : own id queue = []) : dataTo id queue = [] := by
  rw [dataTo, h]
  rfl

theorem acks_cons_write (peers : UInt32 → UInt32) (hw : m.command = .write) :
    acks peers (m :: queue) = ⟨.okay, m.arg1, peers m.arg1, []⟩ :: acks peers queue := by
  rw [acks, filter_write hw, List.map_cons, acks]

theorem acks_cons_close (peers : UInt32 → UInt32) (hc : m.command = .close) :
    acks peers (m :: queue) = acks peers queue := by
  rw [acks, filter_close hc, acks]

end Message

namespace Connection
open Message

/-- To each stream that is still open the queue holds what the device has to say up to the end, and
to one that is closed nothing. -/
structure Draining (peers : UInt32 → UInt32) (ids : List UInt32) (queue : List Message)
    (c : Connection) : Prop where
  stocked : c.channel.link.Stocked
  whole : c.channel.fragment = []
  coming : c.channel.link.coming = queue.flatMap Message.encode
  taken : ∀ d ∈ c.channel.link.plan, d.isTaken = true
  told : ∀ m ∈ queue, m.arg1 ∈ ids ∧ m.payload.length < UInt32.size
  streams : ∀ id ∈ ids, ∃ s, c.table.find? id = some s ∧
    (s.Sound (peers id) ∧ Closing (own id queue) ∨
      s.phase = .closed ∧ s.fault = none ∧ own id queue = [])

/-- The wire once all that is in the queue has been acknowledged. -/
def wireDue (peers : UInt32 → UInt32) (queue : List Message) (c : Connection) : Bytes :=
  c.wire ++ (acks peers queue).flatMap Message.encode

/-- The time by then. -/
def timeDue (peers : UInt32 → UInt32) (queue : List Message) (c : Connection) : Nat :=
  c.now + c.channel.link.due (acks peers queue).length

/-- The buffer of a stream, and what the queue holds for it. -/
def leftFor (id : UInt32) (queue : List Message) (c : Connection) : Bytes :=
  c.unread id ++ dataTo id queue

variable {peers : UInt32 → UInt32} {ids : List UInt32} {queue : List Message} {c : Connection}

theorem unread_of_find? {id : UInt32} {s : StreamState} (h : c.table.find? id = some s) :
    c.unread id = s.buffer := by
  rw [unread, h, Option.map_some, Option.getD_some]

theorem Draining.first {m : Message} (h : Draining peers ids (m :: queue) c) :
    ∃ s, c.table.find? m.arg1 = some s ∧ s.Sound (peers m.arg1) ∧
      (m.command = .close ∧ own m.arg1 queue = [] ∨
        m.command = .write ∧ Closing (own m.arg1 queue)) := by
  obtain ⟨hid, _⟩ := h.told m (List.mem_cons_self ..)
  obtain ⟨s, hs, hstate⟩ := h.streams m.arg1 hid
  rw [own_cons_same rfl] at hstate
  rcases hstate with ⟨hsound, hclosing⟩ | ⟨_, _, hnone⟩
  · refine ⟨s, hs, hsound, ?_⟩
    generalize hrest : own m.arg1 queue = rest at hclosing
    cases hclosing with
    | last hc => exact .inl ⟨hc, rfl⟩
    | more hw hclosing => exact .inr ⟨hw, hclosing⟩
  · cases hnone

theorem Draining.next {m : Message} (h : Draining peers ids (m :: queue) c) {s s' : StreamState}
    (hs : c.table.find? m.arg1 = some s) {after : Connection}
    (htable : after.table = c.table.set m.arg1 s')
    (hstate : s'.Sound (peers m.arg1) ∧ Closing (own m.arg1 queue) ∨
      s'.phase = .closed ∧ s'.fault = none ∧ own m.arg1 queue = [])
    (hbuffer : s'.buffer ++ dataTo m.arg1 queue = s.buffer ++ dataTo m.arg1 (m :: queue))
    (hstocked : after.channel.link.Stocked) (hwhole : after.channel.fragment = [])
    (hcoming : after.channel.link.coming = queue.flatMap Message.encode)
    (htaken : ∀ d ∈ after.channel.link.plan, d.isTaken = true) :
    Draining peers ids queue after ∧
      ∀ id, after.leftFor id queue = c.leftFor id (m :: queue) := by
  have hfind (id : UInt32) : after.table.find? id =
      if id = m.arg1 then some s' else c.table.find? id := by
    rw [htable, StreamTable.find?_set, hs, Option.map_some]
  refine ⟨⟨hstocked, hwhole, hcoming, htaken, ?_, ?_⟩, ?_⟩
  · intro m' hm'
    exact h.told m' (List.mem_cons_of_mem m hm')
  · intro id hid
    by_cases heq : id = m.arg1
    · subst heq
      exact ⟨s', (hfind _).trans (if_pos rfl), hstate⟩
    · obtain ⟨t, ht, hother⟩ := h.streams id hid
      rw [own_cons_other (Ne.symm heq)] at hother
      exact ⟨t, (hfind id).trans ((if_neg heq).trans ht), hother⟩
  · intro id
    by_cases heq : id = m.arg1
    · subst heq
      have hs' : after.table.find? m.arg1 = some s' := (hfind _).trans (if_pos rfl)
      rw [leftFor, leftFor, unread_of_find? hs', unread_of_find? hs, hbuffer]
    · have hsame : after.unread id = c.unread id := by
        rw [unread, unread, hfind, if_neg heq]
      rw [leftFor, leftFor, hsame, dataTo_cons_other (Ne.symm heq)]

theorem send_short {m : Message} (hm : m.payload = []) {deadline : Deadline} {ch : Channel}
    (hput : c.channel.put m.header (deadline.remaining c.channel.now) = .ok () ch) :
    c.send m deadline = .ok () ({ c with channel := ch }.note (.sent m)) := by
  have hempty : m.payload.isEmpty = true := List.isEmpty_iff.mpr hm
  rw [send, Channel.sendHeader, hput]
  dsimp only
  rw [Channel.sendPayload, if_pos hempty]

/-- The first message is taken in and acknowledged if it brings data, and neither of the two sums
changes. -/
theorem takeIn_draining {m : Message} (h : Draining peers ids (m :: queue) c)
    (deadline : Deadline) :
    ∃ after, c.takeIn deadline = .ok () after ∧ Draining peers ids queue after ∧
      after.wireDue peers queue = c.wireDue peers (m :: queue) ∧
      after.timeDue peers queue = c.timeDue peers (m :: queue) ∧
      ∀ id, after.leftFor id queue = c.leftFor id (m :: queue) := by
  obtain ⟨_, hfits⟩ := h.told m (List.mem_cons_self ..)
  obtain ⟨link, hr, hstocked, hback, hstill⟩ :=
    Channel.receive_stocked h.stocked h.whole h.coming hfits deadline
  obtain ⟨s, hs, hsound, hmessage⟩ := h.first
  have htaken : ∀ d ∈ link.plan, d.isTaken = true := by
    rw [hstill.plan]
    exact h.taken
  rcases hmessage with ⟨hc, hnone⟩ | ⟨hw, hclosing⟩
  · have hroute : c.table.route m = .ok (c.table.set m.arg1 (s.closedBy m.arg0), none) := by
      rw [StreamTable.route, if_pos (.inr (.inl hc)), hs]
      simp only [StreamState.apply, hc]
    let after : Connection :=
      { c.hear m ⟨link, []⟩ with table := c.table.set m.arg1 (s.closedBy m.arg0) }
    have hin : c.takeIn deadline = .ok () after := by
      rw [takeIn, hr]
      simp only [hroute, after]
    have hbuffer : (s.closedBy m.arg0).buffer ++ dataTo m.arg1 queue =
        s.buffer ++ dataTo m.arg1 (m :: queue) := by
      rw [dataTo_cons_close rfl hc]
      rfl
    have htable : after.table = c.table.set m.arg1 (s.closedBy m.arg0) := rfl
    obtain ⟨hnext, hleft⟩ := h.next hs htable (.inr ⟨rfl, hsound.2.2, hnone⟩) hbuffer hstocked rfl
      hback htaken
    refine ⟨after, hin, hnext, ?_, ?_, hleft⟩
    · rw [wireDue, wireDue, acks_cons_close peers hc]
      exact congrArg (· ++ _) hstill.wire
    · rw [timeDue, timeDue, acks_cons_close peers hc]
      exact congrArg₂ (· + ·) hstill.now (hstill.due _)
  · let ack : Message := ⟨.okay, m.arg1, peers m.arg1, []⟩
    let s' : StreamState := { s with buffer := s.buffer ++ m.payload }
    have hroute : c.table.route m = .ok (c.table.set m.arg1 s', some ack) := by
      rw [StreamTable.route, if_pos (.inr (.inr hw)), hs]
      simp only [StreamState.apply, hw, StreamState.supplied_sound hsound, s', ack]
    let routed : Connection := { c.hear m ⟨link, []⟩ with table := c.table.set m.arg1 s' }
    let within := routed.deadline (deadline.remainingOrFloor Deadline.transferFloor routed.now)
    obtain ⟨out, hput, hinbound, hopen, hplan, hwire, htime⟩ := Channel.put_taken
      (show routed.channel.link.isClosed = false from hstocked.isOpen) htaken ack.header
      (within.remaining routed.channel.now)
    let after : Connection := { routed with channel := ⟨out, []⟩ }.note (.sent ack)
    have hsend : routed.send ack within = .ok () after := send_short rfl hput
    have hin : c.takeIn deadline = .ok () after := by
      rw [takeIn, hr]
      simp only [hroute]
      rw [acknowledge, hsend]
    have hbuffer : s'.buffer ++ dataTo m.arg1 queue = s.buffer ++ dataTo m.arg1 (m :: queue) := by
      rw [dataTo_cons_write rfl hw, List.append_assoc]
    have hchunks : ∀ a ∈ out.inbound, ∃ bytes, bytes ≠ [] ∧ a = .chunk bytes := by
      rw [hinbound]
      exact hstocked.chunks
    have hcoming : out.coming = queue.flatMap Message.encode := by
      rw [Link.coming, hinbound]
      exact hback
    have htable : after.table = c.table.set m.arg1 s' := rfl
    obtain ⟨hnext, hleft⟩ := h.next hs htable (.inl ⟨hsound, hclosing⟩) hbuffer ⟨hopen, hchunks⟩ rfl
      hcoming hplan
    refine ⟨after, hin, hnext, ?_, ?_, hleft⟩
    · have hencode : ack.encode = ack.header := List.append_nil _
      calc after.wireDue peers queue
          = out.wire ++ (acks peers queue).flatMap Message.encode := rfl
        _ = c.wire ++ ack.encode ++ (acks peers queue).flatMap Message.encode := by
          rw [hwire, hencode]
          exact congrArg (· ++ ack.header ++ _) hstill.wire
        _ = c.wireDue peers (m :: queue) := by
          rw [wireDue, acks_cons_write peers hw, List.flatMap_cons, List.append_assoc]
    · calc after.timeDue peers queue
          = out.now + out.due (acks peers queue).length := rfl
        _ = link.now + link.due ((acks peers queue).length + 1) := htime _
        _ = c.timeDue peers (m :: queue) := by
          rw [timeDue, acks_cons_write peers hw, List.length_cons, hstill.due]
          exact congrArg (· + _) hstill.now

/-- Part of the queue was taken in; what each stream has still to give is as it was, one perhaps
excepted. -/
structure Onward (peers : UInt32 → UInt32) (ids : List UInt32) (id : UInt32)
    (queue back : List Message) (c after : Connection) : Prop where
  draining : Draining peers ids back after
  rest : back <:+ queue
  wire : after.wireDue peers back = c.wireDue peers queue
  time : after.timeDue peers back = c.timeDue peers queue
  now : c.now ≤ after.now
  others : ∀ k, k ≠ id → after.leftFor k back = c.leftFor k queue

theorem Draining.stay (h : Draining peers ids queue c) (id : UInt32) :
    Onward peers ids id queue queue c c :=
  ⟨h, List.suffix_refl _, rfl, rfl, Nat.le_refl _, fun _ _ => rfl⟩

theorem Onward.trans {id : UInt32} {mid back : List Message} {between after : Connection}
    (h : Onward peers ids id queue mid c between)
    (h' : Onward peers ids id mid back between after) :
    Onward peers ids id queue back c after where
  draining := h'.draining
  rest := h'.rest.trans h.rest
  wire := h'.wire.trans h.wire
  time := h'.time.trans h.time
  now := Nat.le_trans h.now h'.now
  others := fun k hk => (h'.others k hk).trans (h.others k hk)

theorem inspect_supplying {id : UInt32} {s : StreamState} (hs : c.table.find? id = some s)
    (hfault : s.fault = none) :
    c.inspect id (StreamState.supplying id 0) =
      if s.buffer ≠ [] then some (.ok s.buffer (c.setStream id { s with buffer := [] }))
      else if s.phase = .closed then some (.error (.streamClosed id) c)
      else none := by
  rw [inspect, hs]
  simp only [hfault, StreamState.supplying]
  by_cases hempty : s.buffer = []
  · have hshort : ¬ max 0 1 ≤ s.buffer.length := by
      rw [hempty]
      decide
    rw [if_neg hshort, if_neg (not_not_intro hempty)]
    by_cases hclosed : s.phase = .closed
    · rw [if_pos hclosed, if_pos hclosed]
    · rw [if_neg hclosed, if_neg hclosed]
  · have hlong : max 0 1 ≤ s.buffer.length := List.length_pos_iff.mpr hempty
    rw [if_pos hlong, if_pos trivial, if_pos hempty]

theorem Draining.hand (h : Draining peers ids queue c) {id : UInt32} {s : StreamState}
    (hs : c.table.find? id = some s) :
    let after := (c.setStream id { s with buffer := [] }).note (.taken id s.buffer)
    Onward peers ids id queue queue c after ∧
      c.leftFor id queue = s.buffer ++ after.leftFor id queue := by
  intro after
  have hfind (k : UInt32) : after.table.find? k =
      if k = id then some { s with buffer := [] } else c.table.find? k := by
    change (c.table.set id _).find? k = _
    rw [StreamTable.find?_set, hs, Option.map_some]
  have hempty : after.unread id = [] := unread_of_find? ((hfind id).trans (if_pos rfl))
  refine ⟨⟨⟨h.stocked, h.whole, h.coming, h.taken, h.told, ?_⟩, List.suffix_refl _, rfl, rfl,
    Nat.le_refl _, ?_⟩, ?_⟩
  · intro k hk
    obtain ⟨t, ht, hstate⟩ := h.streams k hk
    by_cases heq : k = id
    · subst heq
      cases hs.symm.trans ht
      exact ⟨_, (hfind k).trans (if_pos rfl), hstate⟩
    · exact ⟨t, (hfind k).trans ((if_neg heq).trans ht), hstate⟩
  · intro k hk
    have hsame : after.unread k = c.unread k := by rw [unread, unread, hfind, if_neg hk]
    rw [leftFor, leftFor, hsame]
  · rw [leftFor, leftFor, hempty, unread_of_find? hs, List.nil_append]

/-- A read of all that is there hands something out, or finds the stream closed and nothing left. -/
def Handed (id : UInt32) (queue back : List Message) (c after : Connection)
    (r : EStateM.Result BridgeError Connection Bytes) : Prop :=
  (∃ bytes, r = .ok bytes after ∧ c.leftFor id queue = bytes ++ after.leftFor id back) ∨
  r = .error (.streamClosed id) after ∧ c.leftFor id queue = [] ∧ after.leftFor id back = [] ∧
    own id back = []

theorem Draining.over_or_more (h : Draining peers ids queue c) {id : UInt32} (hid : id ∈ ids)
    (deadline : Deadline) :
    (∃ after, Onward peers ids id queue queue c after ∧
      Handed id queue queue c after (c.readBy id 0 deadline)) ∨
    c.inspect id (StreamState.supplying id 0) = none ∧ queue ≠ [] := by
  obtain ⟨s, hs, hstate⟩ := h.streams id hid
  have hfault : s.fault = none := by
    rcases hstate with ⟨hsound, _⟩ | ⟨_, hfault, _⟩
    · exact hsound.2.2
    · exact hfault
  have hlook := inspect_supplying hs hfault
  by_cases hempty : s.buffer = []
  · rw [if_neg (not_not_intro hempty)] at hlook
    rcases hstate with ⟨hsound, hclosing⟩ | ⟨hclosed, _, hnone⟩
    · refine .inr ⟨?_, ?_⟩
      · rw [hlook, if_neg (by rw [hsound.1]; decide)]
      · rintro rfl
        cases hclosing
    · rw [if_pos hclosed] at hlook
      have hnothing : c.leftFor id queue = [] := by
        rw [leftFor, unread_of_find? hs, hempty, dataTo_of_own_nil hnone]
        rfl
      have hread : c.readBy id 0 deadline = .error (.streamClosed id) c := by
        rw [readBy, waitFor, hlook]
      exact .inl ⟨c, h.stay id, .inr ⟨hread, hnothing, hnothing, hnone⟩⟩
  · rw [if_pos hempty] at hlook
    obtain ⟨honward, hleft⟩ := h.hand hs
    have hread : c.readBy id 0 deadline =
        .ok s.buffer ((c.setStream id { s with buffer := [] }).note (.taken id s.buffer)) := by
      rw [readBy, waitFor, hlook]
    exact .inl ⟨_, honward, .inl ⟨_, hread, hleft⟩⟩

theorem readBy_draining {id : UInt32} (hid : id ∈ ids) {deadline : Deadline}
    (h : Draining peers ids queue c)
    (htime : c.timeDue peers queue < deadline.start + deadline.budget) :
    ∃ back after, Onward peers ids id queue back c after ∧
      Handed id queue back c after (c.readBy id 0 deadline) := by
  -- By the queue: a reader who finds nothing of its own takes the first message in and looks again.
  induction queue generalizing c with
  | nil =>
    rcases h.over_or_more hid deadline with ⟨after, honward, hhanded⟩ | ⟨_, hsome⟩
    · exact ⟨[], after, honward, hhanded⟩
    · exact absurd rfl hsome
  | cons m rest ih =>
    rcases h.over_or_more hid deadline with ⟨after, honward, hhanded⟩ | ⟨hnothing, _⟩
    · exact ⟨_, after, honward, hhanded⟩
    · obtain ⟨mid, hin, hmid, hwire, hsame, hleft⟩ := takeIn_draining h deadline
      have hnow : deadline.hasExpired c.now = false := by
        refine decide_eq_false ?_
        have hle : c.now ≤ c.timeDue peers (m :: rest) := Nat.le_add_right ..
        omega
      have hread : c.readBy id 0 deadline = mid.readBy id 0 deadline := by
        rw [readBy, waitFor_of_takeIn hnothing hnow hin, readBy]
      rw [← hsame] at htime
      obtain ⟨back, after, honward, hhanded⟩ := ih hmid htime
      have hstep : Onward peers ids id (m :: rest) rest c mid :=
        ⟨hmid, List.suffix_cons m rest, hwire, hsame, (takeIn_ok hin).2.2.1, fun k _ => hleft k⟩
      refine ⟨back, after, hstep.trans honward, ?_⟩
      rw [hread, Handed, ← hleft id]
      exact hhanded

theorem collect_draining {id : UInt32} (hid : id ∈ ids) {deadline : Deadline} (got : List Bytes)
    (h : Draining peers ids queue c)
    (htime : c.timeDue peers queue < deadline.start + deadline.budget) :
    ∃ back after, Onward peers ids id queue back c after ∧
      c.collect id deadline got = .ok (got.reverse.flatten ++ c.leftFor id queue) after ∧
      after.leftFor id back = [] ∧ own id back = [] := by
  -- By the rounds of the reading, each of which is a read.
  fun_induction Connection.collect id deadline got c generalizing queue with
  | case1 got c bytes mid hr ih =>
    obtain ⟨back, after, honward, hhanded⟩ := readBy_draining hid h htime
    rcases hhanded with ⟨bytes', hok, hleft⟩ | ⟨herror, _⟩
    · cases hr.symm.trans hok
      rw [← honward.time] at htime
      obtain ⟨last, after', hrest, hcollect, hnone, hown⟩ := ih honward.draining htime
      refine ⟨last, after', honward.trans hrest, ?_, hnone, hown⟩
      rw [hcollect, hleft, List.reverse_cons, List.flatten_append, List.flatten_singleton,
        List.append_assoc]
    · cases hr.symm.trans herror
  | case2 got c k mid hr =>
    obtain ⟨back, after, honward, hhanded⟩ := readBy_draining hid h htime
    rcases hhanded with ⟨bytes', hok, _⟩ | ⟨herror, hleft, hnone, hown⟩
    · cases hr.symm.trans hok
    · cases hr.symm.trans herror
      refine ⟨back, mid, honward, ?_, hnone, hown⟩
      rw [hleft, List.append_nil]
  | case3 got c e mid hother hr =>
    obtain ⟨back, after, honward, hhanded⟩ := readBy_draining hid h htime
    rcases hhanded with ⟨bytes', hok, _⟩ | ⟨herror, _⟩
    · cases hr.symm.trans hok
    · cases hr.symm.trans herror
      exact (hother id rfl).elim

theorem own_of_suffix {id : UInt32} {back : List Message} (hrest : back <:+ queue)
    (h : own id queue = []) : own id back = [] := by
  have hsuffix : own id back <:+ own id queue := hrest.filter _
  rw [h] at hsuffix
  exact List.suffix_nil.mp hsuffix

theorem Draining.queue_nil (h : Draining peers ids queue c)
    (hnone : ∀ id ∈ ids, own id queue = []) : queue = [] := by
  refine List.eq_nil_iff_forall_not_mem.mpr ?_
  intro m hm
  have hmine : m ∈ own m.arg1 queue := List.mem_filter.mpr ⟨hm, decide_eq_true rfl⟩
  rw [hnone m.arg1 (h.told m hm).1] at hmine
  cases hmine

end Connection

namespace Client
open Connection Message

variable {peers : UInt32 → UInt32} {ids : List UInt32}

theorem run_draining {order : List (Nat × Stream)} (budgets : Nat → Nat) {client : Client}
    {queue : List Message} (h : client.connection.Draining peers ids queue)
    (hheld : ∀ p ∈ order, client.handles[p.1]? = some (some p.2))
    (hids : ∀ p ∈ order, p.2.localId ∈ ids) (hdistinct : (order.map (·.2.localId)).Nodup)
    (htime : ∀ p ∈ order, client.connection.timeDue peers queue <
      client.connection.now + budgets p.1) :
    let r := client.run (order.map fun p => .readUntilClose p.1 (budgets p.1))
    ∃ back, r.2.connection.Draining peers ids back ∧ back <:+ queue ∧
      r.2.connection.wireDue peers back = client.connection.wireDue peers queue ∧
      r.2.connection.timeDue peers back = client.connection.timeDue peers queue ∧
      r.1 = order.map (fun p => .data (client.connection.leftFor p.2.localId queue)) ∧
      ∀ p ∈ order, own p.2.localId back = [] := by
  -- By the order: the other streams are read from where the first one leaves the queue.
  induction order generalizing client queue with
  | nil => exact ⟨queue, h, List.suffix_refl _, rfl, rfl, rfl, nofun⟩
  | cons p rest ih =>
    intro r
    obtain ⟨hhandle, hheld⟩ := List.forall_mem_cons.mp hheld
    obtain ⟨hid, hids⟩ := List.forall_mem_cons.mp hids
    obtain ⟨hnew, hdistinct⟩ := List.nodup_cons.mp hdistinct
    obtain ⟨hsoon, htime⟩ := List.forall_mem_cons.mp htime
    let within := client.connection.deadline (budgets p.1)
    have hwithin : client.connection.timeDue peers queue < within.start + within.budget := hsoon
    obtain ⟨mid, c, honward, hcollect, _, hown⟩ := collect_draining hid [] h hwithin
    let next : Client := { client with connection := c }
    have hfirst : client.perform (.readUntilClose p.1 (budgets p.1)) =
        (.data (client.connection.leftFor p.2.localId queue), next) := by
      rw [perform, withHandle, hhandle]
      dsimp only
      rw [readUntilClose, hcollect]
      rfl
    have hnext : next.connection.Draining peers ids mid := honward.draining
    have hsame : ∀ q ∈ rest, next.handles[q.1]? = some (some q.2) := hheld
    have hlater : ∀ q ∈ rest, next.connection.timeDue peers mid <
        next.connection.now + budgets q.1 := by
      intro q hq
      change c.timeDue peers mid < c.now + budgets q.1
      rw [honward.time]
      exact Nat.lt_of_lt_of_le (htime q hq) (Nat.add_le_add_right honward.now _)
    obtain ⟨back, hback, hrest, hwire, htotal, hanswers, hclosed⟩ :=
      ih hnext hsame hids hdistinct hlater
    have hr : r = (.data (client.connection.leftFor p.2.localId queue) ::
        (next.run (rest.map fun p => .readUntilClose p.1 (budgets p.1))).1,
        (next.run (rest.map fun p => .readUntilClose p.1 (budgets p.1))).2) := by
      change client.run (.readUntilClose p.1 (budgets p.1) :: _) = _
      rw [Client.run, hfirst]
    rw [hr]
    refine ⟨back, hback, hrest.trans honward.rest, hwire.trans honward.wire,
      htotal.trans honward.time, ?_, ?_⟩
    · refine congrArg₂ List.cons rfl (hanswers.trans (List.map_congr_left ?_))
      intro q hq
      have hother : q.2.localId ≠ p.2.localId := by
        intro heq
        exact hnew (List.mem_map.mpr ⟨q, hq, heq⟩)
      exact congrArg Answer.data (honward.others _ hother)
    · exact List.forall_mem_cons.mpr ⟨own_of_suffix hrest hown, hclosed⟩

end Client

open Connection Message

/-- The device has said to some open streams all that it has to say, and no write fails. If each
reading is given more time than all the acknowledgements take, then in whatever order the streams
are read out, each gives its data, the same acknowledgements go out, and it takes the same time. -/
theorem drain_order (client : Client) (streams : List (Nat × Stream)) (peers : UInt32 → UInt32)
    (hheld : ∀ p ∈ streams, client.handles[p.1]? = some (some p.2))
    (hdistinct : (streams.map (·.2.localId)).Nodup)
    (hopen : ∀ p ∈ streams, ∃ s, client.connection.table.find? p.2.localId = some s ∧
      s.Sound (peers p.2.localId) ∧ s.buffer = [])
    (hlink : client.connection.channel.link.isClosed = false)
    (hwhole : client.connection.channel.fragment = [])
    (htaken : ∀ d ∈ client.connection.channel.link.plan, d.isTaken = true)
    (queue : List Message) (hfits : ∀ m ∈ queue, m.payload.length < UInt32.size)
    (hto : ∀ m ∈ queue, m.arg1 ∈ streams.map (·.2.localId))
    (hclosing : ∀ p ∈ streams, Closing (own p.2.localId queue))
    (chunks : List Bytes) (hchunks : ∀ chunk ∈ chunks, chunk ≠ [])
    (hqueue : chunks.flatten = queue.flatMap Message.encode)
    (hinbound : client.connection.channel.link.inbound = chunks.map .chunk)
    (order : List (Nat × Stream)) (horder : order.Perm streams) (budgets : Nat → Nat)
    (htime : ∀ p ∈ streams,
      client.connection.channel.link.due (acks peers queue).length < budgets p.1) :
    let r := client.run (order.map fun p => .readUntilClose p.1 (budgets p.1))
    r.1 = order.map (fun p => .data (dataTo p.2.localId queue)) ∧
    r.2.connection.wire =
      client.connection.wire ++ (acks peers queue).flatMap Message.encode ∧
    r.2.connection.now =
      client.connection.now + client.connection.channel.link.due (acks peers queue).length := by
  intro r
  have hstocked : client.connection.channel.link.Stocked := by
    refine ⟨hlink, ?_⟩
    rw [hinbound]
    intro a ha
    obtain ⟨chunk, hchunk, rfl⟩ := List.mem_map.mp ha
    exact ⟨chunk, hchunks chunk hchunk, rfl⟩
  have hcoming : client.connection.channel.link.coming = queue.flatMap Message.encode := by
    rw [Link.coming, hinbound, List.flatMap_map, ← hqueue]
    exact List.flatMap_id'
  have hstart : client.connection.Draining peers (streams.map (·.2.localId)) queue := by
    refine ⟨hstocked, hwhole, hcoming, htaken, fun m hm => ⟨hto m hm, hfits m hm⟩, ?_⟩
    intro id hid
    obtain ⟨p, hp, rfl⟩ := List.mem_map.mp hid
    obtain ⟨s, hs, hsound, _⟩ := hopen p hp
    exact ⟨s, hs, .inl ⟨hsound, hclosing p hp⟩⟩
  have hmem {p : Nat × Stream} (hp : p ∈ order) : p ∈ streams := horder.mem_iff.mp hp
  obtain ⟨back, hback, _, hwire, hnow, hanswers, hnone⟩ := Client.run_draining budgets hstart
    (fun p hp => hheld p (hmem hp)) (fun p hp => List.mem_map_of_mem (hmem hp))
    ((horder.map _).nodup_iff.mpr hdistinct)
    (fun p hp => Nat.add_lt_add_left (htime p (hmem hp)) _)
  -- All streams are read out, so nothing is left in the queue and both sums are paid.
  have hempty : back = [] := by
    apply hback.queue_nil
    intro id hid
    obtain ⟨p, hp, rfl⟩ := List.mem_map.mp hid
    exact hnone p (horder.mem_iff.mpr hp)
  subst hempty
  refine ⟨?_, ?_, hnow⟩
  · refine hanswers.trans (List.map_congr_left ?_)
    intro p hp
    obtain ⟨s, hs, _, hbuffer⟩ := hopen p (hmem hp)
    rw [leftFor, unread_of_find? hs, hbuffer, List.nil_append]
  · exact (List.append_nil _).symm.trans hwire

/-- The data of two streams are mixed and cut in the middle of a message, and one acknowledgement
takes a while. -/
theorem drain_order_two :
    let answers : List Message := [⟨.okay, 101, 1, []⟩, ⟨.okay, 102, 2, []⟩]
    let queue : List Message := [⟨.write, 101, 1, [97]⟩, ⟨.write, 102, 2, [98]⟩,
      ⟨.write, 101, 1, [99]⟩, ⟨.close, 102, 2, []⟩, ⟨.close, 101, 1, []⟩]
    let bytes := queue.flatMap Message.encode
    let chunks := [bytes.take 30, bytes.drop 30]
    let client := (Client.fresh { link := { inbound := answers.map fun m => .chunk m.encode } }
      ⟨"device", "S", "", 0, 4096⟩ {}).after
        [.call (.openStream "a" 10), .call (.openStream "b" 10), .supply (chunks.map .chunk),
          .plan [.taken 0, .taken 9]]
    let forth := client.run [.readUntilClose 0 10, .readUntilClose 1 10]
    let back := client.run [.readUntilClose 1 10, .readUntilClose 0 10]
    forth.1 = [.data [97, 99], .data [98]] ∧ back.1 = [.data [98], .data [97, 99]] ∧
    forth.2.connection.wire = back.2.connection.wire ∧
    forth.2.connection.now = back.2.connection.now ∧
    back.2.connection.wire = client.connection.wire ++ ([⟨.okay, 1, 101, []⟩, ⟨.okay, 2, 102, []⟩,
      ⟨.okay, 1, 101, []⟩] : List Message).flatMap Message.encode := by
  intro answers queue bytes chunks client forth back
  let streams : List (Nat × Stream) := [(0, ⟨"a", 1, false⟩), (1, ⟨"b", 2, false⟩)]
  let peers : UInt32 → UInt32 := fun id => id + 100
  have hopen : ∀ p ∈ streams, ∃ s, client.connection.table.find? p.2.localId = some s ∧
      s.Sound (peers p.2.localId) ∧ s.buffer = [] := by
    refine List.forall_mem_cons.mpr ⟨?_, List.forall_mem_singleton.mpr ?_⟩
    · refine ⟨⟨some 101, .opened, false, [], none⟩, ?_, ⟨rfl, rfl, rfl⟩, rfl⟩
      decide +kernel
    · refine ⟨⟨some 102, .opened, false, [], none⟩, ?_, ⟨rfl, rfl, rfl⟩, rfl⟩
      decide +kernel
  have hclosing : ∀ p ∈ streams, Closing (own p.2.localId queue) := by
    refine List.forall_mem_cons.mpr ⟨?_, List.forall_mem_singleton.mpr ?_⟩
    · exact .more rfl (.more rfl (.last rfl))
    · exact .more rfl (.last rfl)
  have hdrain (order : List (Nat × Stream)) (horder : order.Perm streams) :=
    drain_order client streams peers (by decide +kernel) (by decide) hopen (by decide +kernel)
      (by decide +kernel) (by decide +kernel) queue (by decide +kernel) (by decide) hclosing chunks
      (by decide +kernel) (by decide +kernel) (by decide +kernel) order horder (fun _ => 10)
      (by decide +kernel)
  obtain ⟨hforth, hwire, hnow⟩ := hdrain streams (List.Perm.refl _)
  obtain ⟨hback, hwire', hnow'⟩ := hdrain streams.reverse (List.reverse_perm _)
  exact ⟨hforth, hback, hwire.trans hwire'.symm, hnow.trans hnow'.symm, hwire'⟩

/-- An acknowledgement takes longer than either reading may: whoever reads first waits for it and
runs out of time. -/
theorem drain_order_slow_acknowledgement :
    let answers : List Message := [⟨.okay, 101, 1, []⟩, ⟨.okay, 102, 2, []⟩]
    let queue : List Message :=
      [⟨.write, 101, 1, [97]⟩, ⟨.close, 101, 1, []⟩, ⟨.close, 102, 2, []⟩]
    let client := (Client.fresh { link := { inbound := answers.map fun m => .chunk m.encode } }
      ⟨"device", "S", "", 0, 4096⟩ {}).after
        [.call (.openStream "a" 10), .call (.openStream "b" 10),
          .supply (queue.map fun m => .chunk m.encode), .plan [.taken (Duration.ofMillis 5)]]
    let budget := Duration.ofMillis 1
    let forth := client.run [.readUntilClose 0 budget, .readUntilClose 1 budget]
    let back := client.run [.readUntilClose 1 budget, .readUntilClose 0 budget]
    client.handles = [some ⟨"a", 1, false⟩, some ⟨"b", 2, false⟩] ∧
    client.connection.table.find? 1 = some ⟨some 101, .opened, false, [], none⟩ ∧
    client.connection.table.find? 2 = some ⟨some 102, .opened, false, [], none⟩ ∧
    client.connection.channel.link.inbound = (queue.map fun m => .chunk m.encode) ∧
    client.connection.channel.link.plan = [.taken (Duration.ofMillis 5)] ∧
    Closing (own 1 queue) ∧ Closing (own 2 queue) ∧ 0 < budget ∧
    forth.1 = [.failed (.timeout budget (.data 1)), .data []] ∧
    back.1 = [.failed (.timeout budget (.data 2)), .data [97]] := by
  intro answers queue client budget forth back
  refine ⟨by decide +kernel, by decide +kernel, by decide +kernel, by decide +kernel,
    by decide +kernel, .more rfl (.last rfl), .last rfl, by decide, by decide +kernel, ?_⟩
  decide +kernel

end DroidHost
