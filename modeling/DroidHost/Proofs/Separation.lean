import DroidHost.Proofs.Acknowledgement
import DroidHost.Proofs.Codec
import DroidHost.Proofs.Framing
import DroidHost.Proofs.Wire

/-! Streams do not hear each other: two runs of the same calls, over links that differ in messages
for other streams. -/
namespace DroidHost

namespace Message

def isForeign (id : UInt32) (m : Message) : Bool :=
  (m.command = .okay ∨ m.command = .close ∨ m.command = .write) ∧ m.arg1 ≠ id

/-- Two queues that differ in foreign messages at most. -/
inductive Agree (id : UInt32) : List Message → List Message → Prop
  | done : Agree id [] []
  | left {m : Message} {p q : List Message} (hm : m.isForeign id = true) (h : Agree id p q) :
    Agree id (m :: p) q
  | right {m : Message} {p q : List Message} (hm : m.isForeign id = true) (h : Agree id p q) :
    Agree id p (m :: q)
  | both {m : Message} {p q : List Message} (hm : m.isForeign id = false) (h : Agree id p q) :
    Agree id (m :: p) (m :: q)

theorem agree_of_filter {id : UInt32} {p q : List Message}
    (h : p.filter (fun m => !m.isForeign id) = q.filter fun m => !m.isForeign id) :
    Agree id p q := by
  have hskip {m : Message} (hm : m.isForeign id = true) (rest : List Message) :
      (m :: rest).filter (fun m => !m.isForeign id) = rest.filter fun m => !m.isForeign id :=
    List.filter_cons_of_neg (by rw [hm]; exact Bool.false_ne_true)
  have hkeep {m : Message} (hm : m.isForeign id = false) (rest : List Message) :
      (m :: rest).filter (fun m => !m.isForeign id) =
        m :: rest.filter fun m => !m.isForeign id :=
    List.filter_cons_of_pos (by rw [hm]; rfl)
  -- Foreign messages go one by one, first on the left and then on the right.
  induction p generalizing q with
  | nil =>
    induction q with
    | nil => exact .done
    | cons n q ih =>
      cases hn : n.isForeign id with
      | true => exact .right hn (ih (h.trans (hskip hn q)))
      | false => cases h.trans (hkeep hn q)
  | cons m p ih =>
    cases hm : m.isForeign id with
    | true => exact .left hm (ih ((hskip hm p).symm.trans h))
    | false =>
      induction q with
      | nil => cases (hkeep hm p).symm.trans h
      | cons n q ihq =>
        cases hn : n.isForeign id with
        | true => exact .right hn (ihq (h.trans (hskip hn q)))
        | false =>
          obtain ⟨rfl, hrest⟩ := List.cons.inj ((hkeep hm p).symm.trans (h.trans (hkeep hn q)))
          exact .both hm (ih hrest)

end Message

namespace Channel

/-- These messages have come, whole and one in a chunk, and no write takes time or fails. -/
structure Facing (queue : List Message) (ch : Channel) : Prop where
  inbound : ch.link.inbound = queue.map fun m => .chunk m.encode
  fragment : ch.fragment = []
  isOpen : ch.link.isClosed = false
  prompt : ∀ d ∈ ch.link.plan, d = .taken 0
  whole : ∀ m ∈ queue, m.payload.length < UInt32.size

theorem fill_front {ch : Channel} {target : Nat} {front back : Bytes} {queue : List Arrival}
    (hopen : ch.link.isClosed = false) (hin : ch.link.inbound = .chunk (front ++ back) :: queue)
    (hfront : front ≠ []) (htarget : ch.fragment.length + front.length = target)
    (deadline : Deadline) : ∃ past, ch.fill target deadline = .ok ()
      ⟨{ ch.link with inbound := if back = [] then queue else .chunk back :: queue, past := past },
        ch.fragment ++ front⟩ := by
  have hmore : 0 < front.length := List.length_pos_iff.mpr hfront
  have hwanted : target - ch.fragment.length = front.length := by omega
  have htake (budget : Nat) : Arrival.take front.length budget budget ch.link.inbound =
      ⟨.ok front, if back = [] then queue else .chunk back :: queue, 0⟩ := by
    rw [hin]
    unfold Arrival.take
    by_cases hb : back = []
    · rw [if_pos hb, hb, List.append_nil, if_pos (Nat.le_refl _)]
    · have hlong : ¬ (front ++ back).length ≤ front.length := by
        have := List.length_pos_iff.mpr hb
        rw [List.length_append]
        omega
      rw [if_neg hlong, if_neg hb, List.take_left, List.drop_left]
  obtain ⟨b, bytes, rfl⟩ := List.exists_cons_of_ne_nil hfront
  refine ⟨.received (b :: bytes).length (ch.allowance deadline) (b :: bytes) :: ch.link.past, ?_⟩
  rw [fill, if_neg (by omega), hwanted, Link.read, if_neg (by rw [hopen]; exact Bool.false_ne_true)]
  simp only [htake]
  exact fill_of_le (by rw [List.length_append]; omega) deadline

theorem Facing.receive_message {m : Message} {queue : List Message} {ch : Channel}
    (h : ch.Facing (m :: queue)) (deadline : Deadline) :
    ∃ after, ch.receive deadline = .ok m after ∧ after.Facing queue ∧ after.now = ch.now := by
  obtain ⟨hfits, hrest⟩ := List.forall_mem_cons.mp h.whole
  let later : List Arrival := queue.map fun m => .chunk m.encode
  have hin : ch.link.inbound = .chunk (m.header ++ m.payload) :: later := h.inbound
  have hsome : m.header ≠ [] := List.ne_nil_of_length_pos (by rw [m.length_header]; decide)
  have hfirst : ch.fragment.length + m.header.length = Header.size := by
    rw [h.fragment, List.length_nil, m.length_header, Nat.zero_add]
  obtain ⟨past, hheader⟩ := fill_front h.isOpen hin hsome hfirst deadline
  rw [h.fragment, List.nil_append] at hheader
  have hdecode : Header.decode (m.header.take Header.size) = .ok m.heading :=
    Header.decode_encode m.heading
  have hlength : m.heading.length.toNat = m.payload.length := UInt32.toNat_ofNat_of_lt' hfits
  let half : Channel := ⟨{ ch.link with
    inbound := if m.payload = [] then later else .chunk m.payload :: later, past := past },
    m.header⟩
  have hsecond : half.fragment.length + m.payload.length =
      Header.size + m.heading.length.toNat := by rw [hlength, m.length_header]
  have hpayload : ∃ past', half.fill (Header.size + m.heading.length.toNat) deadline =
      .ok () ⟨{ ch.link with inbound := later, past := past' }, m.header ++ m.payload⟩ := by
    by_cases he : m.payload = []
    · rw [he, List.length_nil, Nat.add_zero] at hsecond
      refine ⟨past, (fill_of_le (Nat.le_of_eq hsecond.symm) deadline).trans ?_⟩
      simp only [half, he, if_true, List.append_nil]
    · have hchunk : half.link.inbound = .chunk (m.payload ++ []) :: later := by
        simp only [half, if_neg he, List.append_nil]
      have hopen : half.link.isClosed = false := h.isOpen
      exact fill_front hopen hchunk he hsecond deadline
  obtain ⟨past', hpayload⟩ := hpayload
  have hfinish : m.heading.finish ((m.header ++ m.payload).drop Header.size) = .ok m := by
    rw [List.drop_left' m.length_header]
    exact Message.finish_eq_ok.mpr ⟨rfl, rfl, hfits⟩
  refine ⟨⟨{ ch.link with inbound := later, past := past' }, []⟩, ?_,
    ⟨rfl, rfl, h.isOpen, h.prompt, hrest⟩, rfl⟩
  rw [receive, gather, hheader]
  simp only [hdecode, half] at hpayload ⊢
  simp only [hpayload, hfinish, restart]

theorem Facing.receive_nothing {ch : Channel} (h : ch.Facing []) (deadline : Deadline) :
    ∃ e after, ch.receive deadline = .error e after ∧ e.isTimeout = true ∧ after.Facing [] ∧
      after.now = ch.now + deadline.remaining ch.now := by
  have hin : ch.link.inbound = [] := h.inbound
  have hbudget : ch.allowance deadline = deadline.remaining ch.now := by
    rw [allowance, h.fragment]
    rfl
  let waited : Link := ((ch.link.leave ⟨.error (.timeout (deadline.remaining ch.now)), [],
    deadline.remaining ch.now⟩).record (.missed Header.size (deadline.remaining ch.now)
      (.timeout (deadline.remaining ch.now))))
  have hfill : ch.fill Header.size deadline =
      .error (.link (.timeout (deadline.remaining ch.now))) { ch with link := waited } := by
    rw [fill, if_neg (by rw [h.fragment]; decide), hbudget, h.fragment, Link.read,
      if_neg (by rw [h.isOpen]; exact Bool.false_ne_true), hin]
    rfl
  refine ⟨.link (.timeout (deadline.remaining ch.now)), { ch with link := waited }, ?_, rfl,
    ⟨rfl, h.fragment, h.isOpen, h.prompt, h.whole⟩, rfl⟩
  rw [receive, gather, hfill]
  rfl

theorem Facing.put {queue : List Message} {ch : Channel} (h : ch.Facing queue) (bytes : Bytes)
    (budget : Nat) : ∃ after, ch.put bytes budget = .ok () after ∧ after.Facing queue ∧
      after.now = ch.now := by
  unfold Channel.put Link.write
  rw [if_neg (by rw [h.isOpen]; exact Bool.false_ne_true)]
  cases hp : ch.link.plan with
  | nil => exact ⟨_, rfl, ⟨h.inbound, h.fragment, h.isOpen, h.prompt, h.whole⟩, rfl⟩
  | cons d rest =>
    have hprompt := h.prompt
    rw [hp] at hprompt
    obtain ⟨rfl, hrest⟩ := List.forall_mem_cons.mp hprompt
    exact ⟨_, rfl, ⟨h.inbound, h.fragment, h.isOpen, hrest, h.whole⟩, rfl⟩

end Channel

namespace StreamTable

theorem route_foreign {id : UInt32} {m : Message} (hm : m.isForeign id = true) (t : StreamTable) :
    ∃ table ack, t.route m = .ok (table, ack) ∧ table.find? id = t.find? id ∧
      ∀ a ∈ ack, a.arg0 ≠ id := by
  obtain ⟨hstream, hother⟩ := of_decide_eq_true hm
  cases hs : t.find? m.arg1 with
  | none => exact ⟨t, none, by rw [route, if_pos hstream, hs], rfl, nofun⟩
  | some s =>
    have hroute : t.route m = .ok (t.set m.arg1 (s.apply m.arg1 m).1, (s.apply m.arg1 m).2) := by
      rw [route, if_pos hstream, hs]
    refine ⟨_, _, hroute, ?_, ?_⟩
    · rw [find?_set, if_neg hother.symm]
    · intro a ha
      rw [Option.mem_def.mp ha] at hroute
      obtain ⟨peer, rfl⟩ := Connection.ack_of_route hroute
      exact hother

theorem route_own {id : UInt32} {m : Message} (hm : m.isForeign id = false) {t u : StreamTable}
    (h : t.find? id = u.find? id) :
    (∃ e, t.route m = .error e ∧ u.route m = .error e) ∨
    ∃ t' u' ack, t.route m = .ok (t', ack) ∧ u.route m = .ok (u', ack) ∧
      t'.find? id = u'.find? id := by
  by_cases hstream : m.command = .okay ∨ m.command = .close ∨ m.command = .write
  · have hid : m.arg1 = id := by
      refine Decidable.byContradiction ?_
      intro hne
      exact of_decide_eq_false hm ⟨hstream, hne⟩
    subst hid
    refine .inr ?_
    cases hs : t.find? m.arg1 with
    | none =>
      have hs' : u.find? m.arg1 = none := h.symm.trans hs
      exact ⟨t, u, none, by rw [route, if_pos hstream, hs], by rw [route, if_pos hstream, hs'], h⟩
    | some s =>
      have hs' : u.find? m.arg1 = some s := h.symm.trans hs
      refine ⟨_, _, _, by rw [route, if_pos hstream, hs], by rw [route, if_pos hstream, hs'], ?_⟩
      rw [find?_set, find?_set, hs, hs']
  · exact .inl ⟨_, by rw [route, if_neg hstream], by rw [route, if_neg hstream]⟩

end StreamTable

namespace Connection

/-- The writes that got through of messages that carry this id as the host's. -/
def writesOn (id : UInt32) (c : Connection) : List (Message × Part) :=
  c.writes.filter (·.1.arg0 = id)

theorem writes_note (o : Occurrence) (c : Connection) :
    (c.note o).writes = c.writes ++ o.writes := by
  simp only [writes, note, List.reverse_cons, List.flatMap_append, List.flatMap_singleton]

theorem filter_writes_foreign {id : UInt32} {m : Message} (hm : m.arg0 ≠ id) :
    m.writes.filter (·.1.arg0 = id) = [] := by
  refine List.filter_eq_nil_iff.mpr ?_
  intro w hw
  have hsame : w.1 = m := by
    unfold Message.writes at hw
    split at hw
    · rw [List.mem_singleton.mp hw]
    · rcases List.mem_cons.mp hw with rfl | hw
      · rfl
      · rw [List.mem_singleton.mp hw]
  rw [hsame, decide_eq_true_eq]
  exact hm

theorem send_facing {queue : List Message} {c : Connection} (h : c.channel.Facing queue)
    (m : Message) (deadline : Deadline) :
    ∃ ch, c.send m deadline = .ok () ({ c with channel := ch }.note (.sent m)) ∧
      ch.Facing queue ∧ ch.now = c.now := by
  refine send_of_put (P := fun ch => ch.Facing queue ∧ ch.now = c.now) ?_ ⟨h, rfl⟩ m deadline
  rintro ch ⟨hch, hsame⟩ bytes budget
  obtain ⟨after, hput, hafter, hnow⟩ := hch.put bytes budget
  exact ⟨after, hput, hafter, hnow.trans hsame⟩

/-- What a message that was taken in leaves behind: a table, and perhaps an acknowledgement. -/
structure Heard (queue : List Message) (table : StreamTable) (ack : Option Message)
    (c after : Connection) : Prop where
  channel : after.channel.Facing queue
  now : after.now = c.now
  info : after.info = c.info
  table : after.table = table
  writes : after.writes = c.writes ++ ack.toList.flatMap Message.writes

theorem takeIn_facing {m : Message} {queue : List Message} {c : Connection}
    (h : c.channel.Facing (m :: queue)) (deadline : Deadline) :
    (∀ e, c.table.route m = .error e →
      ∃ after, c.takeIn deadline = .error e after ∧ Heard queue c.table none c after) ∧
    ∀ table ack, c.table.route m = .ok (table, ack) →
      ∃ after, c.takeIn deadline = .ok () after ∧ Heard queue table ack c after := by
  obtain ⟨ch, hr, hch, hnow⟩ := h.receive_message deadline
  have hheard : (c.hear m ch).writes = c.writes ++ [] :=
    writes_note (.arrived m ((c.table.find? m.arg1).map StreamState.phase)) _
  refine ⟨?_, ?_⟩
  · intro e hroute
    have hin : c.takeIn deadline = .error e (c.hear m ch) := by
      rw [takeIn, hr]
      simp only [hroute]
    exact ⟨_, hin, hch, hnow, rfl, rfl, hheard⟩
  · intro table ack hroute
    let routed : Connection := { c.hear m ch with table := table }
    cases ack with
    | none =>
      have hin : c.takeIn deadline = .ok () routed := by
        rw [takeIn, hr]
        simp only [hroute, routed]
      exact ⟨_, hin, hch, hnow, rfl, rfl, hheard⟩
    | some ack =>
      have hfacing : routed.channel.Facing queue := hch
      obtain ⟨last, hsend, hlast, hsame⟩ := send_facing hfacing ack
        (routed.deadline (deadline.remainingOrFloor Deadline.transferFloor routed.now))
      have hin : c.takeIn deadline =
          .ok () (({ routed with channel := last }).note (.sent ack)) := by
        rw [takeIn, hr]
        simp only [hroute]
        rw [acknowledge, hsend]
      refine ⟨_, hin, hlast, hsame.trans hnow, rfl, rfl, ?_⟩
      calc (({ routed with channel := last }).note (.sent ack)).writes
          = (c.hear m ch).writes ++ ack.writes := writes_note (.sent ack) _
        _ = c.writes ++ (some ack).toList.flatMap Message.writes := by
          rw [hheard, List.append_nil, Option.toList_some, List.flatMap_singleton]

theorem takeIn_nothing {c : Connection} (h : c.channel.Facing []) (deadline : Deadline) :
    ∃ ch, c.takeIn deadline = .ok () { c with channel := ch } ∧ ch.Facing [] ∧
      ch.now = c.now + deadline.remaining c.now := by
  obtain ⟨e, ch, hr, he, hch, hnow⟩ := h.receive_nothing deadline
  refine ⟨ch, ?_, hch, hnow⟩
  rw [takeIn, hr]
  simp only [he, if_true]

/-- Two connections in which a stream has come equally far, each with its own queue. -/
structure Beside (id : UInt32) (p q : List Message) (c d : Connection) : Prop where
  left : c.channel.Facing p
  right : d.channel.Facing q
  now : c.now = d.now
  info : c.info = d.info
  entry : c.table.find? id = d.table.find? id
  writes : c.writesOn id = d.writesOn id

theorem Beside.symm {id : UInt32} {p q : List Message} {c d : Connection} (h : Beside id p q c d) :
    Beside id q p d c :=
  ⟨h.right, h.left, h.now.symm, h.info.symm, h.entry.symm, h.writes.symm⟩

theorem Beside.foreign {id : UInt32} {m : Message} {p q : List Message} {c d : Connection}
    (h : Beside id (m :: p) q c d) (hm : m.isForeign id = true) (deadline : Deadline) :
    ∃ after, c.takeIn deadline = .ok () after ∧ Beside id p q after d := by
  obtain ⟨table, ack, hroute, hsame, hforeign⟩ := c.table.route_foreign hm
  obtain ⟨after, hin, hheard⟩ := (takeIn_facing h.left deadline).2 table ack hroute
  refine ⟨after, hin, hheard.channel, h.right, hheard.now.trans h.now, hheard.info.trans h.info,
    ?_, ?_⟩
  · rw [hheard.table, hsame, h.entry]
  · have hnone : (ack.toList.flatMap Message.writes).filter (·.1.arg0 = id) = [] := by
      cases ack with
      | none => rfl
      | some a =>
        rw [Option.toList_some, List.flatMap_singleton]
        exact filter_writes_foreign (hforeign a rfl)
    rw [writesOn, hheard.writes, List.filter_append, hnone, List.append_nil]
    exact h.writes

theorem Beside.heard {id : UInt32} {p p' q q' : List Message} {c c' d d' : Connection}
    {t u : StreamTable} {ack : Option Message} (h : Beside id p q c d)
    (hsame : t.find? id = u.find? id) (hc : Heard p' t ack c c') (hd : Heard q' u ack d d') :
    Beside id p' q' c' d' where
  left := hc.channel
  right := hd.channel
  now := by rw [hc.now, hd.now, h.now]
  info := by rw [hc.info, hd.info, h.info]
  entry := by rw [hc.table, hd.table, hsame]
  writes := by
    have hbefore : c.writes.filter (·.1.arg0 = id) = d.writes.filter (·.1.arg0 = id) := h.writes
    rw [writesOn, writesOn, hc.writes, hd.writes, List.filter_append, List.filter_append, hbefore]

theorem Beside.own {id : UInt32} {m : Message} {p q : List Message} {c d : Connection}
    (h : Beside id (m :: p) (m :: q) c d) (hm : m.isForeign id = false) (deadline : Deadline) :
    (∃ e c' d', c.takeIn deadline = .error e c' ∧ d.takeIn deadline = .error e d' ∧
      Beside id p q c' d') ∨
    ∃ c' d', c.takeIn deadline = .ok () c' ∧ d.takeIn deadline = .ok () d' ∧
      Beside id p q c' d' := by
  obtain ⟨herrorc, hokc⟩ := takeIn_facing h.left deadline
  obtain ⟨herrord, hokd⟩ := takeIn_facing h.right deadline
  rcases StreamTable.route_own hm h.entry with ⟨e, hc, hd⟩ | ⟨t, u, ack, hc, hd, hsame⟩
  · obtain ⟨c', hin, hc'⟩ := herrorc e hc
    obtain ⟨d', hin', hd'⟩ := herrord e hd
    exact .inl ⟨e, c', d', hin, hin', h.heard h.entry hc' hd'⟩
  · obtain ⟨c', hin, hc'⟩ := hokc t ack hc
    obtain ⟨d', hin', hd'⟩ := hokd u ack hd
    exact .inr ⟨c', d', hin, hin', h.heard hsame hc' hd'⟩

theorem Beside.nothing {id : UInt32} {c d : Connection} (h : Beside id [] [] c d)
    (deadline : Deadline) :
    ∃ c' d', c.takeIn deadline = .ok () c' ∧ d.takeIn deadline = .ok () d' ∧
      Beside id [] [] c' d' ∧ deadline.hasExpired c'.now = true := by
  obtain ⟨left, hc, hleft, hnow⟩ := takeIn_nothing h.left deadline
  obtain ⟨right, hd, hright, hnow'⟩ := takeIn_nothing h.right deadline
  refine ⟨_, _, hc, hd, ⟨hleft, hright, ?_, h.info, h.entry, h.writes⟩, ?_⟩
  · calc left.now = c.now + deadline.remaining c.now := hnow
      _ = d.now + deadline.remaining d.now := by rw [h.now]
      _ = right.now := hnow'.symm
  · have hpast := Deadline.hasExpired_of_remaining_le (Nat.le_refl (deadline.remaining c.now))
    rw [← hnow] at hpast
    exact hpast

/-- What is still to come may differ in foreign messages only. -/
def Alike (id : UInt32) (c d : Connection) : Prop :=
  ∃ p q, Message.Agree id p q ∧ Beside id p q c d

/-- Two calls that come to the same and leave connections that are alike. -/
inductive Parallel (id : UInt32) :
    EStateM.Result ε Connection α → EStateM.Result ε Connection α → Prop
  | ok (a : α) {c d : Connection} (h : Alike id c d) : Parallel id (.ok a c) (.ok a d)
  | error (e : ε) {c d : Connection} (h : Alike id c d) : Parallel id (.error e c) (.error e d)

variable {id : UInt32} {c d : Connection}

theorem Parallel.of_ok {a : α} {r : EStateM.Result ε Connection α}
    (h : Parallel id (.ok a c) r) : ∃ d, r = .ok a d ∧ Alike id c d := by
  cases h with
  | ok _ h => exact ⟨_, rfl, h⟩

theorem Parallel.of_error {e : ε} {r : EStateM.Result ε Connection α}
    (h : Parallel id (.error e c) r) : ∃ d, r = .error e d ∧ Alike id c d := by
  cases h with
  | error _ h => exact ⟨_, rfl, h⟩

theorem Alike.now (h : Alike id c d) : c.now = d.now := by
  obtain ⟨_, _, _, h⟩ := h
  exact h.now

theorem Alike.info (h : Alike id c d) : c.info = d.info := by
  obtain ⟨_, _, _, h⟩ := h
  exact h.info

theorem Alike.entry (h : Alike id c d) : c.table.find? id = d.table.find? id := by
  obtain ⟨_, _, _, h⟩ := h
  exact h.entry

theorem Alike.writes (h : Alike id c d) : c.writesOn id = d.writesOn id := by
  obtain ⟨_, _, _, h⟩ := h
  exact h.writes

theorem Alike.setStream (h : Alike id c d) (s : StreamState) :
    Alike id (c.setStream id s) (d.setStream id s) := by
  obtain ⟨p, q, hagree, h⟩ := h
  refine ⟨p, q, hagree, h.left, h.right, h.now, h.info, ?_, h.writes⟩
  rw [Connection.setStream, Connection.setStream, StreamTable.find?_set, StreamTable.find?_set,
    h.entry]

theorem Alike.note (h : Alike id c d) (o : Occurrence) : Alike id (c.note o) (d.note o) := by
  obtain ⟨p, q, hagree, h⟩ := h
  refine ⟨p, q, hagree, h.left, h.right, h.now, h.info, h.entry, ?_⟩
  rw [writesOn, writesOn, writes_note, writes_note, List.filter_append, List.filter_append]
  exact congrArg (· ++ _) h.writes

theorem Alike.send (h : Alike id c d) (m : Message) (deadline : Deadline) :
    Parallel id (c.send m deadline) (d.send m deadline) := by
  obtain ⟨p, q, hagree, h⟩ := h
  obtain ⟨left, hc, hleft, hnow⟩ := send_facing h.left m deadline
  obtain ⟨right, hd, hright, hnow'⟩ := send_facing h.right m deadline
  have hsent : Alike id { c with channel := left } { d with channel := right } :=
    ⟨p, q, hagree, hleft, hright, hnow.trans (h.now.trans hnow'.symm), h.info, h.entry, h.writes⟩
  rw [hc, hd]
  exact .ok () (hsent.note (.sent m))

theorem Alike.inspect (h : Alike id c d) (look : StreamState → Look α) :
    (c.inspect id look = none ∧ d.inspect id look = none) ∨
    ∃ r r', c.inspect id look = some r ∧ d.inspect id look = some r' ∧ Parallel id r r' := by
  unfold Connection.inspect
  rw [← h.entry]
  cases c.table.find? id with
  | none => exact .inr ⟨_, _, rfl, rfl, .error _ h⟩
  | some s =>
    dsimp only
    cases s.fault with
    | some fault => exact .inr ⟨_, _, rfl, rfl, .error _ h⟩
    | none =>
      dsimp only
      cases look s with
      | ready a s' => exact .inr ⟨_, _, rfl, rfl, .ok a (h.setStream s')⟩
      | failed e => exact .inr ⟨_, _, rfl, rfl, .error e h⟩
      | notYet => exact .inl ⟨rfl, rfl⟩

theorem Alike.over_or_on (h : Alike id c d) (deadline : Deadline) (awaited : Awaited)
    (look : StreamState → Look α) :
    Parallel id (c.waitFor id deadline awaited look) (d.waitFor id deadline awaited look) ∨
    (c.inspect id look = none ∧ deadline.hasExpired c.now = false) ∧
      d.inspect id look = none ∧ deadline.hasExpired d.now = false := by
  rcases h.inspect look with ⟨hc, hd⟩ | ⟨r, r', hc, hd, hsaid⟩
  · cases hexpired : deadline.hasExpired c.now with
    | true =>
      refine .inl ?_
      rw [waitFor, hc]
      rw [waitFor, hd]
      dsimp only
      rw [if_pos hexpired, if_pos (h.now ▸ hexpired)]
      exact .error _ h
    | false => exact .inr ⟨⟨hc, rfl⟩, hd, h.now ▸ hexpired⟩
  · refine .inl ?_
    rw [waitFor, hc]
    rw [waitFor, hd]
    exact hsaid

theorem waitFor_of_failure {id : UInt32} {deadline : Deadline} {look : StreamState → Look α}
    {c after : Connection} {e : BridgeError} (hnothing : c.inspect id look = none)
    (htime : deadline.hasExpired c.now = false) (hin : c.takeIn deadline = .error e after)
    (awaited : Awaited) : c.waitFor id deadline awaited look = .error e after := by
  rw [waitFor, hnothing]
  dsimp only
  rw [if_neg (by rw [htime]; exact Bool.false_ne_true)]
  split
  · next hmid => cases hin.symm.trans hmid
  · next hmid =>
    cases hin.symm.trans hmid
    rfl

theorem Alike.waitFor (h : Alike id c d) (deadline : Deadline) (awaited : Awaited)
    (look : StreamState → Look α) :
    Parallel id (c.waitFor id deadline awaited look) (d.waitFor id deadline awaited look) := by
  obtain ⟨p, q, hagree, h⟩ := h
  -- By how the queues agree. A side with a foreign message in front takes it in by itself, and the
  -- other one stays where it is, for the stream hears nothing of that.
  induction hagree generalizing c d with
  | done =>
    have hboth : Alike id c d := ⟨[], [], .done, h⟩
    obtain hover | ⟨⟨hc, htime⟩, hd, htime'⟩ := hboth.over_or_on deadline awaited look
    · exact hover
    · obtain ⟨c', d', hin, hin', h', hexpired⟩ := h.nothing deadline
      have hlast : Alike id c' d' := ⟨[], [], .done, h'⟩
      rw [waitFor_of_takeIn hc htime hin, waitFor_of_takeIn hd htime' hin']
      obtain hover | ⟨⟨_, hnot⟩, _⟩ := hlast.over_or_on deadline awaited look
      · exact hover
      · exact absurd (hexpired.symm.trans hnot) (by decide)
  | @left m p q hm hagree ih =>
    have hboth : Alike id c d := ⟨m :: p, q, .left hm hagree, h⟩
    obtain hover | ⟨⟨hc, htime⟩, _⟩ := hboth.over_or_on deadline awaited look
    · exact hover
    · obtain ⟨after, hin, h'⟩ := h.foreign hm deadline
      rw [waitFor_of_takeIn hc htime hin]
      exact ih h'
  | @right m p q hm hagree ih =>
    have hboth : Alike id c d := ⟨p, m :: q, .right hm hagree, h⟩
    obtain hover | ⟨_, hd, htime⟩ := hboth.over_or_on deadline awaited look
    · exact hover
    · obtain ⟨after, hin, h'⟩ := h.symm.foreign hm deadline
      rw [waitFor_of_takeIn hd htime hin]
      exact ih h'.symm
  | @both m p q hm hagree ih =>
    have hboth : Alike id c d := ⟨m :: p, m :: q, .both hm hagree, h⟩
    obtain hover | ⟨⟨hc, htime⟩, hd, htime'⟩ := hboth.over_or_on deadline awaited look
    · exact hover
    · rcases h.own hm deadline with ⟨e, c', d', hin, hin', h'⟩ | ⟨c', d', hin, hin', h'⟩
      · rw [waitFor_of_failure hc htime hin, waitFor_of_failure hd htime' hin']
        exact .error e ⟨p, q, hagree, h'⟩
      · rw [waitFor_of_takeIn hc htime hin, waitFor_of_takeIn hd htime' hin']
        exact ih h'

theorem Alike.readBy (h : Alike id c d) (length : Nat) (deadline : Deadline) :
    Parallel id (c.readBy id length deadline) (d.readBy id length deadline) := by
  have hwait := h.waitFor deadline (.data id) (StreamState.supplying id length)
  unfold Connection.readBy
  generalize c.waitFor id deadline (.data id) (StreamState.supplying id length) = r at hwait ⊢
  generalize d.waitFor id deadline (.data id) (StreamState.supplying id length) = r' at hwait ⊢
  cases hwait with
  | ok bytes h => exact .ok bytes (h.note (.taken id bytes))
  | error e h => exact .error e h

theorem Alike.sendPiece (h : Alike id c d) (deadline : Deadline) (piece : Bytes) :
    Parallel id (c.sendPiece id deadline piece) (d.sendPiece id deadline piece) := by
  unfold Connection.sendPiece
  rw [← h.entry]
  cases c.table.find? id with
  | none => exact .error _ h
  | some s =>
    dsimp only
    cases s.writable id with
    | error e => exact .error e h
    | ok peer =>
      have hsend := h.send ⟨.write, id, peer, piece⟩ deadline
      dsimp only
      generalize c.send ⟨.write, id, peer, piece⟩ deadline = r at hsend ⊢
      generalize d.send ⟨.write, id, peer, piece⟩ deadline = r' at hsend ⊢
      cases hsend with
      | ok u h => exact .ok () (h.setStream _)
      | error f h => exact .error _ h

theorem Alike.writePiece (h : Alike id c d) (deadline : Deadline) (piece : Bytes) :
    Parallel id (c.writePiece id deadline piece) (d.writePiece id deadline piece) := by
  have hpiece := h.sendPiece deadline piece
  unfold Connection.writePiece
  generalize c.sendPiece id deadline piece = r at hpiece ⊢
  generalize d.sendPiece id deadline piece = r' at hpiece ⊢
  cases hpiece with
  | ok u h => exact h.waitFor deadline (.okay id) (StreamState.acknowledging id)
  | error e h => exact .error e h

theorem Alike.writePieces (h : Alike id c d) (deadline : Deadline) (pieces : List Bytes) :
    Parallel id (c.writePieces id deadline pieces) (d.writePieces id deadline pieces) := by
  induction pieces generalizing c d with
  | nil => exact .ok () h
  | cons piece rest ih =>
    have hpiece := h.writePiece deadline piece
    unfold Connection.writePieces
    generalize c.writePiece id deadline piece = r at hpiece ⊢
    generalize d.writePiece id deadline piece = r' at hpiece ⊢
    cases hpiece with
    | ok u h => exact ih h
    | error e h => exact .error e h

theorem collect_of_ok {deadline : Deadline} {bytes : Bytes} {after : Connection}
    (h : c.readBy id 0 deadline = .ok bytes after) (got : List Bytes) :
    c.collect id deadline got = after.collect id deadline (bytes :: got) := by
  rw [collect]
  split
  · next hr =>
    cases h.symm.trans hr
    rfl
  · next hr => cases h.symm.trans hr
  · next hr => cases h.symm.trans hr

theorem collect_of_closed {deadline : Deadline} {k : UInt32} {after : Connection}
    (h : c.readBy id 0 deadline = .error (.streamClosed k) after) (got : List Bytes) :
    c.collect id deadline got = .ok got.reverse.flatten after := by
  rw [collect]
  split
  · next hr => cases h.symm.trans hr
  · next hr =>
    cases h.symm.trans hr
    rfl
  · next hother hr =>
    cases h.symm.trans hr
    exact (hother k rfl).elim

theorem collect_of_error {deadline : Deadline} {e : BridgeError} {after : Connection}
    (h : c.readBy id 0 deadline = .error e after) (hother : ∀ k, e ≠ .streamClosed k)
    (got : List Bytes) : c.collect id deadline got = .error e after := by
  rw [collect]
  split
  · next hr => cases h.symm.trans hr
  · next k _ hr =>
    cases h.symm.trans hr
    exact absurd rfl (hother k)
  · next hr =>
    cases h.symm.trans hr
    rfl

theorem Alike.collect (h : Alike id c d) (deadline : Deadline) (got : List Bytes) :
    Parallel id (c.collect id deadline got) (d.collect id deadline got) := by
  fun_induction Connection.collect id deadline got c generalizing d with
  | case1 got c bytes after hr ih =>
    obtain ⟨d', hr', h'⟩ := (hr ▸ h.readBy 0 deadline).of_ok
    rw [collect_of_ok hr']
    exact ih h'
  | case2 got c k after hr =>
    obtain ⟨d', hr', h'⟩ := (hr ▸ h.readBy 0 deadline).of_error
    rw [collect_of_closed hr']
    exact .ok _ h'
  | case3 got c e after hother hr =>
    obtain ⟨d', hr', h'⟩ := (hr ▸ h.readBy 0 deadline).of_error
    rw [collect_of_error hr' hother]
    exact .error e h'

theorem Alike.write (h : Alike id c d) (bytes : Bytes) (budget : Nat) :
    Parallel id (c.write id bytes budget) (d.write id bytes budget) := by
  rw [Connection.write, Connection.write, deadline, deadline, h.now, h.info]
  exact h.writePieces _ _

theorem Alike.read (h : Alike id c d) (length budget : Nat) :
    Parallel id (c.read id length budget) (d.read id length budget) := by
  rw [Connection.read, Connection.read, deadline, deadline, h.now]
  exact h.readBy length _

theorem Alike.readUntilClose (h : Alike id c d) (budget : Nat) :
    Parallel id (c.readUntilClose id budget) (d.readUntilClose id budget) := by
  rw [Connection.readUntilClose, Connection.readUntilClose, deadline, deadline, h.now]
  exact h.collect _ []

end Connection

def Call.isTraffic (handle : Nat) : Call → Bool
  | .write i _ _ => i = handle
  | .read i _ _ => i = handle
  | .readUntilClose i _ => i = handle
  | _ => false

namespace Client

def facing (queue : List Message) (client : Client) : Client :=
  client.relink fun link => { link with inbound := queue.map fun m => .chunk m.encode }

/-- Two clients with a handle on the same stream, which cannot tell them apart. -/
structure Alike (handle : Nat) (s : Stream) (client other : Client) : Prop where
  left : client.handles[handle]? = some (some s)
  right : other.handles[handle]? = some (some s)
  connection : client.connection.Alike s.localId other.connection

variable {handle : Nat} {s : Stream} {client other : Client}

theorem Alike.answering (h : Alike handle s client other) (answer : α → Answer)
    {r r' : EStateM.Result BridgeError Connection α} (hr : Connection.Parallel s.localId r r') :
    (client.answering answer r).1 = (other.answering answer r').1 ∧
      Alike handle s (client.answering answer r).2 (other.answering answer r').2 := by
  cases hr with
  | ok a hafter => exact ⟨rfl, h.left, h.right, hafter⟩
  | error e hafter => exact ⟨rfl, h.left, h.right, hafter⟩

theorem Alike.perform (h : Alike handle s client other) {call : Call}
    (hcall : call.isTraffic handle = true) :
    (client.perform call).1 = (other.perform call).1 ∧
      Alike handle s (client.perform call).2 (other.perform call).2 := by
  cases call with
  | write i bytes budget =>
    obtain rfl : i = handle := of_decide_eq_true hcall
    rw [Client.perform, withHandle, h.left, Client.perform, withHandle, h.right]
    exact h.answering _ (h.connection.write bytes budget)
  | read i length budget =>
    obtain rfl : i = handle := of_decide_eq_true hcall
    rw [Client.perform, withHandle, h.left, Client.perform, withHandle, h.right]
    exact h.answering _ (h.connection.read length budget)
  | readUntilClose i budget =>
    obtain rfl : i = handle := of_decide_eq_true hcall
    rw [Client.perform, withHandle, h.left, Client.perform, withHandle, h.right]
    exact h.answering _ (h.connection.readUntilClose budget)
  | openStream destination budget => cases hcall
  | openService destination budget => cases hcall
  | close i => cases hcall
  | drop i => cases hcall

theorem Alike.run (h : Alike handle s client other) {calls : List Call}
    (hcalls : ∀ call ∈ calls, call.isTraffic handle = true) :
    (client.run calls).1 = (other.run calls).1 ∧
      Alike handle s (client.run calls).2 (other.run calls).2 := by
  induction calls generalizing client other with
  | nil => exact ⟨rfl, h⟩
  | cons call rest ih =>
    obtain ⟨hcall, hrest⟩ := List.forall_mem_cons.mp hcalls
    obtain ⟨hanswer, hnext⟩ := h.perform hcall
    obtain ⟨hothers, hlast⟩ := ih hnext hrest
    exact ⟨congrArg₂ List.cons hanswer hothers, hlast⟩

theorem run_moves (calls : List Call) (client : Client) :
    client.connection.Moves (client.run calls).2.connection := by
  induction calls generalizing client with
  | nil => exact .refl
  | cons call rest ih => exact (client.perform_moves call).trans (ih (client.perform call).2)

theorem alike_facing {queue queue' : List Message} (hs : client.handles[handle]? = some (some s))
    (hopen : client.connection.channel.link.isClosed = false)
    (hwhole : client.connection.channel.fragment = [])
    (hplan : ∀ d ∈ client.connection.channel.link.plan, d = .taken 0)
    (hfits : ∀ m ∈ queue ++ queue', m.payload.length < UInt32.size)
    (hagree : Message.Agree s.localId queue queue') :
    Alike handle s (client.facing queue) (client.facing queue') := by
  have hfacing {q : List Message} (hq : ∀ m ∈ q, m.payload.length < UInt32.size) :
      (client.facing q).connection.channel.Facing q := ⟨rfl, hwhole, hopen, hplan, hq⟩
  have hleft := hfacing (fun m hm => hfits m (List.mem_append_left _ hm))
  have hright := hfacing (fun m hm => hfits m (List.mem_append_right _ hm))
  exact ⟨hs, hs, queue, queue', hagree, hleft, hright, rfl, rfl, rfl, rfl⟩

end Client

/-- On a link that neither delays nor fails, two queues that differ in foreign messages at most come
to the same for a stream: all reads and writes through its handle have the same results, and the
same messages get out that carry its id. -/
theorem stream_separation (client : Client) (handle : Nat) (s : Stream)
    (hs : client.handles[handle]? = some (some s))
    (hopen : client.connection.channel.link.isClosed = false)
    (hwhole : client.connection.channel.fragment = [])
    (hplan : ∀ d ∈ client.connection.channel.link.plan, d = .taken 0)
    (queue queue' : List Message) (hfits : ∀ m ∈ queue ++ queue', m.payload.length < UInt32.size)
    (hagree : queue.filter (fun m => !m.isForeign s.localId) =
      queue'.filter fun m => !m.isForeign s.localId)
    (calls : List Call) (hcalls : ∀ call ∈ calls, call.isTraffic handle = true) :
    let left := (client.facing queue).run calls
    let right := (client.facing queue').run calls
    left.1 = right.1 ∧
    left.2.connection.writesOn s.localId = right.2.connection.writesOn s.localId ∧
    client.connection.Wrote left.2.connection ∧ client.connection.Wrote right.2.connection := by
  intro left right
  have halike : (client.facing queue).Alike handle s (client.facing queue') :=
    Client.alike_facing hs hopen hwhole hplan hfits (Message.agree_of_filter hagree)
  obtain ⟨hanswers, hlast⟩ := halike.run hcalls
  have hwrote (q : List Message) :
      client.connection.Wrote ((client.facing q).run calls).2.connection :=
    ((client.facing q).run_moves calls).wrote
  exact ⟨hanswers, hlast.connection.writes, hwrote queue, hwrote queue'⟩

/-- To the second stream the device says too much, and it speaks to one that is not there; the first
goes on as if nothing of this had come. -/
theorem stream_separation_noise :
    let answers : List Message := [⟨.okay, 101, 1, []⟩, ⟨.okay, 102, 2, []⟩]
    let client := (Client.fresh { link := { inbound := answers.map fun m => .chunk m.encode } }
      ⟨"device", "S", "", 0, 4096⟩ {}).after
        [.call (.openStream "a" 10), .call (.openStream "b" 10)]
    let plain : List Message :=
      [⟨.write, 101, 1, [97]⟩, ⟨.okay, 101, 1, []⟩, ⟨.close, 101, 1, []⟩]
    let noisy : List Message :=
      [⟨.write, 102, 2, [99]⟩, ⟨.okay, 102, 2, []⟩, ⟨.write, 101, 1, [97]⟩, ⟨.write, 7, 9, [99]⟩,
        ⟨.okay, 101, 1, []⟩, ⟨.close, 102, 2, []⟩, ⟨.close, 101, 1, []⟩]
    let calls : List Call := [.read 0 1 10, .write 0 [98] 10, .readUntilClose 0 10, .read 0 1 10]
    let left := (client.facing plain).run calls
    let right := (client.facing noisy).run calls
    left.1 = right.1 ∧
    left.2.connection.writesOn 1 = right.2.connection.writesOn 1 ∧
    left.1 = [.data [97], .written, .data [], .failed (.streamClosed 1)] ∧
    left.2.connection.table.find? 2 = some ⟨some 102, .opened, false, [], none⟩ ∧
    right.2.connection.table.find? 2 =
      some ⟨some 102, .closed, false, [99], some .strayOkay⟩ ∧
    left.2.connection.wire ≠ right.2.connection.wire := by
  intro answers client plain noisy calls left right
  obtain ⟨hanswers, hwrites, _⟩ := stream_separation client 0 ⟨"a", 1, false⟩ (by decide +kernel)
    (by decide +kernel) (by decide +kernel) (by decide +kernel) plain noisy (by decide +kernel)
    (by decide +kernel) calls (by decide +kernel)
  exact ⟨hanswers, hwrites, by decide +kernel, by decide +kernel, by decide +kernel,
    by decide +kernel⟩

end DroidHost
