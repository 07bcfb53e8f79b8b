import DroidHost.Proofs.Codec
import DroidHost.Proofs.Promptness

/-! By how much a read can be late: by one floor for each of the last reads that were given no more
than that. -/
namespace DroidHost

namespace Transfer

def given : Transfer → Nat
  | received _ budget _ => budget
  | missed _ budget _ => budget
  | sent _ budget => budget
  | unsent _ budget _ => budget

end Transfer

/-- The reads at the end of a record, latest first, that were given the bare floor. Writes in
between do not count. -/
def floored : List Transfer → Nat
  | [] => 0
  | t :: earlier =>
    if t.isRead = true then if t.given = Deadline.transferFloor then floored earlier + 1 else 0
    else floored earlier

theorem floored_of_writes {writes : List Transfer} (h : ∀ t ∈ writes, t.isRead = false)
    (earlier : List Transfer) : floored (writes ++ earlier) = floored earlier := by
  induction writes with
  | nil => rfl
  | cons t writes ih =>
    obtain ⟨ht, hwrites⟩ := List.forall_mem_cons.mp h
    rw [List.cons_append, floored, if_neg (by rw [ht]; exact Bool.false_ne_true)]
    exact ih hwrites

theorem floored_le_append (lately earlier : List Transfer) :
    floored lately ≤ floored (lately ++ earlier) := by
  induction lately with
  | nil => exact Nat.zero_le _
  | cons t lately ih =>
    rw [List.cons_append, floored, floored]
    split
    · split
      · exact Nat.succ_le_succ ih
      · exact Nat.le_refl _
    · exact ih

namespace Arrival

theorem waited_take_le (wanted budget left : Nat) (queue : List Arrival) :
    (take wanted budget left queue).waited ≤ left := by
  fun_induction take wanted budget left queue with
  | case1 => exact Nat.le_refl _
  | case2 left nanos rest hshort ih =>
    simp only [Found.after]
    omega
  | case3 => exact Nat.le_refl _
  | case4 => exact Nat.zero_le _
  | case5 => exact Nat.zero_le _
  | case6 => exact Nat.zero_le _

/-- Bytes that come one by one, each at the last moment that the floor allows for. -/
def trickle (bytes : Bytes) : List Arrival :=
  bytes.flatMap fun b => [pause Deadline.transferFloor, chunk [b]]

end Arrival

namespace Link

/-- Writes take no time. -/
def Instant (link : Link) : Prop := ∀ d ∈ link.plan, d.time = 0

theorem read_given (wanted budget : Nat) (link : Link) :
    let after := final (link.read wanted budget)
    (∃ t, after.past = t :: link.past ∧ t.isRead = true ∧ t.given = budget) ∧
      after.now ≤ link.now + budget := by
  have hwaited := Arrival.waited_take_le wanted budget budget link.inbound
  unfold read
  by_cases hclosed : link.isClosed = true
  · rw [if_pos hclosed]
    exact ⟨⟨_, rfl, rfl, rfl⟩, Nat.le_add_right ..⟩
  · rw [if_neg hclosed]
    dsimp only
    cases (Arrival.take wanted budget budget link.inbound).outcome with
    | ok bytes => exact ⟨⟨_, rfl, rfl, rfl⟩, Nat.add_le_add_left hwaited _⟩
    | error f => exact ⟨⟨_, rfl, rfl, rfl⟩, Nat.add_le_add_left hwaited _⟩

theorem read_chunk {link : Link} (hopen : link.isClosed = false) {bytes : Bytes}
    {rest : List Arrival} (hinbound : link.inbound = .chunk bytes :: rest) {wanted : Nat}
    (hwanted : bytes.length ≤ wanted) (budget : Nat) :
    ∃ after, link.read wanted budget = .ok bytes after ∧ after.inbound = rest ∧
      after.isClosed = false ∧ after.now = link.now := by
  unfold read
  rw [if_neg (by rw [hopen]; exact Bool.false_ne_true), hinbound]
  unfold Arrival.take
  rw [if_pos hwanted]
  exact ⟨_, rfl, rfl, hopen, rfl⟩

theorem read_paused {link : Link} (hopen : link.isClosed = false) {nanos wanted budget : Nat}
    {b : UInt8} {rest : List Arrival} (hinbound : link.inbound = .pause nanos :: .chunk [b] :: rest)
    (hwanted : 0 < wanted) (hbudget : nanos ≤ budget) :
    ∃ after, link.read wanted budget = .ok [b] after ∧ after.inbound = rest ∧
      after.isClosed = false ∧ after.now = link.now + nanos := by
  unfold read
  rw [if_neg (by rw [hopen]; exact Bool.false_ne_true), hinbound]
  unfold Arrival.take Arrival.take
  rw [if_pos hbudget, if_pos (show [b].length ≤ wanted from hwanted)]
  exact ⟨_, rfl, rfl, hopen, rfl⟩

end Link

namespace Channel

variable {limit : Nat} {deadline : Deadline}

/-- What went by since the record was `earlier` is late by one floor for each of the last reads that
were given no more. -/
def Late (limit : Nat) (earlier : List Transfer) (ch : Channel) : Prop :=
  ∃ lately, ch.link.past = lately ++ earlier ∧
    ch.now ≤ limit + Deadline.transferFloor * floored lately

/-- In the middle of a read nothing is late yet unless a message has begun. -/
structure Reading (limit : Nat) (earlier : List Transfer) (ch : Channel) : Prop where
  late : ch.Late limit earlier
  begun : ch.fragment = [] → ch.now ≤ limit

/-- One read on the link, whatever it brings. -/
theorem Reading.read {ch : Channel} {earlier : List Transfer} (h : ch.Reading limit earlier)
    (hlimit : deadline.start + deadline.budget = limit) (wanted : Nat) (got : Bytes) :
    Reading limit earlier
      { link := final (ch.link.read wanted (ch.allowance deadline)),
        fragment := ch.fragment ++ got } := by
  obtain ⟨⟨t, hpast, hread, hgiven⟩, hnow⟩ := ch.link.read_given wanted (ch.allowance deadline)
  obtain ⟨⟨lately, hearlier, hlate⟩, hbegun⟩ := h
  have hpast' : (final (ch.link.read wanted (ch.allowance deadline))).past =
      t :: lately ++ earlier := by
    rw [hpast, hearlier]
    rfl
  have hintime (hnow : (final (ch.link.read wanted (ch.allowance deadline))).now ≤ limit) :
      Reading limit earlier
        { link := final (ch.link.read wanted (ch.allowance deadline)),
          fragment := ch.fragment ++ got } :=
    ⟨⟨t :: lately, hpast', Nat.le_trans hnow (Nat.le_add_right ..)⟩, fun _ => hnow⟩
  have hremaining : deadline.remaining ch.now = limit - ch.now := by
    rw [Deadline.remaining, hlimit]
  change _ ≤ ch.now + _ at hnow
  by_cases hempty : ch.fragment = []
  · have hin := hbegun hempty
    have hbudget : ch.allowance deadline = deadline.remaining ch.now := by
      rw [allowance, if_pos (List.isEmpty_iff.mpr hempty)]
    apply hintime
    omega
  · have hbudget : ch.allowance deadline =
        max (deadline.remaining ch.now) Deadline.transferFloor := by
      rw [allowance, if_neg (by rwa [List.isEmpty_iff]), Deadline.remainingOrFloor]
    by_cases hlong : Deadline.transferFloor < deadline.remaining ch.now
    · apply hintime
      omega
    · have hfloor : ch.allowance deadline = Deadline.transferFloor := by omega
      have hcount : floored (t :: lately) = floored lately + 1 := by
        rw [floored, if_pos hread, if_pos (hgiven.trans hfloor)]
      refine ⟨⟨t :: lately, hpast', ?_⟩, fun hnone => ?_⟩
      · calc (final (ch.link.read wanted (ch.allowance deadline))).now
            ≤ ch.now + Deadline.transferFloor := by rw [← hfloor]; exact hnow
          _ ≤ limit + Deadline.transferFloor * floored lately + Deadline.transferFloor :=
              Nat.add_le_add_right hlate _
          _ = limit + Deadline.transferFloor * floored (t :: lately) := by
              rw [hcount, Nat.mul_succ, Nat.add_assoc]
      · exact absurd (List.append_eq_nil_iff.mp hnone).1 hempty

theorem Reading.fill {ch : Channel} {earlier : List Transfer} (h : ch.Reading limit earlier)
    (hlimit : deadline.start + deadline.budget = limit) (target : Nat) :
    (final (ch.fill target deadline)).Reading limit earlier := by
  fun_induction Channel.fill target deadline ch with
  | case1 ch hle => exact h
  | case2 ch hlt f link hr =>
    have hread := h.read hlimit (target - ch.fragment.length) []
    rw [hr, List.append_nil] at hread
    exact hread
  | case3 ch hlt link hr =>
    have hread := h.read hlimit (target - ch.fragment.length) []
    rw [hr, List.append_nil] at hread
    exact hread
  | case4 ch hlt b bytes link hr ih =>
    have hread := h.read hlimit (target - ch.fragment.length) (b :: bytes)
    rw [hr] at hread
    exact ih hread

theorem Reading.gather {ch : Channel} {earlier : List Transfer} (h : ch.Reading limit earlier)
    (hlimit : deadline.start + deadline.budget = limit) :
    (final (ch.gather deadline)).Reading limit earlier := by
  have hfill := h.fill hlimit Header.size
  unfold Channel.gather
  cases hr : ch.fill Header.size deadline with
  | error e mid =>
    rw [hr] at hfill
    exact hfill
  | ok u mid =>
    rw [hr] at hfill
    dsimp only
    cases Header.decode (mid.fragment.take Header.size) with
    | error e => exact hfill
    | ok header =>
      have hmore := Reading.fill hfill hlimit (Header.size + header.length.toNat)
      dsimp only
      rw [final_ok] at hmore
      cases hr' : mid.fill (Header.size + header.length.toNat) deadline with
      | error e after =>
        rw [hr'] at hmore
        exact hmore
      | ok u after =>
        rw [hr'] at hmore
        dsimp only
        cases header.finish (after.fragment.drop Header.size) with
        | error e => exact hmore
        | ok m => exact hmore

theorem late_receive {ch : Channel} (hlimit : deadline.start + deadline.budget = limit)
    (hbegun : ch.now ≤ limit) : (final (ch.receive deadline)).Late limit ch.link.past := by
  have hreading : ch.Reading limit ch.link.past :=
    ⟨⟨[], rfl, Nat.le_trans hbegun (Nat.le_add_right ..)⟩, fun _ => hbegun⟩
  obtain ⟨⟨lately, hpast, hnow⟩, _⟩ := hreading.gather hlimit
  refine ⟨lately, ?_, ?_⟩
  · rw [link_receive, hpast]
  · rw [now, link_receive]
    exact hnow

theorem fill_more {target : Nat} {ch : Channel} {b : UInt8} {bytes : Bytes} {link : Link}
    (hshort : ¬ target ≤ ch.fragment.length)
    (hread : ch.link.read (target - ch.fragment.length) (ch.allowance deadline) =
      .ok (b :: bytes) link) :
    ch.fill target deadline =
      fill target deadline { link := link, fragment := ch.fragment ++ b :: bytes } := by
  rw [fill, if_neg hshort, hread]

/-- Past its deadline a read still waits a whole floor for each byte. -/
theorem fill_trickle (bytes : Bytes) (deadline : Deadline) (ch : Channel)
    (hopen : ch.link.isClosed = false)
    (hfragment : ch.fragment ≠ []) (hlate : deadline.start + deadline.budget ≤ ch.now)
    (hinbound : ch.link.inbound = Arrival.trickle bytes) :
    ∃ after, ch.fill (ch.fragment.length + bytes.length) deadline = .ok () after ∧
      after.fragment = ch.fragment ++ bytes ∧
      after.now = ch.now + Deadline.transferFloor * bytes.length := by
  induction bytes generalizing ch with
  | nil =>
    exact ⟨ch, fill_of_le (Nat.le_refl _) deadline, (List.append_nil _).symm, rfl⟩
  | cons b bytes ih =>
    have hfloor : ch.allowance deadline = Deadline.transferFloor := by
      have hnone : deadline.remaining ch.now = 0 := Nat.sub_eq_zero_of_le hlate
      rw [allowance, if_neg (by rwa [List.isEmpty_iff]), Deadline.remainingOrFloor, hnone]
      exact Nat.zero_max _
    have hwanted : 0 < ch.fragment.length + (b :: bytes).length - ch.fragment.length := by
      rw [List.length_cons]
      omega
    obtain ⟨link, hread, hrest, hstill, hnow⟩ := Link.read_paused hopen hinbound hwanted
      (Nat.le_of_eq hfloor.symm)
    -- With this byte in the fragment the rest is the same again, one floor later.
    have hlength : ch.fragment.length + (b :: bytes).length =
        (ch.fragment ++ [b]).length + bytes.length := by
      rw [List.length_append, List.length_cons, List.length_singleton]
      omega
    have hlater : deadline.start + deadline.budget ≤ link.now := by
      rw [hnow]
      exact Nat.le_trans hlate (Nat.le_add_right ..)
    obtain ⟨after, hfill, hheld, hend⟩ :=
      ih { link := link, fragment := ch.fragment ++ [b] } hstill
        (List.append_ne_nil_of_right_ne_nil _ (List.cons_ne_nil b [])) hlater hrest
    refine ⟨after, ?_, ?_, ?_⟩
    · rw [fill_more (by rw [List.length_cons]; omega) hread, hlength]
      exact hfill
    · rw [hheld, List.append_assoc]
      rfl
    · calc after.now = link.now + Deadline.transferFloor * bytes.length := hend
        _ = ch.now + Deadline.transferFloor + Deadline.transferFloor * bytes.length := by
            rw [hnow]
            rfl
        _ = ch.now + Deadline.transferFloor * (b :: bytes).length := by
            rw [List.length_cons, Nat.mul_succ]
            omega

theorem receive_of_fills {m : Message} (hfits : m.payload.length < UInt32.size)
    {ch mid after : Channel} {deadline : Deadline}
    (hheader : ch.fill Header.size deadline = .ok () mid)
    (hmid : mid.fragment = m.header)
    (hrest : mid.fill (Header.size + m.payload.length) deadline = .ok () after)
    (hwhole : after.fragment = m.encode) :
    ch.receive deadline = .ok m after.restart := by
  have hdecode : Header.decode (mid.fragment.take Header.size) = .ok m.heading := by
    rw [hmid, List.take_of_length_le (Nat.le_of_eq m.length_header)]
    exact m.heading.decode_encode
  have hlength : m.heading.length.toNat = m.payload.length := UInt32.toNat_ofNat_of_lt' hfits
  have hfinish : m.heading.finish (after.fragment.drop Header.size) = .ok m := by
    rw [hwhole, Message.drop_encode]
    exact Message.finish_eq_ok.mpr ⟨rfl, rfl, hfits⟩
  have hgather : ch.gather deadline = .ok m after := by
    unfold gather
    rw [hheader]
    dsimp only
    rw [hdecode]
    dsimp only
    rw [hlength, hrest]
    dsimp only
    rw [hfinish]
  rw [receive, hgather]

theorem fill_header {m : Message} {ch : Channel} (hopen : ch.link.isClosed = false)
    (hfragment : ch.fragment = []) {rest : List Arrival}
    (hinbound : ch.link.inbound = .chunk m.header :: rest) (deadline : Deadline) :
    ∃ link, ch.fill Header.size deadline = .ok () { link := link, fragment := m.header } ∧
      link.inbound = rest ∧ link.isClosed = false ∧ link.now = ch.now := by
  obtain ⟨link, hread, hrest, hstill, hnow⟩ :=
    Link.read_chunk hopen hinbound (Nat.le_of_eq m.length_header) (ch.allowance deadline)
  obtain ⟨first, others, hfirst⟩ := List.exists_cons_of_length_pos
    (show 0 < m.header.length by rw [Message.length_header]; decide)
  refine ⟨link, ?_, hrest, hstill, hnow⟩
  rw [hfirst] at hread
  rw [fill_more (by rw [hfragment]; decide) (by rw [hfragment]; exact hread), hfragment,
    List.nil_append, ← hfirst]
  exact fill_of_le (Nat.le_of_eq m.length_header.symm) _

theorem receive_trickle {m : Message} {b : UInt8} {bytes : Bytes}
    (hpayload : m.payload = b :: bytes)
    (hfits : m.payload.length < UInt32.size) {ch : Channel} (hopen : ch.link.isClosed = false)
    (hfragment : ch.fragment = []) {budget : Nat}
    (hinbound : ch.link.inbound =
      .chunk m.header :: .pause budget :: .chunk [b] :: Arrival.trickle bytes) :
    ∃ after, ch.receive ⟨ch.now, budget⟩ = .ok m after ∧
      after.now = ch.now + budget + Deadline.transferFloor * bytes.length := by
  have hlength : m.payload.length = bytes.length + 1 := congrArg List.length hpayload
  obtain ⟨link, hheader, hrest, hstill, hnow⟩ :=
    fill_header hopen hfragment hinbound ⟨ch.now, budget⟩
  have hbudget : budget ≤ allowance { link := link, fragment := m.header } ⟨ch.now, budget⟩ := by
    have hleft : Deadline.remaining ⟨ch.now, budget⟩ link.now = budget := by
      rw [Deadline.remaining, hnow]
      exact Nat.add_sub_cancel_left ..
    calc budget = Deadline.remaining ⟨ch.now, budget⟩ link.now := hleft.symm
      _ ≤ _ := remaining_le_allowance { link := link, fragment := m.header } ⟨ch.now, budget⟩
  have hwanted : 0 < Header.size + m.payload.length - m.header.length := by
    rw [hlength, Message.length_header]
    omega
  obtain ⟨link', hread, hrest', hstill', hnow'⟩ := Link.read_paused hstill hrest hwanted hbudget
  have hlate : ch.now + budget ≤ link'.now := Nat.le_of_eq (by rw [hnow', hnow])
  obtain ⟨after, hfill, hheld, hend⟩ := fill_trickle bytes ⟨ch.now, budget⟩
    { link := link', fragment := m.header ++ [b] } hstill'
    (List.append_ne_nil_of_right_ne_nil _ (List.cons_ne_nil b [])) hlate hrest'
  have htarget : Header.size + m.payload.length = (m.header ++ [b]).length + bytes.length := by
    rw [hlength, List.length_append, List.length_singleton, Message.length_header]
    omega
  have hmore : fill (Header.size + m.payload.length) ⟨ch.now, budget⟩
      { link := link, fragment := m.header } = .ok () after := by
    rw [fill_more (by dsimp only; rw [hlength, Message.length_header]; omega) hread, htarget]
    exact hfill
  have hwhole : after.fragment = m.encode := by
    rw [hheld, List.append_assoc, Message.encode, hpayload]
    rfl
  refine ⟨after.restart, receive_of_fills hfits hheader rfl hmore hwhole, ?_⟩
  calc after.now = link'.now + Deadline.transferFloor * bytes.length := hend
    _ = ch.now + budget + Deadline.transferFloor * bytes.length := by rw [hnow', hnow]

/-- Writes were tried in between and nothing else, and they took no time. -/
structure AtOnce (ch after : Channel) : Prop where
  past : ∃ writes, after.link.past = writes ++ ch.link.past ∧ ∀ t ∈ writes, t.isRead = false
  now : after.now = ch.now
  instant : after.link.Instant

theorem AtOnce.refl {ch : Channel} (h : ch.link.Instant) : AtOnce ch ch :=
  ⟨⟨[], rfl, List.forall_mem_nil _⟩, rfl, h⟩

theorem AtOnce.trans {ch mid after : Channel} (h : AtOnce ch mid) (h' : AtOnce mid after) :
    AtOnce ch after := by
  obtain ⟨⟨writes, hpast, hwrites⟩, hnow, _⟩ := h
  obtain ⟨⟨more, hpast', hmore⟩, hnow', hinstant⟩ := h'
  refine ⟨⟨more ++ writes, ?_, ?_⟩, hnow'.trans hnow, hinstant⟩
  · rw [hpast', hpast, List.append_assoc]
  · exact List.forall_mem_append.mpr ⟨hmore, hwrites⟩

theorem AtOnce.late {ch after : Channel} (h : AtOnce ch after) {earlier : List Transfer}
    (hlate : ch.Late limit earlier) : after.Late limit earlier := by
  obtain ⟨⟨writes, hpast, hwrites⟩, hnow, _⟩ := h
  obtain ⟨lately, hearlier, hin⟩ := hlate
  refine ⟨writes ++ lately, ?_, ?_⟩
  · rw [hpast, hearlier, List.append_assoc]
  · rw [hnow, floored_of_writes hwrites]
    exact hin

theorem put_atOnce {ch : Channel} (h : ch.link.Instant) (bytes : Bytes) (budget : Nat) :
    AtOnce ch (final (ch.put bytes budget)) := by
  have hone {t : Transfer} (ht : t.isRead = false) : ∀ s ∈ [t], s.isRead = false :=
    List.forall_mem_singleton.mpr ht
  unfold put Link.write
  by_cases hclosed : ch.link.isClosed = true
  · rw [if_pos hclosed]
    exact ⟨⟨[_], rfl, hone rfl⟩, rfl, h⟩
  · rw [if_neg hclosed]
    cases hplan : ch.link.plan with
    | nil => exact ⟨⟨[_], rfl, hone rfl⟩, rfl, h⟩
    | cons d rest =>
      have hrest : d.time = 0 ∧ ∀ d ∈ rest, d.time = 0 := by
        rw [Link.Instant, hplan] at h
        exact List.forall_mem_cons.mp h
      cases d with
      | taken nanos =>
        obtain ⟨hzero, hrest⟩ := hrest
        exact ⟨⟨[_], rfl, hone rfl⟩, congrArg (ch.link.now + ·) hzero, hrest⟩
      | refused f => exact ⟨⟨[_], rfl, hone rfl⟩, rfl, hrest.2⟩

theorem sendPayload_atOnce {ch : Channel} (h : ch.link.Instant) (m : Message)
    (deadline : Deadline) :
    AtOnce ch (final (ch.sendPayload m deadline)) := by
  unfold sendPayload
  split
  · exact .refl h
  · exact put_atOnce h _ _

end Channel

namespace Connection

variable {limit : Nat} {deadline : Deadline}

theorem send_atOnce {c : Connection} (h : c.channel.link.Instant) (m : Message)
    (deadline : Deadline) : Channel.AtOnce c.channel (final (c.send m deadline)).channel := by
  have hheader : Channel.AtOnce c.channel (final (c.channel.sendHeader m deadline)) :=
    Channel.put_atOnce h _ _
  unfold send
  cases hs : c.channel.sendHeader m deadline with
  | error f ch =>
    rw [hs] at hheader
    exact hheader
  | ok u ch =>
    rw [hs] at hheader
    have hpayload := Channel.sendPayload_atOnce hheader.instant m deadline
    rw [final_ok] at hpayload
    dsimp only
    cases hp : ch.sendPayload m deadline with
    | error f last =>
      rw [hp] at hpayload
      exact hheader.trans hpayload
    | ok u last =>
      rw [hp] at hpayload
      exact hheader.trans hpayload

theorem acknowledge_atOnce {c : Connection} (h : c.channel.link.Instant) (ack : Message)
    (deadline : Deadline) : Channel.AtOnce c.channel (c.acknowledge ack deadline).channel := by
  have hsend := send_atOnce h ack
    (c.deadline (deadline.remainingOrFloor Deadline.transferFloor c.now))
  unfold acknowledge
  split
  · next hs =>
    rw [hs] at hsend
    exact hsend
  · next hs =>
    rw [hs] at hsend
    rw [channel_spoil]
    exact hsend

theorem late_takeIn {c : Connection} (hinstant : c.channel.link.Instant)
    (hlimit : deadline.start + deadline.budget = limit) (hbegun : c.now ≤ limit) :
    let after := final (c.takeIn deadline)
    after.channel.link.Instant ∧ after.channel.Late limit c.channel.link.past := by
  have hlate := c.channel.late_receive hlimit hbegun
  have hplan : (final (c.channel.receive deadline)).link.Instant := by
    rw [Link.Instant, Channel.plan_receive]
    exact hinstant
  -- What is late is the read of the message; the acknowledgement of it takes no time.
  unfold takeIn
  cases hr : c.channel.receive deadline with
  | error e ch =>
    rw [hr] at hlate hplan
    dsimp only
    split
    · exact ⟨hplan, hlate⟩
    · exact ⟨hplan, hlate⟩
  | ok m ch =>
    rw [hr] at hlate hplan
    dsimp only
    split
    · exact ⟨hplan, hlate⟩
    · exact ⟨hplan, hlate⟩
    · next table ack hroute =>
      have hack := acknowledge_atOnce (c := { c.hear m ch with table := table }) hplan ack
        deadline
      exact ⟨hack.instant, hack.late hlate⟩

theorem late_waitFor {id : UInt32} {awaited : Awaited} {look : StreamState → Look α}
    {c : Connection} (hinstant : c.channel.link.Instant)
    (hlimit : deadline.start + deadline.budget = limit) :
    let after := final (c.waitFor id deadline awaited look)
    after.channel = c.channel ∨ after.channel.Late limit c.channel.link.past := by
  fun_induction waitFor id deadline awaited look c with
  | case1 c said hs =>
    left
    cases said with
    | ok a after =>
      obtain ⟨s, s', _, _, rfl⟩ := inspect_ok hs
      rfl
    | error e after =>
      cases inspect_error hs
      rfl
  | case2 c hs he => exact .inl rfl
  | case3 c hs he u mid ht ih =>
    right
    have hbegun : c.now ≤ limit := by
      rw [Deadline.hasExpired_iff, hlimit] at he
      omega
    have htaken := late_takeIn hinstant hlimit hbegun
    rw [ht] at htaken
    obtain ⟨hinstant', lately, hpast, hnow⟩ := htaken
    rcases ih hinstant' with hsame | ⟨more, hpast', hnow'⟩
    · rw [hsame]
      exact ⟨lately, hpast, hnow⟩
    · refine ⟨more ++ lately, ?_, ?_⟩
      · rw [hpast', List.append_assoc]
        exact congrArg (more ++ ·) hpast
      · exact Nat.le_trans hnow'
          (Nat.add_le_add_left (Nat.mul_le_mul_left _ (floored_le_append more lately)) _)
  | case4 c hs he e mid ht =>
    right
    have hbegun : c.now ≤ limit := by
      rw [Deadline.hasExpired_iff, hlimit] at he
      omega
    have htaken := late_takeIn hinstant hlimit hbegun
    rw [ht] at htaken
    exact htaken.2

theorem late_read {c : Connection} (hinstant : c.channel.link.Instant) (id : UInt32)
    (length budget : Nat) :
    (final (c.read id length budget)).channel.Late (c.now + budget) c.channel.link.past := by
  have hwait : let after := final (c.waitFor id (c.deadline budget) (.data id)
      (StreamState.supplying id length))
      after.channel = c.channel ∨ after.channel.Late (c.now + budget) c.channel.link.past :=
    late_waitFor hinstant rfl
  have hsame : (final (c.read id length budget)).channel =
      (final (c.waitFor id (c.deadline budget) (.data id)
        (StreamState.supplying id length))).channel := by
    unfold read readBy
    cases c.waitFor id (c.deadline budget) (.data id) (StreamState.supplying id length) with
    | ok bytes after => rfl
    | error e after => rfl
  rw [hsame]
  rcases hwait with hstill | hlate
  · rw [hstill]
    exact ⟨[], rfl, Nat.le_trans (Nat.le_add_right ..) (Nat.le_add_right ..)⟩
  · exact hlate

end Connection

/-- A read ends no later than its budget and one floor for each of its last reads that were given
the bare floor. There can be one for each byte of a message. -/
theorem read_late_by_floors (budget : Nat) :
    (∀ ch : Channel, ∃ lately,
      (final (ch.receive ⟨ch.now, budget⟩)).link.past = lately ++ ch.link.past ∧
      (final (ch.receive ⟨ch.now, budget⟩)).now ≤
        ch.now + budget + Deadline.transferFloor * floored lately) ∧
    (∀ (c : Connection) (id : UInt32) (length : Nat), c.channel.link.Instant →
      ∃ lately,
        (final (c.read id length budget)).channel.link.past = lately ++ c.channel.link.past ∧
        (final (c.read id length budget)).now ≤
          c.now + budget + Deadline.transferFloor * floored lately) ∧
    ∀ (m : Message) (b : UInt8) (bytes : Bytes) (ch : Channel), m.payload = b :: bytes →
      m.payload.length < UInt32.size → ch.link.isClosed = false → ch.fragment = [] →
      ch.link.inbound = .chunk m.header :: .pause budget :: .chunk [b] :: Arrival.trickle bytes →
      ∃ after, ch.receive ⟨ch.now, budget⟩ = .ok m after ∧
        after.now = ch.now + budget + Deadline.transferFloor * bytes.length := by
  refine ⟨fun ch => ?_, fun c id length hinstant => ?_, ?_⟩
  · exact ch.late_receive rfl (Nat.le_add_right ..)
  · exact Connection.late_read hinstant id length budget
  · intro m b bytes ch hpayload hfits hopen hfragment hinbound
    exact Channel.receive_trickle hpayload hfits hopen hfragment hinbound

/-- Three bytes of payload, the first of them at the deadline. -/
theorem read_late_by_floors_three :
    let m : Message := ⟨.write, 100, 1, [104, 105, 33]⟩
    let link : Link :=
      { inbound := .chunk m.header :: .pause (Duration.ofMillis 1) :: .chunk [104] ::
          (Arrival.trickle [105, 33]) }
    let c := (Client.fresh { link := link } ⟨"device", "S", "", 0, 4096⟩ {}).connection
    (∃ after, Channel.receive ⟨0, Duration.ofMillis 1⟩ { link := link } = .ok m after ∧
      after.now = Duration.ofMillis 21) ∧
    ∃ lately, (final (c.read 1 1 (Duration.ofMillis 1))).channel.link.past = lately ++ [] ∧
      (final (c.read 1 1 (Duration.ofMillis 1))).now ≤
        Duration.ofMillis 1 + Deadline.transferFloor * floored lately := by
  intro m link c
  obtain ⟨_, hread, htrickle⟩ := read_late_by_floors (Duration.ofMillis 1)
  obtain ⟨after, hreceived, hnow⟩ :=
    htrickle m 104 [105, 33] { link := link } rfl (by decide) rfl rfl rfl
  have hlate := hread c 1 1 (List.forall_mem_nil _)
  rw [show c.now = 0 from rfl, Nat.zero_add] at hlate
  exact ⟨⟨after, hreceived, hnow.trans (by decide)⟩, hlate⟩

/-- One byte at once, one after nine milliseconds, the rest after nine more: received, with a budget
of one. -/
theorem read_outlasts_floor :
    let data : Message := ⟨.write, 100, 1, [104, 105]⟩
    let late : List Arrival := [.chunk (data.encode.take 1), .pause (Duration.ofMillis 9),
      .chunk ((data.encode.drop 1).take 1), .pause (Duration.ofMillis 9),
      .chunk (data.encode.drop 2)]
    let ch : Channel := { link := { inbound := late } }
    let budget := Duration.ofMillis 1
    let accepted : Message := ⟨.okay, 100, 1, []⟩
    let c := ((Client.fresh { link := { inbound := [.chunk accepted.encode] } }
      ⟨"device", "S", "", 0, 4096⟩ {}).after [.call (.openStream "a" 10), .supply late]).connection
    outcome (ch.receive ⟨ch.now, budget⟩) = .ok data ∧
    ch.now + budget + Deadline.transferFloor < (final (ch.receive ⟨ch.now, budget⟩)).now ∧
    c.channel.link.Instant ∧ outcome (c.read 1 2 budget) = .ok [104, 105] ∧
    c.now + budget + Deadline.transferFloor < (final (c.read 1 2 budget)).now := by
  intro data late ch budget accepted c
  refine ⟨by decide +kernel, by decide +kernel, ?_, by decide +kernel, by decide +kernel⟩
  have hplan : c.channel.link.plan = [] := by decide +kernel
  rw [Link.Instant, hplan]
  exact List.forall_mem_nil _

end DroidHost
