import DroidHost.Bridge.Channel

/-! Reading is parsing: the fragment is always the beginning of a frame, never all of one, and no
read goes past the end of its frame. -/
namespace DroidHost

/-- A header that cannot be read is skipped alone; a frame whose payload does not fit its header is
skipped as a whole. -/
def Message.parse (bytes : Bytes) : List (Except BridgeError Message) :=
  if bytes.length < Header.size then []
  else
    match Header.decode (bytes.take Header.size) with
    | .error e => .error e :: parse (bytes.drop Header.size)
    | .ok h =>
      let rest := bytes.drop Header.size
      if rest.length < h.length.toNat then []
      else h.finish (rest.take h.length.toNat) :: parse (rest.drop h.length.toNat)
termination_by bytes.length
decreasing_by
  all_goals
    simp only [List.length_drop, Header.size] at *
    omega

namespace Message

theorem parse_append_bad {bytes : Bytes} {e : BridgeError} (hn : bytes.length = Header.size)
    (hd : Header.decode bytes = .error e) (rest : Bytes) :
    parse (bytes ++ rest) = .error e :: parse rest := by
  have ht : (bytes ++ rest).take Header.size = bytes := by rw [← hn, List.take_left]
  have hr : (bytes ++ rest).drop Header.size = rest := by rw [← hn, List.drop_left]
  have hl : ¬ (bytes ++ rest).length < Header.size := by
    rw [List.length_append]
    omega
  rw [parse, if_neg hl, ht, hr, hd]

theorem parse_append_frame {bytes : Bytes} {h : Header}
    (hd : Header.decode (bytes.take Header.size) = .ok h)
    (hn : bytes.length = Header.size + h.length.toNat) (rest : Bytes) :
    parse (bytes ++ rest) = h.finish (bytes.drop Header.size) :: parse rest := by
  have hle : Header.size ≤ bytes.length := by omega
  have hp : (bytes.drop Header.size).length = h.length.toNat := by
    rw [List.length_drop]
    omega
  have hl : ¬ (bytes ++ rest).length < Header.size := by
    rw [List.length_append]
    omega
  have hl' : ¬ (bytes.drop Header.size ++ rest).length < h.length.toNat := by
    rw [List.length_append]
    omega
  rw [parse, if_neg hl, List.take_append_of_le_length hle, hd, List.drop_append_of_le_length hle]
  simp only [if_neg hl']
  rw [← hp, List.take_left, List.drop_left]

theorem parse_of_short {bytes : Bytes} (h : bytes.length < Header.size) : parse bytes = [] := by
  rw [parse, if_pos h]

@[simp] theorem parse_nil : parse [] = [] := parse_of_short (by decide)

theorem parse_of_cut {bytes : Bytes} {h : Header}
    (hd : Header.decode (bytes.take Header.size) = .ok h)
    (hn : bytes.length < Header.size + h.length.toNat) : parse bytes = [] := by
  rw [parse]
  split
  · rfl
  · have hp : (bytes.drop Header.size).length < h.length.toNat := by
      rw [List.length_drop]
      omega
    simp only [hd, if_pos hp]

theorem decode_of_parse_nil {bytes : Bytes} (h : parse bytes = [])
    (hn : Header.size ≤ bytes.length) :
    ∃ header, Header.decode (bytes.take Header.size) = .ok header ∧
      bytes.length < Header.size + header.length.toNat := by
  rw [parse, if_neg (by omega)] at h
  split at h
  · cases h
  · next header hd =>
    refine ⟨header, hd, ?_⟩
    dsimp only at h
    split at h
    · next hl =>
      rw [List.length_drop] at hl
      omega
    · cases h

end Message

namespace Arrival

def bytes : Arrival → Bytes
  | chunk bytes => bytes
  | _ => []

def isHarmless : Arrival → Bool
  | chunk bytes => !bytes.isEmpty
  | pause _ => true
  | fault f => f.isTimeout

theorem take_harmless {wanted : Nat} (hw : 0 < wanted) (budget left : Nat) {queue : List Arrival}
    (h : ∀ a ∈ queue, a.isHarmless = true) :
    let found := take wanted budget left queue
    (∀ a ∈ found.rest, a.isHarmless = true) ∧
      match found.outcome with
      | .ok got => got ≠ [] ∧ queue.flatMap bytes = got ++ found.rest.flatMap bytes
      | .error f => f.isTimeout = true ∧ found.rest.flatMap bytes = queue.flatMap bytes := by
  intro found
  subst found
  fun_induction take wanted budget left queue with
  | case1 => exact ⟨h, rfl, rfl⟩
  | case2 left nanos rest _ ih =>
    rw [List.forall_mem_cons] at h
    exact ih h.2
  | case3 left nanos rest _ =>
    rw [List.forall_mem_cons] at h
    refine ⟨?_, rfl, rfl⟩
    rw [List.forall_mem_cons]
    exact ⟨rfl, h.2⟩
  | case4 left f rest =>
    rw [List.forall_mem_cons] at h
    exact ⟨h.2, h.1, rfl⟩
  | case5 left got rest _ =>
    rw [List.forall_mem_cons] at h
    refine ⟨h.2, ?_, rfl⟩
    intro he
    rw [he] at h
    cases h.1
  | case6 left got rest hlt =>
    rw [List.forall_mem_cons] at h
    have hne : got.drop wanted ≠ [] := by
      intro he
      rw [List.drop_eq_nil_iff] at he
      exact hlt he
    refine ⟨?_, ?_, ?_⟩
    · rw [List.forall_mem_cons]
      refine ⟨?_, h.2⟩
      simp only [isHarmless, Bool.not_eq_true', List.isEmpty_eq_false_iff]
      exact hne
    · apply List.ne_nil_of_length_pos
      rw [List.length_take]
      omega
    · rw [List.flatMap_cons, List.flatMap_cons, ← List.append_assoc]
      exact congrArg (· ++ _) (List.take_append_drop wanted got).symm

end Arrival

namespace Link

def coming (link : Link) : Bytes := link.inbound.flatMap Arrival.bytes

/-- The link brings nothing but bytes and delays. -/
structure Steady (link : Link) : Prop where
  isOpen : link.isClosed = false
  harmless : ∀ a ∈ link.inbound, a.isHarmless = true

theorem Steady.read {link : Link} (h : link.Steady) {wanted : Nat} (hw : 0 < wanted)
    (budget : Nat) :
    match Link.read wanted budget link with
    | .ok got after => after.Steady ∧ got ≠ [] ∧ got.length ≤ wanted ∧
        link.coming = got ++ after.coming
    | .error f after => after.Steady ∧ f.isTimeout = true ∧ after.coming = link.coming := by
  have ht := Arrival.take_harmless hw budget budget h.harmless
  unfold Link.read
  rw [if_neg (by rw [h.isOpen]; exact Bool.false_ne_true)]
  dsimp only at ht ⊢
  cases hr : (Arrival.take wanted budget budget link.inbound).outcome with
  | ok got =>
    rw [hr] at ht
    exact ⟨⟨h.isOpen, ht.1⟩, ht.2.1, (Arrival.load_take_ok hr).2, ht.2.2⟩
  | error f =>
    rw [hr] at ht
    exact ⟨⟨h.isOpen, ht.1⟩, ht.2⟩

end Link

/-- None if the read just ran out of time. -/
def settled : Except BridgeError α → Bool
  | .ok _ => true
  | .error e => !e.isTimeout

namespace Channel

/-- The fragment, and what is to come. -/
def stream (ch : Channel) : Bytes := ch.fragment ++ ch.link.coming

/-- What is kept of a message is not all of it. -/
structure Framed (ch : Channel) : Prop where
  steady : ch.link.Steady
  cut : Message.parse ch.fragment = []

theorem fill_of_le {target : Nat} {ch : Channel} (h : target ≤ ch.fragment.length)
    (deadline : Deadline) : ch.fill target deadline = .ok () ch := by
  rw [fill, if_pos h]

theorem fill_steady (target : Nat) (deadline : Deadline) {ch : Channel} (h : ch.link.Steady)
    (hn : ch.fragment.length ≤ target) :
    match ch.fill target deadline with
    | .ok _ after => after.link.Steady ∧ after.stream = ch.stream ∧
        ch.fragment <+: after.fragment ∧ after.fragment.length = target
    | .error e after => after.link.Steady ∧ after.stream = ch.stream ∧
        ch.fragment <+: after.fragment ∧ after.fragment.length < target ∧ e.isTimeout = true := by
  fun_induction fill target deadline ch with
  | case1 ch hle => exact ⟨h, rfl, List.prefix_refl _, Nat.le_antisymm hn hle⟩
  | case2 ch hlt f link hr =>
    have hs := h.read (Nat.sub_pos_of_lt (Nat.lt_of_not_le hlt)) (ch.allowance deadline)
    rw [hr] at hs
    refine ⟨hs.1, ?_, List.prefix_refl _, Nat.lt_of_not_le hlt, hs.2.1⟩
    rw [stream, hs.2.2]
    rfl
  | case3 ch hlt link hr =>
    have hs := h.read (Nat.sub_pos_of_lt (Nat.lt_of_not_le hlt)) (ch.allowance deadline)
    rw [hr] at hs
    exact absurd rfl hs.2.1
  | case4 ch hlt b got link hr ih =>
    have hs := h.read (Nat.sub_pos_of_lt (Nat.lt_of_not_le hlt)) (ch.allowance deadline)
    rw [hr] at hs
    obtain ⟨hlink, _, hgot, hcoming⟩ := hs
    have hlen : (ch.fragment ++ b :: got).length ≤ target := by
      rw [List.length_append]
      omega
    have hstream : stream { link := link, fragment := ch.fragment ++ b :: got } = ch.stream := by
      rw [stream, stream, hcoming, List.append_assoc]
    have hp : ch.fragment <+: ch.fragment ++ b :: got := List.prefix_append _ _
    have hi := ih hlink hlen
    cases hf : fill target deadline { link := link, fragment := ch.fragment ++ b :: got } with
    | ok u after =>
      rw [hf] at hi
      exact ⟨hi.1, hi.2.1.trans hstream, hp.trans hi.2.2.1, hi.2.2.2⟩
    | error e after =>
      rw [hf] at hi
      exact ⟨hi.1, hi.2.1.trans hstream, hp.trans hi.2.2.1, hi.2.2.2⟩

theorem gather_of_fill {deadline : Deadline} {ch mid : Channel} {u : Unit}
    (h : ch.fill Header.size deadline = .ok u mid) : ch.gather deadline = mid.gather deadline := by
  have hm := fill_of_le (fill_ok h).2.2 deadline
  rw [gather, gather, h, hm]

/-- A whole frame is in the fragment, or only the beginning of one. -/
def Parsed (ch : Channel) : EStateM.Result BridgeError Channel Message → Prop
  | .ok m after => after.link.Steady ∧ after.stream = ch.stream ∧
      ∀ rest, Message.parse (after.fragment ++ rest) = .ok m :: Message.parse rest
  | .error e after => after.link.Steady ∧ after.stream = ch.stream ∧
      if e.isTimeout then Message.parse after.fragment = []
      else ∀ rest, Message.parse (after.fragment ++ rest) = .error e :: Message.parse rest

theorem gather_with_header {ch : Channel} {h : Header} (hs : ch.link.Steady)
    (hn : Header.size ≤ ch.fragment.length)
    (hd : Header.decode (ch.fragment.take Header.size) = .ok h)
    (hlen : ch.fragment.length ≤ Header.size + h.length.toNat) (deadline : Deadline) :
    ch.Parsed (ch.gather deadline) := by
  have hf := fill_steady (Header.size + h.length.toNat) deadline hs hlen
  rw [gather, fill_of_le hn]
  simp only [hd]
  cases hr : ch.fill (Header.size + h.length.toNat) deadline with
  | error e after =>
    rw [hr] at hf
    obtain ⟨hlink, hstream, hp, hshort, ht⟩ := hf
    -- The fragment still begins with the same header, so it is cut before the end of its frame.
    have hd' : Header.decode (after.fragment.take Header.size) = .ok h := by
      rw [← hd, List.prefix_iff_eq_take.mp hp, List.take_take, Nat.min_eq_left hn]
    refine ⟨hlink, hstream, ?_⟩
    rw [if_pos ht]
    exact Message.parse_of_cut hd' hshort
  | ok u after =>
    rw [hr] at hf
    obtain ⟨hlink, hstream, hp, hwhole⟩ := hf
    have hd' : Header.decode (after.fragment.take Header.size) = .ok h := by
      rw [← hd, List.prefix_iff_eq_take.mp hp, List.take_take, Nat.min_eq_left hn]
    have hparse := Message.parse_append_frame hd' hwhole
    cases hm : h.finish (after.fragment.drop Header.size) with
    | ok m =>
      rw [hm] at hparse
      simp only [hm]
      exact ⟨hlink, hstream, hparse⟩
    | error e =>
      rw [hm] at hparse
      simp only [hm]
      refine ⟨hlink, hstream, ?_⟩
      rw [if_neg (by rw [Header.isTimeout_of_finish hm]; exact Bool.false_ne_true)]
      exact hparse

theorem gather_framed {ch : Channel} (h : ch.Framed) (deadline : Deadline) :
    ch.Parsed (ch.gather deadline) := by
  rcases Nat.lt_or_ge ch.fragment.length Header.size with hlt | hge
  · have hf := fill_steady Header.size deadline h.steady (Nat.le_of_lt hlt)
    cases hr : ch.fill Header.size deadline with
    | error e mid =>
      rw [hr] at hf
      obtain ⟨hlink, hstream, _, hshort, ht⟩ := hf
      rw [gather, hr]
      refine ⟨hlink, hstream, ?_⟩
      rw [if_pos ht]
      exact Message.parse_of_short hshort
    | ok u mid =>
      rw [hr] at hf
      obtain ⟨hlink, hstream, _, hwhole⟩ := hf
      have htake : mid.fragment.take Header.size = mid.fragment :=
        List.take_of_length_le (Nat.le_of_eq hwhole)
      cases hd : Header.decode mid.fragment with
      | ok header =>
        have hm := gather_with_header hlink (Nat.le_of_eq hwhole.symm) (htake.symm ▸ hd)
          (by omega) deadline
        rw [gather_of_fill hr]
        unfold Parsed at hm ⊢
        rw [hstream] at hm
        exact hm
      | error e =>
        rw [gather, hr]
        simp only [htake, hd]
        refine ⟨hlink, hstream, ?_⟩
        rw [if_neg (by rw [Header.isTimeout_of_decode hd]; exact Bool.false_ne_true)]
        exact Message.parse_append_bad hwhole hd
  · -- The header is there from an earlier read, and a bad one would not have been kept.
    obtain ⟨header, hd, hlt⟩ := Message.decode_of_parse_nil h.cut hge
    exact gather_with_header h.steady hge hd (Nat.le_of_lt hlt) deadline

/-- One read takes the next frame off the stream, or leaves the stream as it is, whatever is still to
follow. -/
theorem receive_frame {ch : Channel} (h : ch.Framed) (deadline : Deadline) :
    (final (ch.receive deadline)).Framed ∧ ∀ later,
      Message.parse (ch.stream ++ later) = [outcome (ch.receive deadline)].filter settled ++
        Message.parse ((final (ch.receive deadline)).stream ++ later) := by
  have hg := gather_framed h deadline
  unfold receive
  cases hr : ch.gather deadline with
  | ok m after =>
    rw [hr] at hg
    obtain ⟨hlink, hstream, hparse⟩ := hg
    refine ⟨⟨hlink, Message.parse_nil⟩, fun later => ?_⟩
    rw [← hstream, stream, List.append_assoc, hparse]
    rfl
  | error e after =>
    rw [hr] at hg
    obtain ⟨hlink, hstream, hparse⟩ := hg
    by_cases ht : e.isTimeout = true
    · rw [if_pos ht] at hparse
      simp only [ht, if_true, final_error, outcome_error, settled, List.filter_cons, Bool.not_true,
        Bool.false_eq_true, if_false, List.filter_nil, List.nil_append]
      exact ⟨⟨hlink, hparse⟩, fun later => by rw [hstream]⟩
    · rw [if_neg ht] at hparse
      simp only [ht, Bool.false_eq_true, if_false, final_error, outcome_error, settled,
        List.filter_cons, Bool.not_false, if_true, List.filter_nil]
      refine ⟨⟨hlink, Message.parse_nil⟩, fun later => ?_⟩
      rw [← hstream, stream, List.append_assoc, hparse]
      rfl

theorem receive_cases {ch : Channel} (h : ch.Framed) (deadline : Deadline) :
    match ch.receive deadline with
    | .ok m after => after.Framed ∧
        ∀ more, Message.parse (ch.stream ++ more) = .ok m :: Message.parse (after.stream ++ more)
    | .error e after => after.Framed ∧ ∀ more, Message.parse (ch.stream ++ more) =
        if e.isTimeout then Message.parse (after.stream ++ more)
        else .error e :: Message.parse (after.stream ++ more) := by
  obtain ⟨hframed, hparse⟩ := receive_frame h deadline
  cases hr : ch.receive deadline with
  | ok m after =>
    rw [hr] at hframed hparse
    exact ⟨hframed, hparse⟩
  | error e after =>
    rw [hr] at hframed hparse
    refine ⟨hframed, fun more => (hparse more).trans ?_⟩
    cases ht : e.isTimeout with
    | true =>
      simp only [outcome_error, settled, ht, Bool.not_true, List.filter_cons, Bool.false_eq_true,
        if_false, if_true, List.filter_nil]
      rfl
    | false =>
      simp only [outcome_error, settled, ht, Bool.not_false, List.filter_cons, Bool.false_eq_true,
        if_false, if_true, List.filter_nil]
      rfl

theorem receive_next {ch : Channel} (h : ch.Framed) {later : Bytes} {first : Message}
    {rest : List (Except BridgeError Message)}
    (hc : Message.parse (ch.stream ++ later) = .ok first :: rest) (deadline : Deadline) :
    match ch.receive deadline with
    | .ok m after => m = first ∧ after.Framed ∧
        ∀ more, Message.parse (ch.stream ++ more) = .ok m :: Message.parse (after.stream ++ more)
    | .error e after => e.isTimeout = true ∧ after.Framed ∧
        ∀ more, Message.parse (ch.stream ++ more) = Message.parse (after.stream ++ more) := by
  have hcases := receive_cases h deadline
  cases hr : ch.receive deadline with
  | ok m after =>
    rw [hr] at hcases
    obtain ⟨hframed, hparse⟩ := hcases
    have hfirst := hparse later
    rw [hc] at hfirst
    exact ⟨(Except.ok.inj (List.cons.inj hfirst).1).symm, hframed, hparse⟩
  | error e after =>
    rw [hr] at hcases
    obtain ⟨hframed, hparse⟩ := hcases
    cases ht : e.isTimeout with
    | true =>
      rw [ht] at hparse
      exact ⟨ht, hframed, hparse⟩
    | false =>
      have hfirst := hparse later
      rw [hc, ht, if_neg Bool.false_ne_true] at hfirst
      cases (List.cons.inj hfirst).1

theorem receive_sound {ch : Channel} (h : ch.Framed) {later : Bytes} {P : Message → Prop}
    (hsound : ∀ r ∈ Message.parse (ch.stream ++ later), ∃ m, r = .ok m ∧ P m) (deadline : Deadline) :
    match ch.receive deadline with
    | .ok m after => P m ∧ after.Framed ∧
        ∀ more, Message.parse (ch.stream ++ more) = .ok m :: Message.parse (after.stream ++ more)
    | .error e after => e.isTimeout = true ∧ after.Framed ∧
        ∀ more, Message.parse (ch.stream ++ more) = Message.parse (after.stream ++ more) := by
  have hcases := receive_cases h deadline
  cases hr : ch.receive deadline with
  | ok m after =>
    rw [hr] at hcases
    obtain ⟨hframed, hparse⟩ := hcases
    obtain ⟨m', hm', hgood⟩ := hsound (.ok m) (by
      rw [hparse]
      exact List.mem_cons_self ..)
    cases hm'
    exact ⟨hgood, hframed, hparse⟩
  | error e after =>
    rw [hr] at hcases
    obtain ⟨hframed, hparse⟩ := hcases
    cases ht : e.isTimeout with
    | true =>
      rw [ht] at hparse
      exact ⟨ht, hframed, hparse⟩
    | false =>
      obtain ⟨m, hm, _⟩ := hsound (.error e) (by
        rw [hparse, ht, if_neg Bool.false_ne_true]
        exact List.mem_cons_self ..)
      cases hm

theorem receive_framed {ch : Channel} (h : ch.Framed) (deadline : Deadline) :
    (final (ch.receive deadline)).Framed ∧
      Message.parse ch.stream = [outcome (ch.receive deadline)].filter settled ++
        Message.parse (final (ch.receive deadline)).stream := by
  obtain ⟨hframed, hparse⟩ := receive_frame h deadline
  refine ⟨hframed, ?_⟩
  have hnow := hparse []
  rw [List.append_nil, List.append_nil] at hnow
  exact hnow

def receiveAll : List Deadline → Channel → List (Except BridgeError Message) × Channel
  | [], ch => ([], ch)
  | deadline :: rest, ch =>
    let r := ch.receive deadline
    let later := receiveAll rest (final r)
    (outcome r :: later.1, later.2)

theorem receiveAll_framed (deadlines : List Deadline) {ch : Channel} (h : ch.Framed) :
    (ch.receiveAll deadlines).2.Framed ∧
      Message.parse ch.stream = (ch.receiveAll deadlines).1.filter settled ++
        Message.parse (ch.receiveAll deadlines).2.stream := by
  -- Each read takes off the front of the parse what it gives, and leaves a channel like the first.
  induction deadlines generalizing ch with
  | nil => exact ⟨h, rfl⟩
  | cons deadline rest ih =>
    obtain ⟨hnext, hfirst⟩ := receive_framed h deadline
    obtain ⟨hlast, hlater⟩ := ih hnext
    refine ⟨hlast, ?_⟩
    calc Message.parse ch.stream
        = [outcome (ch.receive deadline)].filter settled ++
            Message.parse (final (ch.receive deadline)).stream := hfirst
      _ = ([outcome (ch.receive deadline)] ++
            ((final (ch.receive deadline)).receiveAll rest).1).filter settled ++
            Message.parse (ch.receiveAll (deadline :: rest)).2.stream := by
          rw [hlater, List.filter_append, List.append_assoc]
          rfl

end Channel

/-- However a byte string is cut into chunks and wherever the time of a read runs out, what the
reads give is what the parser makes of it, and all of it once no bytes are left to come. -/
theorem reads_parse_stream (link : Link) (deadlines : List Deadline)
    (hopen : link.isClosed = false) (hin : ∀ a ∈ link.inbound, a.isHarmless = true) :
    let run := Channel.receiveAll deadlines { link := link }
    let results := run.1.filter settled
    results <+: Message.parse link.coming ∧
      (run.2.link.coming = [] → results = Message.parse link.coming) := by
  intro run results
  have hstart : Channel.Framed { link := link } :=
    ⟨⟨hopen, hin⟩, Message.parse_nil⟩
  obtain ⟨hlast, hparse⟩ := Channel.receiveAll_framed deadlines hstart
  change Message.parse link.coming = results ++ Message.parse run.2.stream at hparse
  refine ⟨⟨_, hparse.symm⟩, ?_⟩
  intro hend
  have hrest : Message.parse run.2.stream = [] := by
    rw [Channel.stream, hend, List.append_nil]
    exact hlast.cut
  rw [hparse, hrest, List.append_nil]

/-- A message cut in its header and in its payload, where the time runs out; then a header that
cannot be read. -/
theorem reads_parse_stream_cut :
    let m : Message := ⟨.write, 101, 1, [97, 98]⟩
    let bad : Bytes := List.replicate 24 0
    let link : Link := { inbound := [.chunk (m.encode.take 10), .pause 30000000,
      .chunk ((m.encode.drop 10).take 15), .fault (.io ⟨.wouldBlock, "again"⟩),
      .chunk (m.encode.drop 25 ++ bad ++ m.encode.take 7), .chunk (m.encode.drop 7)] }
    let reads : List Deadline := [⟨0, 5⟩, ⟨0, 40000000⟩, ⟨0, 5⟩, ⟨0, 5⟩, ⟨0, 5⟩]
    let run := Channel.receiveAll reads { link := link }
    run.2.link.coming = [] ∧ run.1.length = 5 ∧
      run.1.filter settled = [.ok m, .error (.protocol (.unknownCommand 0)), .ok m] ∧
      run.1.filter settled = Message.parse link.coming := by
  intro m bad link reads run
  have hend : run.2.link.coming = [] := by decide +kernel
  exact ⟨hend, by decide +kernel, by decide +kernel,
    (reads_parse_stream link reads rfl (by decide +kernel)).2 hend⟩

end DroidHost
