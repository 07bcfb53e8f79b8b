import DroidHost.Proofs.Wire

/-! Framing of what is written. A write may fail between a header and its payload, and then the next
header follows. -/
namespace DroidHost

/-- Whole messages, the last of which may be cut off after its header. -/
def Whole (writes : List (Message × Part)) : Prop :=
  ∃ (ms : List Message) (torn : List (Message × Part)), writes = ms.flatMap Message.writes ++ torn ∧
    (torn = [] ∨ ∃ m, m.payload ≠ [] ∧ torn = [(m, .header)])

/-- A payload could not be written, and later something else was. -/
def Resumed (story : List Occurrence) : Prop :=
  ∃ earlier m later, story = earlier ++ .unsent m true :: later ∧
    later.flatMap Occurrence.writes ≠ []

theorem whole_append (m : Message) (rest : List (Message × Part)) :
    Whole (m.writes ++ rest) ↔ Whole rest := by
  constructor
  · rintro ⟨ms, torn, he, ht⟩
    cases ms with
    | nil =>
      exfalso
      rw [List.flatMap_nil, List.nil_append, Message.writes, List.cons_append] at he
      rcases ht with rfl | ⟨m', hm', rfl⟩
      · cases he
      · obtain ⟨hhead, htail⟩ := List.cons.inj he
        have hm : m = m' := congrArg Prod.fst hhead
        rw [hm, if_neg hm'] at htail
        cases htail
    | cons m' ms =>
      rw [List.flatMap_cons, List.append_assoc] at he
      have hhead : (m, Part.header) = (m', Part.header) := (List.cons.inj he).1
      have hm : m = m' := congrArg Prod.fst hhead
      subst hm
      exact ⟨ms, torn, List.append_cancel_left he, ht⟩
  · rintro ⟨ms, torn, he, ht⟩
    refine ⟨m :: ms, torn, ?_, ht⟩
    rw [List.flatMap_cons, List.append_assoc, he]

theorem whole_torn {m : Message} (hm : m.payload ≠ []) {rest : List (Message × Part)}
    (hr : ∀ k more, rest ≠ (k, .payload) :: more) :
    Whole ((m, .header) :: rest) ↔ rest = [] := by
  constructor
  · rintro ⟨ms, torn, he, ht⟩
    cases ms with
    | nil =>
      rw [List.flatMap_nil, List.nil_append] at he
      rcases ht with rfl | ⟨m', _, rfl⟩
      · cases he
      · exact (List.cons.inj he).2
    | cons m' ms =>
      exfalso
      rw [List.flatMap_cons, Message.writes, List.cons_append, List.cons_append] at he
      obtain ⟨hhead, htail⟩ := List.cons.inj he
      have hmm : m = m' := congrArg Prod.fst hhead
      rw [← hmm, if_neg hm] at htail
      exact hr _ _ htail
  · intro h
    refine ⟨[], [(m, .header)], ?_, .inr ⟨m, hm, rfl⟩⟩
    rw [h]
    rfl

theorem writes_begin (story : List Occurrence) :
    story.flatMap Occurrence.writes = [] ∨
      ∃ m more, story.flatMap Occurrence.writes = (m, .header) :: more := by
  induction story with
  | nil => exact .inl rfl
  | cons o rest ih =>
    rw [List.flatMap_cons]
    cases o with
    | sent m => exact .inr ⟨m, _, rfl⟩
    | unsent m begun =>
      cases begun with
      | true => exact .inr ⟨m, _, rfl⟩
      | false => exact ih
    | entered id => exact ih
    | arrived m phase => exact ih
    | taken id bytes => exact ih
    | removed id => exact ih

theorem resumed_cons {o : Occurrence} {rest : List Occurrence} :
    Resumed (o :: rest) ↔
      (∃ m, o = .unsent m true ∧ rest.flatMap Occurrence.writes ≠ []) ∨ Resumed rest := by
  constructor
  · rintro ⟨earlier, m, later, he, hl⟩
    cases earlier with
    | nil =>
      obtain ⟨rfl, rfl⟩ := List.cons.inj he
      exact .inl ⟨m, rfl, hl⟩
    | cons e earlier =>
      obtain ⟨rfl, rfl⟩ := List.cons.inj he
      exact .inr ⟨earlier, m, later, rfl, hl⟩
  · rintro (⟨m, rfl, hl⟩ | ⟨earlier, m, later, rfl, hl⟩)
    · exact ⟨[], m, rest, rfl, hl⟩
    · exact ⟨o :: earlier, m, later, rfl, hl⟩

theorem not_resumed_of_silent {story : List Occurrence}
    (h : story.flatMap Occurrence.writes = []) : ¬ Resumed story := by
  rintro ⟨earlier, m, later, rfl, hl⟩
  rw [List.flatMap_append, List.flatMap_cons] at h
  exact hl (List.append_eq_nil_iff.mp (List.append_eq_nil_iff.mp h).2).2

/-- The framing is whole exactly as long as nothing follows a payload that could not be written. -/
theorem whole_iff {story : List Occurrence}
    (ht : ∀ m, .unsent m true ∈ story → m.payload ≠ []) :
    Whole (story.flatMap Occurrence.writes) ↔ ¬ Resumed story := by
  induction story with
  | nil =>
    have hw : Whole [] := ⟨[], [], rfl, .inl rfl⟩
    have hr : ¬ Resumed [] := not_resumed_of_silent rfl
    exact ⟨fun _ => hr, fun _ => hw⟩
  | cons o rest ih =>
    have hi := ih (fun m hm => ht m (List.mem_cons_of_mem _ hm))
    have skip (hn : ∀ m, o ≠ .unsent m true) : Resumed (o :: rest) ↔ Resumed rest := by
      rw [resumed_cons]
      constructor
      · rintro (⟨m, hm, _⟩ | h)
        · exact absurd hm (hn m)
        · exact h
      · exact .inr
    rw [List.flatMap_cons]
    cases o with
    | sent m =>
      rw [skip nofun]
      exact (whole_append m _).trans hi
    | unsent m begun =>
      cases begun with
      | true =>
        -- A torn message. What follows would have to begin with its payload, but begins with a
        -- header.
        have hm := ht m (List.mem_cons_self ..)
        have hr : ∀ k more, rest.flatMap Occurrence.writes ≠ (k, .payload) :: more := by
          intro k more he
          rcases writes_begin rest with h | ⟨m', more', h⟩
          · rw [h] at he
            cases he
          · rw [h] at he
            cases he
        have hw := whole_torn hm hr
        refine hw.trans ?_
        constructor
        · intro hs h
          rcases resumed_cons.mp h with ⟨_, _, hl⟩ | h
          · exact hl hs
          · exact not_resumed_of_silent hs h
        · intro h
          by_cases hl : rest.flatMap Occurrence.writes = []
          · exact hl
          · exact absurd (resumed_cons.mpr (.inl ⟨m, rfl, hl⟩)) h
      | false =>
        rw [skip nofun]
        exact hi
    | entered id =>
      rw [skip nofun]
      exact hi
    | arrived m phase =>
      rw [skip nofun]
      exact hi
    | taken id bytes =>
      rw [skip nofun]
      exact hi
    | removed id =>
      rw [skip nofun]
      exact hi

theorem Resumed.spliced {story : List Occurrence} (h : Resumed story) :
    ∃ m, .unsent m true ∈ story ∧ ∃ before next more, story.flatMap Occurrence.writes =
      before ++ (m, .header) :: (next, .header) :: more := by
  obtain ⟨earlier, m, later, rfl, hl⟩ := h
  obtain ⟨next, more, hn⟩ := (writes_begin later).resolve_left hl
  refine ⟨m, List.mem_append_right _ (List.mem_cons_self ..),
    earlier.flatMap Occurrence.writes, next, more, ?_⟩
  rw [List.flatMap_append, List.flatMap_cons, hn]
  rfl

theorem Connection.sendPiece_unsent {id : UInt32} {deadline : Deadline} {piece : Bytes}
    {c after : Connection} {f : LinkFault} (h : c.sendPiece id deadline piece = .error (.link f) after) :
    ∃ peer begun, after.past = .unsent ⟨.write, id, peer, piece⟩ begun :: c.past ∧
      after.wire = c.wire ++
        (if begun then Message.header ⟨.write, id, peer, piece⟩ else []) ∧
      (after.table.find? id).map StreamState.awaiting = some false := by
  unfold sendPiece at h
  split at h
  · cases h
  · next s hs =>
    split at h
    · next e he =>
      exfalso
      cases h
      unfold StreamState.writable at he
      repeat' split at he
      all_goals cases he
    · next peer hp =>
      have ha : s.awaiting = false := by
        unfold StreamState.writable at hp
        split at hp
        · cases hp
        · split at hp
          · cases hp
          · split at hp
            · cases hp
            · next ha => exact Bool.eq_false_iff.mpr ha
          · cases hp
      have hr := c.send_record ⟨.write, id, peer, piece⟩ deadline
      have ht := (c.send_weight ⟨.write, id, peer, piece⟩ deadline).2.1
      split at h
      · next hsend =>
        cases h
        rw [hsend] at hr ht
        obtain ⟨begun, hpast, hwire, _⟩ := hr
        refine ⟨peer, begun, hpast, hwire, ?_⟩
        rw [show after.table = c.table from ht, hs, Option.map_some, ha]
      · cases h

theorem Whole.join {writes : List (Message × Part)} (h : Whole writes) :
    ∃ (ms : List Message) (tail : Bytes), Part.join writes = ms.flatMap Message.encode ++ tail ∧
      (tail = [] ∨ ∃ m : Message, m.payload ≠ [] ∧ tail = m.header) := by
  obtain ⟨ms, torn, rfl, ht⟩ := h
  refine ⟨ms, Part.join torn, ?_, ?_⟩
  · rw [join_append]
    congr 1
    induction ms with
    | nil => rfl
    | cons m ms ih =>
      rw [List.flatMap_cons, join_append, join_writes, ih, List.flatMap_cons]
  · rcases ht with rfl | ⟨m, hm, rfl⟩
    · exact .inl rfl
    · exact .inr ⟨m, hm, List.append_nil _⟩

/-- After every run the wire holds the writes that got through. They are whole messages, the last
one perhaps cut off after its header, exactly if nothing follows a payload that could not be
written; and a piece that cannot be sent leaves nothing to wait for. -/
theorem outgoing_framing {link : Link} (hlink : link.past = []) (signers : List Signer)
    (settings : HostSettings) {info : DeviceInfo} {channel : Channel}
    (hconnect : Channel.connect signers settings { link := link } = .ok info channel)
    (events : List Event) :
    let c := ((Client.fresh channel info settings).after events).connection
    (∃ greeting : List Message,
      c.wire = greeting.flatMap Message.encode ++ Part.join c.writes) ∧
    (Whole c.writes ↔ ¬ Resumed c.past.reverse) ∧
    (¬ Resumed c.past.reverse → ∃ (ms : List Message) (tail : Bytes),
      c.wire = ms.flatMap Message.encode ++ tail ∧
        (tail = [] ∨ ∃ m : Message, m.payload ≠ [] ∧ tail = m.header)) ∧
    (Resumed c.past.reverse → ∃ m, m.payload ≠ [] ∧ ∃ before next more,
      c.writes = before ++ (m, .header) :: (next, .header) :: more) ∧
    ∀ id deadline piece f after, c.sendPiece id deadline piece = .error (.link f) after →
      ∃ peer begun, after.past = .unsent ⟨.write, id, peer, piece⟩ begun :: c.past ∧
        after.wire = c.wire ++
          (if begun then Message.header ⟨.write, id, peer, piece⟩ else []) ∧
        (after.table.find? id).map StreamState.awaiting = some false := by
  intro c
  obtain ⟨greeting, hgreeting⟩ := Channel.posted_connect hconnect
  have hsilent : link.wire = [] := by rw [Link.wire, hlink, List.reverse_nil, List.flatMap_nil]
  have hmoves : (Client.fresh channel info settings).connection.Moves c :=
    (Client.fresh channel info settings).after_moves events
  obtain ⟨lately, hpast, hwire, htorn⟩ := hmoves.wrote
  have hlately : c.past = lately := hpast.trans (List.append_nil lately)
  rw [← hlately] at hwire htorn
  have hstart : c.wire = greeting.flatMap Message.encode ++ Part.join c.writes := by
    calc c.wire = channel.link.wire ++ Part.join c.writes := hwire
      _ = link.wire ++ greeting.flatMap Message.encode ++ Part.join c.writes := by rw [hgreeting]
      _ = greeting.flatMap Message.encode ++ Part.join c.writes := by
          rw [hsilent, List.nil_append]
  have hnonempty (m : Message) (hm : .unsent m true ∈ c.past.reverse) : m.payload ≠ [] :=
    htorn m (List.mem_reverse.mp hm)
  have hwhole : Whole c.writes ↔ ¬ Resumed c.past.reverse := whole_iff hnonempty
  refine ⟨⟨greeting, hstart⟩, hwhole, ?_, ?_, fun _ _ _ _ _ => Connection.sendPiece_unsent⟩
  · intro hr
    obtain ⟨ms, tail, hj, ht⟩ := (hwhole.mpr hr).join
    refine ⟨greeting ++ ms, tail, ?_, ht⟩
    rw [hstart, hj, List.flatMap_append, List.append_assoc]
  · intro hr
    obtain ⟨m, hm, hsplice⟩ := hr.spliced
    exact ⟨m, hnonempty m hm, hsplice⟩

/-- A device that accepts one stream. The payload of the first data cannot be written. -/
def refusedPayload : Link :=
  { inbound := [.chunk (Message.encode
        ⟨.connect, protocolVersion, 4096, [100, 101, 118, 105, 99, 101, 58, 83, 58]⟩),
      .chunk (Message.encode ⟨.okay, 100, 1, []⟩)],
    plan := [.taken 0, .taken 0, .taken 0, .taken 0, .taken 0, .refused (.writeFailed "gone")] }

/-- The header of the data stays alone on the wire, and the closing of the stream lands where the
device expects the payload. -/
theorem refused_payload_spliced :
    let start := Channel.connect [] {} { link := refusedPayload }
    let client := Client.fresh (final start) ⟨"device", "S", "", protocolVersion, 4096⟩ {}
    let opened : List Event := [.call (.openStream "a" 10), .call (.write 0 [7, 8] 10)]
    let c := (client.after opened).connection
    let last := (client.after (opened ++ [.call (.close 0)])).connection
    outcome start = .ok ⟨"device", "S", "", protocolVersion, 4096⟩ ∧
      c.wire = Message.encode (Channel.greeting {}) ++ Message.encode ⟨.start, 1, 0, [97, 0]⟩ ++
        Message.header ⟨.write, 1, 100, [7, 8]⟩ ∧
      (c.table.find? 1).map StreamState.awaiting = some false ∧
      last.wire = c.wire ++ Message.encode ⟨.close, 1, 100, []⟩ ∧ ¬ Whole last.writes := by
  intro start client opened c last
  refine ⟨by decide +kernel, by decide +kernel, by decide +kernel, by decide +kernel, ?_⟩
  have hpast : last.past.reverse = [.entered 1, .sent ⟨.start, 1, 0, [97, 0]⟩,
      .arrived ⟨.okay, 100, 1, []⟩ (some .pending), .unsent ⟨.write, 1, 100, [7, 8]⟩ true,
      .removed 1, .sent ⟨.close, 1, 100, []⟩] := by decide +kernel
  have hresumed : Resumed last.past.reverse := by
    rw [hpast]
    exact ⟨[.entered 1, .sent ⟨.start, 1, 0, [97, 0]⟩,
      .arrived ⟨.okay, 100, 1, []⟩ (some .pending)], _, _, rfl, by decide⟩
  have hnonempty : ∀ m, .unsent m true ∈ last.past.reverse → m.payload ≠ [] := by
    rw [hpast]
    intro m hm
    simp only [List.mem_cons, reduceCtorEq, Occurrence.unsent.injEq, and_true, List.not_mem_nil,
      or_false, false_or] at hm
    rw [hm]
    exact List.cons_ne_nil _ _
  intro hw
  exact (whole_iff hnonempty).mp hw hresumed

/-- The same link, right before the write that fails, and a second try of it. -/
theorem outgoing_framing_refused_payload :
    let start := Channel.connect [] {} { link := refusedPayload }
    let client := Client.fresh (final start) ⟨"device", "S", "", protocolVersion, 4096⟩ {}
    let ready := (client.after [.call (.openStream "a" 10)]).connection
    let c := (client.after [.call (.openStream "a" 10), .call (.write 0 [7, 8] 10),
      .call (.write 0 [7, 8] 10)]).connection
    (∃ peer begun after,
      ready.sendPiece 1 ⟨0, 10⟩ [7, 8] = .error (.link (.writeFailed "gone")) after ∧
      after.past = .unsent ⟨.write, 1, peer, [7, 8]⟩ begun :: ready.past) ∧
    ∃ m : Message, m.payload ≠ [] ∧ ∃ before next more,
      c.writes = before ++ (m, .header) :: (next, .header) :: more := by
  intro start client ready c
  have hstart : start = .ok ⟨"device", "S", "", protocolVersion, 4096⟩ (final start) :=
    eq_ok_of_outcome (by decide +kernel)
  have hready := outgoing_framing rfl [] {} hstart [.call (.openStream "a" 10)]
  have hc := outgoing_framing rfl [] {} hstart
    [.call (.openStream "a" 10), .call (.write 0 [7, 8] 10), .call (.write 0 [7, 8] 10)]
  refine ⟨?_, hc.2.2.2.1 ?_⟩
  · have hfault : outcome (ready.sendPiece 1 ⟨0, 10⟩ [7, 8]) =
        .error (.link (.writeFailed "gone")) := by decide +kernel
    cases hs : ready.sendPiece 1 ⟨0, 10⟩ [7, 8] with
    | ok u after =>
      rw [hs] at hfault
      cases hfault
    | error e after =>
      rw [hs] at hfault
      cases hfault
      obtain ⟨peer, begun, hp, _⟩ := hready.2.2.2.2 1 ⟨0, 10⟩ [7, 8] _ after hs
      exact ⟨peer, begun, after, rfl, hp⟩
  · have hpast : c.past.reverse = [.entered 1, .sent ⟨.start, 1, 0, [97, 0]⟩,
        .arrived ⟨.okay, 100, 1, []⟩ (some .pending), .unsent ⟨.write, 1, 100, [7, 8]⟩ true,
        .sent ⟨.write, 1, 100, [7, 8]⟩] := by decide +kernel
    rw [hpast]
    exact ⟨[.entered 1, .sent ⟨.start, 1, 0, [97, 0]⟩,
      .arrived ⟨.okay, 100, 1, []⟩ (some .pending)], _, _, rfl, by decide⟩

end DroidHost
