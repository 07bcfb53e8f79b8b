import DroidHost.Proofs.Hearing

/-! A request to open a stream is decided by the first message for the new stream. -/
namespace DroidHost

namespace Connection

theorem release_silent {c : Connection} {id : UInt32} {s : StreamState}
    (hs : c.table.find? id = some s) (hnone : s.farewell id = none) : c.release id = c.remove id := by
  simp only [release, hs, hnone]

theorem find?_remove (id k : UInt32) (c : Connection) :
    (c.remove id).table.find? k = if k = id then none else c.table.find? k :=
  c.table.find?_erase id k

theorem ask_entered (destination : String) (deadline : Deadline) (c : Connection) :
    match c.ask destination deadline with
    | .error _ after => ∀ k, after.table.find? k = c.table.find? k
    | .ok id asked => c.table.find? id = none ∧
        (∀ k, asked.table.find? k = if k = id then some .fresh else c.table.find? k) ∧
        (c.channel.Framed → asked.channel.Framed ∧ ∀ later, asked.coming later = c.coming later) := by
  unfold ask
  cases hallocate : c.table.allocate c.settings.streamIdLimit with
  | mk found table =>
    have hsame := StreamTable.find?_of_allocate hallocate
    cases found with
    | none => exact hsame
    | some id =>
      have hfree : c.table.find? id = none := StreamTable.find?_probe hallocate
      have hentered (k : UInt32) : ({ c with table := table }.enter id).table.find? k =
          if k = id then some .fresh else c.table.find? k := by
        rw [← hsame]
        exact StreamTable.find?_insert table id k .fresh
      have htable := (({ c with table := table }.enter id).send_weight
        ⟨.start, id, 0, Text.Utf8.encode destination ++ [0]⟩ deadline).2.1
      have hframed (h : c.channel.Framed) := send_framed (c := { c with table := table }.enter id) h
        ⟨.start, id, 0, Text.Utf8.encode destination ++ [0]⟩ deadline
      dsimp only
      cases hr : ({ c with table := table }.enter id).send
          ⟨.start, id, 0, Text.Utf8.encode destination ++ [0]⟩ deadline with
      | ok u asked =>
        rw [hr, final_ok] at htable hframed
        refine ⟨hfree, fun k => ?_, fun h => ⟨(hframed h).1, fun later => ?_⟩⟩
        · rw [htable]
          exact hentered k
        · rw [coming, (hframed h).2]
          rfl
      | error f after =>
        rw [hr, final_error] at htable
        have hs : after.table.find? id = some .fresh := by rw [htable, hentered, if_pos rfl]
        intro k
        rw [release_silent hs rfl, find?_remove, htable, hentered]
        split
        · next hk => rw [hk, hfree]
        · rfl

theorem waitFor_answered {c : Connection} {id : UInt32} {m : Message}
    (hm : m.command = .okay ∨ m.command = .close ∨ m.command = .write)
    (hs : c.table.find? id = some (StreamState.fresh.apply id m).1) (deadline : Deadline)
    (awaited : Awaited) :
    let r := c.waitFor id deadline awaited StreamState.opening
    m.command = .okay ∧ r = .ok true c ∧
        c.table.find? id = some ⟨some m.arg0, .opened, false, [], none⟩ ∨
      m.command = .close ∧ r = .ok false c ∧
        c.table.find? id = some ⟨some m.arg0, .closed, true, [], none⟩ ∨
      m.command = .write ∧ r = .error (.protocol (.stream id .earlyData)) c ∧
        c.table.find? id = some ⟨none, .pending, true, [], some .earlyData⟩ := by
  intro r
  have hr {said : EStateM.Result BridgeError Connection Bool}
      (h : c.inspect id StreamState.opening = some said) : r = said := by
    simp only [r]
    rw [waitFor, h]
  obtain hc | hc | hc := hm
  · have hstate : (StreamState.fresh.apply id m).1 = ⟨some m.arg0, .opened, false, [], none⟩ := by
      simp only [StreamState.apply, hc]
      rfl
    rw [hstate] at hs
    refine .inl ⟨hc, hr ?_, hs⟩
    simp only [inspect, hs, StreamState.opening, setStream, StreamTable.set_eq_self hs]
  · have hstate : (StreamState.fresh.apply id m).1 = ⟨some m.arg0, .closed, true, [], none⟩ := by
      simp only [StreamState.apply, hc]
      rfl
    rw [hstate] at hs
    refine .inr (.inl ⟨hc, hr ?_, hs⟩)
    simp only [inspect, hs, StreamState.opening, setStream, StreamTable.set_eq_self hs]
  · have hstate : (StreamState.fresh.apply id m).1 =
        ⟨none, .pending, true, [], some .earlyData⟩ := by
      simp only [StreamState.apply, hc]
      rfl
    rw [hstate] at hs
    refine .inr (.inr ⟨hc, hr ?_, hs⟩)
    simp only [inspect, hs]

/-- Rounds of a wait go by and messages for other streams are heard, until there is one for the new
stream or the time is up. -/
def Opens (id : UInt32) (deadline : Deadline) (c : Connection)
    (r : EStateM.Result BridgeError Connection Bool) : Prop :=
  ∃ n heard lately mid, Rounds deadline n c mid ∧ Hears heard lately c mid ∧
    Channel.Spent heard (lately.countP Occurrence.isOkay) c.channel mid.channel ∧
    ((∃ before m, heard = before ++ [m] ∧ (∀ w ∈ before, w.arg1 ≠ id) ∧ m.arg1 = id ∧
        (m.command = .okay ∨ m.command = .close ∨ m.command = .write) ∧
        mid.channel.fragment = [] ∧
        mid.table.find? id = some (StreamState.fresh.apply id m).1 ∧
        r = mid.waitFor id deadline (.openReply id) StreamState.opening) ∨
      (∀ m ∈ heard, m.arg1 ≠ id) ∧ mid.table.find? id = some .fresh ∧
        deadline.hasExpired mid.now = true ∧
        r = .error (.timeout deadline.budget (.openReply id)) mid)

theorem Opens.round {id : UInt32} {deadline : Deadline} {c mid : Connection}
    {r : EStateM.Result BridgeError Connection Bool} (h : Opens id deadline mid r)
    (htime : deadline.hasExpired c.now = false) (htake : c.takeIn deadline = .ok () mid)
    {heard : List Message} {lately : List Occurrence} (hheard : Hears heard lately c mid)
    (hspent : Channel.Spent heard (lately.countP Occurrence.isOkay) c.channel mid.channel)
    (hothers : ∀ m ∈ heard, m.arg1 ≠ id) : Opens id deadline c r := by
  obtain ⟨n, more, later, last, hrounds, hmore, hcost, hend⟩ := h
  have hcount : (later ++ lately).countP Occurrence.isOkay =
      later.countP Occurrence.isOkay + lately.countP Occurrence.isOkay := List.countP_append
  have hboth := hspent.trans hcost
  rw [← hcount] at hboth
  refine ⟨n + 1, heard ++ more, later ++ lately, last, .more htime htake hrounds,
    hheard.trans hmore, hboth, ?_⟩
  obtain ⟨before, m, rfl, hbefore, hdecided⟩ | ⟨hnone, hlate⟩ := hend
  · exact .inl ⟨heard ++ before, m, (List.append_assoc ..).symm,
      List.forall_mem_append.mpr ⟨hothers, hbefore⟩, hdecided⟩
  · exact .inr ⟨List.forall_mem_append.mpr ⟨hothers, hnone⟩, hlate⟩

theorem waitFor_opening {c : Connection} {id : UInt32} (hframed : c.channel.Framed)
    (honly : c.OnlyStreams) (hs : c.table.find? id = some .fresh) (deadline : Deadline) :
    Opens id deadline c (c.waitFor id deadline (.openReply id) StreamState.opening) := by
  fun_induction waitFor id deadline (.openReply id) StreamState.opening c with
  | case1 c said hsaid =>
    rw [inspect, hs] at hsaid
    cases hsaid
  | case2 c hsaid he =>
    exact ⟨0, [], [], c, .here c, .refl c, .refl _, .inr ⟨List.forall_mem_nil _, hs, he, rfl⟩⟩
  | case3 c hsaid he u mid ht ih =>
    have htime : deadline.hasExpired c.now = false := Bool.eq_false_iff.mpr he
    obtain ⟨heard, lately, hheard, hspent, _, hafter, hround⟩ := takeIn_hears hframed ht
    have hmid := ih hafter (hheard.onlyStreams honly)
    obtain ⟨rfl, htable⟩ | ⟨m, rfl, hm, hwhole, hothers, hplain⟩ := hround
    · have hfresh : mid.table.find? id = some .fresh := by rw [htable, hs]
      exact (hmid hfresh).round htime ht hheard hspent (List.forall_mem_nil _)
    · by_cases hid : m.arg1 = id
      · subst hid
        have hnone : (StreamState.fresh.apply m.arg1 m).2 = none := by
          obtain hc | hc | hc := hm
          all_goals simp only [StreamState.apply, hc]
          rfl
        refine ⟨1, [m], lately, mid, .more htime ht (.here mid), hheard, hspent, .inl ?_⟩
        exact ⟨[], m, rfl, List.forall_mem_nil _, rfl, hm, hwhole, hplain _ hs hnone, rfl⟩
      · have hfresh : mid.table.find? id = some .fresh := by rw [hothers id (Ne.symm hid), hs]
        exact (hmid hfresh).round htime ht hheard hspent (List.forall_mem_singleton.mpr hid)
  | case4 c hsaid he e mid ht =>
    obtain ⟨after, htake⟩ := takeIn_of_onlyStreams hframed honly deadline
    cases ht.symm.trans htake

def Decides (destination : String) (id : UInt32) (m : Message) (c : Connection)
    (r : EStateM.Result BridgeError Connection (Option Stream)) : Prop :=
  m.command = .okay ∧ r = .ok (some ⟨destination, id, false⟩) c ∧
      c.table.find? id = some ⟨some m.arg0, .opened, false, [], none⟩ ∨
    m.command = .close ∧ r = .ok none (c.remove id) ∨
    m.command = .write ∧ r = .error (.protocol (.stream id .earlyData)) (c.remove id)

theorem openStream_decides {destination : String} {budget : Nat} {c asked mid : Connection}
    {id : UInt32} (ha : c.ask destination (c.deadline budget) = .ok id asked) {m : Message}
    (hm : m.command = .okay ∨ m.command = .close ∨ m.command = .write)
    (hs : mid.table.find? id = some (StreamState.fresh.apply id m).1)
    (hwait : asked.waitFor id (c.deadline budget) (.openReply id) StreamState.opening =
      mid.waitFor id (c.deadline budget) (.openReply id) StreamState.opening) :
    Decides destination id m mid (c.openStream destination budget) := by
  unfold openStream
  rw [ha]
  dsimp only
  rw [hwait]
  obtain ⟨hc, hr, hfound⟩ | ⟨hc, hr, hfound⟩ | ⟨hc, hr, hfound⟩ :=
    waitFor_answered hm hs (c.deadline budget) (.openReply id)
  · rw [hr]
    exact .inl ⟨hc, rfl, hfound⟩
  · rw [hr]
    dsimp only
    rw [release_silent hfound rfl]
    exact .inr (.inl ⟨hc, rfl⟩)
  · rw [hr]
    dsimp only
    rw [release_silent hfound rfl]
    exact .inr (.inr ⟨hc, rfl⟩)

theorem Decides.gone {destination : String} {id : UInt32} {m : Message} {c : Connection}
    {r : EStateM.Result BridgeError Connection (Option Stream)} (h : Decides destination id m c r)
    (hnot : ∀ s, outcome r ≠ .ok (some s)) : (final r).table.find? id = none := by
  obtain ⟨_, rfl, _⟩ | ⟨_, rfl⟩ | ⟨_, rfl⟩ := h
  · exact absurd rfl (hnot _)
  · rw [final_ok, find?_remove, if_pos rfl]
  · rw [final_error, find?_remove, if_pos rfl]

end Connection

open Connection

/-- On a sound link, the first message for a new stream decides: an acknowledgement opens it, a
close refuses it, data break the protocol. If none is heard, none was there in time, with the
acknowledgements that were sent counted in. Unless it is opened the stream is removed. -/
theorem first_answer_decides (destination : String) (budget : Nat) {c : Connection}
    (hframed : c.channel.Framed) (honly : c.OnlyStreams) :
    let deadline := c.deadline budget
    let r := c.openStream destination budget
    match c.ask destination deadline with
    | .error e after => r = .error e after ∧ ∀ k, after.table.find? k = c.table.find? k
    | .ok id asked => c.table.find? id = none ∧
        (∀ k, asked.table.find? k = if k = id then some .fresh else c.table.find? k) ∧
        (∀ later, asked.coming later = c.coming later) ∧
        ((∀ s, outcome r ≠ .ok (some s)) → (final r).table.find? id = none) ∧
        ∃ n heard lately mid, Rounds deadline n asked mid ∧ Hears heard lately asked mid ∧
          (∀ (α : Type) k awaited (look : StreamState → Look α),
            (∀ i between, i < n → Rounds deadline i asked between → between.inspect k look = none) →
            asked.waitFor k deadline awaited look = mid.waitFor k deadline awaited look) ∧
          ((∃ before m, heard = before ++ [m] ∧ (∀ w ∈ before, w.arg1 ≠ id) ∧ m.arg1 = id ∧
              mid.channel.fragment = [] ∧ Decides destination id m mid r) ∨
            (∀ m ∈ heard, m.arg1 ≠ id) ∧
              r = .error (.timeout budget (.openReply id)) (mid.remove id) ∧
              deadline.hasExpired mid.now = true ∧
              ∀ front back m, asked.channel.link.inbound = front ++ back →
                .ok m ∈ Message.parse (asked.channel.fragment ++ front.flatMap Arrival.bytes) →
                m.arg1 = id → deadline.start + deadline.budget ≤ asked.now + Arrival.delay front +
                  asked.channel.link.due (lately.countP Occurrence.isOkay)) := by
  intro deadline r
  have hask := ask_entered destination deadline c
  cases ha : c.ask destination deadline with
  | error e after =>
    rw [ha] at hask
    refine ⟨?_, hask⟩
    simp only [r, deadline, openStream] at ha ⊢
    rw [ha]
  | ok id asked =>
    rw [ha] at hask
    obtain ⟨hfree, hentered, hsame⟩ := hask
    obtain ⟨hasked, hcoming⟩ := hsame hframed
    have hfresh : asked.table.find? id = some .fresh := by rw [hentered, if_pos rfl]
    have hasks : asked.OnlyStreams := by
      intro said hsaid
      rw [hcoming] at hsaid
      exact honly said hsaid
    obtain ⟨n, heard, lately, mid, hrounds, hheard, hspent, hend⟩ :=
      waitFor_opening hasked hasks hfresh deadline
    have hany (α : Type) (k : UInt32) (awaited : Awaited) (look : StreamState → Look α)
        (hnothing : ∀ i between, i < n → Rounds deadline i asked between →
          between.inspect k look = none) :
        asked.waitFor k deadline awaited look = mid.waitFor k deadline awaited look :=
      hrounds.waitFor hnothing awaited
    obtain ⟨before, m, hsplit, hbefore, hid, hm, hwhole, hstate, hwait⟩ |
      ⟨hnone, hstate, hlate, hwait⟩ := hend
    · have hdecides : Decides destination id m mid r := openStream_decides ha hm hstate hwait
      exact ⟨hfree, hentered, hcoming, hdecides.gone, n, heard, lately, mid, hrounds, hheard, hany,
        .inl ⟨before, m, hsplit, hbefore, hid, hwhole, hdecides⟩⟩
    · have hr : r = .error (.timeout budget (.openReply id)) (mid.remove id) := by
        simp only [r, deadline, openStream] at ha hwait ⊢
        rw [ha]
        dsimp only
        rw [hwait]
        dsimp only
        rw [release_silent hstate rfl]
        rfl
      refine ⟨hfree, hentered, hcoming, fun _ => ?_, n, heard, lately, mid, hrounds, hheard, hany,
        .inr ⟨hnone, hr, hlate, ?_⟩⟩
      · rw [hr, final_error, find?_remove, if_pos rfl]
      · -- An answer that was there in time would have been heard.
        intro front back m hinbound hm hid
        have hnot : m ∉ heard := fun hmem => hnone m hmem hid
        exact Nat.le_trans (Deadline.hasExpired_iff.mp hlate)
          (hheard.now_le hspent hinbound hm hnot)

/-- Data for another stream come before the answer, and a pause in the middle of it. What comes
behind it is left. -/
theorem first_answer_decides_behind_data :
    let answer : Message := ⟨.okay, 101, 1, []⟩
    let data : Message := ⟨.write, 101, 1, [97]⟩
    let okay : Message := ⟨.okay, 102, 2, []⟩
    let close : Message := ⟨.close, 101, 1, []⟩
    let bytes := [data, okay, close].flatMap Message.encode
    let c := ((Client.fresh { link := { inbound := [.chunk answer.encode] } }
      ⟨"device", "S", "", 0, 4096⟩ {}).after [.call (.openStream "a" 10),
        .supply [.chunk (bytes.take 30), .pause 3, .chunk (bytes.drop 30)],
        .plan [.taken 1, .taken 0, .taken 2]]).connection
    let r := c.openStream "b" 10
    let asked := final (c.ask "b" (c.deadline 10))
    c.channel.Framed ∧ c.OnlyStreams ∧ ∃ n lately mid, Rounds (c.deadline 10) n asked mid ∧
      Hears [data, okay] lately asked mid ∧ r = .ok (some ⟨"b", 2, false⟩) mid ∧
      mid.table.find? 2 = some ⟨some 102, .opened, false, [], none⟩ ∧
      mid.coming [] = [.ok close] := by
  intro answer data okay close bytes c r asked
  have hframed : c.channel.Framed := ⟨⟨by decide +kernel, by decide +kernel⟩, by decide +kernel⟩
  have hcoming : c.coming [] = [data, okay, close].map .ok := by decide +kernel
  have honly : c.OnlyStreams := by
    intro said hsaid
    rw [hcoming] at hsaid
    obtain ⟨m, hm, rfl⟩ := List.mem_map.mp hsaid
    have hall : ∀ m ∈ [data, okay, close],
        m.command = .okay ∨ m.command = .close ∨ m.command = .write := by decide
    exact ⟨m, rfl, hall m hm⟩
  have hasked : c.ask "b" (c.deadline 10) = .ok 2 asked := eq_ok_of_outcome (by decide +kernel)
  have hopened : outcome r = .ok (some ⟨"b", 2, false⟩) := by decide +kernel
  have hdecides := first_answer_decides "b" 10 hframed honly
  dsimp only at hdecides
  rw [hasked] at hdecides
  obtain ⟨_, _, hsame, _, n, heard, lately, mid, hrounds, hheard, _, hend⟩ := hdecides
  refine ⟨hframed, honly, n, lately, mid, hrounds, ?_⟩
  obtain ⟨before, m, rfl, hbefore, hid, _, hdecided⟩ | ⟨_, hlate, _⟩ := hend
  · have hqueue := hheard.coming []
    rw [hsame, hcoming] at hqueue
    obtain ⟨rfl, rfl, hrest⟩ : before = [data] ∧ m = okay ∧ mid.coming [] = [.ok close] := by
      obtain _ | ⟨w, _ | ⟨w', more⟩⟩ := before
      · simp only [List.nil_append, List.map_cons, List.map_nil, List.cons_append,
          List.cons.injEq, Except.ok.injEq] at hqueue
        rw [← hqueue.1] at hid
        cases hid
      · simp only [List.nil_append, List.map_cons, List.map_nil, List.cons_append,
          List.cons.injEq, Except.ok.injEq] at hqueue
        obtain ⟨rfl, rfl, hrest⟩ := hqueue
        exact ⟨rfl, rfl, hrest.symm⟩
      · simp only [List.map_cons, List.cons_append, List.cons.injEq, Except.ok.injEq] at hqueue
        have hother := hbefore w' (List.mem_cons_of_mem _ (List.mem_cons_self ..))
        rw [← hqueue.2.1] at hother
        exact absurd rfl hother
    obtain ⟨_, hr, hfound⟩ | ⟨hclose, _⟩ | ⟨hwrite, _⟩ := hdecided
    · exact ⟨hheard, hr, hfound, hrest⟩
    · cases hclose
    · cases hwrite
  · have hfailed : outcome r = .error (.timeout 10 (.openReply 2)) := congrArg outcome hlate
    rw [hopened] at hfailed
    cases hfailed

/-- The answer is there when the request is made. Data for another stream are acknowledged first,
which takes longer than the request may. -/
theorem first_answer_slow_acknowledgement :
    let answer : Message := ⟨.okay, 101, 1, []⟩
    let queue : List Message := [⟨.write, 101, 1, [97]⟩, ⟨.okay, 102, 2, []⟩]
    let c := ((Client.fresh { link := { inbound := [.chunk answer.encode] } }
      ⟨"device", "S", "", 0, 4096⟩ {}).after [.call (.openStream "a" 10),
        .supply (queue.map fun m => .chunk m.encode),
        .plan [.taken 0, .taken 0, .taken (Duration.ofMillis 5)]]).connection
    let budget := Duration.ofMillis 1
    c.channel.link.isClosed = false ∧ c.channel.fragment = [] ∧
    c.channel.link.inbound = (queue.map fun m => .chunk m.encode) ∧
    outcome (c.ask "b" (c.deadline budget)) = .ok 2 ∧
    queue.find? (·.arg1 = 2) = some ⟨.okay, 102, 2, []⟩ ∧ 0 < budget ∧
    outcome (c.openStream "b" budget) = .error (.timeout budget (.openReply 2)) := by
  intro answer queue c budget
  refine ⟨by decide +kernel, by decide +kernel, by decide +kernel, by decide +kernel, by decide,
    by decide, ?_⟩
  decide +kernel

end DroidHost
