import DroidHost.Proofs.Replies
import DroidHost.Proofs.Upload

/-! A device that says something on a stream and closes it. What it said is read wherever the host
finds the stream closed. -/
namespace DroidHost

theorem Bytes.take_of_prefix {said front back : Bytes} {n : Nat} (h : said <+: front ++ back)
    (hsaid : n ≤ said.length) (hfront : n ≤ front.length) :
    front.take n = said.take n ∧ said.drop n <+: front.drop n ++ back := by
  obtain ⟨rest, hrest⟩ := h
  have htake := congrArg (List.take n) hrest
  have hdrop := congrArg (List.drop n) hrest
  rw [List.take_append_of_le_length hsaid, List.take_append_of_le_length hfront] at htake
  rw [List.drop_append_of_le_length hsaid, List.drop_append_of_le_length hfront] at hdrop
  exact ⟨htake.symm, rest, hdrop⟩

namespace StreamState

theorem supplying_of_le {s : StreamState} {n : Nat} (hn : n ≠ 0) (h : n ≤ s.buffer.length)
    (id : UInt32) :
    s.supplying id n = .ready (s.buffer.take n) { s with buffer := s.buffer.drop n } := by
  have hmax : max n 1 ≤ s.buffer.length := by omega
  rw [supplying, if_pos hmax, if_neg hn]

theorem supplying_of_closed {s : StreamState} (h : s.phase = .closed) (id : UInt32) (n : Nat) :
    s.supplying id n ≠ .notYet := fun hnot => (of_supplying_notYet hnot).2 h

theorem acknowledging_of_closed {s : StreamState} (h : s.phase = .closed) (id : UInt32) :
    s.acknowledging id ≠ .notYet := fun hnot => (of_acknowledging_notYet hnot).2 h

end StreamState

namespace Connection

/-- A stream gave these bytes in between. -/
structure Gave (id : UInt32) (got : Bytes) (c after : Connection) : Prop where
  taken : after.taken id = c.taken id ++ got
  info : after.info = c.info
  now : c.now ≤ after.now

theorem Gave.refl (id : UInt32) (c : Connection) : Gave id [] c c where
  taken := (List.append_nil _).symm
  info := rfl
  now := Nat.le_refl _

theorem Gave.trans {id : UInt32} {got more : Bytes} {c mid after : Connection}
    (h : Gave id got c mid) (h' : Gave id more mid after) : Gave id (got ++ more) c after where
  taken := by rw [h'.taken, h.taken, List.append_assoc]
  info := h'.info.trans h.info
  now := Nat.le_trans h.now h'.now

/-- The device says something on the stream and closes it behind that. Until then it serves the
stream, with so many acknowledgements at most besides those awaited. -/
structure Refusing (id peer : UInt32) (said : Bytes) (more : Nat) (c : Connection) : Prop where
  channel : c.channel.Serving
  sound : ∃ s, c.table.find? id = some s ∧ s.Sound peer
  told : ∃ (front : List Message) (close : Message) (rest : List (Except BridgeError Message)),
    c.coming [] = front.map .ok ++ .ok close :: rest ∧ (∀ m ∈ front, m.Serves id peer) ∧
    close.command = .close ∧ close.arg1 = id ∧
    said <+: c.unread id ++ front.flatMap (fun m => Message.dataFor id (.ok m)) ∧
    front.countP (fun m => Message.isOkayFor id (.ok m)) ≤ c.awaited id + more

/-- The device has said something on the stream, and has closed it. -/
def Refused (id : UInt32) (said : Bytes) (c : Connection) : Prop :=
  ∃ s, c.table.find? id = some s ∧ s.phase = .closed ∧ s.fault = none ∧ said <+: s.buffer

theorem gave_takeIn {id : UInt32} {c after : Connection} {deadline : Deadline}
    (h : c.takeIn deadline = .ok () after) (htaken : after.taken id = c.taken id) :
    Gave id [] c after where
  taken := htaken.trans (List.append_nil _).symm
  info := info_takeIn h
  now := (takeIn_ok h).2.2.1

section TakeIn
variable {id peer : UInt32} {said : Bytes} {more : Nat} {c : Connection} {deadline : Deadline}
  {s : StreamState} {m : Message} {ch : Channel}

theorem takeIn_closing (hs : c.table.find? id = some s) (hsound : s.Sound peer)
    (hr : c.channel.receive deadline = .ok m ch) (hch : ch.Serving) (hclose : m.command = .close)
    (hfor : m.arg1 = id) (hsaid : said <+: s.buffer) :
    ∃ after, c.takeIn deadline = .ok () after ∧ Gave id [] c after ∧ after.Refused id said := by
  have hroute : c.table.route m = .ok (c.table.set id (s.closedBy m.arg0), none) := by
    rw [StreamTable.route, if_pos (.inr (.inl hclose)), hfor, hs]
    simp only [StreamState.apply, hclose]
  obtain ⟨after, htake, htable, _, _, htaken, _⟩ := takeIn_routed hr hch hroute id
  refine ⟨after, htake, gave_takeIn htake htaken, s.closedBy m.arg0, ?_, rfl, hsound.2.2, hsaid⟩
  rw [htable, StreamTable.find?_set, if_pos rfl, hs, Option.map_some]

theorem takeIn_served (hs : c.table.find? id = some s) (hsound : s.Sound peer)
    (hr : c.channel.receive deadline = .ok m ch) (hch : ch.Serving) {front : List Message}
    {close : Message} {rest : List (Except BridgeError Message)}
    (hleft : Message.parse (ch.stream ++ []) = front.map .ok ++ .ok close :: rest)
    (hserves : ∀ w ∈ m :: front, w.Serves id peer) (hclose : close.command = .close)
    (hfor : close.arg1 = id)
    (hsaid : said <+: s.buffer ++ (m :: front).flatMap fun w => Message.dataFor id (.ok w))
    (hcount : (m :: front).countP (fun w => Message.isOkayFor id (.ok w)) ≤
      s.awaiting.toNat + more)
    (hasked : s.awaiting = true ∨ Message.isOkayFor id (.ok m) = false) :
    ∃ after, c.takeIn deadline = .ok () after ∧ Gave id [] c after ∧
      after.Refusing id peer said more ∧ after.awaited id ≤ s.awaiting.toNat := by
  obtain ⟨table, ack, s', hroute, hs', hsound', hbuffer, hokays⟩ :=
    route_serving hs hsound (hserves m (List.mem_cons_self ..)) hasked
  obtain ⟨after, htake, htable, hserving, hrest, htaken, _⟩ := takeIn_routed hr hch hroute id
  rw [← htable] at hs'
  have hunread : after.unread id = s.buffer ++ Message.dataFor id (.ok m) := by
    rw [unread, hs', Option.map_some, Option.getD_some, hbuffer]
  have hawaited : after.awaited id = s'.awaiting.toNat := by
    rw [awaited, hs']
    rfl
  refine ⟨after, htake, gave_takeIn htake htaken,
    ⟨hserving, ⟨s', hs', hsound'⟩, front, close, rest, ?_, ?_, hclose, hfor, ?_, ?_⟩, ?_⟩
  · rw [hrest, hleft]
  · exact fun w hw => hserves w (List.mem_cons_of_mem _ hw)
  · rw [hunread, List.append_assoc]
    exact hsaid
  · -- An acknowledgement that comes is one that was awaited, so the bound on the others stays.
    rw [hawaited]
    rw [List.countP_cons] at hcount
    cases hokay : Message.isOkayFor id (.ok m) with
    | true =>
      rw [hokay] at hokays hcount
      rw [if_pos rfl] at hcount
      rw [Bool.toNat_true] at hokays
      omega
    | false =>
      rw [hokay] at hokays hcount
      rw [if_neg Bool.false_ne_true] at hcount
      rw [Bool.toNat_false] at hokays
      omega
  · rw [hawaited, ← hokays]
    exact Nat.le_add_left _ _

theorem takeIn_refusing (h : c.Refusing id peer said more)
    (hasked : c.awaited id = 1 ∨ c.awaited id + more = 0) (deadline : Deadline) :
    ∃ after, c.takeIn deadline = .ok () after ∧ Gave id [] c after ∧
      (after.Refusing id peer said more ∧ after.awaited id ≤ c.awaited id ∨
        after.Refused id said) := by
  obtain ⟨s, hs, hsound⟩ := h.sound
  obtain ⟨front, close, rest, hcoming, hserves, hclose, hfor, hsaid, hcount⟩ := h.told
  have hunread : c.unread id = s.buffer := by
    rw [unread, hs]
    rfl
  have hawaited : c.awaited id = s.awaiting.toNat := by
    rw [awaited, hs]
    rfl
  obtain ⟨first, tail, hfirst⟩ : ∃ first tail, c.coming [] = .ok first :: tail := by
    rw [hcoming]
    cases front with
    | nil => exact ⟨_, _, rfl⟩
    | cons m front => exact ⟨_, _, rfl⟩
  have hin := Channel.receive_next h.channel.framed hfirst deadline
  have hplan := Channel.plan_receive deadline c.channel
  cases hr : c.channel.receive deadline with
  | error e ch =>
    rw [hr] at hin hplan
    obtain ⟨htimeout, hframed, hleft⟩ := hin
    have htake : c.takeIn deadline = .ok () { c with channel := ch } := by
      simp only [takeIn, hr, htimeout, if_true]
    have hch : ch.Serving := ⟨hframed, fun d hd => h.channel.taken d (hplan ▸ hd)⟩
    have hsame : Connection.coming [] { c with channel := ch } = c.coming [] := (hleft []).symm
    refine ⟨_, htake, gave_takeIn htake rfl, .inl ⟨⟨hch, ⟨s, hs, hsound⟩, front, close, rest, ?_,
      hserves, hclose, hfor, hsaid, hcount⟩, Nat.le_refl _⟩⟩
    rw [hsame, hcoming]
  | ok m ch =>
    rw [hr] at hin hplan
    obtain ⟨rfl, hframed, hleft⟩ := hin
    have hch : ch.Serving := ⟨hframed, fun d hd => h.channel.taken d (hplan ▸ hd)⟩
    have hnext := hleft []
    change c.coming [] = _ at hnext
    rw [hcoming] at hnext
    rw [hunread] at hsaid
    rw [hawaited] at hasked hcount ⊢
    cases front with
    | nil =>
      obtain ⟨hm, _⟩ := List.cons.inj hnext
      cases Except.ok.inj hm
      rw [List.flatMap_nil, List.append_nil] at hsaid
      obtain ⟨after, htake, hgave, hrefused⟩ :=
        takeIn_closing hs hsound hr hch hclose hfor hsaid
      exact ⟨after, htake, hgave, .inr hrefused⟩
    | cons m' front =>
      obtain ⟨hm, htail⟩ := List.cons.inj hnext
      cases Except.ok.inj hm
      have hasked' : s.awaiting = true ∨ Message.isOkayFor id (.ok m) = false := by
        rcases hasked with hone | hnone
        · exact .inl (Bool.toNat_eq_one.mp hone)
        · rw [hnone, List.countP_cons] at hcount
          refine .inr (Bool.eq_false_iff.mpr (fun hokay => ?_))
          rw [if_pos hokay] at hcount
          omega
      obtain ⟨after, htake, hgave, hrefusing, hle⟩ := takeIn_served hs hsound hr hch htail.symm
        hserves hclose hfor hsaid hcount hasked'
      exact ⟨after, htake, hgave, .inl ⟨hrefusing, hle⟩⟩

end TakeIn

/-- A wait looks at the stream in the end, or runs out of time. Till then an acknowledgement is
awaited, or none is to come. -/
theorem waitFor_refusing {id peer : UInt32} {said : Bytes} {more : Nat} {look : StreamState → Look α}
    (hover : ∀ s, s.phase = .closed → look s ≠ .notYet) {c : Connection}
    (h : c.Refusing id peer said more)
    (hasked : c.awaited id + more = 0 ∨ ∀ s, s.Sound peer → look s = .notYet → s.awaiting = true)
    (deadline : Deadline) (awaited : Awaited) :
    ∃ mid, Gave id [] c mid ∧
      ((mid.Refusing id peer said more ∧ mid.awaited id ≤ c.awaited id ∨ mid.Refused id said) ∧
          mid.inspect id look = some (c.waitFor id deadline awaited look) ∨
        mid.Refusing id peer said more ∧ mid.inspect id look = none ∧
          deadline.hasExpired mid.now = true ∧
          c.waitFor id deadline awaited look = .error (.timeout deadline.budget awaited) mid) := by
  have hwelcome {c : Connection} (h : c.Refusing id peer said more)
      (hasked : c.awaited id + more = 0 ∨ ∀ s, s.Sound peer → look s = .notYet → s.awaiting = true)
      (hnothing : c.inspect id look = none) : c.awaited id = 1 ∨ c.awaited id + more = 0 := by
    rcases hasked with hnone | hwaits
    · exact .inr hnone
    · obtain ⟨s, hs, hsound⟩ := h.sound
      rw [inspect_sound hs hsound] at hnothing
      cases hlook : look s with
      | ready a s' =>
        rw [hlook] at hnothing
        cases hnothing
      | failed e =>
        rw [hlook] at hnothing
        cases hnothing
      | notYet =>
        refine .inl ?_
        rw [Connection.awaited, hs, Option.map_some, hwaits s hsound hlook]
        rfl
  fun_induction waitFor id deadline awaited look c with
  | case1 c said hsaid => exact ⟨c, .refl id c, .inl ⟨.inl ⟨h, Nat.le_refl _⟩, hsaid⟩⟩
  | case2 c hsaid he => exact ⟨c, .refl id c, .inr ⟨h, hsaid, he, rfl⟩⟩
  | case3 c hsaid he u mid ht ih =>
    obtain ⟨after, htake, hgave, hstate⟩ := takeIn_refusing h (hwelcome h hasked hsaid) deadline
    rw [ht] at htake
    cases htake
    obtain ⟨hrefusing, hle⟩ | hrefused := hstate
    · obtain ⟨last, hmore, hend⟩ := ih hrefusing (hasked.imp_left (fun hn => by omega))
      refine ⟨last, hgave.trans hmore, hend.imp_left fun hhere => ⟨?_, hhere.2⟩⟩
      exact hhere.1.imp_left fun hr => ⟨hr.1, Nat.le_trans hr.2 hle⟩
    · obtain ⟨s, hs, hclosed, hfault, hbuffer⟩ := hrefused
      refine ⟨mid, hgave, .inl ⟨.inr ⟨s, hs, hclosed, hfault, hbuffer⟩, ?_⟩⟩
      cases hlook : mid.inspect id look with
      | some r => rw [waitFor, hlook]
      | none =>
        have hnot : look s = .notYet := by
          simp only [inspect, hs, hfault] at hlook
          split at hlook
          · cases hlook
          · cases hlook
          · next hn => exact hn
        exact absurd hnot (hover s hclosed)
  | case4 c hsaid he e mid ht =>
    obtain ⟨after, htake, _⟩ := takeIn_refusing h (hwelcome h hasked hsaid) deadline
    rw [ht] at htake
    cases htake

/-- The stream is being refused with nothing out on it, or has been refused. -/
def Turned (id peer : UInt32) (said : Bytes) (more : Nat) (c : Connection) : Prop :=
  c.Refusing id peer said more ∧ c.awaited id = 0 ∨ c.Refused id said

/-- A run on a stream that has been refused finds it so. -/
def Finds (id : UInt32) (said : Bytes) (c : Connection)
    (r : EStateM.Result BridgeError Connection α) : Prop :=
  c.Refused id said → Gave id [] c (final r) ∧ (final r).Refused id said ∧
    ∀ e, outcome r = .error e → e = .streamClosed id

/-- A run ends while a stream is being refused, or because it finds it closed, or over a piece that
is not acknowledged in time. -/
def EndsRefused (id peer : UInt32) (said : Bytes) (budget more : Nat) :
    EStateM.Result BridgeError Connection α → Prop
  | .ok _ after => after.Turned id peer said more
  | .error e after =>
    e = .streamClosed id ∧ after.Refused id said ∨ e = .timeout budget (.okay id)

/-- A run that sends so many pieces on a stream that is refused. -/
def Meets (id peer : UInt32) (said : Bytes) (budget pieces : Nat) (c : Connection)
    (r : EStateM.Result BridgeError Connection α) : Prop :=
  Finds id said c r ∧ ∀ more, c.Refusing id peer said (pieces + more) → c.awaited id = 0 →
    Gave id [] c (final r) ∧ EndsRefused id peer said budget more r

theorem sendPiece_refusing {id peer : UInt32} {said : Bytes} {more : Nat} {c : Connection}
    (h : c.Refusing id peer said (1 + more)) (hidle : c.awaited id = 0) (deadline : Deadline)
    (piece : Bytes) :
    ∃ sent, c.sendPiece id deadline piece = .ok () sent ∧ Gave id [] c sent ∧
      sent.Refusing id peer said more ∧ sent.awaited id = 1 := by
  obtain ⟨s, hs, hsound⟩ := h.sound
  obtain ⟨front, close, rest, hcoming, hserves, hclose, hfor, hsaid, hcount⟩ := h.told
  have hready : s.writable id = .ok peer := by
    rw [awaited, hs, Option.map_some, Option.getD_some, Bool.toNat_eq_zero] at hidle
    exact StreamState.writable_iff.mpr ⟨hsound, hidle⟩
  obtain ⟨ch, hsend, hch, hstream⟩ := send_serving h.channel ⟨.write, id, peer, piece⟩ deadline
  let sent : Connection :=
    ({ c with channel := ch }.note (.sent ⟨.write, id, peer, piece⟩)).setStream id
      { s with awaiting := true }
  have hpiece : c.sendPiece id deadline piece = .ok () sent := by
    simp only [sendPiece, hs, hready, hsend, sent]
  have hfound : sent.table.find? id = some { s with awaiting := true } := by
    change (c.table.set id _).find? id = _
    rw [StreamTable.find?_set, if_pos rfl, hs, Option.map_some]
  have hone : sent.awaited id = 1 := by
    rw [awaited, hfound]
    rfl
  have hunread : sent.unread id = c.unread id := by
    rw [unread, unread, hfound, hs]
    rfl
  have hnow := (c.send_weight ⟨.write, id, peer, piece⟩ deadline).2.2
  rw [hsend] at hnow
  refine ⟨sent, hpiece, ⟨?_, rfl, hnow⟩, ⟨hch, ⟨_, hfound, hsound⟩, front, close, rest, ?_, hserves,
    hclose, hfor, ?_, ?_⟩, hone⟩
  · have hnoted := idle_sent ⟨.write, id, peer, piece⟩
    have htaken := taken_note (c := { c with channel := ch }) (hnoted id).1
    rw [(hnoted id).2.2] at htaken
    exact htaken
  · rw [coming, show sent.channel.stream = c.channel.stream from hstream]
    exact hcoming
  · rw [hunread]
    exact hsaid
  · omega

theorem writePiece_refused {id : UInt32} {said : Bytes} {c : Connection} (h : c.Refused id said)
    (deadline : Deadline) (piece : Bytes) :
    c.writePiece id deadline piece = .error (.streamClosed id) c := by
  obtain ⟨s, hs, hclosed, hfault, _⟩ := h
  have hready : s.writable id = .error (.streamClosed id) := by
    simp only [StreamState.writable, hfault, hclosed]
  simp only [writePiece, sendPiece, hs, hready]

theorem inspect_acknowledging {id : UInt32} {c : Connection} {s : StreamState}
    (hs : c.table.find? id = some s) (hfault : s.fault = none) :
    c.inspect id (StreamState.acknowledging id) =
      if s.awaiting = false then some (.ok () c)
      else if s.phase = .closed then some (.error (.streamClosed id) c) else none := by
  have hsame : c.setStream id s = c := by rw [setStream, StreamTable.set_eq_self hs]
  cases ha : s.awaiting with
  | false => simp only [inspect, hs, hfault, StreamState.acknowledging, ha, Bool.not_false, if_true,
      hsame]
  | true =>
    by_cases hp : s.phase = .closed
    · simp only [inspect, hs, hfault, StreamState.acknowledging, ha, hp, Bool.not_true,
        Bool.false_eq_true, if_false, if_true, Bool.true_eq_false]
    · simp only [inspect, hs, hfault, StreamState.acknowledging, ha, hp, Bool.not_true,
        Bool.false_eq_true, if_false, Bool.true_eq_false]

theorem meets_writePiece (id peer : UInt32) (said : Bytes) (deadline : Deadline) (piece : Bytes)
    (c : Connection) :
    Meets id peer said deadline.budget 1 c (c.writePiece id deadline piece) := by
  refine ⟨fun hrefused => ?_, fun more hrefusing hidle => ?_⟩
  · rw [writePiece_refused hrefused]
    refine ⟨.refl id c, hrefused, ?_⟩
    rintro e ⟨⟩
    rfl
  · obtain ⟨sent, hpiece, hgave, hsent, _⟩ := sendPiece_refusing hrefusing hidle deadline piece
    have hwelcome (s : StreamState) (hsound : s.Sound peer)
        (hnot : s.acknowledging id = .notYet) : s.awaiting = true :=
      (StreamState.of_acknowledging_notYet hnot).1
    obtain ⟨mid, hmore, hend⟩ := waitFor_refusing
      (fun _ hclosed => StreamState.acknowledging_of_closed hclosed id) hsent (.inr hwelcome)
      deadline (.okay id)
    have hwrite : c.writePiece id deadline piece =
        sent.waitFor id deadline (.okay id) (StreamState.acknowledging id) := by
      rw [writePiece, hpiece]
    have hboth : Gave id [] c mid := hgave.trans hmore
    rw [hwrite]
    obtain ⟨⟨hmid, _⟩ | hmid, hlook⟩ | ⟨_, _, _, hwait⟩ := hend
    · obtain ⟨s, hs, hsound⟩ := hmid.sound
      have hopen : s.phase ≠ .closed := by
        intro hclosed
        rw [hsound.1] at hclosed
        cases hclosed
      rw [inspect_acknowledging hs hsound.2.2, if_neg hopen] at hlook
      split at hlook
      · next ha =>
        rw [← Option.some.inj hlook]
        refine ⟨hboth, .inl ⟨hmid, ?_⟩⟩
        rw [awaited, hs, Option.map_some, ha]
        rfl
      · cases hlook
    · -- The piece may still have been acknowledged before the stream was closed.
      obtain ⟨s, hs, hclosed, hfault, hbuffer⟩ := hmid
      have hrefused : mid.Refused id said := ⟨s, hs, hclosed, hfault, hbuffer⟩
      rw [inspect_acknowledging hs hfault, if_pos hclosed] at hlook
      split at hlook
      · rw [← Option.some.inj hlook]
        exact ⟨hboth, .inr hrefused⟩
      · rw [← Option.some.inj hlook]
        exact ⟨hboth, .inl ⟨rfl, hrefused⟩⟩
    · rw [hwait]
      exact ⟨hboth, .inr rfl⟩

section Meets
variable {id peer : UInt32} {said : Bytes} {budget n k : Nat} {c mid : Connection}

theorem Meets.turned {r : EStateM.Result BridgeError Connection α}
    (h : Meets id peer said budget n c r) {more : Nat} (hturned : c.Turned id peer said (n + more)) :
    Gave id [] c (final r) ∧ EndsRefused id peer said budget more r := by
  obtain ⟨hrefusing, hidle⟩ | hrefused := hturned
  · exact h.2 more hrefusing hidle
  · obtain ⟨hgave, hlast, he⟩ := h.1 hrefused
    cases r with
    | ok a after => exact ⟨hgave, .inr hlast⟩
    | error e after => exact ⟨hgave, .inl ⟨he e rfl, hlast⟩⟩

theorem meets_pure (id peer : UInt32) (said : Bytes) (budget : Nat) (c : Connection) (a : α) :
    Meets id peer said budget 0 c (.ok a c) := by
  refine ⟨fun hrefused => ⟨.refl id c, hrefused, ?_⟩, fun more hrefusing hidle => ?_⟩
  · rintro e ⟨⟩
  · rw [Nat.zero_add] at hrefusing
    exact ⟨.refl id c, .inl ⟨hrefusing, hidle⟩⟩

theorem Meets.then {r : EStateM.Result BridgeError Connection α} {a : β}
    (h : Meets id peer said budget n c (.ok a mid : EStateM.Result _ _ β))
    (h' : mid.info = c.info → Meets id peer said budget k mid r) :
    Meets id peer said budget (n + k) c r := by
  refine ⟨fun hrefused => ?_, fun more hrefusing hidle => ?_⟩
  · obtain ⟨hgave, hmid, _⟩ := h.1 hrefused
    obtain ⟨hgave', hlast⟩ := (h' hgave.info).1 hmid
    exact ⟨hgave.trans hgave', hlast⟩
  · rw [Nat.add_assoc] at hrefusing
    obtain ⟨hgave, hmid⟩ := h.2 (k + more) hrefusing hidle
    obtain ⟨hgave', hend⟩ := (h' hgave.info).turned hmid
    exact ⟨hgave.trans hgave', hend⟩

theorem Meets.fails {e : BridgeError}
    (h : Meets id peer said budget n c (.error e mid : EStateM.Result _ _ β)) :
    Meets id peer said budget (n + k) c (.error e mid : EStateM.Result _ _ α) := by
  refine ⟨fun hrefused => ?_, fun more hrefusing hidle => ?_⟩
  · obtain ⟨hgave, hlast, he⟩ := h.1 hrefused
    refine ⟨hgave, hlast, ?_⟩
    rintro e' ⟨⟩
    exact he e rfl
  · rw [Nat.add_assoc] at hrefusing
    exact h.2 (k + more) hrefusing hidle

end Meets

theorem meets_writePieces (id peer : UInt32) (said : Bytes) (deadline : Deadline)
    (pieces : List Bytes) (c : Connection) :
    Meets id peer said deadline.budget pieces.length c (c.writePieces id deadline pieces) := by
  induction pieces generalizing c with
  | nil => exact meets_pure id peer said deadline.budget c ()
  | cons piece rest ih =>
    have hp := meets_writePiece id peer said deadline piece c
    rw [List.length_cons, Nat.add_comm]
    unfold writePieces
    cases hr : c.writePiece id deadline piece with
    | ok u mid =>
      rw [hr] at hp
      exact hp.then (fun _ => ih mid)
    | error e mid =>
      rw [hr] at hp
      exact hp.fails

end Connection

namespace SyncSession
open Connection

/-- All that an upload writes. -/
def frames (source : Source) (target : Bytes) (mtime : UInt32) : List Bytes :=
  naming .send target :: ((pushPieces source.contents).map fun piece =>
    frame .data (UInt32.ofNat piece.length) piece) ++ [frame .done mtime []]

variable {s : SyncSession} {peer : UInt32} {said : Bytes}

/-- A property of runs that write frames one after another. -/
structure ByFrames (s : SyncSession)
    (P : List Bytes → Connection → EStateM.Result BridgeError Connection Unit → Prop) : Prop where
  done : ∀ c, P [] c (.ok () c)
  goesOn : ∀ {written more c mid r}, P written c (.ok () mid) → P more mid r →
    P (written ++ more) c r
  stops : ∀ {written e c mid} more, P written c (.error e mid) → P (written ++ more) c (.error e mid)
  frame : ∀ id value bytes c,
    P [SyncSession.frame id value bytes] c (s.writeFrame id value bytes c)

section ByFrames
variable {P : List Bytes → Connection → EStateM.Result BridgeError Connection Unit → Prop}

theorem ByFrames.bind (h : s.ByFrames P) {written : List Bytes} {c : Connection}
    {x : EStateM BridgeError Connection Unit} {f : Unit → EStateM BridgeError Connection Unit}
    (hx : P written c (x c)) (more : List Bytes) (hf : ∀ mid, P more mid (f () mid)) :
    P (written ++ more) c ((x >>= f) c) := by
  cases hr : x c with
  | ok u mid =>
    rw [hr] at hx
    rw [bind_of_ok f hr]
    exact h.goesOn hx (hf mid)
  | error e mid =>
    rw [hr] at hx
    rw [bind_of_error f hr]
    exact h.stops more hx

theorem ByFrames.sendFile (h : s.ByFrames P) {source : Source} (hsource : source.contents.2 = none)
    (c : Connection) :
    P ((pushPieces source.contents).map fun piece =>
      SyncSession.frame .data (UInt32.ofNat piece.length) piece) c (s.sendFile source c) := by
  fun_induction SyncSession.sendFile s source generalizing c with
  | case1 source f rest hr =>
    have hp := pushPieces_fill source
    rw [hr] at hp
    rw [hp.2] at hsource
    cases hsource
  | case2 source rest hr =>
    have hp := pushPieces_fill source
    rw [hr] at hp
    obtain ⟨hfull, _⟩ | ⟨_, hcontents⟩ := hp
    · cases hfull
    · rw [hcontents, pushPieces_short (by decide), if_pos rfl]
      exact h.done c
  | case3 source b bs rest hr ih =>
    have hp := pushPieces_fill source
    rw [hr] at hp
    have hframe := h.frame .data (UInt32.ofNat (bs.length + 1)) (b :: bs) c
    obtain ⟨hfull, hpieces, hsame⟩ | ⟨hshort, hcontents⟩ := hp
    · rw [hpieces, List.map_cons]
      refine h.bind hframe _ fun mid => ?_
      have hmore : ¬ bs.length + 1 < maxPush := Nat.not_lt.mpr (Nat.le_of_eq hfull.symm)
      rw [if_neg hmore]
      exact ih hmore (hsame.symm.trans hsource) mid
    · rw [hcontents, pushPieces_short hshort, if_neg (List.cons_ne_nil b bs), List.map_singleton]
      refine h.bind hframe [] fun mid => ?_
      have hlast : bs.length + 1 < maxPush := hshort
      rw [if_pos hlast]
      exact h.done mid

theorem ByFrames.sendBody (h : s.ByFrames P) {source : Source} (hsource : source.contents.2 = none)
    {target : Bytes} (hshort : target.length ≤ maxPathLength) (mtime : UInt32) (c : Connection) :
    P (frames source target mtime) c (s.sendBody source target mtime c) := by
  have hasks : s.request .send target = s.writeFrame .send (UInt32.ofNat target.length) target := by
    rw [request, if_neg (Nat.not_lt.mpr hshort)]
  unfold SyncSession.sendBody frames
  rw [hasks, List.cons_append]
  exact h.bind (h.frame .send (UInt32.ofNat target.length) target c) _ fun asked =>
    h.bind (h.sendFile hsource asked) _ fun sent => h.frame .done mtime [] sent

end ByFrames

def allCuts (info : DeviceInfo) (written : List Bytes) : Nat := (written.map (cuts info)).sum

theorem allCuts_append (info : DeviceInfo) (written more : List Bytes) :
    allCuts info (written ++ more) = allCuts info written + allCuts info more := by
  rw [allCuts, List.map_append, List.sum_append]
  rfl

theorem meets_byFrames (s : SyncSession) (peer : UInt32) (said : Bytes) :
    s.ByFrames fun written c r =>
      Meets s.stream.localId peer said s.timeout (allCuts c.info written) c r where
  done c := meets_pure _ peer said s.timeout c ()
  goesOn := by
    intro written more c mid r h h'
    rw [allCuts_append]
    refine h.then fun hinfo => ?_
    rw [← hinfo]
    exact h'
  stops := by
    intro written e c mid more h
    rw [allCuts_append]
    exact h.fails
  frame id value bytes c :=
    meets_writePieces s.stream.localId peer said (c.deadline s.timeout)
      (Bytes.pieces c.info.maxData.toNat (frame id value bytes)) c

/-- A frame is not acknowledged in time, on a stream that is open. -/
structure Stuck (s : SyncSession) (written : List Bytes) (c after : Connection) : Prop where
  isOpen : ¬ after.Shut s.stream.localId
  late : c.now + s.timeout ≤ after.now
  meanwhile : ∃ heard, Meanwhile heard (2 * allCuts c.info written) c after
  unheeded : ∃ heard mid id value bytes, Meanwhile heard (2 * allCuts c.info written) c mid ∧
    frame id value bytes ∈ written ∧ s.Unheeded id value bytes mid after

/-- If a run is given up over a piece, that is because of one of its frames. -/
def Stalls (s : SyncSession) (written : List Bytes) (c : Connection)
    (r : EStateM.Result BridgeError Connection Unit) : Prop :=
  c.channel.Framed → match r with
    | .ok _ after => ∃ heard, Meanwhile heard (2 * allCuts c.info written) c after
    | .error e after => e = .timeout s.timeout (.okay s.stream.localId) → s.Stuck written c after

theorem stalls_byFrames (s : SyncSession) : s.ByFrames s.Stalls where
  done c hframed := ⟨[], .refl hframed⟩
  goesOn := by
    intro written more c mid r h h' hframed
    obtain ⟨heard, hheard⟩ := h hframed
    have hmore := h' hheard.framed
    have hboth : 2 * allCuts c.info (written ++ more) =
        2 * allCuts c.info written + 2 * allCuts mid.info more := by
      rw [allCuts_append, hheard.info, Nat.mul_add]
    cases r with
    | ok u after =>
      obtain ⟨later, hlater⟩ := hmore
      exact ⟨heard ++ later, hboth ▸ hheard.trans hlater⟩
    | error e after =>
      intro he
      obtain ⟨hopen, hlate, ⟨later, hlater⟩, few, last, id, value, bytes, hfew, hamong, hunheeded⟩ :=
        hmore he
      exact ⟨hopen, Nat.le_trans (Nat.add_le_add_right hheard.now _) hlate,
        ⟨heard ++ later, hboth ▸ hheard.trans hlater⟩, heard ++ few, last, id, value, bytes,
        hboth ▸ hheard.trans hfew, List.mem_append_right _ hamong, hunheeded⟩
  stops := by
    intro written e c mid more h hframed he
    obtain ⟨hopen, hlate, ⟨later, hlater⟩, few, last, id, value, bytes, hfew, hamong, hunheeded⟩ :=
      h hframed he
    have hle : 2 * allCuts c.info written ≤ 2 * allCuts c.info (written ++ more) := by
      rw [allCuts_append]
      omega
    exact ⟨hopen, hlate, ⟨later, hlater.le hle⟩, few, last, id, value, bytes, hfew.le hle,
      List.mem_append_left _ hamong, hunheeded⟩
  frame id value bytes c := by
    intro hframed
    have hw := s.writeFrame_meanwhile id value bytes hframed
    dsimp only at hw ⊢
    cases hr : s.writeFrame id value bytes c with
    | ok u after =>
      rw [hr] at hw
      exact hw
    | error e after =>
      rw [hr] at hw
      intro he
      obtain ⟨hopen, hlate, hunheeded, heard, hheard, _⟩ := hw he
      exact ⟨hopen, hlate, ⟨heard, hheard⟩, [], c, id, value, bytes,
        (Meanwhile.refl hframed).le (Nat.zero_le _), List.mem_singleton_self _, hunheeded⟩

theorem inspect_ready {id : UInt32} {c : Connection} {t : StreamState}
    (ht : c.table.find? id = some t) (hfault : t.fault = none) {n : Nat} (hn : n ≠ 0)
    (hlength : n ≤ t.buffer.length) :
    c.inspect id (StreamState.supplying id n) =
      some (.ok (t.buffer.take n) (c.setStream id { t with buffer := t.buffer.drop n })) := by
  simp only [inspect, ht, hfault, StreamState.supplying_of_le hn hlength]

theorem supply_refused {id : UInt32} {c : Connection} (h : c.Refused id said) {n : Nat} (hn : n ≠ 0)
    (hsaid : n ≤ said.length) :
    ∃ mid, c.inspect id (StreamState.supplying id n) = some (.ok (said.take n) mid) ∧
      Gave id (said.take n) c (mid.note (.taken id (said.take n))) ∧
      Refused id (said.drop n) (mid.note (.taken id (said.take n))) := by
  obtain ⟨t, ht, hclosed, hfault, hbuffer⟩ := h
  have hlong : n ≤ t.buffer.length := Nat.le_trans hsaid hbuffer.length_le
  have hprefix : said <+: t.buffer ++ [] := by
    rw [List.append_nil]
    exact hbuffer
  obtain ⟨htake, hdrop⟩ := Bytes.take_of_prefix hprefix hsaid hlong
  rw [List.append_nil] at hdrop
  have hinspect := inspect_ready ht hfault hn hlong
  obtain ⟨hfound, _, hadvance⟩ := advance_taken ht (StreamState.supplying_of_le hn hlong id)
  rw [htake] at hinspect hfound hadvance
  exact ⟨_, hinspect, ⟨hadvance.taken, hadvance.info, hadvance.now⟩,
    ⟨_, hfound, hclosed, hfault, hdrop⟩⟩

theorem supply_refusing {id : UInt32} {more : Nat} {c : Connection}
    (h : c.Refusing id peer said more) {n : Nat} (hn : n ≠ 0) (hsaid : n ≤ said.length) :
    (∃ mid, c.inspect id (StreamState.supplying id n) = some (.ok (said.take n) mid) ∧
        Gave id (said.take n) c (mid.note (.taken id (said.take n))) ∧
        Refusing id peer (said.drop n) more (mid.note (.taken id (said.take n))) ∧
        (mid.note (.taken id (said.take n))).awaited id = c.awaited id) ∨
      c.inspect id (StreamState.supplying id n) = none := by
  obtain ⟨t, ht, hsound⟩ := h.sound
  obtain ⟨front, close, rest, hcoming, hserves, hclose, hfor, hprefix, hcount⟩ := h.told
  have hunread : c.unread id = t.buffer := by
    rw [unread, ht]
    rfl
  rw [hunread] at hprefix
  rcases Nat.lt_or_ge t.buffer.length n with hshort | hlong
  · refine .inr ?_
    have hmax : ¬ max n 1 ≤ t.buffer.length := by omega
    simp only [inspect, ht, hsound.2.2, StreamState.supplying, hmax, hsound.1, if_false,
      reduceCtorEq]
  · obtain ⟨htake, hdrop⟩ := Bytes.take_of_prefix hprefix hsaid hlong
    have hinspect := inspect_ready ht hsound.2.2 hn hlong
    obtain ⟨hfound, hsame, hadvance⟩ := advance_taken ht (StreamState.supplying_of_le hn hlong id)
    rw [htake] at hinspect hfound hsame hadvance
    refine .inl ⟨_, hinspect, ⟨hadvance.taken, hadvance.info, hadvance.now⟩,
      ⟨h.channel, ⟨_, hfound, hsound⟩, front, close, rest, hcoming, hserves, hclose, hfor, ?_, ?_⟩,
      hsame⟩
    · rw [unread, hfound]
      exact hdrop
    · rw [hsame]
      exact hcount

theorem take_refused {c : Connection} (h : c.Refused s.stream.localId said) {n : Nat}
    (hsaid : n ≤ said.length) :
    ∃ after, s.take n c = .ok (said.take n) after ∧ Gave s.stream.localId (said.take n) c after ∧
      after.Refused s.stream.localId (said.drop n) := by
  unfold take
  by_cases hn : n = 0
  · rw [if_pos hn, hn, List.take_zero, List.drop_zero]
    exact ⟨c, rfl, .refl _ c, h⟩
  · rw [if_neg hn]
    obtain ⟨mid, hinspect, hgave, hrefused⟩ := supply_refused h hn hsaid
    refine ⟨_, ?_, hgave, hrefused⟩
    rw [Connection.read, readBy, waitFor, hinspect]

theorem take_turned {c : Connection} (h : c.Turned s.stream.localId peer said 0) {n : Nat}
    (hsaid : n ≤ said.length) :
    match s.take n c with
    | .ok bytes after => bytes = said.take n ∧ Gave s.stream.localId bytes c after ∧
        after.Turned s.stream.localId peer (said.drop n) 0
    | .error e _ => c.Refusing s.stream.localId peer said 0 ∧
        e = .timeout s.timeout (.data s.stream.localId) := by
  obtain ⟨hrefusing, hidle⟩ | hrefused := h
  · unfold take
    by_cases hn : n = 0
    · rw [if_pos hn, hn, List.take_zero, List.drop_zero]
      exact ⟨rfl, .refl _ c, .inl ⟨hrefusing, hidle⟩⟩
    · rw [if_neg hn]
      obtain ⟨mid, hgave, hend⟩ := waitFor_refusing
        (fun _ hclosed => StreamState.supplying_of_closed hclosed s.stream.localId n) hrefusing
        (.inl hidle) (c.deadline s.timeout) (.data s.stream.localId)
      rw [Connection.read, readBy]
      obtain ⟨⟨hmid, hle⟩ | hmid, hlook⟩ | ⟨_, _, _, hwait⟩ := hend
      · obtain ⟨last, hinspect, hmore, hlast, hsame⟩ | hinspect := supply_refusing hmid hn hsaid
        · rw [hinspect] at hlook
          rw [← Option.some.inj hlook]
          exact ⟨rfl, hgave.trans hmore, .inl ⟨hlast, by omega⟩⟩
        · rw [hinspect] at hlook
          cases hlook
      · obtain ⟨last, hinspect, hmore, hlast⟩ := supply_refused hmid hn hsaid
        rw [hinspect] at hlook
        rw [← Option.some.inj hlook]
        exact ⟨rfl, hgave.trans hmore, .inr hlast⟩
      · rw [hwait]
        exact ⟨hrefusing, rfl⟩
  · obtain ⟨after, htake, hgave, hlast⟩ := take_refused hrefused hsaid
    rw [htake]
    exact ⟨rfl, hgave, .inr hlast⟩

theorem wire_fail (text : PieceSaid) :
    (text.wire .fail).take 8 =
        SyncId.fail.bytes ++ Bytes.ofWord (UInt32.ofNat text.bytes.length) ∧
      (text.wire .fail).drop 8 = text.bytes ∧ (text.wire .fail).length = 8 + text.bytes.length := by
  have hhead : (SyncId.fail.bytes ++ Bytes.ofWord (UInt32.ofNat text.bytes.length)).length = 8 := rfl
  have hwire : text.wire .fail =
      SyncId.fail.bytes ++ Bytes.ofWord (UInt32.ofNat text.bytes.length) ++ text.bytes := rfl
  refine ⟨?_, ?_, ?_⟩
  · rw [hwire, ← hhead, List.take_left]
  · rw [hwire, ← hhead, List.drop_left]
  · rw [hwire, List.length_append, hhead]

theorem readReply_fail {c mid : Connection} {text : PieceSaid}
    (hhead : s.take 8 c = .ok ((text.wire .fail).take 8) mid) (shape : ReplyShape) :
    s.readReply shape c = match s.take text.bytes.length mid with
      | .ok bytes after => .error (.remote (Text.Utf8.decode bytes)) after
      | .error e after => .error e after := by
  have htake (tail : Bytes) : (SyncId.fail.bytes ++ tail).take 4 = SyncId.fail.bytes := rfl
  have hdrop (tail : Bytes) : (SyncId.fail.bytes ++ tail).drop 4 = tail := rfl
  rw [(wire_fail text).1] at hhead
  unfold readReply readRest
  simp only [hhead, htake, hdrop, SyncId.ofBytes?_bytes, if_true, SyncReply.words_ofWord,
    List.headD_cons, UInt32.toNat_ofNat_of_lt' text.fits]
  cases hr : s.take text.bytes.length mid with
  | ok bytes after => rw [bind_of_ok _ hr]; rfl
  | error e after => rw [bind_of_error _ hr]

/-- A failure that is reported in full before the stream is closed is what is read. -/
theorem readReply_refused {c : Connection} {text : PieceSaid}
    (h : c.Refused s.stream.localId (text.wire .fail)) (shape : ReplyShape) :
    outcome (s.readReply shape c) = .error (.remote (Text.Utf8.decode text.bytes)) := by
  obtain ⟨_, hdrop, hlength⟩ := wire_fail text
  obtain ⟨mid, htake, _, hmid⟩ := take_refused h (n := 8) (by omega)
  rw [hdrop] at hmid
  obtain ⟨after, htext, _⟩ := take_refused hmid (Nat.le_refl _)
  rw [List.take_length] at htext
  rw [readReply_fail htake, htext]
  rfl

/-- The next bytes of a report do not come in time, on a stream that is open. -/
structure Withheld (s : SyncSession) (report : Bytes) (c after : Connection) : Prop where
  isOpen : ¬ after.Shut s.stream.localId
  late : c.now + s.timeout ≤ after.now
  meanwhile : ∃ heard, Meanwhile heard 0 c after
  unsupplied : ∃ heard got n mid, Meanwhile heard 0 c mid ∧
    mid.taken s.stream.localId = c.taken s.stream.localId ++ got ∧ got.length + n ≤ report.length ∧
    s.Unsupplied n mid after

theorem readReply_turned {c : Connection} {text : PieceSaid}
    (h : c.Turned s.stream.localId peer (text.wire .fail) 0) (shape : ReplyShape) :
    let r := s.readReply shape c
    outcome r = .error (.remote (Text.Utf8.decode text.bytes)) ∨
      s.Withheld (text.wire .fail) c (final r) := by
  intro r
  obtain ⟨_, hdrop, hlength⟩ := wire_fail text
  have hhead := take_turned h (n := 8) (by omega)
  obtain ⟨hrefusing, _⟩ | hrefused := h
  rotate_left
  · exact .inl (readReply_refused hrefused shape)
  have hframed := hrefusing.channel.framed
  have hm := s.take_meanwhile 8 hframed
  cases htake : s.take 8 c with
  | error e after =>
    rw [htake] at hhead hm
    obtain ⟨t, ht, hsound⟩ := hrefusing.sound
    obtain ⟨hopen, hlate, hunsupplied, hheard⟩ := hm hhead.2 ⟨t, peer, ht, hsound⟩
    have hr : r = .error e after := by
      change s.readReply shape c = _
      rw [readReply, htake]
    rw [hr]
    exact .inr ⟨hopen, hlate, hheard, [], [], 8, c, .refl hframed, (List.append_nil _).symm, by
      rw [List.length_nil]; omega, hunsupplied⟩
  | ok head mid =>
    rw [htake] at hhead hm
    obtain ⟨rfl, hgave, hmid⟩ := hhead
    rw [hdrop] at hmid
    obtain ⟨heard, hheard⟩ := hm
    have hr : r = _ := readReply_fail htake shape
    have htext := take_turned hmid (Nat.le_refl _)
    have hm' := s.take_meanwhile text.bytes.length hheard.framed
    rw [hr]
    cases hrest : s.take text.bytes.length mid with
    | error e after =>
      rw [hrest] at htext hm'
      obtain ⟨t, ht, hsound⟩ := htext.1.sound
      obtain ⟨hopen, hlate, hunsupplied, more, hmore⟩ := hm' htext.2 ⟨t, peer, ht, hsound⟩
      refine .inr ⟨hopen, Nat.le_trans (Nat.add_le_add_right hheard.now _) hlate,
        ⟨_, hheard.trans hmore⟩, heard, _, text.bytes.length, mid, hheard, hgave.taken, ?_,
        hunsupplied⟩
      rw [List.length_take]
      omega
    | ok bytes after =>
      rw [hrest] at htext
      obtain ⟨rfl, _, _⟩ := htext
      rw [List.take_length]
      exact .inl rfl

end SyncSession

end DroidHost
