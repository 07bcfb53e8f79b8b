import DroidHost.Proofs.Hearing

/-! Transfers that are given up. The pauses in front of what they wait for, and the writes up to
there, take as long as they may. -/
namespace DroidHost

def Message.closes (id : UInt32) : Except BridgeError Message → Bool
  | .ok m => m.command = .close && m.arg1 = id
  | .error _ => false

namespace StreamState

variable {id peer : UInt32} {s : StreamState}

theorem of_supplying_failed {n : Nat} {e : BridgeError} (h : s.supplying id n = .failed e) :
    s.buffer.length < max n 1 ∧ s.phase = .closed ∧ e = .streamClosed id := by
  unfold supplying at h
  split at h
  · split at h <;> cases h
  · next hshort =>
    split at h
    · next hclosed =>
      cases h
      exact ⟨Nat.lt_of_not_le hshort, hclosed, rfl⟩
    · cases h

theorem of_supplying_notYet {n : Nat} (h : s.supplying id n = .notYet) :
    s.buffer.length < max n 1 ∧ s.phase ≠ .closed := by
  unfold supplying at h
  by_cases hmax : max n 1 ≤ s.buffer.length
  · rw [if_pos hmax] at h
    split at h <;> cases h
  · rw [if_neg hmax] at h
    split at h
    · cases h
    · next hopen => exact ⟨Nat.lt_of_not_le hmax, hopen⟩

theorem of_acknowledging_failed {e : BridgeError} (h : s.acknowledging id = .failed e) :
    s.phase = .closed ∧ e = .streamClosed id := by
  unfold acknowledging at h
  split at h
  · cases h
  · split at h
    · next hclosed =>
      cases h
      exact ⟨hclosed, rfl⟩
    · cases h

theorem of_acknowledging_notYet (h : s.acknowledging id = .notYet) :
    s.awaiting = true ∧ s.phase ≠ .closed := by
  unfold acknowledging at h
  cases hw : s.awaiting with
  | false =>
    simp only [hw, Bool.not_false, if_true] at h
    cases h
  | true =>
    simp only [hw, Bool.not_true, Bool.false_eq_true, if_false] at h
    split at h
    · cases h
    · next hopen => exact ⟨rfl, hopen⟩

theorem phase_told_of_closed (h : s.phase = .closed) (heard : List Message) :
    (s.told id heard).phase = .closed := by
  induction heard generalizing s with
  | nil => exact h
  | cons m rest ih =>
    by_cases hid : m.arg1 = id
    · simp only [told, List.foldl_cons, if_pos hid]
      exact ih (closed_apply h id m)
    · simp only [told, List.foldl_cons, if_neg hid]
      exact ih h

theorem phase_told_of_closes {heard : List Message}
    (h : (heard.map .ok).any (Message.closes id) = true) (s : StreamState) :
    (s.told id heard).phase = .closed := by
  induction heard generalizing s with
  | nil => cases h
  | cons m rest ih =>
    rw [List.map_cons, List.any_cons, Bool.or_eq_true] at h
    obtain hm | hrest := h
    · obtain ⟨hclose, hid⟩ := Bool.and_eq_true_iff.mp hm
      simp only [told, List.foldl_cons, if_pos (of_decide_eq_true hid)]
      apply phase_told_of_closed
      simp only [apply, of_decide_eq_true hclose]
      rfl
    · simp only [told, List.foldl_cons]
      exact ih hrest _

theorem apply_sound (h : s.Sound peer) {m : Message} (hid : m.arg1 = id) :
    (s.apply id m).1.fault ≠ none ∨ (s.apply id m).1.phase = .closed ∨
      (s.apply id m).1.Sound peer ∧
        (s.apply id m).1.buffer = s.buffer ++ Message.dataFor id (.ok m) ∧
        (Message.isOkayFor id (.ok m)).toNat + (s.apply id m).1.awaiting.toNat =
          s.awaiting.toNat := by
  cases hc : m.command with
  | okay =>
    have hstate : (s.apply id m).1 = s.acknowledged m.arg0 := by simp only [apply, hc]
    by_cases hpeer : m.arg0 = peer
    · cases hw : s.awaiting with
      | true =>
        obtain ⟨_, rfl, hserved⟩ := Connection.apply_serving h ⟨.inl hc, fun _ => .inr ⟨hc, hpeer⟩⟩
          hid (.inl hw)
        rw [hw] at hserved
        exact .inr (.inr hserved)
      | false =>
        have hnot : s.peer.any (· ≠ m.arg0) = false := by
          rw [h.2.1, hpeer, Option.any_some, decide_eq_false_iff_not]
          exact not_not_intro rfl
        refine .inl ?_
        rw [hstate, acknowledged, hnot, if_neg Bool.false_ne_true, hw, if_neg Bool.false_ne_true]
        exact Option.some_ne_none _
    · exact .inl (hstate ▸ acknowledged_stranger h hpeer)
  | close =>
    refine .inr (.inl ?_)
    simp only [apply, hc]
    rfl
  | write =>
    have hokay : Message.isOkayFor id (.ok m) = false := by
      rw [Message.isOkayFor, hc]
      apply decide_eq_false
      rintro ⟨⟨⟩, _⟩
    obtain ⟨_, rfl, hserved⟩ := Connection.apply_serving h
      ⟨.inr (.inr hc), fun _ => .inl hc⟩ hid (.inr hokay)
    exact .inr (.inr hserved)
  | _ =>
    have hstate : (s.apply id m).1 = s := by simp only [apply, hc]
    rw [hstate]
    refine .inr (.inr ⟨h, ?_, ?_⟩)
    · rw [Message.dataFor, if_neg (fun hn => by rw [hc] at hn; cases hn.1), List.append_nil]
    · rw [Message.isOkayFor, hc]
      exact Nat.zero_add _

theorem told_sound (h : s.Sound peer) {heard : List Message}
    (hfault : (s.told id heard).fault = none) (hopen : (s.told id heard).phase ≠ .closed) :
    (s.told id heard).buffer = s.buffer ++ (heard.map .ok).flatMap (Message.dataFor id) ∧
      (heard.map .ok).countP (Message.isOkayFor id) + (s.told id heard).awaiting.toNat =
        s.awaiting.toNat := by
  induction heard generalizing s with
  | nil => exact ⟨(List.append_nil _).symm, Nat.zero_add _⟩
  | cons m rest ih =>
    by_cases hid : m.arg1 = id
    · have hmore : s.told id (m :: rest) = (s.apply id m).1.told id rest := by
        simp only [told, List.foldl_cons, if_pos hid]
      rw [hmore] at hfault hopen ⊢
      obtain hspoilt | hclosed | ⟨hsound, hbuffer, hcount⟩ := apply_sound h hid
      · obtain ⟨fault, hsome⟩ := Option.ne_none_iff_exists'.mp hspoilt
        obtain ⟨fault', htold⟩ := told_spoilt id rest (s.apply id m).1 fault
        rw [show { (s.apply id m).1 with fault := some fault } = (s.apply id m).1 by rw [← hsome]]
          at htold
        rw [htold] at hfault
        cases hfault
      · exact absurd (phase_told_of_closed hclosed rest) hopen
      · obtain ⟨hdata, hokays⟩ := ih hsound hfault hopen
        refine ⟨?_, ?_⟩
        · rw [hdata, hbuffer, List.map_cons, List.flatMap_cons, List.append_assoc]
        · rw [List.map_cons, List.countP_cons, ← hcount, ← hokays]
          cases Message.isOkayFor id (.ok m) with
          | true =>
            rw [if_pos rfl, Bool.toNat_true]
            omega
          | false =>
            rw [if_neg Bool.false_ne_true, Bool.toNat_false]
            omega
    · have hsame : s.told id (m :: rest) = s.told id rest := by
        simp only [told, List.foldl_cons, if_neg hid]
      rw [hsame] at hfault hopen ⊢
      obtain ⟨hdata, hokays⟩ := ih h hfault hopen
      refine ⟨?_, ?_⟩
      · rw [hdata, List.map_cons, List.flatMap_cons, Message.dataFor, if_neg (fun hn => hid hn.2),
          List.nil_append]
      · rw [List.map_cons, List.countP_cons_of_neg
          (by rw [Message.isOkayFor, decide_eq_true_eq]; exact fun hn => hid hn.2)]
        exact hokays

end StreamState

namespace Connection

/-- Wherever the queue is cut behind enough of it, the pauses in front, so many writes, and the
acknowledgements that are called for there take the whole budget. -/
def Overdue (budget writes : Nat) (enough : List (Except BridgeError Message) → Prop)
    (c : Connection) : Prop :=
  ∀ front back, c.channel.link.inbound = front ++ back →
    let came := Message.parse (c.channel.fragment ++ front.flatMap Arrival.bytes)
    enough came → budget ≤ Arrival.delay front + c.channel.link.due (writes + c.duties came)

/-- These messages were taken in and acknowledged, so many writes were tried besides at most, and
nothing else took time. -/
structure Meanwhile (heard : List Message) (writes : Nat) (c after : Connection) : Prop where
  coming : ∀ later, c.coming later = heard.map .ok ++ after.coming later
  spent : ∃ n ≤ writes + c.duties (heard.map .ok), Channel.Spent heard n c.channel after.channel
  present : ∀ id, after.table.contains id = c.table.contains id
  shut : ∀ id, c.Shut id ∨ (heard.map .ok).any (Message.closes id) = true → after.Shut id
  framed : after.channel.Framed
  info : after.info = c.info
  now : c.now ≤ after.now

variable {heard more : List Message} {writes further : Nat} {c mid after : Connection}

theorem Meanwhile.refl (h : c.channel.Framed) : Meanwhile [] 0 c c where
  coming := fun _ => rfl
  spent := ⟨0, Nat.zero_le _, .refl _⟩
  present := fun _ => rfl
  shut := by
    rintro id (hshut | hnone)
    · exact hshut
    · cases hnone
  framed := h
  info := rfl
  now := Nat.le_refl _

theorem Meanwhile.le (h : Meanwhile heard writes c after) (hle : writes ≤ further) :
    Meanwhile heard further c after := by
  obtain ⟨n, hn, hspent⟩ := h.spent
  exact { h with spent := ⟨n, by omega, hspent⟩ }

theorem Meanwhile.trans (h : Meanwhile heard writes c mid) (h' : Meanwhile more further mid after) :
    Meanwhile (heard ++ more) (writes + further) c after where
  coming := fun later => by rw [h.coming, h'.coming, List.map_append, List.append_assoc]
  spent := by
    obtain ⟨n, hn, hspent⟩ := h.spent
    obtain ⟨k, hk, hspent'⟩ := h'.spent
    have hsame : mid.duties (more.map .ok) = c.duties (more.map .ok) := by
      have hdue : mid.isDue = c.isDue := by
        funext r
        cases r with
        | ok m => rw [isDue, isDue, h.present]
        | error e => rfl
      rw [duties, duties, hdue]
    refine ⟨k + n, ?_, hspent.trans hspent'⟩
    rw [duties, List.map_append, List.countP_append]
    rw [hsame, duties] at hk
    rw [duties] at hn
    omega
  present := fun id => (h'.present id).trans (h.present id)
  shut := by
    rintro id (hshut | hcloses)
    · exact h'.shut id (.inl (h.shut id (.inl hshut)))
    · rw [List.map_append, List.any_append, Bool.or_eq_true] at hcloses
      exact h'.shut id (hcloses.imp_left fun hfirst => h.shut id (.inr hfirst))
  framed := h'.framed
  info := h'.info.trans h.info
  now := Nat.le_trans h.now h'.now

/-- What was not heard by the end of some time did not come in it. -/
theorem Meanwhile.overdue (h : Meanwhile heard writes c after) {budget : Nat}
    (hlate : c.now + budget ≤ after.now) {enough : List (Except BridgeError Message) → Prop}
    (hnot : ∀ came, came <+: heard.map .ok → ¬ enough came) : c.Overdue budget writes enough := by
  intro front back hinbound came henough
  have hcame : came <+: c.coming [] := front_prefix hinbound
  rw [h.coming []] at hcame
  rcases Nat.lt_or_ge heard.length came.length with hmore | hle
  · obtain ⟨n, hn, hspent⟩ := h.spent
    have hheard : heard.map .ok <+: came := List.prefix_of_prefix_length_le
      (List.prefix_append _ _) hcame (by rw [List.length_map]; exact Nat.le_of_lt hmore)
    have hduties : c.duties (heard.map .ok) ≤ c.duties came := hheard.sublist.countP_le
    have hdue : c.channel.link.due n ≤ c.channel.link.due (writes + c.duties came) :=
      Link.due_mono (by omega) c.channel.link
    have hnow : after.now ≤ c.now + Arrival.delay front + c.channel.link.due n :=
      hspent.now_le hinbound hmore
    omega
  · exact absurd henough (hnot came (List.prefix_of_prefix_length_le hcame
      (List.prefix_append _ _) (by rw [List.length_map]; exact hle)))

theorem info_send (c : Connection) (m : Message) (deadline : Deadline) :
    (final (c.send m deadline)).info = c.info := by
  unfold send
  split
  · rfl
  · split <;> rfl

theorem info_acknowledge (c : Connection) (ack : Message) (deadline : Deadline) :
    (c.acknowledge ack deadline).info = c.info := by
  have hsend := c.info_send ack
    (c.deadline (deadline.remainingOrFloor Deadline.transferFloor c.now))
  unfold acknowledge
  split
  · next sent hs =>
    rw [hs] at hsend
    exact hsend
  · next f sent hs =>
    rw [hs] at hsend
    unfold spoil
    split <;> exact hsend

theorem info_takeIn {deadline : Deadline} {u : Unit} (h : c.takeIn deadline = .ok u after) :
    after.info = c.info := by
  unfold takeIn at h
  split at h
  · split at h
    · cases h
      rfl
    · cases h
  · split at h
    · cases h
    · cases h
      rfl
    · cases h
      exact info_acknowledge _ _ _

theorem takeIn_meanwhile {deadline : Deadline} {u : Unit} (hframed : c.channel.Framed)
    (ht : c.takeIn deadline = .ok u after) :
    ∃ heard lately, Meanwhile heard 0 c after ∧
      ∀ id, Relayed id heard lately (c.table.find? id) (after.table.find? id) := by
  obtain ⟨heard, lately, hheard, hspent, hduties, hlast, _⟩ := takeIn_hears hframed ht
  refine ⟨heard, lately, ⟨hheard.coming, ⟨_, by omega, hspent⟩, fun id => ?_, fun id hid => ?_, hlast,
    info_takeIn ht, (takeIn_ok ht).2.2.1⟩, hheard.streams⟩
  · have hphase := congrArg Option.isSome (hheard.streams id).phase
    rw [Option.isSome_map, Option.isSome_map] at hphase
    exact hphase
  · intro t ht
    have hphase := (hheard.streams id).phase
    rw [ht] at hphase
    obtain ⟨s, hs, htold⟩ := Option.map_eq_some_iff.mp hphase.symm
    rw [← htold]
    obtain hshut | hcloses := hid
    · exact StreamState.phase_told_of_closed (hshut s hs) heard
    · exact StreamState.phase_told_of_closes hcloses s

theorem waitFor_meanwhile (id : UInt32) (deadline : Deadline) (awaited : Awaited)
    (look : StreamState → Look α) (hframed : c.channel.Framed) :
    let r := c.waitFor id deadline awaited look
    ∃ mid heard lately, Meanwhile heard 0 c mid ∧
      Relayed id heard lately (c.table.find? id) (mid.table.find? id) ∧
      (mid.inspect id look = some r ∨
        mid.inspect id look = none ∧ deadline.hasExpired mid.now = true ∧
          r = .error (.timeout deadline.budget awaited) mid ∨
        ∃ e last, e.ofChannel = true ∧ r = .error e last) := by
  intro r
  fun_induction waitFor id deadline awaited look c with
  | case1 c said hsaid =>
    exact ⟨c, [], [], .refl hframed, relayed_nothing id [] _, .inl hsaid⟩
  | case2 c hsaid he =>
    exact ⟨c, [], [], .refl hframed, relayed_nothing id [] _, .inr (.inl ⟨hsaid, he, rfl⟩)⟩
  | case3 c hsaid he u after ht ih =>
    obtain ⟨heard, lately, hmeanwhile, hrelayed⟩ := takeIn_meanwhile hframed ht
    obtain ⟨mid, more, later, hmore, hrelayed', hend⟩ := ih hmeanwhile.framed
    exact ⟨mid, heard ++ more, later ++ lately, hmeanwhile.trans hmore,
      (hrelayed id).trans hrelayed', hend⟩
  | case4 c hsaid he e after ht =>
    exact ⟨c, [], [], .refl hframed, relayed_nothing id [] _,
      .inr (.inr ⟨e, after, ofChannel_of_takeIn ht, rfl⟩)⟩

theorem Relayed.sound {id peer : UInt32} {lately : List Occurrence} {s t : StreamState}
    (h : Relayed id heard lately (some s) (some t)) (hsound : s.Sound peer) (hfault : t.fault = none)
    (hopen : t.phase ≠ .closed) :
    t.buffer = s.buffer ++ (heard.map .ok).flatMap (Message.dataFor id) ∧
      (heard.map .ok).countP (Message.isOkayFor id) + t.awaiting.toNat = s.awaiting.toNat := by
  obtain htold | ⟨_, fault, hspoilt⟩ := h
  · cases htold
    exact StreamState.told_sound hsound hfault hopen
  · cases hspoilt
    cases hfault

theorem inspect_none {id : UInt32} {look : StreamState → Look α} (h : c.inspect id look = none) :
    ∃ t, c.table.find? id = some t ∧ t.fault = none ∧ look t = .notYet := by
  unfold inspect at h
  split at h
  · cases h
  · next t ht =>
    split at h
    · cases h
    · next hfault =>
      split at h
      · cases h
      · cases h
      · next hlook => exact ⟨t, ht, hfault, hlook⟩

theorem isTimeout_of_inspect {id : UInt32} {look : StreamState → Look α}
    (hl : ∀ t e, look t = .failed e → e.isTimeout = false) {e : BridgeError}
    (h : c.inspect id look = some (.error e after)) : e.isTimeout = false := by
  unfold inspect at h
  split at h
  · cases h
    rfl
  · split at h
    · cases h
      rfl
    · split at h
      · cases h
      · next hlook =>
        cases h
        exact hl _ _ hlook
      · cases h

theorem fault_of_inspect_ok {id : UInt32} {look : StreamState → Look α} {a : α}
    (h : c.inspect id look = some (.ok a after)) {t : StreamState}
    (ht : c.table.find? id = some t) : t.fault = none := by
  cases hfault : t.fault with
  | none => rfl
  | some fault =>
    simp only [inspect, ht, hfault] at h
    cases h

section Waits
variable {id : UInt32} {deadline : Deadline} {awaited : Awaited} {look : StreamState → Look α}
  (hframed : c.channel.Framed)
include hframed

theorem waitFor_ok_meanwhile {a : α} (h : c.waitFor id deadline awaited look = .ok a after) :
    ∃ mid heard lately t t', Meanwhile heard 0 c mid ∧
      Relayed id heard lately (c.table.find? id) (some t) ∧ mid.table.find? id = some t ∧
      t.fault = none ∧ look t = .ready a t' ∧ after = mid.setStream id t' := by
  obtain ⟨mid, heard, lately, hmeanwhile, hrelayed, hend⟩ :=
    waitFor_meanwhile id deadline awaited look hframed
  rw [h] at hend
  obtain hlook | ⟨_, _, hlate⟩ | ⟨e, last, _, herror⟩ := hend
  · obtain ⟨t, t', ht, hready, hafter⟩ := inspect_ok hlook
    rw [ht] at hrelayed
    exact ⟨mid, heard, lately, t, t', hmeanwhile, hrelayed, ht, fault_of_inspect_ok hlook ht, hready,
      hafter⟩
  · cases hlate
  · cases herror

theorem waitFor_late_meanwhile (hl : ∀ t e, look t = .failed e → e.isTimeout = false)
    (h : c.waitFor id deadline awaited look = .error (.timeout deadline.budget awaited) after) :
    ∃ heard lately t, Meanwhile heard 0 c after ∧
      Relayed id heard lately (c.table.find? id) (some t) ∧ after.table.find? id = some t ∧
      t.fault = none ∧ look t = .notYet ∧ deadline.hasExpired after.now = true := by
  obtain ⟨mid, heard, lately, hmeanwhile, hrelayed, hend⟩ :=
    waitFor_meanwhile id deadline awaited look hframed
  rw [h] at hend
  obtain hlook | ⟨hnothing, hlate, hsame⟩ | ⟨e, last, hchannel, herror⟩ := hend
  · cases isTimeout_of_inspect hl hlook
  · cases hsame
    obtain ⟨t, ht, hfault, hnot⟩ := inspect_none hnothing
    rw [ht] at hrelayed
    exact ⟨heard, lately, t, hmeanwhile, hrelayed, ht, hfault, hnot, hlate⟩
  · cases herror
    cases hchannel

end Waits

theorem Meanwhile.note (h : Meanwhile heard writes c after) (o : Occurrence) :
    Meanwhile heard writes c (after.note o) :=
  ⟨h.coming, h.spent, h.present, h.shut, h.framed, h.info, h.now⟩

theorem Meanwhile.setStream (h : Meanwhile heard writes c mid) {id : UInt32} {t t' : StreamState}
    (ht : mid.table.find? id = some t) (hphase : t'.phase = t.phase) :
    Meanwhile heard writes c (mid.setStream id t') := by
  have hfound (k : UInt32) : (mid.setStream id t').table.find? k =
      if k = id then some t' else mid.table.find? k := by
    rw [Connection.setStream, StreamTable.find?_set, ht]
    rfl
  refine ⟨h.coming, h.spent, fun k => ?_, fun k hk s hs => ?_, h.framed, h.info, h.now⟩
  · rw [← h.present, StreamTable.contains, StreamTable.contains, hfound]
    split
    · next hk => rw [hk, ht]; rfl
    · rfl
  · rw [hfound] at hs
    split at hs
    · next hsame =>
      cases hs
      rw [hphase]
      exact h.shut k hk t (hsame ▸ ht)
    · exact h.shut k hk s hs

theorem send_spent {m : Message} {deadline : Deadline} {u : Unit} (hframed : c.channel.Framed)
    (h : c.send m deadline = .ok u after) :
    ∃ n ≤ 2, Channel.Spent [] n c.channel after.channel := by
  have hput {ch : Channel} (hch : ch.Framed) (bytes : Bytes) (budget : Nat) :=
    Channel.put_paid hch.steady.isOpen bytes budget
  have hheader := hput hframed m.header (deadline.remaining c.channel.now)
  unfold send Channel.sendHeader at h
  cases hr : c.channel.put m.header (deadline.remaining c.channel.now) with
  | error f ch =>
    rw [hr] at h
    cases h
  | ok u ch =>
    rw [hr, final_ok] at hheader
    rw [hr] at h
    have hmid := (hheader.framed hframed).1
    have hpayload := hput hmid m.payload (deadline.remainingOrFloor Deadline.transferFloor ch.now)
    dsimp only at h
    unfold Channel.sendPayload at h
    by_cases hempty : m.payload.isEmpty = true
    · rw [if_pos hempty] at h
      cases h
      exact ⟨1, Nat.le_add_right 1 1, hheader.spent⟩
    · rw [if_neg hempty] at h
      cases hr' : ch.put m.payload (deadline.remainingOrFloor Deadline.transferFloor ch.now) with
      | error f last =>
        rw [hr'] at h
        cases h
      | ok u last =>
        rw [hr'] at h hpayload
        cases h
        exact ⟨2, Nat.le_refl 2, hheader.spent.trans hpayload.spent⟩

theorem send_meanwhile {m : Message} {deadline : Deadline} {u : Unit} (hframed : c.channel.Framed)
    (h : c.send m deadline = .ok u after) : Meanwhile [] 2 c after ∧ after.table = c.table := by
  have hspent := send_spent hframed h
  have htable := (c.send_weight m deadline).2.1
  have hnow := (c.send_weight m deadline).2.2
  have hinfo := c.info_send m deadline
  have hsame := send_framed hframed m deadline
  rw [h, final_ok] at htable hnow hinfo hsame
  refine ⟨⟨fun later => ?_, hspent, fun id => ?_, ?_, hsame.1, hinfo, hnow⟩, htable⟩
  · rw [coming, coming, hsame.2]
    rfl
  · rw [htable]
  · rintro id (hshut | hnone)
    · rw [Shut, htable]
      exact hshut
    · cases hnone

theorem sendPiece_meanwhile {id : UInt32} {deadline : Deadline} {piece : Bytes} {u : Unit}
    (hframed : c.channel.Framed) (h : c.sendPiece id deadline piece = .ok u after) :
    c.Writable id ∧ Meanwhile [] 2 c after ∧
      ∃ t peer, after.table.find? id = some t ∧ t.Sound peer := by
  unfold sendPiece at h
  cases hs : c.table.find? id with
  | none =>
    rw [hs] at h
    cases h
  | some s =>
    simp only [hs] at h
    cases hready : s.writable id with
    | error e =>
      rw [hready] at h
      cases h
    | ok peer =>
      simp only [hready] at h
      cases hsend : c.send ⟨.write, id, peer, piece⟩ deadline with
      | error f sent =>
        rw [hsend] at h
        cases h
      | ok u sent =>
        rw [hsend] at h
        cases h
        obtain ⟨hsent, htable⟩ := send_meanwhile hframed hsend
        have hfound : sent.table.find? id = some s := htable ▸ hs
        refine ⟨⟨s, peer, hs, hready⟩, hsent.setStream hfound rfl, { s with awaiting := true }, peer,
          ?_, (StreamState.writable_iff.mp hready).1⟩
        rw [setStream, StreamTable.find?_set, if_pos rfl, hfound]
        rfl

theorem sendPiece_not_late {id : UInt32} {deadline : Deadline} {piece : Bytes} {e : BridgeError}
    (h : c.sendPiece id deadline piece = .error e after) (budget : Nat) (awaited : Awaited) :
    e ≠ .timeout budget awaited := by
  rintro rfl
  unfold sendPiece at h
  split at h
  · cases h
  · split at h
    · next e' hready =>
      cases h
      unfold StreamState.writable at hready
      split at hready
      · cases hready
      · split at hready
        · cases hready
        · split at hready <;> cases hready
        · cases hready
    · split at h <;> cases h

/-- Messages acknowledge so many pieces that were sent on a stream, or close it. -/
def Heeds (id : UInt32) (pieces : Nat) (ms : List (Except BridgeError Message)) : Prop :=
  pieces ≤ ms.countP (Message.isOkayFor id) ∨ ms.any (Message.closes id) = true

/-- With these messages there are so many bytes of a stream to read, or it is closed. -/
def Supplies (id : UInt32) (n : Nat) (c : Connection) (ms : List (Except BridgeError Message)) :
    Prop :=
  n ≤ (c.unread id ++ ms.flatMap (Message.dataFor id)).length ∨ ms.any (Message.closes id) = true

theorem not_shut {id : UInt32} {t : StreamState} (ht : c.table.find? id = some t)
    (hopen : t.phase ≠ .closed) : ¬ c.Shut id := fun h => hopen (h t ht)

theorem Meanwhile.not_closes {id : UInt32} (h : Meanwhile heard writes c after)
    (hopen : ¬ after.Shut id) {came : List (Except BridgeError Message)}
    (hcame : came <+: heard.map .ok) : came.any (Message.closes id) ≠ true := by
  intro hcloses
  obtain ⟨r, hr, hclose⟩ := List.any_eq_true.mp hcloses
  exact hopen (h.shut id (.inr (List.any_eq_true.mpr ⟨r, hcame.subset hr, hclose⟩)))

theorem writePiece_meanwhile (id : UInt32) (deadline : Deadline) (piece : Bytes)
    (hframed : c.channel.Framed) :
    match c.writePiece id deadline piece with
    | .ok _ after => c.Writable id ∧ ∃ heard, Meanwhile heard 2 c after ∧
        (¬ after.Shut id → (heard.map .ok).countP (Message.isOkayFor id) ≤ 1)
    | .error e after => e = .timeout deadline.budget (.okay id) →
        c.Writable id ∧ ¬ after.Shut id ∧ deadline.hasExpired after.now = true ∧
          ∃ heard, Meanwhile heard 2 c after ∧ (heard.map .ok).countP (Message.isOkayFor id) = 0 := by
  unfold writePiece
  cases hsend : c.sendPiece id deadline piece with
  | error e sent => exact fun he => absurd he (sendPiece_not_late hsend _ _)
  | ok u sent =>
    obtain ⟨hwritable, hsent, s, peer, hs, hsound⟩ := sendPiece_meanwhile hframed hsend
    dsimp only
    cases hwait : sent.waitFor id deadline (.okay id) (StreamState.acknowledging id) with
    | ok u' after =>
      obtain ⟨mid, heard, lately, t, t', hmeanwhile, hrelayed, ht, hfault, hready, rfl⟩ :=
        waitFor_ok_meanwhile hsent.framed hwait
      rw [StreamState.eq_of_acknowledging hready, setStream, StreamTable.set_eq_self ht]
      refine ⟨hwritable, heard, hsent.trans hmeanwhile, fun hopen => ?_⟩
      have hphase : t.phase ≠ .closed := by
        intro hclosed
        refine hopen fun t' ht' => ?_
        cases ht.symm.trans ht'
        exact hclosed
      rw [hs] at hrelayed
      have hcount := (hrelayed.sound hsound hfault hphase).2
      have hone := Bool.toNat_le s.awaiting
      omega
    | error e after =>
      rintro rfl
      have hl (t : StreamState) (e : BridgeError) (hfailed : t.acknowledging id = .failed e) :
          e.isTimeout = false := by
        rw [(StreamState.of_acknowledging_failed hfailed).2]
        rfl
      obtain ⟨heard, lately, t, hmeanwhile, hrelayed, ht, hfault, hnot, hlate⟩ :=
        waitFor_late_meanwhile hsent.framed hl hwait
      obtain ⟨hawaits, hphase⟩ := StreamState.of_acknowledging_notYet hnot
      rw [hs] at hrelayed
      have hcount := (hrelayed.sound hsound hfault hphase).2
      have hone := Bool.toNat_le s.awaiting
      rw [hawaits, Bool.toNat_true] at hcount
      exact ⟨hwritable, not_shut ht hphase, hlate, heard, hsent.trans hmeanwhile, by omega⟩

theorem writePieces_meanwhile (id : UInt32) (deadline : Deadline) (hframed : c.channel.Framed)
    (pieces : List Bytes) :
    match c.writePieces id deadline pieces with
    | .ok _ after => ∃ heard, Meanwhile heard (2 * pieces.length) c after
    | .error e after => e = .timeout deadline.budget (.okay id) →
        c.Writable id ∧ ¬ after.Shut id ∧ deadline.hasExpired after.now = true ∧
          ∃ heard, Meanwhile heard (2 * pieces.length) c after ∧
            (heard.map .ok).countP (Message.isOkayFor id) < pieces.length := by
  induction pieces generalizing c with
  | nil => exact ⟨[], .refl hframed⟩
  | cons piece rest ih =>
    have hp := writePiece_meanwhile id deadline piece hframed
    unfold writePieces
    cases hr : c.writePiece id deadline piece with
    | error e after =>
      rw [hr] at hp
      intro he
      obtain ⟨hwritable, hopen, hlate, heard, hmeanwhile, hnone⟩ := hp he
      refine ⟨hwritable, hopen, hlate, heard, hmeanwhile.le ?_, ?_⟩
      · rw [List.length_cons]
        omega
      · rw [hnone, List.length_cons]
        exact Nat.succ_pos _
    | ok u mid =>
      rw [hr] at hp
      obtain ⟨hwritable, heard, hmeanwhile, hone⟩ := hp
      have hrest := ih hmeanwhile.framed
      dsimp only
      have hlength : 2 + 2 * rest.length = 2 * (piece :: rest).length := by
        rw [List.length_cons]
        omega
      cases hw : mid.writePieces id deadline rest with
      | ok u after =>
        rw [hw] at hrest
        obtain ⟨more, hmore⟩ := hrest
        exact ⟨heard ++ more, hlength ▸ hmeanwhile.trans hmore⟩
      | error e after =>
        rw [hw] at hrest
        intro he
        obtain ⟨⟨s, peer, hs, hready⟩, hopen, hlate, more, hmore, hless⟩ := hrest he
        -- The stream was open in between, so no more than one piece was acknowledged before that.
        have hfirst := hone (not_shut hs (by
          rw [(StreamState.writable_iff.mp hready).1.1]
          rintro ⟨⟩))
        refine ⟨hwritable, hopen, hlate, heard ++ more, hlength ▸ hmeanwhile.trans hmore, ?_⟩
        rw [List.map_append, List.countP_append, List.length_cons]
        omega

end Connection

namespace SyncSession
open Connection

def cuts (info : DeviceInfo) (bytes : Bytes) : Nat := (Bytes.pieces info.maxData.toNat bytes).length

/-- The pieces of a frame that is written here are not acknowledged in time. -/
def Unheeded (s : SyncSession) (id : SyncId) (value : UInt32) (bytes : Bytes)
    (c after : Connection) : Prop :=
  let pieces := cuts c.info (frame id value bytes)
  s.writeFrame id value bytes c = .error (.timeout s.timeout (.okay s.stream.localId)) after ∧
    c.Overdue s.timeout (2 * pieces) (Heeds s.stream.localId pieces)

/-- The next bytes that are read here do not come in time. -/
def Unsupplied (s : SyncSession) (n : Nat) (c after : Connection) : Prop :=
  s.take n c = .error (.timeout s.timeout (.data s.stream.localId)) after ∧
    c.Overdue s.timeout 0 (c.Supplies s.stream.localId n)

theorem writeFrame_meanwhile (s : SyncSession) (id : SyncId) (value : UInt32) (bytes : Bytes)
    {c : Connection} (hframed : c.channel.Framed) :
    let pieces := cuts c.info (frame id value bytes)
    match s.writeFrame id value bytes c with
    | .ok _ after => ∃ heard, Meanwhile heard (2 * pieces) c after
    | .error e after => e = .timeout s.timeout (.okay s.stream.localId) →
        ¬ after.Shut s.stream.localId ∧ c.now + s.timeout ≤ after.now ∧
          s.Unheeded id value bytes c after ∧ ∃ heard, Meanwhile heard (2 * pieces) c after ∧
            (heard.map .ok).countP (Message.isOkayFor s.stream.localId) < pieces := by
  intro pieces
  have hw := writePieces_meanwhile s.stream.localId (c.deadline s.timeout) hframed
    (Bytes.pieces c.info.maxData.toNat (frame id value bytes))
  have hwrite : s.writeFrame id value bytes c = c.writePieces s.stream.localId
    (c.deadline s.timeout) (Bytes.pieces c.info.maxData.toNat (frame id value bytes)) := rfl
  rw [hwrite]
  cases hr : c.writePieces s.stream.localId (c.deadline s.timeout)
      (Bytes.pieces c.info.maxData.toNat (frame id value bytes)) with
  | ok u after =>
    rw [hr] at hw
    exact hw
  | error e after =>
    rw [hr] at hw
    rintro rfl
    obtain ⟨_, hopen, hlate, heard, hmeanwhile, hless⟩ := hw rfl
    have hnow : c.now + s.timeout ≤ after.now := Deadline.hasExpired_iff.mp hlate
    refine ⟨hopen, hnow, ⟨hwrite.trans hr, hmeanwhile.overdue hnow ?_⟩, heard, hmeanwhile, hless⟩
    rintro came hcame (hall | hcloses)
    · exact absurd hless (Nat.not_lt.mpr (Nat.le_trans hall hcame.sublist.countP_le))
    · exact hmeanwhile.not_closes hopen hcame hcloses

theorem take_meanwhile (s : SyncSession) (n : Nat) {c : Connection} (hframed : c.channel.Framed) :
    match s.take n c with
    | .ok _ after => ∃ heard, Meanwhile heard 0 c after
    | .error e after => e = .timeout s.timeout (.data s.stream.localId) →
        (∃ t peer, c.table.find? s.stream.localId = some t ∧ t.Sound peer) →
        ¬ after.Shut s.stream.localId ∧ c.now + s.timeout ≤ after.now ∧ s.Unsupplied n c after ∧
          ∃ heard, Meanwhile heard 0 c after := by
  by_cases hn : n = 0
  · have htake : s.take n c = .ok [] c := if_pos hn
    rw [htake]
    exact ⟨[], .refl hframed⟩
  · have htake : s.take n c = c.readBy s.stream.localId n (c.deadline s.timeout) := if_neg hn
    rw [htake, readBy]
    cases hr : c.waitFor s.stream.localId (c.deadline s.timeout) (.data s.stream.localId)
        (StreamState.supplying s.stream.localId n) with
    | ok bytes last =>
      obtain ⟨mid, heard, _, t, t', hmeanwhile, _, ht, _, hready, rfl⟩ :=
        waitFor_ok_meanwhile hframed hr
      have hphase : t'.phase = t.phase := by rw [(StreamState.supplying_ready hready).2.1]
      exact ⟨heard, (hmeanwhile.setStream ht hphase).note _⟩
    | error e after =>
      rintro rfl ⟨t, peer, ht, hsound⟩
      have hl (t : StreamState) (e : BridgeError)
          (hfailed : t.supplying s.stream.localId n = .failed e) : e.isTimeout = false := by
        rw [(StreamState.of_supplying_failed hfailed).2.2]
        rfl
      obtain ⟨heard, lately, t', hmeanwhile, hrelayed, ht', hfault, hnot, hlate⟩ :=
        waitFor_late_meanwhile hframed hl hr
      obtain ⟨hshort, hphase⟩ := StreamState.of_supplying_notYet hnot
      have hnow : c.now + s.timeout ≤ after.now := Deadline.hasExpired_iff.mp hlate
      have hopen := not_shut ht' hphase
      rw [ht] at hrelayed
      have hbuffer := (hrelayed.sound hsound hfault hphase).1
      refine ⟨hopen, hnow, ⟨?_, hmeanwhile.overdue hnow ?_⟩, heard, hmeanwhile⟩
      · rw [htake, readBy, hr]
      · rintro came ⟨rest, hrest⟩ (hall | hcloses)
        · rw [hbuffer, ← hrest, List.flatMap_append, List.length_append, List.length_append] at hshort
          rw [unread, ht, Option.map_some, Option.getD_some, List.length_append] at hall
          omega
        · exact hmeanwhile.not_closes hopen ⟨rest, hrest⟩ hcloses

end SyncSession
end DroidHost
