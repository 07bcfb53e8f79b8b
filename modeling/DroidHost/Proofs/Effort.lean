import DroidHost.Proofs.FileCalls
import DroidHost.Proofs.ReplyParser
import DroidHost.Proofs.Run

/-! No call goes on for ever. Every transfer but a few is paid for by what it takes off the link,
and an acknowledgement by the message that calls for it. -/
namespace DroidHost

namespace Link

theorem length_past_read (wanted budget : Nat) (link : Link) :
    (final (link.read wanted budget)).past.length = link.past.length + 1 := by
  have h := read_record wanted budget link
  cases hr : link.read wanted budget with
  | ok bytes after =>
    rw [hr] at h
    exact congrArg List.length h
  | error f after =>
    rw [hr] at h
    exact congrArg List.length h

theorem length_past_write (bytes : Bytes) (budget : Nat) (link : Link) :
    (final (link.write bytes budget)).past.length = link.past.length + 1 := by
  have h := write_record bytes budget link
  cases hr : link.write bytes budget with
  | ok u after =>
    rw [hr] at h
    exact congrArg List.length h
  | error f after =>
    rw [hr] at h
    exact congrArg List.length h

end Link

namespace Channel

def calls (ch : Channel) : Nat := ch.link.past.length

/-- What there is to pay further transfers from. -/
def stock (ch : Channel) : Nat := ch.link.weight + ch.weight

def effort (ch : Channel) : Nat := ch.calls + ch.stock

theorem effort_read (wanted budget : Nat) (ch : Channel) :
    match ch.link.read wanted budget with
    | .ok bytes link =>
      effort { link := link, fragment := ch.fragment ++ bytes } + bytes.length ≤ ch.effort + 1
    | .error f link => effort { ch with link := link } ≤ ch.effort + 1 ∧
        (f = .closed ∨ effort { ch with link := link } ≤ ch.effort ∨
          link.now = ch.now + budget) := by
  have hcount := ch.link.length_past_read wanted budget
  cases hr : ch.link.read wanted budget with
  | ok bytes link =>
    have hweight := Link.read_ok_weight hr
    rw [hr, final_ok] at hcount
    simp only [effort, calls, stock, weight, List.length_append]
    omega
  | error f link =>
    obtain ⟨_, hweight, hcases⟩ := Link.read_error_cases hr
    rw [hr, final_error] at hcount
    simp only [effort, calls, stock, weight]
    refine ⟨by omega, hcases.imp_right ?_⟩
    rintro (hless | hnow)
    · exact .inl (by omega)
    · exact .inr hnow

/-- All transfers of a success are paid for, and all but one of a failure. -/
def Frugal (deadline : Deadline) (ch : Channel) : EStateM.Result BridgeError Channel α → Prop
  | .ok _ after => after.effort ≤ ch.effort
  | .error e after => after.effort ≤ ch.effort + 1 ∧
      (e.isTimeout = true → after.effort ≤ ch.effort ∨ deadline.hasExpired after.now = true)

theorem Frugal.after_paid {deadline : Deadline} {ch mid : Channel}
    {r : EStateM.Result BridgeError Channel α} (h : Frugal deadline mid r)
    (hpaid : mid.effort ≤ ch.effort) : Frugal deadline ch r := by
  cases r with
  | ok a after => exact Nat.le_trans h hpaid
  | error e after =>
    obtain ⟨hone, htime⟩ := h
    exact ⟨Nat.le_trans hone (Nat.add_le_add_right hpaid 1),
      fun ht => (htime ht).imp_left fun hle => Nat.le_trans hle hpaid⟩

theorem frugal_of_paid {deadline : Deadline} {ch after : Channel} {e : BridgeError}
    (hpaid : after.effort ≤ ch.effort) :
    Frugal (α := α) deadline ch (.error e after) :=
  ⟨Nat.le_succ_of_le hpaid, fun _ => .inl hpaid⟩

theorem fill_frugal (target : Nat) (deadline : Deadline) (ch : Channel) :
    Frugal deadline ch (ch.fill target deadline) := by
  fun_induction fill target deadline ch with
  | case1 ch hle => exact Nat.le_refl _
  | case2 ch hlt f link hr =>
    have hread := ch.effort_read (target - ch.fragment.length) (ch.allowance deadline)
    rw [hr] at hread
    obtain ⟨hone, hcases⟩ := hread
    refine ⟨hone, fun htimeout => ?_⟩
    rcases hcases with rfl | hpaid | hnow
    · cases htimeout
    · exact .inl hpaid
    · refine .inr ?_
      change deadline.hasExpired link.now = true
      rw [hnow]
      exact Deadline.hasExpired_of_remaining_le (ch.remaining_le_allowance deadline)
  | case3 ch hlt link hr =>
    have hread := ch.effort_read (target - ch.fragment.length) (ch.allowance deadline)
    rw [hr] at hread
    dsimp only at hread
    rw [List.append_nil] at hread
    exact ⟨hread, fun ht => by cases ht⟩
  | case4 ch hlt b bytes link hr ih =>
    have hread := ch.effort_read (target - ch.fragment.length) (ch.allowance deadline)
    rw [hr] at hread
    refine ih.after_paid ?_
    simp only [List.length_cons] at hread
    omega

theorem gather_frugal (deadline : Deadline) (ch : Channel) :
    Frugal deadline ch (ch.gather deadline) := by
  have hhead := ch.fill_frugal Header.size deadline
  unfold gather
  cases hf : ch.fill Header.size deadline with
  | error e after =>
    rw [hf] at hhead
    exact hhead
  | ok u mid =>
    rw [hf] at hhead
    dsimp only
    cases hd : Header.decode (mid.fragment.take Header.size) with
    | error e => exact frugal_of_paid hhead
    | ok h =>
      have hwhole := (mid.fill_frugal (Header.size + h.length.toNat) deadline).after_paid hhead
      dsimp only
      cases hg : mid.fill (Header.size + h.length.toNat) deadline with
      | error e after =>
        rw [hg] at hwhole
        exact hwhole
      | ok v whole =>
        rw [hg] at hwhole
        dsimp only
        cases h.finish (whole.fragment.drop Header.size) with
        | error e => exact frugal_of_paid hwhole
        | ok m => exact hwhole

theorem effort_restart (ch : Channel) : ch.restart.effort + ch.fragment.length = ch.effort := by
  have hweight := ch.weight_restart
  change ch.calls + (ch.link.weight + ch.restart.weight) + _ = ch.calls + (ch.link.weight + ch.weight)
  omega

theorem receive_ok_effort {deadline : Deadline} {ch after : Channel} {m : Message}
    (h : ch.receive deadline = .ok m after) : after.effort + Header.size ≤ ch.effort := by
  have hfrugal := ch.gather_frugal deadline
  unfold receive at h
  cases hg : ch.gather deadline with
  | error e mid =>
    rw [hg] at h
    cases h
  | ok m' mid =>
    rw [hg] at h hfrugal
    cases h
    have hlength := (gather_ok hg).2.2
    have hrestart := mid.effort_restart
    change mid.effort ≤ ch.effort at hfrugal
    omega

theorem receive_error_frugal {deadline : Deadline} {ch after : Channel} {e : BridgeError}
    (h : ch.receive deadline = .error e after) :
    Frugal (α := Message) deadline ch (.error e after) := by
  have hfrugal := ch.gather_frugal deadline
  unfold receive at h
  cases hg : ch.gather deadline with
  | ok m mid =>
    rw [hg] at h
    cases h
  | error e' mid =>
    rw [hg] at h hfrugal
    cases h
    split
    · exact hfrugal
    · next htime =>
      have hrestart := mid.effort_restart
      exact ⟨by have := hfrugal.1; omega, fun ht => absurd ht htime⟩

theorem receive_effort (deadline : Deadline) (ch : Channel) :
    (final (ch.receive deadline)).effort ≤ ch.effort + 1 := by
  cases h : ch.receive deadline with
  | ok m after =>
    have := receive_ok_effort h
    rw [final_ok]
    omega
  | error e after => exact (receive_error_frugal h).1

theorem receiveOneOf_effort (expected : List Command) (deadline : Deadline) (ch : Channel) :
    (final (ch.receiveOneOf expected deadline)).effort ≤ ch.effort + 1 := by
  fun_induction receiveOneOf expected deadline ch with
  | case1 ch he => exact Nat.le_succ _
  | case2 ch he m after hr hm =>
    have := receive_ok_effort hr
    rw [final_ok]
    omega
  | case3 ch he m after hr hm ih =>
    have := receive_ok_effort hr
    omega
  | case4 ch he e after hr ht => exact (receive_error_frugal hr).1
  | case5 ch he e after hr ht => exact (receive_error_frugal hr).1

theorem put_effort (bytes : Bytes) (budget : Nat) (ch : Channel) :
    (final (ch.put bytes budget)).effort = ch.effort + 1 := by
  have hcount := ch.link.length_past_write bytes budget
  unfold put
  cases hw : ch.link.write bytes budget with
  | ok u link =>
    rw [hw, final_ok] at hcount
    have hweight := (Link.write_ok_weight hw).1
    simp only [final_ok, effort, calls, stock, weight]
    omega
  | error f link =>
    rw [hw, final_error] at hcount
    have hweight := (Link.write_error_weight hw).1
    simp only [final_error, effort, calls, stock, weight]
    omega

end Channel

namespace Connection

def calls (c : Connection) : Nat := c.channel.calls

/-- What there is to pay further transfers from. -/
def stock (c : Connection) : Nat := c.channel.stock

def effort (c : Connection) : Nat := c.channel.effort

def Within (k : Nat) (c : Connection) : EStateM.Result ε Connection α → Prop
  | .ok _ after => after.effort ≤ c.effort + k
  | .error _ after => after.effort ≤ c.effort + k + 1

theorem Within.final_le {k : Nat} {c : Connection} {r : EStateM.Result ε Connection α}
    (h : Within k c r) : (final r).effort ≤ c.effort + k + 1 := by
  cases r with
  | ok a after => exact Nat.le_succ_of_le h
  | error e after => exact h

theorem Within.ok {k : Nat} {c after : Connection} {r : EStateM.Result ε Connection α} {a : α}
    (h : Within k c r) (hr : r = .ok a after) : after.effort ≤ c.effort + k := by
  subst hr
  exact h

theorem Within.error {k : Nat} {c after : Connection} {r : EStateM.Result ε Connection α} {e : ε}
    (h : Within k c r) (hr : r = .error e after) : after.effort ≤ c.effort + k + 1 := by
  subst hr
  exact h

theorem Within.mono {j k : Nat} {c : Connection} {r : EStateM.Result ε Connection α}
    (h : Within j c r) (hjk : j ≤ k) : Within k c r := by
  cases r with
  | ok a after => exact Nat.le_trans h (Nat.add_le_add_left hjk _)
  | error e after => exact Nat.le_trans h (Nat.succ_le_succ (Nat.add_le_add_left hjk _))

theorem Within.after {j k : Nat} {c mid : Connection} {r : EStateM.Result ε Connection α}
    (h : Within k mid r) (hmid : mid.effort ≤ c.effort + j) : Within (j + k) c r := by
  cases r with
  | ok a after =>
    change after.effort ≤ _ at h
    change after.effort ≤ _
    omega
  | error e after =>
    change after.effort ≤ _ at h
    change after.effort ≤ _
    omega

theorem send_effort (m : Message) (deadline : Deadline) (c : Connection) :
    (final (c.send m deadline)).effort ≤ c.effort + 2 := by
  have hheader : (final (c.channel.sendHeader m deadline)).effort = c.channel.effort + 1 :=
    Channel.put_effort _ _ _
  unfold send
  cases hs : c.channel.sendHeader m deadline with
  | error f ch =>
    rw [hs] at hheader
    exact Nat.le_succ_of_le (Nat.le_of_eq hheader)
  | ok u ch =>
    rw [hs, final_ok] at hheader
    have hpayload : (final (ch.sendPayload m deadline)).effort ≤ c.effort + 2 := by
      unfold Channel.sendPayload
      split
      · exact Nat.le_succ_of_le (Nat.le_of_eq hheader)
      · rw [Channel.put_effort, hheader]
        exact Nat.le_refl _
    dsimp only
    cases hp : ch.sendPayload m deadline with
    | error f ch =>
      rw [hp] at hpayload
      exact hpayload
    | ok v ch =>
      rw [hp] at hpayload
      exact hpayload

theorem effort_spoil (c : Connection) (id : UInt32) (fault : StreamFault) :
    (c.spoil id fault).effort = c.effort := congrArg Channel.effort (c.channel_spoil id fault)

theorem acknowledge_effort (ack : Message) (deadline : Deadline) (c : Connection) :
    (c.acknowledge ack deadline).effort ≤ c.effort + 2 := by
  have hsend := c.send_effort ack
    (c.deadline (deadline.remainingOrFloor Deadline.transferFloor c.now))
  unfold acknowledge
  cases hs : c.send ack (c.deadline (deadline.remainingOrFloor Deadline.transferFloor c.now)) with
  | ok u after =>
    rw [hs] at hsend
    exact hsend
  | error f after =>
    rw [hs] at hsend
    rw [effort_spoil]
    exact hsend

/-- Taking a message in is paid for, with the acknowledgement that it calls for. If it is not, time
has run out, and no stream has heard anything. -/
theorem takeIn_effort (deadline : Deadline) (c : Connection) :
    match c.takeIn deadline with
    | .ok _ after => after.effort ≤ c.effort ∨
        after.effort ≤ c.effort + 1 ∧ deadline.hasExpired after.now = true ∧ after.table = c.table
    | .error _ after => after.effort ≤ c.effort + 1 := by
  unfold takeIn
  cases hr : c.channel.receive deadline with
  | error e ch =>
    obtain ⟨hone, htime⟩ := Channel.receive_error_frugal hr
    dsimp only
    by_cases ht : e.isTimeout = true
    · rw [if_pos ht]
      exact (htime ht).imp_right fun hd => ⟨hone, hd, rfl⟩
    · rw [if_neg ht]
      exact hone
  | ok m ch =>
    have hworth := Channel.receive_ok_effort hr
    have hpaid : ch.effort + 2 ≤ c.effort := Nat.le_trans (Nat.add_le_add_left (by decide) _) hworth
    dsimp only
    cases c.table.route m with
    | error e => exact Nat.le_succ_of_le (Nat.le_of_add_right_le hpaid)
    | ok routed =>
      obtain ⟨table, _ | ack⟩ := routed
      · exact .inl (Nat.le_of_add_right_le hpaid)
      · have hack := acknowledge_effort ack deadline { c.hear m ch with table := table }
        exact .inl (Nat.le_trans hack hpaid)

theorem inspect_effort {id : UInt32} {look : StreamState → Look α} {c : Connection}
    {said : EStateM.Result BridgeError Connection α} (h : c.inspect id look = some said) :
    Within 0 c said := by
  cases said with
  | ok a after =>
    obtain ⟨s, s', _, _, rfl⟩ := inspect_ok h
    exact Nat.le_refl _
  | error e after =>
    rw [inspect_error h]
    exact Nat.le_succ _

theorem inspect_eq_none {id : UInt32} {look : StreamState → Look α} {c c' : Connection}
    (htable : c'.table = c.table) (h : c.inspect id look = none) : c'.inspect id look = none := by
  unfold inspect at h ⊢
  rw [htable]
  cases hs : c.table.find? id with
  | none =>
    rw [hs] at h
    cases h
  | some s =>
    rw [hs] at h
    dsimp only at h ⊢
    cases hf : s.fault with
    | some fault =>
      rw [hf] at h
      cases h
    | none =>
      rw [hf] at h
      dsimp only at h ⊢
      cases hl : look s with
      | notYet => rfl
      | ready a s' =>
        rw [hl] at h
        cases h
      | failed e =>
        rw [hl] at h
        cases h

theorem waitFor_expired {id : UInt32} {deadline : Deadline} {awaited : Awaited}
    {look : StreamState → Look α} {c : Connection} (hnothing : c.inspect id look = none)
    (hexpired : deadline.hasExpired c.now = true) :
    c.waitFor id deadline awaited look = .error (.timeout deadline.budget awaited) c := by
  rw [waitFor, hnothing]
  exact if_pos hexpired

theorem waitFor_within (id : UInt32) (deadline : Deadline) (awaited : Awaited)
    (look : StreamState → Look α) (c : Connection) :
    Within 0 c (c.waitFor id deadline awaited look) := by
  fun_induction waitFor id deadline awaited look c with
  | case1 c said hs => exact inspect_effort hs
  | case2 c hs he => exact Nat.le_succ _
  | case3 c hs he u mid ht ih =>
    have htake := takeIn_effort deadline c
    rw [ht] at htake
    rcases htake with hpaid | ⟨hone, hexpired, htable⟩
    · exact ih.after (j := 0) hpaid
    · -- The read that was not paid for is the last one, since there is still nothing to say.
      rw [waitFor_expired (inspect_eq_none htable hs) hexpired]
      exact hone
  | case4 c hs he e mid ht =>
    have htake := takeIn_effort deadline c
    rw [ht] at htake
    exact htake

theorem readBy_within (id : UInt32) (length : Nat) (deadline : Deadline) (c : Connection) :
    Within 0 c (c.readBy id length deadline) := by
  have h := waitFor_within id deadline (.data id) (StreamState.supplying id length) c
  unfold readBy
  cases hw : c.waitFor id deadline (.data id) (StreamState.supplying id length) with
  | ok bytes after =>
    rw [hw] at h
    exact h
  | error e after =>
    rw [hw] at h
    exact h

theorem collect_effort (id : UInt32) (deadline : Deadline) (got : List Bytes) (c : Connection) :
    (final (c.collect id deadline got)).effort ≤ c.effort + 1 := by
  fun_induction collect id deadline got c with
  | case1 got c bytes after h ih =>
    exact Nat.le_trans ih (Nat.succ_le_succ ((c.readBy_within id 0 deadline).ok h))
  | case2 got c k after h => exact (c.readBy_within id 0 deadline).error h
  | case3 got c e after hne h => exact (c.readBy_within id 0 deadline).error h

theorem release_effort (id : UInt32) (c : Connection) :
    (c.release id).effort ≤ c.effort + 2 := by
  unfold release
  split
  · exact Nat.le_add_right _ _
  · split
    · exact Nat.le_add_right _ _
    · exact send_effort _ _ (c.remove id)

theorem closeStream_effort (s : Stream) (c : Connection) :
    (c.closeStream s).2.effort ≤ c.effort + 2 := by
  unfold closeStream
  split
  · exact Nat.le_add_right _ _
  · exact release_effort s.localId c

theorem ask_effort (destination : String) (deadline : Deadline) (c : Connection) :
    match c.ask destination deadline with
    | .ok _ after => after.effort ≤ c.effort + 2
    | .error _ after => after.effort ≤ c.effort + 4 := by
  unfold ask
  rcases c.table.allocate c.settings.streamIdLimit with ⟨_ | id, table⟩
  · exact Nat.le_add_right _ _
  · have hsend := send_effort ⟨.start, id, 0, Text.Utf8.encode destination ++ [0]⟩ deadline
      ({ c with table := table }.enter id)
    dsimp only
    cases hs : ({ c with table := table }.enter id).send
        ⟨.start, id, 0, Text.Utf8.encode destination ++ [0]⟩ deadline with
    | error f after =>
      rw [hs] at hsend
      exact Nat.le_trans (after.release_effort id) (Nat.add_le_add_right hsend 2)
    | ok u after =>
      rw [hs] at hsend
      exact hsend

theorem openStream_effort (destination : String) (budget : Nat) (c : Connection) :
    (final (c.openStream destination budget)).effort ≤ c.effort + 5 := by
  have hask := c.ask_effort destination (c.deadline budget)
  unfold openStream
  split
  · next e after h =>
    rw [h] at hask
    exact Nat.le_succ_of_le hask
  · next id asked h =>
    rw [h] at hask
    have hwait := (asked.waitFor_within id (c.deadline budget) (.openReply id)
      StreamState.opening).after hask
    split
    · next after hw =>
      rw [hw] at hwait
      exact Nat.le_trans hwait (Nat.add_le_add_left (by decide) _)
    · next after hw =>
      rw [hw] at hwait
      exact Nat.le_trans (after.release_effort id) (Nat.le_succ_of_le (Nat.add_le_add_right hwait 2))
    · next e after hw =>
      rw [hw] at hwait
      exact Nat.le_trans (after.release_effort id) (Nat.add_le_add_right hwait 2)

theorem openService_effort (destination : String) (budget : Nat) (c : Connection) :
    (final (c.openService destination budget)).effort ≤ c.effort + 5 := by
  have h := c.openStream_effort destination budget
  unfold openService
  split
  all_goals
    next hr =>
    rw [hr] at h
    exact h

theorem sendPiece_effort (id : UInt32) (deadline : Deadline) (piece : Bytes) (c : Connection) :
    (final (c.sendPiece id deadline piece)).effort ≤ c.effort + 2 := by
  unfold sendPiece
  split
  · exact Nat.le_add_right _ _
  · split
    · exact Nat.le_add_right _ _
    · next peer _ =>
      have hsend := c.send_effort ⟨.write, id, peer, piece⟩ deadline
      split
      all_goals
        next hs =>
        rw [hs] at hsend
        exact hsend

theorem writePiece_within (id : UInt32) (deadline : Deadline) (piece : Bytes) (c : Connection) :
    Within 2 c (c.writePiece id deadline piece) := by
  have hsend := c.sendPiece_effort id deadline piece
  unfold writePiece
  split
  · next mid h =>
    rw [h] at hsend
    exact (mid.waitFor_within id deadline (.okay id) (StreamState.acknowledging id)).after hsend
  · next h =>
    rw [h] at hsend
    exact Nat.le_succ_of_le hsend

theorem writePieces_within (id : UInt32) (deadline : Deadline) (pieces : List Bytes)
    (c : Connection) : Within (2 * pieces.length) c (c.writePieces id deadline pieces) := by
  induction pieces generalizing c with
  | nil => exact Nat.le_refl _
  | cons piece rest ih =>
    have hfirst := c.writePiece_within id deadline piece
    rw [List.length_cons, Nat.mul_succ, Nat.add_comm]
    unfold writePieces
    split
    · next mid h =>
      rw [h] at hfirst
      exact (ih mid).after hfirst
    · next e after h =>
      rw [h] at hfirst
      exact Within.mono (r := .error e after) hfirst (Nat.le_add_right _ _)

theorem write_within (id : UInt32) (bytes : Bytes) (budget : Nat) (c : Connection) :
    Within (2 * bytes.length) c (c.write id bytes budget) :=
  (c.writePieces_within id (c.deadline budget) _).mono
    (Nat.mul_le_mul_left 2 (Bytes.length_pieces_le _ bytes))

end Connection

namespace SyncSession

open Connection (Within)

/-- All transfers are paid for but so many, or one more where it fails. -/
def Costs (k : Nat) (x : EStateM ε Connection α) : Prop := ∀ c, Within k c (x c)

theorem costs_pure (a : α) : Costs 0 (pure a : EStateM ε Connection α) := fun _ => Nat.le_refl _

theorem costs_throw (e : ε) : Costs 0 (throw e : EStateM ε Connection α) := fun _ => Nat.le_succ _

theorem Costs.bind {j k : Nat} {x : EStateM ε Connection α} {f : α → EStateM ε Connection β}
    (hx : Costs j x) (hf : ∀ a, Costs k (f a)) : Costs (j + k) (x >>= f) := by
  intro c
  have hfirst := hx c
  cases h : x c with
  | ok a mid =>
    rw [h] at hfirst
    rw [bind_of_ok f h]
    exact (hf a mid).after hfirst
  | error e mid =>
    rw [h] at hfirst
    rw [bind_of_error f h]
    exact Within.mono (r := .error e mid) hfirst (Nat.le_add_right _ _)

theorem costs_take (s : SyncSession) (n : Nat) : Costs 0 (s.take n) := by
  intro c
  unfold take
  split
  · exact Nat.le_refl _
  · exact c.readBy_within _ _ _

theorem costs_readRest (s : SyncSession) (shape : ReplyShape) (head : Bytes) :
    Costs 0 (s.readRest shape head) := by
  unfold readRest
  split
  · exact costs_throw _
  · dsimp only
    split
    · exact (s.costs_take _).bind fun _ => costs_throw _
    · refine (s.costs_take _).bind (k := 0) fun more => ?_
      split
      · exact (s.costs_take _).bind fun _ => costs_pure _
      · exact costs_throw _

theorem costs_readReply (s : SyncSession) (shape : ReplyShape) : Costs 0 (s.readReply shape) := by
  intro c
  have hhead := s.costs_take 8 c
  unfold readReply
  cases h : s.take 8 c with
  | error e mid =>
    rw [h] at hhead
    exact hhead
  | ok head mid =>
    rw [h] at hhead
    exact (s.costs_readRest shape head mid).after hhead

theorem costs_nextEntry (s : SyncSession) : Costs 0 s.nextEntry := by
  intro c
  have hreply := s.costs_readReply .entry c
  unfold nextEntry
  cases h : s.readReply .entry c with
  | error e after =>
    rw [h] at hreply
    exact hreply
  | ok reply after =>
    rw [h] at hreply
    cases reply with
    | entry mode size mtime name => exact hreply
    | done mtime => exact hreply
    | stat mode size mtime => exact Nat.le_succ_of_le hreply
    | data bytes => exact Nat.le_succ_of_le hreply
    | okay => exact Nat.le_succ_of_le hreply

theorem drain_effort (s : SyncSession) (c : Connection) : (s.drain c).effort ≤ c.effort + 1 := by
  fun_induction drain s c with
  | case1 c entry after h ih =>
    exact Nat.le_trans ih (Nat.succ_le_succ ((s.costs_nextEntry c).ok h))
  | case2 c after h => exact Nat.le_succ_of_le ((s.costs_nextEntry c).ok h)
  | case3 c e after h => exact (s.costs_nextEntry c).error h

theorem entries_effort (s : SyncSession) (c : Connection) :
    (s.entries c).2.effort ≤ c.effort + 1 := by
  fun_induction entries s c with
  | case1 c entry after h rest ih =>
    exact Nat.le_trans ih (Nat.succ_le_succ ((s.costs_nextEntry c).ok h))
  | case2 c after h => exact Nat.le_succ_of_le ((s.costs_nextEntry c).ok h)
  | case3 c e after h => exact (s.costs_nextEntry c).error h

theorem firstEntries_effort (s : SyncSession) (count : Nat) (c : Connection) :
    (s.firstEntries count c).2.effort ≤ c.effort + 1 := by
  fun_induction firstEntries s count c with
  | case1 c => exact s.drain_effort c
  | case2 count c entry after h rest ih =>
    exact Nat.le_trans ih (Nat.succ_le_succ ((s.costs_nextEntry c).ok h))
  | case3 count c after h => exact Nat.le_succ_of_le ((s.costs_nextEntry c).ok h)
  | case4 count c e after h => exact (s.costs_nextEntry c).error h

theorem receivePieces_effort (s : SyncSession) (total : Nat) (sink : Sink) (c : Connection) :
    (final (s.receivePieces total sink c).1).effort ≤ c.effort + 1 := by
  fun_induction receivePieces s total sink c with
  | case1 total sink c bytes after h sink' hw ih =>
    exact Nat.le_trans ih (Nat.succ_le_succ ((s.costs_readReply .data c).ok h))
  | case2 total sink c bytes after h f hw =>
    exact Nat.le_succ_of_le ((s.costs_readReply .data c).ok h)
  | case3 total sink c mtime after h u hf =>
    exact Nat.le_succ_of_le ((s.costs_readReply .data c).ok h)
  | case4 total sink c mtime after h f hf =>
    exact Nat.le_succ_of_le ((s.costs_readReply .data c).ok h)
  | case5 total sink c other after hne hne' h =>
    exact Nat.le_succ_of_le ((s.costs_readReply .data c).ok h)
  | case6 total sink c e after h => exact (s.costs_readReply .data c).error h

theorem length_frame (id : SyncId) (value : UInt32) (bytes : Bytes) :
    (frame id value bytes).length = 8 + bytes.length := by
  rw [frame, List.length_append, List.length_append, SyncReply.length_bytes, Bytes.length_ofWord]

theorem costs_writeFrame (s : SyncSession) (id : SyncId) (value : UInt32) (bytes : Bytes) :
    Costs (2 * (8 + bytes.length)) (s.writeFrame id value bytes) := by
  intro c
  rw [← length_frame id value bytes]
  exact c.write_within _ _ _

theorem costs_request (s : SyncSession) (id : SyncId) (name : Bytes) :
    Costs (2 * (8 + name.length)) (s.request id name) := by
  have hframe := s.costs_writeFrame id (UInt32.ofNat name.length) name
  intro c
  unfold request
  by_cases hlong : maxPathLength < name.length
  · rw [if_pos hlong]
    exact Nat.le_trans (Nat.le_succ _) (Nat.succ_le_succ (Nat.le_add_right _ _))
  · rw [if_neg hlong]
    exact hframe c

theorem receive_effort (s : SyncSession) (path : String) (sink : Sink) (c : Connection) :
    (final (s.receive path sink c).1).effort ≤
      c.effort + 2 * (8 + (Text.Utf8.encode path).length) + 1 := by
  have hrequest := s.costs_request .recv (Text.Utf8.encode path) c
  unfold receive
  cases h : s.request .recv (Text.Utf8.encode path) c with
  | ok u mid =>
    exact Nat.le_trans (s.receivePieces_effort 0 sink mid) (Nat.succ_le_succ (hrequest.ok h))
  | error e mid => exact hrequest.error h

theorem list_effort (s : SyncSession) (path : String) (limit : Option Nat) (c : Connection) :
    (final (s.list path limit c)).effort ≤
      c.effort + 2 * (8 + (Text.Utf8.encode path).length) + 1 := by
  have hrequest := s.costs_request .list (Text.Utf8.encode path) c
  unfold list
  cases h : s.request .list (Text.Utf8.encode path) c with
  | error e mid => exact hrequest.error h
  | ok u mid =>
    have hmid := Nat.succ_le_succ (hrequest.ok h)
    cases limit with
    | none => exact Nat.le_trans (s.entries_effort mid) hmid
    | some count => exact Nat.le_trans (s.firstEntries_effort count mid) hmid

end SyncSession

/-- Transfers that a call may try beyond those that are paid for. -/
def Call.surplus : Call → Nat
  | .openStream .. | .openService .. => 5
  | .write _ bytes _ => 2 * bytes.length + 1
  | .read .. | .readUntilClose .. => 1
  | .close _ | .drop _ => 2

/-- Whatever arrives is counted twice. -/
def Event.surplus : Event → Nat
  | .call made => made.surplus
  | .supply arrivals => 2 * Arrival.load arrivals
  | _ => 0

def Event.surplusOf : List Event → Nat
  | [] => 0
  | event :: rest => event.surplus + surplusOf rest

theorem Arrival.load_append (front back : List Arrival) :
    load (front ++ back) = load front + load back := by
  induction front with
  | nil => exact (Nat.zero_add _).symm
  | cons a front ih => rw [List.cons_append, load_cons, load_cons, ih, Nat.add_assoc]

namespace Client

theorem withHandle_effort {client : Client} {handle : Nat} {act : Stream → Answer × Client}
    {k : Nat} (h : ∀ s, (act s).2.connection.effort ≤ client.connection.effort + k) :
    (client.withHandle handle act).2.connection.effort ≤ client.connection.effort + k := by
  unfold withHandle
  split
  · exact h _
  · exact Nat.le_add_right _ _
  · exact Nat.le_add_right _ _

theorem perform_effort (call : Call) (client : Client) :
    (client.perform call).2.connection.effort ≤ client.connection.effort + call.surplus := by
  cases call with
  | openStream destination budget =>
    rw [perform, keep_connection]
    exact Connection.openStream_effort destination budget _
  | openService destination budget =>
    have h := client.connection.openService_effort destination budget
    rw [perform]
    cases hr : client.connection.openService destination budget with
    | ok s c =>
      rw [hr] at h
      exact h
    | error e c =>
      rw [hr] at h
      exact h
  | write handle bytes budget =>
    apply withHandle_effort
    intro s
    rw [answering_connection]
    exact (Connection.write_within s.localId bytes budget _).final_le
  | read handle length budget =>
    apply withHandle_effort
    intro s
    rw [answering_connection]
    exact (Connection.readBy_within s.localId length _ _).final_le
  | readUntilClose handle budget =>
    apply withHandle_effort
    intro s
    rw [answering_connection]
    exact Connection.collect_effort s.localId _ [] _
  | close handle => exact withHandle_effort fun s => Connection.closeStream_effort s _
  | drop handle => exact withHandle_effort fun s => Connection.closeStream_effort s _

theorem happen_effort (event : Event) (client : Client) :
    (client.happen event).connection.effort ≤ client.connection.effort + event.surplus := by
  cases event with
  | call call => exact client.perform_effort call
  | supply arrivals =>
    have hload := Arrival.load_append client.connection.channel.link.inbound arrivals
    simp only [happen, relink, Event.surplus, Connection.effort, Channel.effort, Channel.calls,
      Channel.stock, Channel.weight, Link.weight, hload]
    omega
  | plan deliveries => exact Nat.le_refl _
  | pass nanos => exact Nat.le_refl _
  | hangUp => exact Nat.le_refl _

theorem after_effort (events : List Event) (client : Client) :
    (client.after events).connection.effort ≤
      client.connection.effort + Event.surplusOf events := by
  induction events generalizing client with
  | nil => exact Nat.le_refl _
  | cons event rest ih =>
    have hfirst := client.happen_effort event
    have hrest := ih (client.happen event)
    change ((client.happen event).after rest).connection.effort ≤ _ + (event.surplus + _)
    omega

end Client

/-- Whatever state a connection is in, whatever is to come and however long it may wait, a call ends
after no more transfers than the stock on the link and in the fragment pays for, and a few that
depend on what the host has to say. -/
theorem transfers_bounded :
    (∀ (ch : Channel) (deadline : Deadline),
      let after := final (ch.receive deadline)
      after.calls + after.stock ≤ ch.calls + ch.stock + 1) ∧
    (∀ (ch : Channel) (expected : List Command) (deadline : Deadline),
      let after := final (ch.receiveOneOf expected deadline)
      after.calls + after.stock ≤ ch.calls + ch.stock + 1) ∧
    (∀ (α : Type) (look : StreamState → Look α) (c : Connection) (id : UInt32)
        (deadline : Deadline) (awaited : Awaited),
      let after := final (c.waitFor id deadline awaited look)
      after.calls + after.stock ≤ c.calls + c.stock + 1) ∧
    (∀ (c : Connection) (destination : String) (budget : Nat),
      let after := final (c.openStream destination budget)
      after.calls + after.stock ≤ c.calls + c.stock + 5) ∧
    (∀ (c : Connection) (id : UInt32) (length budget : Nat),
      let after := final (c.read id length budget)
      after.calls + after.stock ≤ c.calls + c.stock + 1) ∧
    (∀ (c : Connection) (id : UInt32) (bytes : Bytes) (budget : Nat),
      let after := final (c.write id bytes budget)
      after.calls + after.stock ≤ c.calls + c.stock + 2 * bytes.length + 1) ∧
    (∀ (c : Connection) (id : UInt32) (budget : Nat),
      let after := final (c.readUntilClose id budget)
      after.calls + after.stock ≤ c.calls + c.stock + 1) ∧
    (∀ (s : SyncSession) (path : String) (sink : Sink) (c : Connection),
      let after := final (s.receive path sink c).1
      after.calls + after.stock ≤
        c.calls + c.stock + 2 * (8 + (Text.Utf8.encode path).length) + 1) ∧
    (∀ (s : SyncSession) (c : Connection),
      let after := s.drain c
      after.calls + after.stock ≤ c.calls + c.stock + 1) ∧
    ∀ (s : SyncSession) (path : String) (limit : Option Nat) (c : Connection),
      let after := final (s.list path limit c)
      after.calls + after.stock ≤
        c.calls + c.stock + 2 * (8 + (Text.Utf8.encode path).length) + 1 :=
  ⟨fun ch deadline => ch.receive_effort deadline,
    fun ch expected deadline => ch.receiveOneOf_effort expected deadline,
    fun _ look c id deadline awaited => (c.waitFor_within id deadline awaited look).final_le,
    fun c destination budget => c.openStream_effort destination budget,
    fun c id length budget => (c.readBy_within id length (c.deadline budget)).final_le,
    fun c id bytes budget => (c.write_within id bytes budget).final_le,
    fun c id budget => c.collect_effort id (c.deadline budget) [],
    fun s path sink c => s.receive_effort path sink c,
    fun s c => s.drain_effort c,
    fun s path limit c => s.list_effort path limit c⟩

end DroidHost
