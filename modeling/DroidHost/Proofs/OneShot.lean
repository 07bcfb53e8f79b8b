import DroidHost.Bridge.Device
import DroidHost.Proofs.Listening
import DroidHost.Proofs.Opening
import DroidHost.Proofs.Ownership
import DroidHost.Proofs.Refusal
import DroidHost.Proofs.Separation

/-! Services that answer by writing and closing. The stream is gone in the end. -/
namespace DroidHost

theorem failed_iff {p : Prop} (h : ¬ p) (e : ε) (s : σ) (a : α) :
    outcome (.error e s : EStateM.Result ε σ α) = .ok a ↔ p := by
  constructor
  · intro hgiven
    cases hgiven
  · exact fun hp => absurd hp h

/-- The device has accepted a request and has written all this since. -/
def Accepted (ms : List Message) (written : Bytes) : Prop :=
  ∃ okay writes, ms = okay :: writes ∧ okay.command = .okay ∧
    (∀ m ∈ writes, m.command = .write) ∧ written = writes.flatMap Message.payload

def Completed (ms : List Message) (written : Bytes) : Prop :=
  ∃ okay writes close, ms = okay :: writes ++ [close] ∧ okay.command = .okay ∧
    (∀ m ∈ writes, m.command = .write) ∧ close.command = .close ∧
    written = writes.flatMap Message.payload

/-- The last thing that was heard is not that the stream is closed. -/
def Unclosed (ms : List Message) : Prop := ∀ m, ms.getLast? = some m → m.command ≠ .close

theorem unclosed_concat {ms : List Message} {m : Message} (h : m.command ≠ .close) :
    Unclosed (ms ++ [m]) := by
  intro last hlast
  rw [List.getLast?_concat] at hlast
  cases hlast
  exact h

theorem Unclosed.append {ms last : List Message} (h : Unclosed ms)
    (hlast : ∀ m ∈ last, ¬ m.Streamed) : Unclosed (ms ++ last) := by
  rcases List.eq_nil_or_concat last with rfl | ⟨rest, m, rfl⟩
  · rwa [List.append_nil]
  · rw [List.concat_eq_append] at hlast ⊢
    rw [← List.append_assoc]
    apply unclosed_concat
    intro hclose
    exact hlast m (List.mem_append_right _ (List.mem_singleton.mpr rfl)) (.inr (.inl hclose))

theorem Unclosed.not_completed {ms : List Message} (h : Unclosed ms) (written : Bytes) :
    ¬ Completed ms written := by
  rintro ⟨okay, writes, close, rfl, _, _, hclose, _⟩
  exact h close List.getLast?_concat hclose

theorem not_completed_of_head {ms : List Message} (h : ∀ m, ms.head? = some m → m.command ≠ .okay)
    (written : Bytes) : ¬ Completed ms written := by
  rintro ⟨okay, writes, close, rfl, hokay, _⟩
  exact h okay rfl hokay

theorem Accepted.unclosed {ms : List Message} {written : Bytes} (h : Accepted ms written) :
    Unclosed ms := by
  obtain ⟨okay, writes, rfl, hokay, hwrites, _⟩ := h
  rcases List.eq_nil_or_concat writes with rfl | ⟨rest, m, rfl⟩
  · change Unclosed ([] ++ [okay])
    apply unclosed_concat
    rw [hokay]
    decide
  · rw [List.concat_eq_append] at hwrites ⊢
    change Unclosed (okay :: rest ++ [m])
    apply unclosed_concat
    rw [hwrites m (List.mem_append_right _ (List.mem_singleton.mpr rfl))]
    decide

theorem Accepted.write {ms : List Message} {written : Bytes} (h : Accepted ms written) {m : Message}
    (hm : m.command = .write) : Accepted (ms ++ [m]) (written ++ m.payload) := by
  obtain ⟨okay, writes, rfl, hokay, hwrites, rfl⟩ := h
  refine ⟨okay, writes ++ [m], rfl, hokay, ?_, ?_⟩
  · exact List.forall_mem_append.mpr ⟨hwrites, List.forall_mem_singleton.mpr hm⟩
  · rw [List.flatMap_append, List.flatMap_singleton]

theorem Accepted.close {ms : List Message} {written : Bytes} (h : Accepted ms written) {m : Message}
    (hm : m.command = .close) : Completed (ms ++ [m]) written := by
  obtain ⟨okay, writes, rfl, hokay, hwrites, rfl⟩ := h
  exact ⟨okay, writes, m, rfl, hokay, hwrites, hm, rfl⟩

theorem Completed.unique {ms : List Message} {written written' : Bytes} (h : Completed ms written)
    (h' : Completed ms written') : written = written' := by
  obtain ⟨okay, writes, close, rfl, _, _, _, rfl⟩ := h
  obtain ⟨okay', writes', close', hsame, _, _, _, rfl⟩ := h'
  have hwrites : writes = writes' := by
    obtain ⟨_, htail⟩ := List.cons.inj hsame
    exact (List.append_inj' htail rfl).1
  rw [hwrites]

namespace StreamState

/-- The stream is open. What was taken before and what its buffer holds is all that the device has
written. -/
structure Flowing (ms : List Message) (got : Bytes) (s : StreamState) : Prop where
  fault : s.fault = none
  isOpen : s.phase = .opened
  peer : ∃ peer, s.peer = some peer
  idle : s.awaiting = false
  accepted : Accepted ms (got ++ s.buffer)

structure Ended (ms : List Message) (got : Bytes) (s : StreamState) : Prop where
  fault : s.fault = none
  isClosed : s.phase = .closed
  completed : Completed ms (got ++ s.buffer)

/-- The stream is spoilt, and the device has not closed it. -/
structure Lost (ms : List Message) (s : StreamState) : Prop where
  fault : s.fault ≠ none
  unclosed : Unclosed ms

variable {ms : List Message} {got : Bytes} {s t : StreamState} {id : UInt32}

theorem Flowing.takes (h : Flowing ms got s) {m : Message} (hm : m.Streamed) (ht : s.Takes id m t) :
    Flowing (ms ++ [m]) got t ∨ Ended (ms ++ [m]) got t ∨ Lost (ms ++ [m]) t := by
  obtain ⟨peer, hpeer⟩ := h.peer
  rcases hm with hm | hm | hm
  · right; right
    refine ⟨?_, unclosed_concat (by rw [hm]; decide)⟩
    rcases ht with rfl | ⟨hwrite, _⟩
    · simp only [apply, hm, acknowledged, h.idle]
      split
      · exact Option.some_ne_none _
      · exact Option.some_ne_none _
    · rw [hm] at hwrite
      cases hwrite
  · right; left
    rcases ht with rfl | ⟨hwrite, _⟩
    · simp only [apply, hm]
      exact ⟨h.fault, rfl, h.accepted.close hm⟩
    · rw [hm] at hwrite
      cases hwrite
  · have hsupplied : (s.apply id m).1 = { s with buffer := s.buffer ++ m.payload } := by
      simp only [apply, hm, supplied, h.isOpen, hpeer]
    rcases ht with rfl | ⟨_, fault, rfl⟩
    · left
      rw [hsupplied]
      refine ⟨h.fault, h.isOpen, h.peer, h.idle, ?_⟩
      rw [← List.append_assoc]
      exact h.accepted.write hm
    · exact .inr (.inr ⟨Option.some_ne_none _, unclosed_concat (by rw [hm]; decide)⟩)

theorem Flowing.listens {more : List Message} {length : Nat} (h : Flowing ms got s)
    (hl : s.Listens id (supplying id length) more t) :
    Flowing (ms ++ more) got t ∨ Ended (ms ++ more) got t ∨ Lost (ms ++ more) t := by
  induction hl generalizing ms with
  | here s =>
    rw [List.append_nil]
    exact .inl h
  | @more s mid after m rest hfault hlook hm htakes hrest ih =>
    rw [show ms ++ m :: rest = ms ++ [m] ++ rest from (List.append_assoc ms [m] rest).symm]
    rcases h.takes hm htakes with hflowing | hended | hlost
    · exact ih hflowing
    · obtain ⟨rfl, rfl⟩ := hrest.here_of_look (supplying_of_closed hended.isClosed id _)
      rw [List.append_nil]
      exact .inr (.inl hended)
    · obtain ⟨rfl, rfl⟩ := hrest.here_of_fault hlost.fault
      rw [List.append_nil]
      exact .inr (.inr hlost)

theorem listens_opening (h : StreamState.fresh.Listens id opening ms t) :
    ms = [] ∧ t = .fresh ∨ Flowing ms [] t ∨
      ∃ m, ms = [m] ∧ m.command ≠ .okay ∧ t.phase ≠ .opened := by
  cases h with
  | here => exact .inl ⟨rfl, rfl⟩
  | @more _ mid _ m rest hfault hlook hm htakes hrest =>
    right
    rcases hm with hm | hm | hm
    · have hmid : mid = ⟨some m.arg0, .opened, false, [], none⟩ := by
        rcases htakes with rfl | ⟨hwrite, _⟩
        · simp only [apply, hm]
          rfl
        · rw [hm] at hwrite
          cases hwrite
      subst hmid
      obtain ⟨rfl, rfl⟩ := hrest.here_of_look (by rintro ⟨⟩)
      exact .inl ⟨rfl, rfl, ⟨_, rfl⟩, rfl, m, [], rfl, hm, List.forall_mem_nil _, rfl⟩
    · have hmid : mid = ⟨some m.arg0, .closed, true, [], none⟩ := by
        rcases htakes with rfl | ⟨hwrite, _⟩
        · simp only [apply, hm]
          rfl
        · rw [hm] at hwrite
          cases hwrite
      subst hmid
      obtain ⟨rfl, rfl⟩ := hrest.here_of_look (by rintro ⟨⟩)
      exact .inr ⟨m, rfl, by rw [hm]; decide, by rintro ⟨⟩⟩
    · have hmid : mid.fault ≠ none ∧ mid.phase ≠ .opened := by
        rcases htakes with rfl | ⟨_, fault, rfl⟩
        · simp only [apply, hm]
          exact ⟨Option.some_ne_none _, by rintro ⟨⟩⟩
        · simp only [apply, hm]
          exact ⟨Option.some_ne_none _, by rintro ⟨⟩⟩
      obtain ⟨rfl, rfl⟩ := hrest.here_of_fault hmid.1
      exact .inr ⟨m, rfl, by rw [hm]; decide, hmid.2⟩

end StreamState

namespace Connection
open Occurrence

/-- Collecting what the device writes gives exactly what it wrote if it closes the stream, and
otherwise fails. -/
theorem collect_heard {id : UInt32} (deadline : Deadline) (got : List Bytes) {c : Connection}
    {s : StreamState} {ms : List Message} (hs : c.table.find? id = some s)
    (hstage : s.Flowing ms got.reverse.flatten ∨ s.Ended ms got.reverse.flatten) :
    ∃ lately, Since c (final (c.collect id deadline got)) lately ∧
      ∀ d, outcome (c.collect id deadline got) = .ok d ↔
        Completed (ms ++ messages id lately) d := by
  have hstages {s t : StreamState} {ms more : List Message} {got : Bytes}
      (h : s.Flowing ms got ∨ s.Ended ms got)
      (hl : s.Listens id (StreamState.supplying id 0) more t) :
      t.Flowing (ms ++ more) got ∨ t.Ended (ms ++ more) got ∨ t.Lost (ms ++ more) := by
    rcases h with hflowing | hended
    · exact hflowing.listens hl
    · obtain ⟨rfl, rfl⟩ := hl.here_of_look (StreamState.supplying_of_closed hended.isClosed id _)
      rw [List.append_nil]
      exact .inr (.inl hended)
  fun_induction collect id deadline got c generalizing s ms with
  | case1 got c bytes after hr ih =>
    obtain ⟨earlier, heard, t, hearlier, hlistens, hend⟩ := readBy_listens hs 0 deadline
    rw [hr] at hearlier hend
    obtain ⟨rfl, hfault, t', hready, hthere⟩ := hend
    obtain ⟨hbuffer, hstate, _, _⟩ := StreamState.supplying_ready hready
    have hgot : got.reverse.flatten ++ t.buffer =
        (bytes :: got).reverse.flatten ++ t'.buffer := by
      rw [hbuffer, List.reverse_cons, List.flatten_append, List.append_assoc,
        List.flatten_singleton]
    have hstage' : t'.Flowing (ms ++ messages id earlier) (bytes :: got).reverse.flatten ∨
        t'.Ended (ms ++ messages id earlier) (bytes :: got).reverse.flatten := by
      rcases hstages hstage hlistens with h | h | h
      · left
        rw [hstate]
        exact ⟨h.fault, h.isOpen, h.peer, h.idle, hgot ▸ h.accepted⟩
      · right
        rw [hstate]
        exact ⟨h.fault, h.isClosed, hgot ▸ h.completed⟩
      · exact absurd hfault h.fault
    obtain ⟨lately, hlately, hiff⟩ := ih hthere hstage'
    refine ⟨lately ++ earlier, hearlier.trans hlately, ?_⟩
    rw [messages_append, ← List.append_assoc]
    exact hiff
  | case2 got c k after hr =>
    obtain ⟨lately, heard, t, hlately, hlistens, hend⟩ := readBy_listens hs 0 deadline
    rw [hr] at hlately hend
    refine ⟨lately, hlately, fun d => ?_⟩
    rcases hend.2 with ⟨_, _, hprotocol⟩ | ⟨rfl, hfault, hfailed⟩ | ⟨_, _, hopen, _⟩
    · cases hprotocol
    · obtain ⟨hshort, hclosed, _⟩ := StreamState.of_supplying_failed hfailed
      have hempty : t.buffer = [] := List.eq_nil_of_length_eq_zero (by omega)
      rcases hstages hstage hlistens with h | h | h
      · rw [h.isOpen] at hclosed
        cases hclosed
      · have hcompleted := h.completed
        rw [hempty, List.append_nil] at hcompleted
        constructor
        · rintro ⟨⟩
          exact hcompleted
        · intro hd
          rw [hcompleted.unique hd]
          rfl
      · exact absurd hfault h.fault
    · cases hopen
  | case3 got c e after hother hr =>
    obtain ⟨lately, heard, t, hlately, hlistens, hend⟩ := readBy_listens hs 0 deadline
    rw [hr] at hlately hend
    refine ⟨lately, hlately, fun d => ?_⟩
    -- The stream is spoilt, or it is still open: what was heard does not end with a close.
    have hnever : ¬ Completed (ms ++ messages id lately) d := by
      rcases hend.2 with ⟨hheard, hfault, _⟩ | ⟨hheard, hfault, hfailed⟩ |
        ⟨hfault, hnot, _, last, hheard, hlast⟩
      · rw [hheard]
        rcases hstages hstage hlistens with h | h | h
        · exact absurd h.fault hfault
        · exact absurd h.fault hfault
        · exact h.unclosed.not_completed d
      · obtain ⟨_, _, rfl⟩ := StreamState.of_supplying_failed hfailed
        exact absurd rfl (hother id)
      · rw [hheard, ← List.append_assoc]
        rcases hstages hstage hlistens with h | h | h
        · exact (h.accepted.unclosed.append hlast).not_completed d
        · exact absurd hnot (StreamState.supplying_of_closed h.isClosed id _)
        · exact absurd hfault h.fault
    exact failed_iff hnever e after d

/-- A service was asked for, and the device has written this to it until it closed it. -/
def Served (destination : String) (c after : Connection) (output : Bytes) : Prop :=
  ∃ id lately, id ∉ c.ids ∧
    Since c after
      (lately ++ [.sent ⟨.start, id, 0, Text.Utf8.encode destination ++ [0]⟩, .entered id]) ∧
    Completed (messages id lately) output

theorem release_record (id : UInt32) (c : Connection) :
    ∃ lately, Since c (c.release id) lately ∧ ∀ k, messages k lately = [] := by
  have hremoved : Since c (c.remove id) [.removed id] := rfl
  unfold release
  split
  · exact ⟨[], rfl, fun k => rfl⟩
  · split
    · exact ⟨_, hremoved, fun k => rfl⟩
    · next m _ =>
      rw [tell]
      rcases send_cases m ((c.remove id).deadline c.settings.closeTimeout) (c.remove id) with
        ⟨ch, hsend⟩ | ⟨f, ch, begun, hsend⟩
      · rw [hsend]
        have hsent : Since (c.remove id) ({ c.remove id with channel := ch }.note (.sent m))
            [.sent m] := rfl
        exact ⟨_, hremoved.trans hsent, fun k => rfl⟩
      · rw [hsend]
        have hunsent : Since (c.remove id)
            ({ c.remove id with channel := ch }.note (.unsent m begun)) [.unsent m begun] := rfl
        exact ⟨_, hremoved.trans hunsent, fun k => rfl⟩

theorem ask_record (destination : String) (deadline : Deadline) (c : Connection) :
    match c.ask destination deadline with
    | .ok id asked => Since c asked
        [.sent ⟨.start, id, 0, Text.Utf8.encode destination ++ [0]⟩, .entered id]
    | .error _ after => ∃ lately, Since c after lately ∧ ∀ k, messages k lately = [] := by
  unfold ask
  cases hallocate : c.table.allocate c.settings.streamIdLimit with
  | mk found table =>
    cases found with
    | none => exact ⟨[], rfl, fun k => rfl⟩
    | some id =>
      let entered : Connection := { c with table := table }.enter id
      let request : Message := ⟨.start, id, 0, Text.Utf8.encode destination ++ [0]⟩
      dsimp only
      rcases send_cases request deadline entered with ⟨ch, hsend⟩ | ⟨f, ch, begun, hsend⟩
      · rw [hsend]
        rfl
      · rw [hsend]
        let tried : Connection := { entered with channel := ch }.note (.unsent request begun)
        have htried : Since c tried [.unsent request begun, .entered id] := rfl
        obtain ⟨lately, hlately, hnothing⟩ := release_record id tried
        refine ⟨_, htried.trans hlately, fun k => ?_⟩
        rw [messages_append, hnothing]
        rfl

theorem opening_heard {id : UInt32} {c : Connection} (hs : c.table.find? id = some .fresh)
    (deadline : Deadline) (awaited : Awaited) :
    ∃ lately, Since c (final (c.waitFor id deadline awaited StreamState.opening)) lately ∧
      match c.waitFor id deadline awaited StreamState.opening with
      | .ok true after => ∃ t, after.table.find? id = some t ∧ t.Flowing (messages id lately) []
      | _ => ∀ m, (messages id lately).head? = some m → m.command ≠ .okay := by
  obtain ⟨lately, heard, t, hlately, hlistens, hend⟩ := waitFor_listens hs deadline awaited
    StreamState.opening
  refine ⟨lately, hlately, ?_⟩
  have hstage := StreamState.listens_opening hlistens
  cases hr : c.waitFor id deadline awaited StreamState.opening with
  | ok accepted after =>
    rw [hr] at hend
    obtain ⟨rfl, hfault, t', hready, hthere⟩ := hend
    have hsame := StreamState.eq_of_opening hready
    subst hsame
    rcases hstage with ⟨_, rfl⟩ | hflowing | ⟨m, hone, hm, hphase⟩
    · cases hready
    · have htrue : accepted = true := by
        simp only [StreamState.opening, hflowing.isOpen, Look.ready.injEq] at hready
        exact hready.1.symm
      subst htrue
      exact ⟨t', hthere, hflowing⟩
    · have hfalse : accepted = false := by
        unfold StreamState.opening at hready
        split at hready
        · cases hready
        · next hopen => exact absurd hopen hphase
        · cases hready
          rfl
      subst hfalse
      rw [hone]
      rintro _ ⟨⟩
      exact hm
  | error e after =>
    rw [hr] at hend
    dsimp only
    obtain ⟨last, hall, hlast⟩ := hend.2.refused
    rcases hstage with ⟨rfl, rfl⟩ | hflowing | ⟨m, rfl, hm, hphase⟩
    · rw [hall, List.nil_append]
      intro m hfirst hokay
      exact hlast m (List.mem_of_mem_head? hfirst) (.inl hokay)
    · have hlook : t.opening = .ready true t := by
        simp only [StreamState.opening, hflowing.isOpen]
      rcases hend.2 with ⟨_, hfault, _⟩ | ⟨_, _, hfailed⟩ | ⟨_, hnot, _⟩
      · exact absurd hflowing.fault hfault
      · rw [hlook] at hfailed
        cases hfailed
      · rw [hlook] at hnot
        cases hnot
    · rw [hall]
      rintro _ ⟨⟩
      exact hm

theorem served_iff {destination : String} {id : UInt32} {c asked after : Connection}
    {lately : List Occurrence} (hfree : id ∉ c.ids)
    (hasked : Since c asked
      [.sent ⟨.start, id, 0, Text.Utf8.encode destination ++ [0]⟩, .entered id])
    (hlately : Since asked after lately) (output : Bytes) :
    Served destination c after output ↔ Completed (messages id lately) output := by
  constructor
  · rintro ⟨k, later, _, hlater, hcompleted⟩
    have hsame := hlater.unique (hasked.trans hlately)
    obtain ⟨rfl, hlast⟩ := List.append_inj' hsame rfl
    cases hlast
    exact hcompleted
  · intro hcompleted
    exact ⟨id, lately, hfree, hasked.trans hlately, hcompleted⟩

theorem not_served {destination : String} {c after : Connection} {lately : List Occurrence}
    (hlately : Since c after lately) (hnothing : ∀ k, messages k lately = []) (output : Bytes) :
    ¬ Served destination c after output := by
  rintro ⟨k, later, _, hlater, hcompleted⟩
  have hnone : messages k later = [] := by
    have hall := hnothing k
    rw [hlately.unique hlater, messages_append] at hall
    exact (List.append_eq_nil_iff.mp hall).2
  rw [hnone] at hcompleted
  exact not_completed_of_head (by rintro m ⟨⟩) output hcompleted

/-- A service gives exactly what the device has written to its stream until it closed it. -/
theorem runService_served (destination : String) (budget : Nat) (c : Connection) (output : Bytes) :
    outcome (c.runService destination budget) = .ok output ↔
      Served destination c (final (c.runService destination budget)) output := by
  have hask := c.ask_record destination (c.deadline budget)
  have hentered := c.ask_entered destination (c.deadline budget)
  have hfree := c.ids_ask destination (c.deadline budget)
  unfold runService openService openStream
  cases hr : c.ask destination (c.deadline budget) with
  | error e after =>
    rw [hr] at hask
    obtain ⟨lately, hlately, hnothing⟩ := hask
    exact failed_iff (not_served hlately hnothing output) e after output
  | ok id asked =>
    rw [hr] at hask hentered hfree
    have hfresh : asked.table.find? id = some .fresh := by rw [hentered.2.1, if_pos rfl]
    obtain ⟨earlier, hearlier, hopened⟩ :=
      opening_heard hfresh (c.deadline budget) (.openReply id)
    have hreleased (after : Connection) {heard : List Occurrence}
        (hheard : Since asked after heard) :
        Served destination c (after.release id) output ↔ Completed (messages id heard) output := by
      obtain ⟨later, hlater, hnothing⟩ := release_record id after
      rw [served_iff hfree.1 hask (hheard.trans hlater), messages_append, hnothing, List.append_nil]
    dsimp only
    cases hw : asked.waitFor id (c.deadline budget) (.openReply id) StreamState.opening with
    | error e after =>
      rw [hw] at hearlier hopened
      dsimp only
      rw [final_error, hreleased after hearlier]
      exact failed_iff (not_completed_of_head hopened output) e _ output
    | ok accepted after =>
      rw [hw] at hearlier hopened
      cases accepted with
      | false =>
        dsimp only
        rw [final_error, hreleased after hearlier]
        exact failed_iff (not_completed_of_head hopened output) _ _ output
      | true =>
        obtain ⟨t, hthere, hflowing⟩ := hopened
        obtain ⟨later, hlater, hiff⟩ := collect_heard (after.deadline budget) [] hthere
          (.inl hflowing)
        have hheard : Since asked (final (after.readUntilClose id budget)) (later ++ earlier) :=
          hearlier.trans hlater
        have hclosed := hreleased _ hheard
        rw [messages_append, ← hiff output] at hclosed
        dsimp only
        unfold readUntilClose at hclosed ⊢
        cases hcollect : after.collect id (after.deadline budget) [] with
        | ok d last =>
          rw [hcollect] at hclosed
          exact hclosed.symm
        | error e last =>
          rw [hcollect] at hclosed
          exact hclosed.symm

theorem ids_runService (destination : String) (budget : Nat) (c : Connection) :
    (final (c.runService destination budget)).ids = c.ids := by
  have hopened := c.ids_openStream destination budget
  unfold runService openService
  cases hr : c.openStream destination budget with
  | error e after =>
    rw [hr] at hopened
    exact hopened
  | ok opened after =>
    rw [hr] at hopened
    cases opened with
    | none => exact hopened
    | some s =>
      obtain ⟨hlive, hfree, hids⟩ := hopened
      have hcollect := ids_collect s.localId (after.deadline budget) [] after
      have hclosed (last : Connection) (hlast : last.ids = after.ids) :
          (last.closeStream s).2.ids = c.ids := by
        unfold closeStream
        rw [if_neg (by rw [hlive]; exact Bool.false_ne_true), ids_release, hlast, hids]
        exact filter_ids_cons hfree
      dsimp only
      unfold readUntilClose
      cases hc : after.collect s.localId (after.deadline budget) [] with
      | ok output last =>
        rw [hc] at hcollect
        exact hclosed last hcollect
      | error e last =>
        rw [hc] at hcollect
        exact hclosed last hcollect

end Connection

namespace Device

/-- What a device is asked for that answers with text and closes. -/
inductive TextService
  | shell (command : String) (budget : Option Nat)
  | reboot (target : String)
  | remount
  | root
  deriving DecidableEq, Repr

namespace TextService

def run : TextService → EStateM BridgeError Device String
  | shell command budget => Device.shell command budget
  | reboot target => Device.reboot target
  | remount => Device.remount
  | root => Device.root

def destination : TextService → String
  | shell command _ => Shell.destination command false
  | reboot target => "reboot:" ++ target
  | remount => "remount:"
  | root => "root:"

def budget (d : Device) : TextService → Nat
  | shell _ budget => budget.getD d.timeout
  | _ => d.timeout

theorem run_eq (service : TextService) (d : Device) :
    service.run d = onConnection (do
      return Text.Utf8.decode
        (← Connection.runService service.destination (service.budget d))) d := by
  cases service <;> rfl

end TextService

theorem onConnection_decoded (x : EStateM BridgeError Connection Bytes) (d : Device) :
    let r := onConnection (do return Text.Utf8.decode (← x)) d
    (final r).connection = final (x d.connection) ∧ (final r).sync = d.sync ∧
      ∀ text, outcome r = .ok text ↔
        ∃ output, text = Text.Utf8.decode output ∧ outcome (x d.connection) = .ok output := by
  intro r
  have hr : r = onConnection (do return Text.Utf8.decode (← x)) d := rfl
  unfold onConnection at hr
  cases hx : x d.connection with
  | ok output c =>
    rw [bind_of_ok _ hx] at hr
    rw [hr]
    refine ⟨rfl, rfl, fun text => ⟨?_, ?_⟩⟩
    · rintro ⟨⟩
      exact ⟨output, rfl, rfl⟩
    · rintro ⟨_, rfl, ⟨⟩⟩
      rfl
  | error e c =>
    rw [bind_of_error _ hx] at hr
    rw [hr]
    refine ⟨rfl, rfl, fun text => ⟨?_, ?_⟩⟩
    · rintro ⟨⟩
    · rintro ⟨_, _, ⟨⟩⟩

end Device

/-- A service succeeds exactly if a stream was asked for and all that came for it is an
acknowledgement, data, and a close; and it gives these data. However it ends, the ids in the table
are those that were there before. -/
theorem one_shot_services :
    (∀ (command : String) (raw : Bool) (budget : Nat) (c : Connection),
      let r := Shell.run command raw budget c
      (final r).ids = c.ids ∧ ∀ output, outcome r = .ok output ↔
        Connection.Served (Shell.destination command raw) c (final r) output) ∧
    ∀ (service : Device.TextService) (d : Device),
      let r := service.run d
      (final r).connection.ids = d.connection.ids ∧ (final r).sync = d.sync ∧
        ∀ text, outcome r = .ok text ↔ ∃ output, text = Text.Utf8.decode output ∧
          Connection.Served service.destination d.connection (final r).connection output := by
  refine ⟨fun command raw budget c => ⟨?_, ?_⟩, fun service d => ?_⟩
  · exact c.ids_runService _ _
  · exact c.runService_served _ _
  · intro r
    obtain ⟨hconnection, hsync, htext⟩ := Device.onConnection_decoded
      (Connection.runService service.destination (service.budget d)) d
    rw [← service.run_eq d] at hconnection hsync htext
    refine ⟨?_, hsync, fun text => ?_⟩
    · rw [hconnection]
      exact d.connection.ids_runService _ _
    · rw [htext, hconnection]
      simp only [d.connection.runService_served]

end DroidHost
