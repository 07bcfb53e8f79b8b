import DroidHost.Proofs.Hearing
import DroidHost.Proofs.StreamCourse

/-! What a wait hears for its own stream: the messages for it, one after the other, as long as there
is nothing to say about it. -/
namespace DroidHost

namespace Occurrence

def addressed (id : UInt32) : Occurrence → Option Message
  | arrived m _ => if m.arg1 = id then some m else none
  | _ => none

def messages (id : UInt32) (lately : List Occurrence) : List Message :=
  lately.reverse.filterMap (addressed id)

theorem messages_append (id : UInt32) (later earlier : List Occurrence) :
    messages id (later ++ earlier) = messages id earlier ++ messages id later := by
  rw [messages, List.reverse_append, List.filterMap_append, messages, messages]

theorem messages_eq_nil {id : UInt32} {lately : List Occurrence}
    (h : ∀ o ∈ lately, ∀ m phase, o ≠ .arrived m phase) : messages id lately = [] := by
  apply List.filterMap_eq_nil_iff.mpr
  intro o ho
  cases o with
  | arrived m phase => exact absurd rfl (h _ (List.mem_reverse.mp ho) m phase)
  | _ => rfl

theorem messages_arrived (id : UInt32) (m : Message) (phase : Option Phase) :
    messages id [arrived m phase] = if m.arg1 = id then [m] else [] := by
  by_cases hid : m.arg1 = id
  · simp only [messages, List.reverse_singleton, List.filterMap_cons, addressed, if_pos hid,
      List.filterMap_nil]
  · simp only [messages, List.reverse_singleton, List.filterMap_cons, addressed, if_neg hid,
      List.filterMap_nil]

end Occurrence

def Message.Streamed (m : Message) : Prop :=
  m.command = .okay ∨ m.command = .close ∨ m.command = .write

namespace StreamState

/-- What a message makes of the stream, which is spoilt besides if data could not be
acknowledged. -/
def Takes (id : UInt32) (s : StreamState) (m : Message) (after : StreamState) : Prop :=
  after = (s.apply id m).1 ∨
    m.command = .write ∧ ∃ fault, after = { (s.apply id m).1 with fault := some fault }

/-- The stream comes from one state to another by messages heard while nothing is wrong with it and
there is nothing to say. -/
inductive Listens (id : UInt32) (look : StreamState → Look α) :
    StreamState → List Message → StreamState → Prop
  | here (s : StreamState) : Listens id look s [] s
  | more {s mid after : StreamState} {m : Message} {rest : List Message} (hfault : s.fault = none)
      (hlook : look s = .notYet) (hm : m.Streamed) (htakes : s.Takes id m mid)
      (h : Listens id look mid rest after) : Listens id look s (m :: rest) after

theorem write_of_ack {id : UInt32} {m ack : Message} {s : StreamState}
    (h : (s.apply id m).2 = some ack) : m.command = .write := by
  unfold apply at h
  split at h
  · cases h
  · cases h
  · assumption
  · cases h

theorem Listens.here_of_fault {id : UInt32} {look : StreamState → Look α} {s after : StreamState}
    {ms : List Message} (h : Listens id look s ms after) (hfault : s.fault ≠ none) :
    ms = [] ∧ after = s := by
  cases h with
  | here => exact ⟨rfl, rfl⟩
  | more hnone => exact absurd hnone hfault

theorem Listens.here_of_look {id : UInt32} {look : StreamState → Look α} {s after : StreamState}
    {ms : List Message} (h : Listens id look s ms after) (hlook : look s ≠ .notYet) :
    ms = [] ∧ after = s := by
  cases h with
  | here => exact ⟨rfl, rfl⟩
  | more _ hnot => exact absurd hnot hlook

end StreamState

namespace Connection
open Occurrence

theorem takeIn_addressed {c : Connection} {id : UInt32} {s : StreamState}
    (hs : c.table.find? id = some s) (deadline : Deadline) :
    ∃ lately, Since c (final (c.takeIn deadline)) lately ∧
      match c.takeIn deadline with
      | .ok _ after => messages id lately = [] ∧ after.table.find? id = some s ∨
          ∃ m t, messages id lately = [m] ∧ m.Streamed ∧ s.Takes id m t ∧
            after.table.find? id = some t
      | .error _ after =>
          after.table.find? id = some s ∧ ∀ m ∈ messages id lately, ¬ m.Streamed := by
  unfold takeIn
  cases hr : c.channel.receive deadline with
  | error e ch =>
    dsimp only
    split
    · exact ⟨[], rfl, .inl ⟨rfl, hs⟩⟩
    · exact ⟨[], rfl, hs, List.forall_mem_nil _⟩
  | ok m ch =>
    dsimp only
    by_cases hm : m.Streamed
    · obtain ⟨table, hroute, htable⟩ := route_applied hm c.table
      have htold : table.find? id = some (if m.arg1 = id then (s.apply id m).1 else s) := by
        rw [htable, hs]
        rfl
      cases hack : (c.table.find? m.arg1).bind fun s => (s.apply m.arg1 m).2 with
      | none =>
        rw [hroute, hack]
        refine ⟨[_], rfl, ?_⟩
        rw [messages_arrived]
        by_cases hid : m.arg1 = id
        · rw [if_pos hid] at htold ⊢
          exact .inr ⟨m, _, rfl, hm, .inl rfl, htold⟩
        · rw [if_neg hid] at htold ⊢
          exact .inl ⟨rfl, htold⟩
      | some ack =>
        rw [hroute, hack]
        rw [hack] at hroute
        obtain ⟨peer, rfl⟩ := ack_of_route hroute
        let heard : Connection := { c.hear m ch with table := table }
        obtain ⟨o, ho, htried, hstreams⟩ := acknowledge_record m.arg1 peer deadline heard
        have hheard : Since c heard
            [.arrived m ((c.table.find? m.arg1).map StreamState.phase)] := rfl
        have hnone : messages id [o] = [] := by
          apply messages_eq_nil
          rw [List.forall_mem_singleton]
          rintro w phase rfl
          cases htried
        refine ⟨_, hheard.trans ho, ?_⟩
        rw [messages_append, messages_arrived, hnone, List.append_nil]
        by_cases hid : m.arg1 = id
        · subst hid
          rw [if_pos rfl] at htold ⊢
          have hwrite : m.command = .write := by
            rw [hs, Option.bind_some] at hack
            exact StreamState.write_of_ack hack
          refine .inr ?_
          rcases hstreams m.arg1 with hsame | ⟨_, _, fault, hspoilt⟩
          · exact ⟨m, _, rfl, hm, .inl rfl, hsame.trans htold⟩
          · refine ⟨m, _, rfl, hm, .inr ⟨hwrite, fault, rfl⟩, hspoilt.trans ?_⟩
            change (table.find? m.arg1).map _ = _
            rw [htold]
            rfl
        · rw [if_neg hid] at htold ⊢
          refine .inl ⟨rfl, ?_⟩
          exact ((hstreams id).resolve_right (fun h => hid h.1.symm)).trans htold
    · have hroute : ∃ e, c.table.route m = .error e := by
        unfold StreamTable.route
        rw [if_neg (show ¬ (m.command = .okay ∨ m.command = .close ∨ m.command = .write) from hm)]
        exact ⟨_, rfl⟩
      obtain ⟨e, hroute⟩ := hroute
      rw [hroute]
      refine ⟨[_], rfl, hs, ?_⟩
      rw [messages_arrived]
      split
      · exact List.forall_mem_singleton.mpr hm
      · exact List.forall_mem_nil _

/-- A wait ends without a result: the stream says so, or the time or the channel has failed. Then
one message may have come that was refused. -/
def Unheard (look : StreamState → Look α) (heard all : List Message) (s : StreamState)
    (e : BridgeError) : Prop :=
  all = heard ∧ s.fault ≠ none ∧ e.isProtocol = true ∨
    all = heard ∧ s.fault = none ∧ look s = .failed e ∨
    s.fault = none ∧ look s = .notYet ∧ e.isStreamClosed = false ∧
      ∃ last, all = heard ++ last ∧ ∀ m ∈ last, ¬ m.Streamed

theorem Unheard.cons {look : StreamState → Look α} {heard all : List Message} {s : StreamState}
    {e : BridgeError} (h : Unheard look heard all s e) (m : Message) :
    Unheard look (m :: heard) (m :: all) s e := by
  rcases h with ⟨rfl, hend⟩ | ⟨rfl, hend⟩ | ⟨hfault, hlook, hopen, last, rfl, hlast⟩
  · exact .inl ⟨rfl, hend⟩
  · exact .inr (.inl ⟨rfl, hend⟩)
  · exact .inr (.inr ⟨hfault, hlook, hopen, last, rfl, hlast⟩)

theorem Unheard.refused {look : StreamState → Look α} {heard all : List Message} {s : StreamState}
    {e : BridgeError} (h : Unheard look heard all s e) :
    ∃ last, all = heard ++ last ∧ ∀ m ∈ last, ¬ m.Streamed := by
  rcases h with ⟨rfl, _⟩ | ⟨rfl, _⟩ | ⟨_, _, _, hlast⟩
  · exact ⟨[], (List.append_nil _).symm, List.forall_mem_nil _⟩
  · exact ⟨[], (List.append_nil _).symm, List.forall_mem_nil _⟩
  · exact hlast

theorem looked_of_inspect {id : UInt32} {look : StreamState → Look α} {c : Connection}
    {s : StreamState} (hs : c.table.find? id = some s) (h : c.inspect id look = none) :
    s.fault = none ∧ look s = .notYet := by
  simp only [inspect, hs] at h
  cases hfault : s.fault with
  | some fault =>
    rw [hfault] at h
    cases h
  | none =>
    refine ⟨rfl, ?_⟩
    cases hlook : look s with
    | ready a s' => simp only [hfault, hlook, reduceCtorEq] at h
    | failed e => simp only [hfault, hlook, reduceCtorEq] at h
    | notYet => rfl

/-- A wait listens to its stream, up to a state in which there is a result or none to wait for. -/
theorem waitFor_listens {id : UInt32} {c : Connection} {s : StreamState}
    (hs : c.table.find? id = some s) (deadline : Deadline) (awaited : Awaited)
    (look : StreamState → Look α) :
    ∃ lately heard t, Since c (final (c.waitFor id deadline awaited look)) lately ∧
      s.Listens id look heard t ∧
      match c.waitFor id deadline awaited look with
      | .ok a after => messages id lately = heard ∧ t.fault = none ∧
          ∃ t', look t = .ready a t' ∧ after.table.find? id = some t'
      | .error e after => after.table.find? id = some t ∧
          Unheard look heard (messages id lately) t e := by
  -- By the rounds of the wait: a message for the stream is listened to in front of all that the
  -- rest of the wait listens to, and every other message leaves the stream as it is.
  fun_induction waitFor id deadline awaited look c generalizing s with
  | case1 c said hsaid =>
    simp only [inspect, hs] at hsaid
    cases hfault : s.fault with
    | some fault =>
      rw [hfault] at hsaid
      cases hsaid
      exact ⟨[], [], s, rfl, .here s, hs, .inl ⟨rfl, hfault ▸ Option.some_ne_none _, rfl⟩⟩
    | none =>
      rw [hfault] at hsaid
      cases hlook : look s with
      | ready a s' =>
        simp only [hlook] at hsaid
        cases hsaid
        refine ⟨[], [], s, rfl, .here s, rfl, hfault, s', hlook, ?_⟩
        rw [setStream, StreamTable.find?_set, if_pos rfl, hs, Option.map_some]
      | failed e =>
        simp only [hlook] at hsaid
        cases hsaid
        exact ⟨[], [], s, rfl, .here s, hs, .inr (.inl ⟨rfl, hfault, hlook⟩)⟩
      | notYet =>
        simp only [hlook] at hsaid
        cases hsaid
  | case2 c hnothing hlate =>
    obtain ⟨hfault, hlook⟩ := looked_of_inspect hs hnothing
    exact ⟨[], [], s, rfl, .here s, hs,
      .inr (.inr ⟨hfault, hlook, rfl, [], rfl, List.forall_mem_nil _⟩)⟩
  | case3 c hnothing htime u mid ht ih =>
    obtain ⟨hfault, hlook⟩ := looked_of_inspect hs hnothing
    obtain ⟨earlier, hearlier, htaken⟩ := takeIn_addressed hs deadline
    rw [ht] at hearlier htaken
    rcases htaken with ⟨hnone, hstill⟩ | ⟨m, t, hone, hm, htakes, hthere⟩
    · obtain ⟨lately, heard, t, hlately, hlistens, hend⟩ := ih hstill
      refine ⟨lately ++ earlier, heard, t, hearlier.trans hlately, hlistens, ?_⟩
      rw [messages_append, hnone, List.nil_append]
      exact hend
    · obtain ⟨lately, heard, t', hlately, hlistens, hend⟩ := ih hthere
      refine ⟨lately ++ earlier, m :: heard, t', hearlier.trans hlately,
        .more hfault hlook hm htakes hlistens, ?_⟩
      rw [messages_append, hone, List.singleton_append]
      cases hw : mid.waitFor id deadline awaited look with
      | ok a after =>
        rw [hw] at hend
        exact ⟨congrArg (m :: ·) hend.1, hend.2⟩
      | error e after =>
        rw [hw] at hend
        exact ⟨hend.1, hend.2.cons m⟩
  | case4 c hnothing htime e mid ht =>
    obtain ⟨hfault, hlook⟩ := looked_of_inspect hs hnothing
    obtain ⟨lately, hlately, htaken⟩ := takeIn_addressed hs deadline
    rw [ht] at hlately htaken
    obtain ⟨hstill, hrefused⟩ := htaken
    have hopen : e.isStreamClosed = false := by
      have hchannel := ofChannel_of_takeIn ht
      cases e <;> first | rfl | cases hchannel
    exact ⟨lately, [], s, hlately, .here s, hstill,
      .inr (.inr ⟨hfault, hlook, hopen, _, rfl, hrefused⟩)⟩

theorem readBy_listens {id : UInt32} {c : Connection} {s : StreamState}
    (hs : c.table.find? id = some s) (length : Nat) (deadline : Deadline) :
    ∃ lately heard t, Since c (final (c.readBy id length deadline)) lately ∧
      s.Listens id (StreamState.supplying id length) heard t ∧
      match c.readBy id length deadline with
      | .ok bytes after => messages id lately = heard ∧ t.fault = none ∧
          ∃ t', t.supplying id length = .ready bytes t' ∧ after.table.find? id = some t'
      | .error e after => after.table.find? id = some t ∧
          Unheard (StreamState.supplying id length) heard (messages id lately) t e := by
  obtain ⟨lately, heard, t, hlately, hlistens, hend⟩ := waitFor_listens hs deadline
    (.data id) (StreamState.supplying id length)
  unfold readBy
  cases hr : c.waitFor id deadline (.data id) (StreamState.supplying id length) with
  | ok bytes after =>
    rw [hr] at hlately hend
    obtain ⟨hheard, hend⟩ := hend
    have htaken : Since after (after.note (.taken id bytes)) [.taken id bytes] := rfl
    refine ⟨_, heard, t, hlately.trans htaken, hlistens, ?_, hend⟩
    rw [messages_append, hheard]
    exact List.append_nil _
  | error e after =>
    rw [hr] at hlately hend
    exact ⟨lately, heard, t, hlately, hlistens, hend⟩

end Connection
end DroidHost
