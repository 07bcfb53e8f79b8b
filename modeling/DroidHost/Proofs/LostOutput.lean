import DroidHost.Proofs.Listening
import DroidHost.Proofs.Refusal
import DroidHost.Proofs.Replies
import DroidHost.Proofs.Separation

/-! Reading a stream to its end under a deadline. If that passes first, what was taken out of the
buffer is lost. -/
namespace DroidHost

theorem BridgeError.isTimeout_of_isProtocol {e : BridgeError} (h : e.isProtocol = true) :
    e.isTimeout = false := by
  cases e with
  | protocol violation => rfl
  | _ => cases h

namespace Occurrence

def brought (id : UInt32) (lately : List Occurrence) : Bytes :=
  lately.reverse.flatMap (broughtTo id)

def drained (id : UInt32) (lately : List Occurrence) : Bytes :=
  lately.reverse.flatMap (takenFrom id)

theorem brought_append (id : UInt32) (later earlier : List Occurrence) :
    brought id (later ++ earlier) = brought id earlier ++ brought id later := by
  rw [brought, List.reverse_append, List.flatMap_append, brought, brought]

end Occurrence

namespace StreamState

theorem buffer_of_notYet {id : UInt32} {s : StreamState} (h : s.supplying id 0 = .notYet) :
    s.buffer = [] ∧ s.phase ≠ .closed := by
  unfold supplying at h
  split at h
  · rw [if_pos rfl] at h
    cases h
  · next hnone =>
    refine ⟨List.eq_nil_of_length_eq_zero (by omega), fun hclosed => ?_⟩
    rw [if_pos hclosed] at h
    cases h

end StreamState

namespace Connection
open Occurrence

/-- No other stream has begun under the id since. -/
def GoesOn (id : UInt32) (c after : Connection) : Prop :=
  ∃ lately, Since c after lately ∧ after.story id = c.story id ++ lately.reverse

theorem GoesOn.refl (id : UInt32) (c : Connection) : GoesOn id c c :=
  ⟨[], rfl, (List.append_nil _).symm⟩

theorem GoesOn.trans {id : UInt32} {c mid after : Connection} (h : GoesOn id c mid)
    (h' : GoesOn id mid after) : GoesOn id c after := by
  obtain ⟨earlier, hearlier, hstory⟩ := h
  obtain ⟨later, hlater, hstory'⟩ := h'
  refine ⟨later ++ earlier, hearlier.trans hlater, ?_⟩
  rw [hstory', hstory, List.reverse_append, List.append_assoc]

theorem goesOn_of_eq {c after : Connection} (h : after.past = c.past) (id : UInt32) :
    GoesOn id c after := by
  refine ⟨[], h, ?_⟩
  rw [story, h, story, List.reverse_nil, List.append_nil]

theorem goesOn_of_cons {c after : Connection} {o : Occurrence} (h : after.past = o :: c.past)
    {id : UInt32} (ho : o ≠ .entered id) : GoesOn id c after := by
  refine ⟨[o], h, ?_⟩
  have hstory : after.story id = (c.note o).story id := by
    rw [story, h]
    rfl
  rw [hstory, story_note, if_neg ho, List.reverse_singleton]

theorem GoesOn.supplied {id : UInt32} {c after : Connection} (h : GoesOn id c after)
    {lately : List Occurrence} (hlately : Since c after lately) :
    after.supplied id = c.supplied id ++ brought id lately := by
  obtain ⟨all, hall, hstory⟩ := h
  rw [hlately.unique hall, Connection.supplied, hstory, List.flatMap_append]
  rfl

theorem GoesOn.taken {id : UInt32} {c after : Connection} (h : GoesOn id c after)
    {lately : List Occurrence} (hlately : Since c after lately) :
    after.taken id = c.taken id ++ drained id lately := by
  obtain ⟨all, hall, hstory⟩ := h
  rw [hlately.unique hall, Connection.taken, hstory, List.flatMap_append]
  rfl

theorem Step.goesOn {c after : Connection} (h : c.Step after) {id : UInt32} {s : StreamState}
    (hs : c.table.find? id = some s) : GoesOn id c after := by
  cases h with
  | channel ch => exact goesOn_of_eq rfl id
  | searched ha => exact goesOn_of_eq rfl id
  | @entered k table ha =>
    apply goesOn_of_cons (o := .entered k) rfl
    rintro ⟨⟩
    rw [StreamTable.find?_probe ha] at hs
    cases hs
  | asked payload hfresh => exact goesOn_of_cons rfl (by rintro ⟨⟩)
  | unsent m begun => exact goesOn_of_cons rfl (by rintro ⟨⟩)
  | routed hroute => exact goesOn_of_cons rfl (by rintro ⟨⟩)
  | strayed hroute => exact goesOn_of_cons rfl (by rintro ⟨⟩)
  | acknowledged k peer => exact goesOn_of_cons rfl (by rintro ⟨⟩)
  | spoilt k fault =>
    unfold spoil
    split
    · exact goesOn_of_eq rfl id
    · exact .refl id c
  | wrote piece hfound hp => exact goesOn_of_cons rfl (by rintro ⟨⟩)
  | took hfound hr => exact goesOn_of_cons rfl (by rintro ⟨⟩)
  | removed k => exact goesOn_of_cons rfl (by rintro ⟨⟩)
  | parted k peer => exact goesOn_of_cons rfl (by rintro ⟨⟩)

theorem Steps.goesOn {c after : Connection} (h : c.Steps after) {id : UInt32} {s : StreamState}
    (hs : c.table.find? id = some s) {lately : List Occurrence} (hlately : Since c after lately)
    (hkept : .removed id ∉ lately) :
    GoesOn id c after ∧ ∃ t, after.table.find? id = some t := by
  have hthere : ∃ t, after.table.find? id = some t := by
    obtain ⟨all, hall, hreached⟩ := h.reaches hs
    rw [hlately.unique hall] at hkept
    obtain ⟨t, ht, _⟩ := hreached.resolve_left hkept
    exact ⟨t, ht⟩
  refine ⟨?_, hthere⟩
  clear hthere
  induction h generalizing lately with
  | refl => exact .refl id c
  | @tail mid after hsteps hstep ih =>
    obtain ⟨earlier, hearlier, hreached⟩ := Steps.reaches hsteps hs
    obtain ⟨later, hlater⟩ := hstep.since
    rw [hlately.unique (hearlier.trans hlater), List.mem_append, not_or] at hkept
    obtain ⟨t, ht, _⟩ := hreached.resolve_left hkept.2
    exact (ih hearlier hkept.2).trans (hstep.goesOn ht)

theorem goesOn_takeIn (id : UInt32) (deadline : Deadline) (c : Connection) :
    GoesOn id c (final (c.takeIn deadline)) := by
  unfold takeIn
  split
  · split
    · exact goesOn_of_eq rfl id
    · exact goesOn_of_eq rfl id
  · next m ch _ =>
    have hheard : GoesOn id c (c.hear m ch) := goesOn_of_cons rfl (by rintro ⟨⟩)
    split
    · exact hheard
    · exact hheard
    · next table ack hroute =>
      obtain ⟨o, ho, hpast⟩ := past_acknowledge ack deadline { c.hear m ch with table := table }
      have hne : o ≠ .entered id := by
        rintro rfl
        cases ho
      exact hheard.trans (goesOn_of_cons hpast hne)

theorem Waits.goesOn {deadline : Deadline} {c after : Connection} (h : Waits deadline c after)
    (id : UInt32) : GoesOn id c after := by
  induction h with
  | refl => exact .refl id c
  | tail _ hm ih =>
    subst hm
    exact ih.trans (goesOn_takeIn id deadline _)

theorem goesOn_readBy (k id : UInt32) (length : Nat) (deadline : Deadline) (c : Connection) :
    GoesOn k c (final (c.readBy id length deadline)) := by
  have hw := c.readBy_waits id length deadline
  cases h : c.readBy id length deadline with
  | error e after =>
    rw [h] at hw
    exact hw.goesOn k
  | ok bytes after =>
    rw [h] at hw
    obtain ⟨mid, left, hwaits, hi, rfl⟩ := hw
    obtain ⟨s, s', _, _, rfl⟩ := inspect_ok hi
    exact (hwaits.goesOn k).trans (goesOn_of_cons (o := .taken id bytes) rfl (by rintro ⟨⟩))

theorem goesOn_collect (k id : UInt32) (deadline : Deadline) (got : List Bytes) (c : Connection) :
    GoesOn k c (final (c.collect id deadline got)) :=
  collect_of_reads (R := GoesOn k) GoesOn.trans (goesOn_readBy k id 0 deadline) got c

/-- A stream that is read to its end or up to a deadline is empty then. What was taken from it is
the result, behind what was got before, if there is one. -/
theorem collect_drained {id : UInt32} (deadline : Deadline) (got : List Bytes) {c : Connection}
    {s : StreamState} (hs : c.table.find? id = some s) :
    ∃ bytes t, (final (c.collect id deadline got)).taken id = c.taken id ++ bytes ∧
      (final (c.collect id deadline got)).table.find? id = some t ∧
      match c.collect id deadline got with
      | .ok d _ => d = got.reverse.flatten ++ bytes ∧ t.buffer = []
      | .error e _ => e.isTimeout = true → t.buffer = [] ∧ t.fault = none ∧ t.phase ≠ .closed := by
  -- By the rounds of the reading: each of them moves what it takes to the end of what was got.
  fun_induction collect id deadline got c generalizing s with
  | case1 got c bytes after hr ih =>
    obtain ⟨_, _, _, _, _, hend⟩ := readBy_listens hs 0 deadline
    have hread := used_readBy id 0 deadline c
    rw [hr] at hend hread
    obtain ⟨_, _, t', _, hthere⟩ := hend
    obtain ⟨more, t, htaken, hfound, hresult⟩ := ih hthere
    refine ⟨bytes ++ more, t, ?_, hfound, ?_⟩
    · rw [htaken, hread.did.taken, List.append_assoc]
    · have hgot : (bytes :: got).reverse.flatten ++ more =
          got.reverse.flatten ++ (bytes ++ more) := by
        rw [List.reverse_cons, List.flatten_append, List.flatten_singleton, List.append_assoc]
      rw [hgot] at hresult
      exact hresult
  | case2 got c k after hr =>
    obtain ⟨_, _, t, _, _, hend⟩ := readBy_listens hs 0 deadline
    have hread := used_readBy id 0 deadline c
    rw [hr] at hend hread
    refine ⟨[], t, hread.1.did.taken, hend.1, (List.append_nil _).symm, ?_⟩
    rcases hend.2 with ⟨_, _, hprotocol⟩ | ⟨_, _, hfailed⟩ | ⟨_, _, hopen, _⟩
    · cases hprotocol
    · have hshort := (StreamState.of_supplying_failed hfailed).1
      exact List.eq_nil_of_length_eq_zero (by omega)
    · cases hopen
  | case3 got c e after hother hr =>
    obtain ⟨_, _, t, _, _, hend⟩ := readBy_listens hs 0 deadline
    have hread := used_readBy id 0 deadline c
    rw [hr] at hend hread
    refine ⟨[], t, hread.1.did.taken, hend.1, fun htime => ?_⟩
    rcases hend.2 with ⟨_, _, hprotocol⟩ | ⟨_, _, hfailed⟩ | ⟨hfault, hnot, _⟩
    · rw [BridgeError.isTimeout_of_isProtocol hprotocol] at htime
      cases htime
    · rw [(StreamState.of_supplying_failed hfailed).2.2] at htime
      cases htime
    · obtain ⟨hbuffer, hphase⟩ := StreamState.buffer_of_notYet hnot
      exact ⟨hbuffer, hfault, hphase⟩

theorem Accounted.collect_timed_out {c after : Connection} (h : c.Accounted) {id : UInt32}
    {deadline : Deadline} {e : BridgeError} (hcollect : c.collect id deadline [] = .error e after)
    (htime : e.isTimeout = true) :
    ∃ s t lately, c.table.find? id = some s ∧ after.table.find? id = some t ∧
      Since c after lately ∧ t.fault = none ∧ t.phase ≠ .closed ∧ t.buffer = [] ∧
      drained id lately = s.buffer ++ brought id lately := by
  have hmoves := c.collect_moves id deadline []
  have hgoes := c.goesOn_collect id id deadline []
  rw [hcollect, final_error] at hmoves hgoes
  have hafter : after.Accounted := hmoves.kept (fun _ _ => Accounted.move) h
  cases hs : c.table.find? id with
  | none =>
    have hread : c.readBy id 0 deadline = .error (.streamClosed id) c := by
      rw [readBy, waitFor, inspect, hs]
    rw [collect_of_closed hread] at hcollect
    cases hcollect
  | some s =>
    obtain ⟨bytes, t, _, ht, hend⟩ := collect_drained deadline [] hs
    rw [hcollect, final_error] at ht
    rw [hcollect] at hend
    obtain ⟨hbuffer, hfault, hphase⟩ := hend htime
    obtain ⟨lately, hlately⟩ := hmoves.since
    refine ⟨s, t, lately, rfl, ht, hlately, hfault, hphase, hbuffer, ?_⟩
    have hsame := calc
      c.taken id ++ drained id lately = after.taken id := (hgoes.taken hlately).symm
      _ = after.supplied id := by rw [← hafter.balance id t ht, hbuffer, List.append_nil]
      _ = c.taken id ++ s.buffer ++ brought id lately := by
        rw [hgoes.supplied hlately, h.balance id s hs]
      _ = c.taken id ++ (s.buffer ++ brought id lately) := List.append_assoc ..
    exact List.append_cancel_left hsame

theorem Accounted.collect_fresh {c later last : Connection} (h : c.Accounted) {id : UInt32}
    {t : StreamState} (ht : c.table.find? id = some t) (hempty : t.buffer = [])
    (hlater : c.Moves later) {between : List Occurrence} (hbetween : Since c later between)
    (hkept : .removed id ∉ between) {deadline : Deadline} {output : Bytes}
    (hcollect : later.collect id deadline [] = .ok output last) {since : List Occurrence}
    (hsince : Since later last since) :
    drained id between ++ output = brought id (since ++ between) := by
  obtain ⟨hon, s, hs⟩ := hlater.steps.goesOn ht hbetween hkept
  obtain ⟨rest, u, htaken, hu, hend⟩ := collect_drained deadline [] hs
  have hmoves := later.collect_moves id deadline []
  have hgoes := later.goesOn_collect id id deadline []
  rw [hcollect, final_ok] at htaken hu hmoves hgoes
  rw [hcollect] at hend
  obtain ⟨houtput, hlast⟩ := hend
  have hdone : last.Accounted := Moves.kept (fun _ _ => Accounted.move) (hlater.trans hmoves) h
  have hbefore := h.balance id t ht
  rw [hempty, List.append_nil] at hbefore
  have hsame := calc
    c.taken id ++ (drained id between ++ output) = last.taken id := by
      rw [htaken, hon.taken hbetween, houtput, List.append_assoc]
      rfl
    _ = last.supplied id := by rw [← hdone.balance id u hu, hlast, List.append_nil]
    _ = c.taken id ++ brought id (since ++ between) := by
      rw [hgoes.supplied hsince, hon.supplied hbetween, hbefore, brought_append, List.append_assoc]
  exact List.append_cancel_left hsame

end Connection

/-- If reading a stream to its end runs out of time, all that was in its buffer and all that has
come meanwhile is gone, and the stream is still open. A later reading gives what has come since: all
of it exactly if the failed one had nothing to give. -/
theorem timed_out_collect (channel : Channel) (info : DeviceInfo) (settings : HostSettings)
    {c after : Connection} (hc : (Client.fresh channel info settings).connection.Moves c)
    {id : UInt32} {budget : Nat} {e : BridgeError}
    (hcollect : c.readUntilClose id budget = .error e after) (htime : e.isTimeout = true) :
    ∃ s t lately, c.table.find? id = some s ∧ after.table.find? id = some t ∧
      Connection.Since c after lately ∧ t.fault = none ∧ t.phase ≠ .closed ∧ t.buffer = [] ∧
      let lost := s.buffer ++ Occurrence.brought id lately
      Occurrence.drained id lately = lost ∧
      ∀ later between, after.Moves later → Connection.Since after later between →
        .removed id ∉ between → ∀ budget' output last since,
        later.readUntilClose id budget' = .ok output last → Connection.Since later last since →
          let given := Occurrence.drained id between ++ output
          let fresh := Occurrence.brought id (since ++ between)
          given = fresh ∧ (given = lost ++ fresh ↔ lost = []) := by
  have haccounted : c.Accounted := hc.kept (fun _ _ => Connection.Accounted.move)
    (Connection.accounted_fresh channel info settings)
  obtain ⟨s, t, lately, hs, ht, hlately, hfault, hphase, hbuffer, hlost⟩ :=
    haccounted.collect_timed_out hcollect htime
  refine ⟨s, t, lately, hs, ht, hlately, hfault, hphase, hbuffer, hlost, ?_⟩
  intro later between hlater hbetween hkept budget' output last since hread hsince given fresh
  have hmoves := c.collect_moves id (c.deadline budget) []
  unfold Connection.readUntilClose at hcollect
  rw [hcollect, final_error] at hmoves
  have hgiven : given = fresh := Connection.Accounted.collect_fresh
    (hmoves.kept (fun _ _ => Connection.Accounted.move) haccounted) ht hbuffer hlater hbetween hkept
    hread hsince
  refine ⟨hgiven, ?_⟩
  rw [hgiven]
  exact List.self_eq_append_left

/-- The time is over behind two pieces of data. More comes then, and the end of the stream. -/
theorem timed_out_collect_resumed :
    let message (m : Message) : Arrival := .chunk m.encode
    let link : Link := { inbound := [message ⟨.okay, 101, 1, []⟩, message ⟨.write, 101, 1, [104]⟩,
      message ⟨.write, 101, 1, [105]⟩] }
    let client := (Client.fresh { link := link } ⟨"device", "S", "", 0, 4096⟩ {}).after
      [.call (.openStream "a" 10)]
    let c := client.connection
    let after := final (c.readUntilClose 1 10)
    let later := after.supply [message ⟨.write, 101, 1, [33]⟩, message ⟨.close, 101, 1, []⟩]
    let last := final (later.readUntilClose 1 10)
    c.readUntilClose 1 10 = .error (.timeout 10 (.data 1)) after ∧
      later.readUntilClose 1 10 = .ok [33] last ∧
      ∃ s lately since, c.table.find? 1 = some s ∧ Connection.Since c after lately ∧
        Connection.Since later last since ∧
        let lost := s.buffer ++ Occurrence.brought 1 lately
        Occurrence.drained 1 lately = lost ∧ [33] = Occurrence.brought 1 since ∧
          ([33] = lost ++ Occurrence.brought 1 since ↔ lost = []) := by
  intro message link client c after later last
  have hcollect : c.readUntilClose 1 10 = .error (.timeout 10 (.data 1)) after :=
    eq_error_of_outcome (by decide +kernel)
  have hread : later.readUntilClose 1 10 = .ok [33] last := eq_ok_of_outcome (by decide +kernel)
  have hc : (Client.fresh { link := link } ⟨"device", "S", "", 0, 4096⟩ {}).connection.Moves c :=
    Client.after_moves _ _
  have hmoves : later.Moves last := later.collect_moves 1 (later.deadline 10) []
  obtain ⟨s, t, lately, hs, _, hlately, _, _, _, hlost, hlater⟩ :=
    timed_out_collect { link := link } ⟨"device", "S", "", 0, 4096⟩ {} hc hcollect rfl
  obtain ⟨since, hsince⟩ := hmoves.since
  obtain ⟨hgiven, hiff⟩ := hlater later [] (after.supply_moves _) rfl List.not_mem_nil 10 [33] last
    since hread hsince
  rw [List.append_nil] at hgiven hiff
  exact ⟨hcollect, hread, s, lately, since, hs, hlately, hsince, hlost, hgiven, hiff⟩

/-- The reading that hears the greeting runs out of time, and the next one gives nothing. -/
theorem collect_after_timeout_misses_hello :
    let hello : Bytes := [104, 101, 108, 108, 111]
    let message (m : Message) : Arrival := .chunk m.encode
    let link : Link :=
      { inbound := [message ⟨.okay, 100, 1, []⟩, message ⟨.write, 100, 1, hello⟩] }
    let client := (Client.fresh { link := link } ⟨"device", "S", "b=1;", 16777216, 4096⟩ {}).after
      [.call (.openStream "a" 10)]
    let first := client.run [.readUntilClose 0 10]
    let second := (first.2.happen (.supply [message ⟨.close, 100, 1, []⟩])).run
      [.readUntilClose 0 10]
    first.1 = [.failed (.timeout 10 (.data 1))] ∧ second.1 = [.data []] ∧
      second.2.connection.supplied 1 = hello ∧ hello ≠ [] := by
  decide +kernel

end DroidHost
