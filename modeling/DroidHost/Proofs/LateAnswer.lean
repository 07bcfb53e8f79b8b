import DroidHost.Bootloader.Retry
import DroidHost.Proofs.FrameWait

/-! Which command an answer is for. Answers come in order and name no command, so a call reads the
one to the oldest command still unanswered. -/
namespace DroidHost

def Frame.answer? (bytes : Bytes) : Option (FrameTag × String) :=
  match ofBytes bytes with
  | .error _ => none
  | .ok f =>
    match FrameTag.ofBytes? f.tag with
    | none => none
    | some .info => none
    | some tag => some (tag, f.text)

theorem Frame.Says.answer {tag : FrameTag} {text : String} {bytes : Bytes}
    (h : Says tag text bytes) (htag : tag ≠ .info) : answer? bytes = some (tag, text) := by
  obtain ⟨f, hf, hletters, rfl⟩ := h
  rw [answer?, hf]
  dsimp only
  rw [hletters]
  cases tag with
  | info => exact absurd rfl htag
  | okay => rfl
  | fail => rfl
  | data => rfl

theorem Frame.Says.note {text : String} {bytes : Bytes} (h : Says .info text bytes) :
    answer? bytes = none := by
  obtain ⟨f, hf, hletters, rfl⟩ := h
  rw [answer?, hf]
  dsimp only
  rw [hletters]

def Transfer.answer? : Transfer → Option (FrameTag × String)
  | received _ _ bytes => Frame.answer? bytes
  | _ => none

def heard (transfers : List Transfer) : List (FrameTag × String) :=
  transfers.filterMap Transfer.answer?

theorem heard_append (transfers more : List Transfer) :
    heard (transfers ++ more) = heard transfers ++ heard more := List.filterMap_append

theorem heard_of_answer {t : Transfer} {tag : FrameTag} {text : String} (h : t.Brought tag text)
    (htag : tag ≠ .info) : heard [t] = [(tag, text)] := by
  obtain ⟨wanted, budget, bytes, rfl, hmeans⟩ := h
  exact List.filterMap_cons_some (hmeans.answer htag)

theorem heard_of_note {t : Transfer} {text : String} (h : t.Brought .info text)
    (rest : List Transfer) : heard (t :: rest) = heard rest := by
  obtain ⟨wanted, budget, bytes, rfl, hmeans⟩ := h
  exact List.filterMap_cons_none hmeans.note

theorem heard_of_garbled {bytes : Bytes} {e : BootError} (h : Frame.ofBytes bytes = .error e)
    (wanted budget : Nat) : heard [.received wanted budget bytes] = [] := by
  apply List.filterMap_cons_none
  rw [Transfer.answer?, Frame.answer?, h]

theorem heard_of_unknown {bytes : Bytes} {f : Frame} (h : Frame.ofBytes bytes = .ok f)
    (htag : FrameTag.ofBytes? f.tag = none) (wanted budget : Nat) :
    heard [.received wanted budget bytes] = [] := by
  apply List.filterMap_cons_none
  rw [Transfer.answer?, Frame.answer?, h]
  dsimp only
  rw [htag]

theorem isLink_of_verdict {expected tag : FrameTag} {text : String} {e : BootError}
    (h : expected.verdict tag text = .error e) : e.isLink = false := by
  unfold FrameTag.verdict at h
  split at h
  · cases h
    rfl
  · split at h
    · cases h
    · cases h
      rfl

/-- A success has the one answer that it is the text of, and a failure of the link has none. -/
def Fits (expected : FrameTag) (answers : List (FrameTag × String)) :
    Except BootError String → Prop
  | .ok text => answers = [(expected, text)]
  | .error e => e.isLink = true → answers = []

theorem Waited.fits {expected : FrameTag} {budget : Nat} {reads : List Transfer}
    {notes : List String} {result : Except BootError String}
    (h : Waited expected budget reads notes result) :
    (heard reads).length ≤ 1 ∧ Fits expected (heard reads) result := by
  -- Notes do not count, so all that matters is the last read.
  induction h with
  | late => exact ⟨Nat.zero_le _, fun _ => rfl⟩
  | missed wanted left fault => exact ⟨Nat.zero_le _, fun _ => rfl⟩
  | garbled wanted left h =>
    rw [heard_of_garbled h]
    exact ⟨Nat.zero_le _, fun _ => rfl⟩
  | unknown wanted left h htag =>
    rw [heard_of_unknown h htag]
    exact ⟨Nat.zero_le _, fun _ => rfl⟩
  | @answered t tag text h htag =>
    rw [heard_of_answer h htag]
    refine ⟨Nat.le_refl _, ?_⟩
    cases hresult : expected.verdict tag text with
    | ok text' =>
      obtain ⟨rfl, rfl⟩ := eq_ok_of_verdict hresult
      rfl
    | error e =>
      intro hlink
      rw [isLink_of_verdict hresult] at hlink
      cases hlink
  | noted h hrest ih =>
    rw [heard_of_note h]
    exact ih

/-- What a queue brings in answers, if every chunk is one frame. -/
inductive Brings : List Arrival → List (FrameTag × String) → Prop
  | nothing : Brings [] []
  | pause (nanos : Nat) {queue : List Arrival} {answers : List (FrameTag × String)}
    (h : Brings queue answers) : Brings (.pause nanos :: queue) answers
  | note {bytes : Bytes} {text : String} (hsize : bytes.length ≤ Frame.size)
    (hmeans : Frame.Says .info text bytes) {queue : List Arrival}
    {answers : List (FrameTag × String)} (h : Brings queue answers) :
    Brings (.chunk bytes :: queue) answers
  | answer {bytes : Bytes} {tag : FrameTag} {text : String} (hsize : bytes.length ≤ Frame.size)
    (hmeans : Frame.Says tag text bytes) (htag : tag ≠ .info) {queue : List Arrival}
    {answers : List (FrameTag × String)} (h : Brings queue answers) :
    Brings (.chunk bytes :: queue) ((tag, text) :: answers)

theorem Brings.take {queue : List Arrival} {answers : List (FrameTag × String)}
    (h : Brings queue answers) (budget left : Nat) :
    let found := Arrival.take Frame.size budget left queue
    ∃ coming, Brings found.rest coming ∧
      match found.outcome with
      | .ok bytes => answers = (Frame.answer? bytes).toList ++ coming
      | .error _ => answers = coming := by
  induction h generalizing left with
  | nothing => exact ⟨[], .nothing, rfl⟩
  | pause nanos h ih =>
    unfold Arrival.take
    split
    · exact ih (left - nanos)
    · exact ⟨_, .pause (nanos - left) h, rfl⟩
  | note hsize hmeans h ih =>
    unfold Arrival.take
    rw [if_pos hsize]
    refine ⟨_, h, ?_⟩
    dsimp only
    rw [hmeans.note]
    rfl
  | answer hsize hmeans htag h ih =>
    unfold Arrival.take
    rw [if_pos hsize]
    refine ⟨_, h, ?_⟩
    dsimp only
    rw [hmeans.answer htag]
    rfl

theorem Link.inbound_write (bytes : Bytes) (budget : Nat) (link : Link) :
    (final (link.write bytes budget)).inbound = link.inbound := by
  unfold write
  split
  · rfl
  · split <;> rfl

namespace Dialogue

def asked (d : Dialogue) : List Bytes := written d.link.past.reverse

def answered (d : Dialogue) : List (FrameTag × String) := heard d.link.past.reverse

def unanswered (d : Dialogue) : Nat := d.asked.length - d.answered.length

theorem Passed.asked {d after : Dialogue} {transfers : List Transfer} {notes : List String}
    {steps : List (Nat × Nat)} (h : Passed d after transfers notes steps) :
    after.asked = d.asked ++ written transfers := by
  rw [Dialogue.asked, h.past, List.reverse_append, List.reverse_reverse, written_append,
    Dialogue.asked]

theorem Passed.answered {d after : Dialogue} {transfers : List Transfer} {notes : List String}
    {steps : List (Nat × Nat)} (h : Passed d after transfers notes steps) :
    after.answered = d.answered ++ heard transfers := by
  rw [Dialogue.answered, h.past, List.reverse_append, List.reverse_reverse, heard_append,
    Dialogue.answered]

theorem answered_of_past {d after : Dialogue} {t : Transfer}
    (h : after.link.past = t :: d.link.past) :
    after.answered = d.answered ++ t.answer?.toList := by
  rw [answered, h, List.reverse_cons, heard_append, answered]
  cases ht : t.answer? with
  | none => exact congrArg (_ ++ ·) (List.filterMap_cons_none ht)
  | some answer => exact congrArg (_ ++ ·) (List.filterMap_cons_some ht)

/-- The answers of a script are those that were read and those that are still to come. -/
def Follows (script : List (FrameTag × String)) (d : Dialogue) : Prop :=
  ∃ coming, Brings d.link.inbound coming ∧ script = d.answered ++ coming

section Follows

variable {script : List (FrameTag × String)} {d : Dialogue}

theorem Follows.front (h : Follows script d) : d.answered <+: script := by
  obtain ⟨coming, _, hscript⟩ := h
  exact ⟨coming, hscript.symm⟩

theorem Follows.of_silent {after : Dialogue} (h : Follows script d)
    (hqueue : after.link.inbound = d.link.inbound) (hsilent : after.answered = d.answered) :
    Follows script after := by
  obtain ⟨coming, hcoming, hscript⟩ := h
  rw [← hqueue] at hcoming
  rw [← hsilent] at hscript
  exact ⟨coming, hcoming, hscript⟩

theorem link_readFrame (budget : Nat) (d : Dialogue) :
    (final (d.readFrame budget)).link = final (d.link.read Frame.size budget) := by
  unfold readFrame
  cases d.link.read Frame.size budget with
  | error f link => rfl
  | ok bytes link =>
    dsimp only
    cases Frame.ofBytes bytes <;> rfl

theorem link_write (bytes : Bytes) (budget : Nat) (d : Dialogue) :
    (final (d.write bytes budget)).link = final (d.link.write bytes budget) := by
  unfold Dialogue.write
  cases d.link.write bytes budget <;> rfl

theorem Follows.readFrame (h : Follows script d) {budget : Nat}
    {r : EStateM.Result BootError Dialogue Frame} (hr : d.readFrame budget = r) :
    Follows script (final r) := by
  subst hr
  obtain ⟨coming, hcoming, hscript⟩ := h
  have hlink := d.link_readFrame budget
  by_cases hclosed : d.link.isClosed = true
  · rw [Link.read, if_pos hclosed] at hlink
    have hsame := answered_of_past (congrArg Link.past hlink)
    refine ⟨coming, ?_, ?_⟩
    · rw [hlink]
      exact hcoming
    · rw [hsame, hscript]
      exact congrArg (· ++ coming) (List.append_nil _).symm
  · rw [Link.read, if_neg hclosed] at hlink
    obtain ⟨later, hlater, hrest⟩ := hcoming.take budget budget
    dsimp only at hlink hrest
    cases hfound : (Arrival.take Frame.size budget budget d.link.inbound).outcome with
    | error f =>
      rw [hfound] at hlink hrest
      have hsame := answered_of_past (congrArg Link.past hlink)
      refine ⟨later, ?_, ?_⟩
      · rw [hlink]
        exact hlater
      · rw [hsame, hscript, hrest]
        exact congrArg (· ++ later) (List.append_nil _).symm
    | ok bytes =>
      rw [hfound] at hlink hrest
      have hmore := answered_of_past (congrArg Link.past hlink)
      refine ⟨later, ?_, ?_⟩
      · rw [hlink]
        exact hlater
      · rw [hmore, hscript, hrest, List.append_assoc]
        rfl

theorem Follows.awaitBy (h : Follows script d) (expected : FrameTag) (deadline : Deadline) :
    Follows script (final (d.awaitBy expected deadline)) := by
  fun_induction Dialogue.awaitBy expected deadline d with
  | case1 d hexpired => exact h
  | case2 d hexpired e after hr => exact h.readFrame hr
  | case3 d hexpired f after hr htag => exact h.readFrame hr
  | case4 d hexpired f after hr htag ih => exact ih (h.readFrame hr)
  | case5 d hexpired f after hr htag => exact h.readFrame hr
  | case6 d hexpired f after hr hinfo hfail htag => exact h.readFrame hr
  | case7 d hexpired f after hr tag hinfo hfail htag hother => exact h.readFrame hr

theorem Follows.write (h : Follows script d) (bytes : Bytes) (budget : Nat) :
    Follows script (final (d.write bytes budget)) := by
  have hqueue := Link.inbound_write bytes budget d.link
  have hpassed := d.write_passed bytes budget
  have hlink := link_write bytes budget d
  rw [← hlink] at hqueue
  cases hw : d.write bytes budget with
  | ok u after =>
    rw [hw] at hpassed hqueue
    exact h.of_silent hqueue (hpassed.answered.trans (List.append_nil _))
  | error e after =>
    rw [hw] at hpassed hqueue
    obtain ⟨fault, rfl, hpassed⟩ := hpassed
    exact h.of_silent hqueue (hpassed.answered.trans (List.append_nil _))

end Follows
end Dialogue

namespace BootCommand

def line : BootCommand → Bytes
  | download bytes => Text.Utf8.encode ("download:" ++ lengthText bytes.length)
  | flash partition _ => Text.Utf8.encode ("flash:" ++ partition)
  | erase partition _ => Text.Utf8.encode ("erase:" ++ partition)
  | getvar name => Text.Utf8.encode ("getvar:" ++ name)
  | oem command _ => Text.Utf8.encode ("oem " ++ command)
  | resume => Text.Utf8.encode "continue"
  | reboot none => Text.Utf8.encode "reboot"
  | reboot (some mode) => Text.Utf8.encode ("reboot:" ++ mode)
  | rebootBootloader => Text.Utf8.encode "reboot-bootloader"

def budget (settings : BootSettings) : BootCommand → Nat
  | flash _ budget | erase _ budget | oem _ budget => budget.getD settings.timeout
  | _ => settings.timeout

def isSimple : BootCommand → Bool
  | download _ => false
  | _ => true

def exchange (line : Bytes) (budget : Nat) : EStateM BootError Dialogue String := do
  Dialogue.write line budget
  Dialogue.await .okay budget

theorem run_simple (settings : BootSettings) {command : BootCommand}
    (h : command.isSimple = true) :
    command.run settings = exchange command.line (command.budget settings) := by
  cases command with
  | download bytes => cases h
  | reboot mode => cases mode <;> rfl
  | flash partition budget => rfl
  | erase partition budget => rfl
  | getvar name => rfl
  | oem command budget => rfl
  | resume => rfl
  | rebootBootloader => rfl

end BootCommand

namespace Dialogue

/-- The line went out so many times, each time got one answer at most, and the answers fit the
outcome. -/
def Tried (line : Bytes) (d : Dialogue) (r : EStateM.Result BootError Dialogue String) : Prop :=
  ∃ times answers, (final r).asked = d.asked ++ List.replicate times line ∧
    (final r).answered = d.answered ++ answers ∧ answers.length ≤ times ∧
    Fits .okay answers (outcome r)

theorem exchange_tried (line : Bytes) (budget : Nat) (d : Dialogue) :
    Tried line d (BootCommand.exchange line budget d) := by
  have hwrite := d.write_passed line budget
  -- A line that does not get out is not waited for, so no answer is read without a line.
  cases hw : d.write line budget with
  | error e after =>
    rw [hw] at hwrite
    obtain ⟨fault, rfl, hpassed⟩ := hwrite
    have hr : BootCommand.exchange line budget d = .error (.link fault) after :=
      bind_of_error _ hw
    rw [hr]
    exact ⟨0, [], hpassed.asked, hpassed.answered, Nat.le_refl _, fun _ => rfl⟩
  | ok u out =>
    rw [hw] at hwrite
    have hr : BootCommand.exchange line budget d = out.await .okay budget := bind_of_ok _ hw
    obtain ⟨reads, notes, hwaited, hpassed⟩ := out.await_passed .okay budget
    obtain ⟨hone, hfits⟩ := hwaited.fits
    have hasked := hpassed.asked
    rw [hwaited.writes_nothing, List.append_nil, hwrite.asked] at hasked
    have hanswered := hpassed.answered
    rw [hwrite.answered] at hanswered
    rw [hr]
    refine ⟨1, heard reads, hasked, ?_, hone, hfits⟩
    exact hanswered.trans (congrArg (· ++ heard reads) (List.append_nil _))

variable {script : List (FrameTag × String)} {d : Dialogue}

theorem Follows.exchange (h : Follows script d) (line : Bytes) (budget : Nat) :
    Follows script (final (BootCommand.exchange line budget d)) := by
  have hwritten := h.write line budget
  cases hw : d.write line budget with
  | error e after =>
    have hr : BootCommand.exchange line budget d = .error e after := bind_of_error _ hw
    rw [hw] at hwritten
    rw [hr]
    exact hwritten
  | ok u out =>
    have hr : BootCommand.exchange line budget d = out.await .okay budget := bind_of_ok _ hw
    rw [hw] at hwritten
    rw [hr]
    exact hwritten.awaitBy .okay ⟨out.link.now, budget⟩

theorem attempt_tried {x : EStateM BootError Dialogue String} {line : Bytes}
    (hx : ∀ d, Tried line d (x d)) (pause more : Nat) (d : Dialogue) :
    Tried line d (RetryPolicy.attempt pause x more d) := by
  induction more generalizing d with
  | zero => exact hx d
  | succ more ih =>
    have hfirst := hx d
    unfold RetryPolicy.attempt
    cases hr : x d with
    | ok text after =>
      rw [hr] at hfirst
      exact hfirst
    | error e after =>
      rw [hr] at hfirst
      dsimp only
      split
      · next hlink =>
        obtain ⟨times, answers, hasked, hanswered, _, hfits⟩ := hfirst
        obtain ⟨times', answers', hasked', hanswered', hle, hfits'⟩ := ih (Clocked.sleep pause after)
        have hsame : (Clocked.sleep pause after).asked = after.asked := rfl
        have hsame' : (Clocked.sleep pause after).answered = after.answered := rfl
        refine ⟨times + times', answers', ?_, ?_, Nat.le_trans hle (Nat.le_add_left ..), hfits'⟩
        · rw [hasked', hsame]
          change after.asked = _ at hasked
          rw [hasked, List.append_assoc, List.replicate_append_replicate]
        · rw [hanswered', hsame']
          change after.answered = _ at hanswered
          rw [hanswered, hfits hlink, List.append_nil]
      · exact hfirst

theorem Follows.attempt {x : EStateM BootError Dialogue String}
    (hx : ∀ d, Follows script d → Follows script (final (x d))) (h : Follows script d)
    (pause more : Nat) : Follows script (final (RetryPolicy.attempt pause x more d)) := by
  induction more generalizing d with
  | zero => exact hx d h
  | succ more ih =>
    have hfirst := hx d h
    unfold RetryPolicy.attempt
    cases hr : x d with
    | ok text after =>
      rw [hr] at hfirst
      exact hfirst
    | error e after =>
      rw [hr] at hfirst
      dsimp only
      split
      · exact ih (hfirst.of_silent rfl rfl)
      · exact hfirst

end Dialogue

namespace Bootloader
open Dialogue

variable {command : BootCommand} (hsimple : command.isSimple = true)

include hsimple

theorem run_tried (b : Bootloader) (d : Dialogue) :
    Tried command.line d (b.run command d) := by
  unfold Bootloader.run BootDevice.retrying RetryPolicy.apply
  rw [BootCommand.run_simple b.settings hsimple]
  exact attempt_tried (exchange_tried _ _) _ _ d

theorem run_follows (b : Bootloader) {script : List (FrameTag × String)} {d : Dialogue}
    (h : Follows script d) : Follows script (final (b.run command d)) := by
  unfold Bootloader.run BootDevice.retrying RetryPolicy.apply
  rw [BootCommand.run_simple b.settings hsimple]
  exact h.attempt (fun _ h => h.exchange _ _) _ _

omit hsimple

def after (b : Bootloader) (commands : List BootCommand) (d : Dialogue) : Dialogue :=
  commands.foldl (fun d command => final (b.run command d)) d

theorem after_answered (b : Bootloader) {commands : List BootCommand}
    (h : ∀ command ∈ commands, command.isSimple = true) {script : List (FrameTag × String)}
    {d : Dialogue} (hscript : Follows script d) (hle : d.answered.length ≤ d.asked.length) :
    Follows script (b.after commands d) ∧
      (b.after commands d).answered.length ≤ (b.after commands d).asked.length := by
  induction commands generalizing d with
  | nil => exact ⟨hscript, hle⟩
  | cons command rest ih =>
    obtain ⟨hcommand, hrest⟩ := List.forall_mem_cons.mp h
    obtain ⟨times, answers, hasked, hanswered, hfew, _⟩ := b.run_tried hcommand d
    -- A call adds no more answers than lines, so the balance is kept.
    apply ih hrest (b.run_follows hcommand hscript)
    rw [hasked, hanswered, List.length_append, List.length_append, List.length_replicate]
    omega

end Bootloader

open Dialogue

/-- With a bootloader that answers in order, however late, a call that succeeds gives the answer to
the oldest unanswered command. That is its own if nothing was unanswered before, and else one of an
earlier call, in every policy of trying again. -/
theorem answers_in_order (b : Bootloader) {queue : List Arrival} (plan : List Delivery)
    {answers : List (FrameTag × String)} (h : Brings queue answers)
    {earlier : List BootCommand} (hearlier : ∀ command ∈ earlier, command.isSimple = true)
    {command : BootCommand} (hsimple : command.isSimple = true) :
    let before := b.after earlier { link := { inbound := queue, plan := plan } }
    let r := b.run command before
    let k := before.answered.length
    before.answered <+: answers ∧ k ≤ before.asked.length ∧
      (∃ times, (final r).asked = before.asked ++ List.replicate times command.line) ∧
      before.unanswered ≤ (final r).unanswered ∧
      ∀ text, outcome r = .ok text → answers[k]? = some (.okay, text) ∧
        if before.unanswered = 0 then
          k = before.asked.length ∧ (final r).asked[k]? = some command.line
        else k < before.asked.length := by
  intro before r k
  have hstart : Follows answers { link := { inbound := queue, plan := plan } } := ⟨answers, h, rfl⟩
  obtain ⟨hbefore, hle⟩ := b.after_answered hearlier hstart (Nat.le_refl 0)
  have hafter : Follows answers (final r) := b.run_follows hsimple hbefore
  obtain ⟨times, got, hasked, hanswered, hfew, hfits⟩ := b.run_tried hsimple before
  change (final r).asked = _ at hasked
  change (final r).answered = _ at hanswered
  refine ⟨hbefore.front, hle, ⟨times, hasked⟩, ?_, ?_⟩
  · rw [unanswered, unanswered, hasked, hanswered, List.length_append, List.length_append,
      List.length_replicate]
    change k ≤ before.asked.length at hle
    omega
  · intro text hok
    change Fits .okay got (outcome r) at hfits
    rw [hok] at hfits
    obtain rfl : got = [(.okay, text)] := hfits
    obtain ⟨later, hlater⟩ := hafter.front
    rw [hanswered, List.append_assoc] at hlater
    have hpos : 0 < times := hfew
    refine ⟨?_, ?_⟩
    · rw [← hlater, List.getElem?_append_right (Nat.le_refl _), Nat.sub_self]
      rfl
    · split
      · next hzero =>
        have heq : k = before.asked.length := Nat.le_antisymm hle (Nat.le_of_sub_eq_zero hzero)
        refine ⟨heq, ?_⟩
        rw [hasked, heq, List.getElem?_append_right (Nat.le_refl _), Nat.sub_self,
          List.getElem?_replicate_of_lt hpos]
      · next hsome =>
        exact Nat.lt_of_sub_ne_zero hsome

/-- Too early by 50 ms, and in time when it tries again. -/
theorem answers_in_order_retried :
    let frame (text : String) : Arrival := .chunk (Text.Utf8.encode text)
    let queue := [frame "INFOhi", frame "OKAYa", .pause (Duration.ofMillis 250), frame "OKAYb"]
    let b : Bootloader := ⟨{ timeout := Duration.ofMillis 200 }, { retries := 3 }⟩
    let before := b.after [.getvar "a"] { link := { inbound := queue } }
    let r := b.run (.getvar "b") before
    Brings queue [(.okay, "a"), (.okay, "b")] ∧ before.unanswered = 0 ∧ outcome r = .ok "b" ∧
      before.asked.length = 1 ∧ (final r).asked[1]? = some (Text.Utf8.encode "getvar:b") := by
  intro frame queue b before r
  have hnote : Frame.Says .info "hi" (Text.Utf8.encode "INFOhi") := ⟨_, rfl, rfl, by decide +kernel⟩
  have hfirst : Frame.Says .okay "a" (Text.Utf8.encode "OKAYa") := ⟨_, rfl, rfl, by decide +kernel⟩
  have hsecond : Frame.Says .okay "b" (Text.Utf8.encode "OKAYb") := ⟨_, rfl, rfl, by decide +kernel⟩
  have hqueue : Brings queue [(.okay, "a"), (.okay, "b")] :=
    .note (by decide) hnote (.answer (by decide) hfirst (by decide)
      (.pause _ (.answer (by decide) hsecond (by decide) .nothing)))
  have hok : outcome r = .ok "b" := by decide +kernel
  have hzero : before.unanswered = 0 := by decide +kernel
  have hone : before.answered.length = 1 := by decide +kernel
  have hall : ∀ command ∈ [BootCommand.getvar "a"], command.isSimple = true := by decide
  have hsimple : (BootCommand.getvar "b").isSimple = true := rfl
  obtain ⟨_, _, _, _, hanswer⟩ := answers_in_order b [] hqueue hall hsimple
  obtain ⟨_, hown⟩ := hanswer "b" hok
  rw [if_pos hzero] at hown
  obtain ⟨hcount, hline⟩ := hown
  change before.answered.length = before.asked.length at hcount
  change (final r).asked[before.answered.length]? = _ at hline
  rw [hone] at hcount hline
  exact ⟨hqueue, hzero, hok, hcount.symm, hline⟩

/-- The answer to a second attempt is left behind, and the next call takes it for its own. -/
theorem next_command_gets_late_answer :
    let frame (text : String) : Arrival := .chunk (Text.Utf8.encode text)
    let queue := [.pause (Duration.ofMillis 250), frame "OKAYa", frame "OKAYa", frame "OKAYb"]
    let b : Bootloader := ⟨{ timeout := Duration.ofMillis 200 }, { retries := 3 }⟩
    let first := b.run (.getvar "a") { link := { inbound := queue } }
    let second := b.run (.getvar "b") (final first)
    let line (name : String) := Text.Utf8.encode ("getvar:" ++ name)
    Brings queue [(.okay, "a"), (.okay, "a"), (.okay, "b")] ∧ outcome first = .ok "a" ∧
      (final first).asked = [line "a", line "a"] ∧ (final first).answered = [(.okay, "a")] ∧
      outcome second = .ok "a" ∧ (final second).asked = [line "a", line "a", line "b"] ∧
      (final second).answered = [(.okay, "a"), (.okay, "a")] := by
  intro frame queue b first second line
  have hfirst : Frame.Says .okay "a" (Text.Utf8.encode "OKAYa") := ⟨_, rfl, rfl, by decide +kernel⟩
  have hsecond : Frame.Says .okay "b" (Text.Utf8.encode "OKAYb") := ⟨_, rfl, rfl, by decide +kernel⟩
  have hqueue : Brings queue [(.okay, "a"), (.okay, "a"), (.okay, "b")] :=
    .pause _ (.answer (by decide) hfirst (by decide) (.answer (by decide) hfirst (by decide)
      (.answer (by decide) hsecond (by decide) .nothing)))
  refine ⟨hqueue, ?_⟩
  decide +kernel

end DroidHost
