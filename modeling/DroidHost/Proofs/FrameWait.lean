import DroidHost.Bootloader.Dialogue
import DroidHost.Proofs.Wire

/-! Waiting for a frame, over the notes in front of it. -/
namespace DroidHost

def written (transfers : List Transfer) : List Bytes :=
  transfers.filterMap fun t => t.sent?.map (·.1)

theorem written_append (transfers more : List Transfer) :
    written (transfers ++ more) = written transfers ++ written more := List.filterMap_append

def Frame.Says (tag : FrameTag) (text : String) (bytes : Bytes) : Prop :=
  ∃ f, ofBytes bytes = .ok f ∧ FrameTag.ofBytes? f.tag = some tag ∧ f.text = text

def Transfer.Brought (tag : FrameTag) (text : String) (t : Transfer) : Prop :=
  ∃ wanted budget bytes, t = .received wanted budget bytes ∧ Frame.Says tag text bytes

theorem Transfer.brought {bytes : Bytes} {f : Frame} {tag : FrameTag}
    (h : Frame.ofBytes bytes = .ok f) (htag : FrameTag.ofBytes? f.tag = some tag)
    (wanted budget : Nat) : (received wanted budget bytes).Brought tag f.text :=
  ⟨wanted, budget, bytes, rfl, f, h, htag, rfl⟩

def Answered (tag : FrameTag) (text : String) (reads : List Transfer) : Prop :=
  ∃ told last, reads = told ++ [last] ∧ (∀ t ∈ told, ∃ note, t.Brought .info note) ∧
    last.Brought tag text

def FrameTag.verdict (expected tag : FrameTag) (text : String) : Except BootError String :=
  if tag = .fail then .error (.remoteFailure text)
  else if tag = expected then .ok text
  else .error (.stateMismatch expected.name tag.name)

inductive Waited (expected : FrameTag) (budget : Nat) :
    List Transfer → List String → Except BootError String → Prop
  | late : Waited expected budget [] [] (.error (.link (.timeout budget)))
  | missed (wanted left : Nat) (fault : LinkFault) :
    Waited expected budget [.missed wanted left fault] [] (.error (.link fault))
  | garbled (wanted left : Nat) {bytes : Bytes} {e : BootError}
    (h : Frame.ofBytes bytes = .error e) :
    Waited expected budget [.received wanted left bytes] [] (.error e)
  | unknown (wanted left : Nat) {bytes : Bytes} {f : Frame} (h : Frame.ofBytes bytes = .ok f)
    (htag : FrameTag.ofBytes? f.tag = none) :
    Waited expected budget [.received wanted left bytes] []
      (.error (.invalidResponse (Text.Utf8.decode f.tag) f.text))
  | answered {t : Transfer} {tag : FrameTag} {text : String} (h : t.Brought tag text)
    (htag : tag ≠ .info) : Waited expected budget [t] [] (expected.verdict tag text)
  | noted {t : Transfer} {text : String} {reads : List Transfer} {notes : List String}
    {result : Except BootError String} (h : t.Brought .info text)
    (hrest : Waited expected budget reads notes result) :
    Waited expected budget (t :: reads) (text :: notes) result

section Waited

variable {expected : FrameTag} {budget : Nat} {reads : List Transfer} {notes : List String}
  {result : Except BootError String}

theorem Transfer.Brought.isRead {t : Transfer} {tag : FrameTag} {text : String}
    (h : t.Brought tag text) : t.isRead = true := by
  obtain ⟨_, _, _, rfl, _⟩ := h
  rfl

theorem Waited.only_reads (h : Waited expected budget reads notes result) :
    ∀ t ∈ reads, t.isRead = true := by
  induction h with
  | late => nofun
  | missed wanted left fault => exact List.forall_mem_singleton.mpr rfl
  | garbled wanted left h => exact List.forall_mem_singleton.mpr rfl
  | unknown wanted left h htag => exact List.forall_mem_singleton.mpr rfl
  | answered h htag => exact List.forall_mem_singleton.mpr h.isRead
  | noted h hrest ih => exact List.forall_mem_cons.mpr ⟨h.isRead, ih⟩

theorem written_of_reads {transfers : List Transfer} (h : ∀ t ∈ transfers, t.isRead = true) :
    written transfers = [] := by
  refine List.filterMap_eq_nil_iff.mpr ?_
  intro t ht
  have hread := h t ht
  cases t with
  | received wanted left bytes => rfl
  | missed wanted left fault => rfl
  | sent bytes left => cases hread
  | unsent bytes left fault => cases hread

theorem Waited.writes_nothing (h : Waited expected budget reads notes result) :
    written reads = [] := written_of_reads h.only_reads

theorem eq_ok_of_verdict {tag : FrameTag} {text text' : String}
    (h : expected.verdict tag text = .ok text') : tag = expected ∧ text = text' := by
  unfold FrameTag.verdict at h
  split at h
  · cases h
  · split at h
    · next htag =>
      cases h
      exact ⟨htag, rfl⟩
    · cases h

theorem Waited.answered_of_ok {text : String} (h : Waited expected budget reads notes (.ok text)) :
    Answered expected text reads := by
  generalize hresult : (Except.ok text : Except BootError String) = result at h
  induction h with
  | late => cases hresult
  | missed wanted left fault => cases hresult
  | garbled wanted left h => cases hresult
  | unknown wanted left h htag => cases hresult
  | answered h htag =>
    obtain ⟨rfl, rfl⟩ := eq_ok_of_verdict hresult.symm
    exact ⟨[], _, rfl, nofun, h⟩
  | noted h hrest ih =>
    obtain ⟨told, last, rfl, htold, hlast⟩ := ih hresult
    exact ⟨_ :: told, last, rfl, List.forall_mem_cons.mpr ⟨⟨_, h⟩, htold⟩, hlast⟩

end Waited

namespace Dialogue

/-- Transfers, notes and progress between two points of a dialogue. -/
structure Passed (d after : Dialogue) (transfers : List Transfer) (notes : List String)
    (steps : List (Nat × Nat)) : Prop where
  past : after.link.past = transfers.reverse ++ d.link.past
  notes : after.notes = notes.reverse ++ d.notes
  progress : after.progress = steps.reverse ++ d.progress

theorem Passed.refl (d : Dialogue) : Passed d d [] [] [] := ⟨rfl, rfl, rfl⟩

theorem Passed.trans {d mid after : Dialogue} {transfers transfers' : List Transfer}
    {notes notes' : List String} {steps steps' : List (Nat × Nat)}
    (h : Passed d mid transfers notes steps) (h' : Passed mid after transfers' notes' steps') :
    Passed d after (transfers ++ transfers') (notes ++ notes') (steps ++ steps') where
  past := by rw [h'.past, h.past, List.reverse_append, List.append_assoc]
  notes := by rw [h'.notes, h.notes, List.reverse_append, List.append_assoc]
  progress := by rw [h'.progress, h.progress, List.reverse_append, List.append_assoc]

theorem write_passed (bytes : Bytes) (budget : Nat) (d : Dialogue) :
    match d.write bytes budget with
    | .ok _ after => Passed d after [.sent bytes budget] [] []
    | .error e after => ∃ fault, e = .link fault ∧
        Passed d after [.unsent bytes budget fault] [] [] := by
  have hrecord := d.link.write_record bytes budget
  unfold write
  cases hw : d.link.write bytes budget with
  | ok u link =>
    rw [hw] at hrecord
    exact ⟨hrecord, rfl, rfl⟩
  | error f link =>
    rw [hw] at hrecord
    exact ⟨f, rfl, hrecord, rfl, rfl⟩

theorem readFrame_error_passed {budget : Nat} {d after : Dialogue} {e : BootError}
    (h : d.readFrame budget = .error e after) :
    (∃ fault, e = .link fault ∧ Passed d after [.missed Frame.size budget fault] [] []) ∨
    ∃ bytes, Frame.ofBytes bytes = .error e ∧
      Passed d after [.received Frame.size budget bytes] [] [] := by
  have hrecord := d.link.read_record Frame.size budget
  unfold readFrame at h
  split at h
  · next f link hr =>
    cases h
    rw [hr] at hrecord
    exact .inl ⟨f, rfl, hrecord, rfl, rfl⟩
  · next bytes link hr =>
    rw [hr] at hrecord
    split at h
    · cases h
    · next he =>
      cases h
      exact .inr ⟨bytes, he, hrecord, rfl, rfl⟩

theorem readFrame_ok_passed {budget : Nat} {d after : Dialogue} {f : Frame}
    (h : d.readFrame budget = .ok f after) :
    ∃ bytes, Frame.ofBytes bytes = .ok f ∧
      Passed d after [.received Frame.size budget bytes] [] [] := by
  have hrecord := d.link.read_record Frame.size budget
  unfold readFrame at h
  split at h
  · cases h
  · next bytes link hr =>
    rw [hr] at hrecord
    split at h
    · next hf =>
      cases h
      exact ⟨bytes, hf, hrecord, rfl, rfl⟩
    · cases h

theorem awaitBy_passed (expected : FrameTag) (deadline : Deadline) (d : Dialogue) :
    ∃ reads notes, Waited expected deadline.budget reads notes
        (outcome (d.awaitBy expected deadline)) ∧
      Passed d (final (d.awaitBy expected deadline)) reads notes [] := by
  fun_induction awaitBy expected deadline d with
  | case1 d hexpired => exact ⟨[], [], .late, .refl d⟩
  | case2 d hexpired e after hr =>
    rcases readFrame_error_passed hr with ⟨fault, rfl, hpassed⟩ | ⟨bytes, hbytes, hpassed⟩
    · exact ⟨_, [], .missed _ _ fault, hpassed⟩
    · exact ⟨_, [], .garbled _ _ hbytes, hpassed⟩
  | case3 d hexpired f after hr htag =>
    obtain ⟨bytes, hbytes, hpassed⟩ := readFrame_ok_passed hr
    exact ⟨_, [], .unknown _ _ hbytes htag, hpassed⟩
  | case4 d hexpired f after hr htag ih =>
    obtain ⟨bytes, hbytes, hpassed⟩ := readFrame_ok_passed hr
    have htold : Passed d (after.note f.text) _ [f.text] [] :=
      ⟨hpassed.past, congrArg (f.text :: ·) hpassed.notes, hpassed.progress⟩
    obtain ⟨reads, notes, hwaited, hrest⟩ := ih
    exact ⟨_, _, .noted (Transfer.brought hbytes htag _ _) hwaited, htold.trans hrest⟩
  | case5 d hexpired f after hr htag =>
    obtain ⟨bytes, hbytes, hpassed⟩ := readFrame_ok_passed hr
    exact ⟨_, [], .answered (Transfer.brought hbytes htag _ _) nofun, hpassed⟩
  | case6 d hexpired f after hr hinfo hfail htag =>
    obtain ⟨bytes, hbytes, hpassed⟩ := readFrame_ok_passed hr
    have hanswered : Waited expected deadline.budget _ [] (expected.verdict expected f.text) :=
      .answered (Transfer.brought hbytes htag Frame.size (deadline.remaining d.link.now)) hinfo
    rw [FrameTag.verdict, if_neg hfail, if_pos rfl] at hanswered
    exact ⟨_, [], hanswered, hpassed⟩
  | case7 d hexpired f after hr tag hinfo hfail htag hother =>
    obtain ⟨bytes, hbytes, hpassed⟩ := readFrame_ok_passed hr
    have hanswered : Waited expected deadline.budget _ [] (expected.verdict tag f.text) :=
      .answered (Transfer.brought hbytes htag Frame.size (deadline.remaining d.link.now)) hinfo
    rw [FrameTag.verdict, if_neg hfail, if_neg hother] at hanswered
    exact ⟨_, [], hanswered, hpassed⟩

theorem await_passed (d : Dialogue) (expected : FrameTag) (budget : Nat) :
    ∃ reads notes, Waited expected budget reads notes (outcome (d.await expected budget)) ∧
      Passed d (final (d.await expected budget)) reads notes [] :=
  awaitBy_passed expected ⟨d.link.now, budget⟩ d

end Dialogue
end DroidHost
