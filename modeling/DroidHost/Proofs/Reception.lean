import DroidHost.Proofs.Framing

/-! What the record of a link tells: the bytes that came in, the messages they were, what was
written, and what went wrong. -/
namespace DroidHost

namespace Message

theorem parse_mono (bytes rest : Bytes) : parse bytes <+: parse (bytes ++ rest) := by
  fun_induction parse bytes with
  | case1 bytes hshort => exact List.nil_prefix
  | case2 bytes hlong e hd ih =>
    have hsize : (bytes.take Header.size).length = Header.size := by
      rw [List.length_take]
      omega
    have hcut := parse_append_bad hsize hd (bytes.drop Header.size ++ rest)
    rw [← List.append_assoc, List.take_append_drop] at hcut
    rw [hcut]
    exact (List.cons_prefix_cons).mpr ⟨rfl, ih⟩
  | case3 => exact List.nil_prefix
  | case4 bytes hlong h hd behind hwhole ih =>
    let front := bytes.take (Header.size + h.length.toNat)
    have hbehind : behind.length = bytes.length - Header.size := List.length_drop ..
    have hlen : front.length = Header.size + h.length.toNat := by
      rw [List.length_take]
      omega
    have htake : front.take Header.size = bytes.take Header.size := by
      rw [List.take_take, Nat.min_eq_left (Nat.le_add_right _ _)]
    have hdrop : front.drop Header.size = behind.take h.length.toNat := by
      rw [List.drop_take, Nat.add_sub_cancel_left]
    have hsplit : bytes = front ++ behind.drop h.length.toNat := by
      rw [List.drop_drop, List.take_append_drop]
    have hcut := parse_append_frame (htake ▸ hd) hlen (behind.drop h.length.toNat ++ rest)
    rw [← List.append_assoc, ← hsplit, hdrop] at hcut
    rw [hcut]
    exact (List.cons_prefix_cons).mpr ⟨rfl, ih⟩

end Message

def error? : Except ε α → Option ε
  | .error e => some e
  | .ok _ => none

theorem findSome?_error?_ok (xs : List α) :
    (xs.map Except.ok).findSome? (error? : Except ε α → Option ε) = none := by
  rw [List.findSome?_map, List.findSome?_eq_none_iff]
  exact fun _ _ => rfl

namespace Transfer

def got : Transfer → Bytes
  | received _ _ bytes => bytes
  | _ => []

def frame : Transfer → List Bytes
  | sent bytes _ => [bytes]
  | _ => []

def isUnsent : Transfer → Bool
  | unsent .. => true
  | _ => false

def ranOut : Transfer → Bool
  | missed _ _ f => f.isTimeout
  | _ => false

/-- Time that ran out is nothing wrong. -/
def failure : Transfer → Option BridgeError
  | missed _ _ f => if f.isTimeout then none else some (.link f)
  | received _ _ [] => some (.protocol .hungUp)
  | unsent _ _ f => some (.link f)
  | _ => none

/-- All bytes that came in, in order. The record has the latest first. -/
def inflow (lately : List Transfer) : Bytes := lately.reverse.flatMap got

def frames (lately : List Transfer) : List Bytes := lately.reverse.flatMap frame

def heard (lately : List Transfer) : List Message :=
  (Message.parse (inflow lately)).filterMap Except.toOption

/-- With the latest transfer, or else with a message that came in. -/
def trouble (lately : List Transfer) : Option BridgeError :=
  (lately.head?.bind failure).or ((Message.parse (inflow lately)).findSome? error?)

theorem inflow_append (later earlier : List Transfer) :
    inflow (later ++ earlier) = inflow earlier ++ inflow later := by
  rw [inflow, List.reverse_append, List.flatMap_append, inflow, inflow]

theorem frames_append (later earlier : List Transfer) :
    frames (later ++ earlier) = frames earlier ++ frames later := by
  rw [frames, List.reverse_append, List.flatMap_append, frames, frames]

theorem failure_append {earlier : List Transfer} (h : earlier.head?.bind failure = none)
    (later : List Transfer) :
    (later ++ earlier).head?.bind failure = later.head?.bind failure := by
  cases later with
  | nil => exact h
  | cons t later => rfl

theorem frames_of_reads {reads : List Transfer} (h : ∀ t ∈ reads, t.isRead = true) :
    frames reads = [] := by
  rw [frames, List.flatMap_eq_nil_iff]
  intro t ht
  have hr := h t (List.mem_reverse.mp ht)
  cases t <;> first | rfl | cases hr

theorem heard_of_parse_nil {lately : List Transfer} (h : Message.parse (inflow lately) = []) :
    heard lately = [] := by
  rw [heard, h, List.filterMap_nil]

theorem trouble_of_parse_nil {lately : List Transfer} (h : Message.parse (inflow lately) = []) :
    trouble lately = lately.head?.bind failure := by
  rw [trouble, h, List.findSome?_nil, Option.or_none]

@[simp] theorem heard_nil : heard [] = [] := @heard_of_parse_nil [] Message.parse_nil

@[simp] theorem trouble_nil : trouble [] = none := @trouble_of_parse_nil [] Message.parse_nil

theorem heard_mono (later earlier : List Transfer) :
    heard earlier <+: heard (later ++ earlier) := by
  rw [heard, heard, inflow_append]
  exact (Message.parse_mono _ _).filterMap _

/-- Messages came in whole, these and nothing else, and nothing is wrong. -/
structure Clear (lately : List Transfer) (ms : List Message) : Prop where
  parsed : ∀ rest, Message.parse (inflow lately ++ rest) = ms.map .ok ++ Message.parse rest
  calm : trouble lately = none

namespace Clear

theorem append_parse {lately : List Transfer} {ms : List Message} (h : Clear lately ms)
    (later : List Transfer) :
    Message.parse (inflow (later ++ lately)) = ms.map .ok ++ Message.parse (inflow later) := by
  rw [inflow_append, h.parsed]

theorem append_heard {lately : List Transfer} {ms : List Message} (h : Clear lately ms)
    (later : List Transfer) : heard (later ++ lately) = ms ++ heard later := by
  rw [heard, h.append_parse, List.filterMap_append, List.filterMap_map]
  exact congrArg (· ++ _) List.filterMap_some

theorem heard_eq {lately : List Transfer} {ms : List Message} (h : Clear lately ms) :
    heard lately = ms := by
  have ha := h.append_heard []
  rw [heard_nil, List.append_nil] at ha
  exact ha

theorem append_trouble {lately : List Transfer} {ms : List Message} (h : Clear lately ms)
    (later : List Transfer) : trouble (later ++ lately) = trouble later := by
  cases later with
  | nil => exact h.calm.trans trouble_nil.symm
  | cons t later =>
    rw [trouble, h.append_parse, List.findSome?_append, findSome?_error?_ok]
    rfl

theorem append {lately later : List Transfer} {ms more : List Message} (h : Clear lately ms)
    (h' : Clear later more) : Clear (later ++ lately) (ms ++ more) where
  parsed rest := by
    rw [inflow_append, List.append_assoc, h.parsed, h'.parsed, List.map_append, List.append_assoc]
  calm := (h.append_trouble later).trans h'.calm

theorem nil : Clear [] [] := ⟨fun _ => rfl, trouble_nil⟩

theorem sent (bytes : Bytes) (budget : Nat) : Clear [.sent bytes budget] [] :=
  ⟨fun _ => rfl, @trouble_of_parse_nil [.sent bytes budget] Message.parse_nil⟩

end Clear

def Late (lately : List Transfer) : Prop := ∃ t ∈ lately.head?, t.ranOut = true

theorem Late.append {later : List Transfer} (h : Late later) (earlier : List Transfer) :
    Late (later ++ earlier) := by
  obtain ⟨t, ht, hr⟩ := h
  cases later with
  | nil => cases ht
  | cons t' later => exact ⟨t, ht, hr⟩

/-- What reads tell of the attempt at one message that they were. -/
def Tells (reads : List Transfer) : Except BridgeError Message → Prop
  | .ok m => Clear reads [m]
  | .error e => heard reads = [] ∧ trouble reads = (if e.isTimeout then none else some e) ∧
      (e.isTimeout = true → Late reads)

theorem tells_of_cut {reads : List Transfer} {e : BridgeError}
    (hp : Message.parse (inflow reads) = [])
    (hf : reads.head?.bind failure = if e.isTimeout then none else some e)
    (hl : e.isTimeout = true → Late reads) : Tells reads (.error e) :=
  ⟨heard_of_parse_nil hp, (trouble_of_parse_nil hp).trans hf, hl⟩

theorem tells_of_bad {reads : List Transfer} {e : BridgeError}
    (hp : ∀ rest, Message.parse (inflow reads ++ rest) = .error e :: Message.parse rest)
    (hf : reads.head?.bind failure = none) (he : e.isTimeout = false) :
    Tells reads (.error e) := by
  have hall := hp []
  rw [List.append_nil, Message.parse_nil] at hall
  refine ⟨?_, ?_, ?_⟩
  · rw [heard, hall]
    rfl
  · rw [trouble, hall, hf, he]
    rfl
  · intro ht
    rw [he] at ht
    cases ht

theorem tells_of_good {reads : List Transfer} {m : Message}
    (hp : ∀ rest, Message.parse (inflow reads ++ rest) = .ok m :: Message.parse rest)
    (hf : reads.head?.bind failure = none) : Tells reads (.ok m) := by
  have hall := hp []
  rw [List.append_nil, Message.parse_nil] at hall
  refine ⟨hp, ?_⟩
  rw [trouble, hall, hf]
  rfl

end Transfer

namespace Channel
open Transfer

structure Filled (reads : List Transfer) (ch after : Channel) : Prop where
  areReads : ∀ t ∈ reads, t.isRead = true
  past : after.link.past = reads ++ ch.link.past
  fragment : after.fragment = ch.fragment ++ inflow reads

theorem Filled.trans {reads more : List Transfer} {ch mid after : Channel}
    (h : Filled reads ch mid) (h' : Filled more mid after) :
    Filled (more ++ reads) ch after where
  areReads := by
    intro t ht
    rcases List.mem_append.mp ht with ht | ht
    · exact h'.areReads t ht
    · exact h.areReads t ht
  past := by rw [h'.past, h.past, List.append_assoc]
  fragment := by rw [h'.fragment, h.fragment, inflow_append, List.append_assoc]

theorem filled_one {t : Transfer} (ht : t.isRead = true) {ch after : Channel}
    (hp : after.link.past = t :: ch.link.past) (hf : after.fragment = ch.fragment ++ t.got) :
    Filled [t] ch after where
  areReads := by
    intro t' ht'
    cases List.mem_singleton.mp ht'
    exact ht
  past := hp
  fragment := by
    rw [hf, inflow, List.reverse_singleton, List.flatMap_singleton]

theorem fill_record (target : Nat) (deadline : Deadline) (ch : Channel)
    (hn : ch.fragment.length ≤ target) :
    ∃ reads, Filled reads ch (final (ch.fill target deadline)) ∧
      match ch.fill target deadline with
      | .ok _ after => after.fragment.length = target ∧ reads.head?.bind failure = none
      | .error e after => after.fragment.length < target ∧
          reads.head?.bind failure = (if e.isTimeout then none else some e) ∧
          (e.isTimeout = true → Late reads) := by
  fun_induction fill target deadline ch with
  | case1 ch hle =>
    have hnothing : Filled [] ch ch := ⟨List.forall_mem_nil _, rfl, (List.append_nil _).symm⟩
    exact ⟨[], hnothing, Nat.le_antisymm hn hle, rfl⟩
  | case2 ch hlt f link hr =>
    have hl := Link.read_record (target - ch.fragment.length) (ch.allowance deadline) ch.link
    rw [hr] at hl
    refine ⟨_, filled_one rfl hl (List.append_nil _).symm, Nat.lt_of_not_le hlt, rfl, ?_⟩
    exact fun ht => ⟨_, rfl, ht⟩
  | case3 ch hlt link hr =>
    have hl := Link.read_record (target - ch.fragment.length) (ch.allowance deadline) ch.link
    rw [hr] at hl
    exact ⟨_, filled_one rfl hl (List.append_nil _).symm, Nat.lt_of_not_le hlt, rfl, by rintro ⟨⟩⟩
  | case4 ch hlt b got link hr ih =>
    have hl := Link.read_record (target - ch.fragment.length) (ch.allowance deadline) ch.link
    have hw := (Link.read_ok_weight hr).2.2
    rw [hr] at hl
    have hlen : (ch.fragment ++ b :: got).length ≤ target := by
      rw [List.length_append]
      omega
    obtain ⟨reads, hfilled, hend⟩ := ih hlen
    have hone : Filled _ ch { link := link, fragment := ch.fragment ++ b :: got } :=
      filled_one rfl hl rfl
    refine ⟨_, hone.trans hfilled, ?_⟩
    rw [failure_append rfl]
    split
    · next hf =>
      rw [hf] at hend
      exact hend
    · next hf =>
      rw [hf] at hend
      exact ⟨hend.1, hend.2.1, fun ht => (hend.2.2 ht).append _⟩

/-- An attempt at a message, told from the reads it tried. -/
theorem gather_record {ch : Channel} (h : ch.fragment = []) (deadline : Deadline) :
    ∃ reads, Filled reads ch (final (ch.gather deadline)) ∧
      Tells reads (outcome (ch.gather deadline)) := by
  have inflow_of_filled {reads : List Transfer} {after : Channel} (hf : Filled reads ch after) :
      after.fragment = inflow reads := by
    rw [hf.fragment, h, List.nil_append]
  obtain ⟨reads, hfilled, hend⟩ := fill_record Header.size deadline ch
    (by rw [h]; exact Nat.zero_le _)
  unfold gather
  cases hr : ch.fill Header.size deadline with
  | error e mid =>
    rw [hr] at hfilled hend
    have hin : mid.fragment = inflow reads := inflow_of_filled hfilled
    exact ⟨reads, hfilled, tells_of_cut (Message.parse_of_short (hin ▸ hend.1)) hend.2.1 hend.2.2⟩
  | ok u mid =>
    rw [hr] at hfilled hend
    obtain ⟨hsize, hgood⟩ := hend
    have hin : mid.fragment = inflow reads := inflow_of_filled hfilled
    dsimp only
    cases hd : Header.decode (mid.fragment.take Header.size) with
    | error e =>
      refine ⟨reads, hfilled, tells_of_bad ?_ hgood (Header.isTimeout_of_decode hd)⟩
      rw [List.take_of_length_le (Nat.le_of_eq hsize)] at hd
      rw [← hin]
      exact Message.parse_append_bad hsize hd
    | ok header =>
      obtain ⟨more, hmore, hend⟩ := fill_record (Header.size + header.length.toNat) deadline mid
        (by omega)
      have hboth := hfilled.trans hmore
      have hin' := inflow_of_filled hboth
      have hd' : Header.decode ((inflow (more ++ reads)).take Header.size) = .ok header := by
        rw [inflow_append, ← hin, List.take_append_of_le_length (Nat.le_of_eq hsize.symm)]
        exact hd
      dsimp only
      cases hr' : mid.fill (Header.size + header.length.toNat) deadline with
      | error e after =>
        rw [hr'] at hboth hin' hend
        obtain ⟨hshort, hbad, hlate⟩ := hend
        refine ⟨more ++ reads, hboth, tells_of_cut (Message.parse_of_cut hd' (hin' ▸ hshort)) ?_ ?_⟩
        · rw [failure_append hgood, hbad]
        · exact fun ht => (hlate ht).append _
      | ok u after =>
        rw [hr'] at hboth hin' hend
        obtain ⟨hwhole, hgood'⟩ := hend
        have hin' : after.fragment = inflow (more ++ reads) := hin'
        have hcalm : (more ++ reads).head?.bind failure = none :=
          (failure_append hgood more).trans hgood'
        have hparse := Message.parse_append_frame hd' (hin' ▸ hwhole)
        rw [← hin'] at hparse
        dsimp only
        cases hm : header.finish (after.fragment.drop Header.size) with
        | ok m =>
          rw [hm, hin'] at hparse
          exact ⟨more ++ reads, hboth, tells_of_good hparse hcalm⟩
        | error e =>
          rw [hm, hin'] at hparse
          exact ⟨more ++ reads, hboth,
            tells_of_bad hparse hcalm (Header.isTimeout_of_finish hm)⟩

theorem receive_record {ch : Channel} (h : ch.fragment = []) (deadline : Deadline) :
    ∃ reads, (∀ t ∈ reads, t.isRead = true) ∧
      (final (ch.receive deadline)).link.past = reads ++ ch.link.past ∧
      Tells reads (outcome (ch.receive deadline)) := by
  obtain ⟨reads, hfilled, ht⟩ := gather_record h deadline
  rw [link_receive, outcome_receive]
  exact ⟨reads, hfilled.areReads, hfilled.past, ht⟩

theorem fragment_of_receive {ch after : Channel} {deadline : Deadline} {m : Message}
    (h : ch.receive deadline = .ok m after) : after.fragment = [] := by
  unfold receive at h
  split at h <;> cases h
  rfl

/-- Waiting for one of some commands. What came before it are messages with other commands; the
wait fails with what went wrong, or because its time is up. -/
theorem receiveOneOf_record (expected : List Command) (deadline : Deadline) {ch : Channel}
    (h : ch.fragment = []) :
    ∃ reads skipped, (∀ t ∈ reads, t.isRead = true) ∧
      (∀ m ∈ skipped, m.command ∉ expected) ∧
      (final (ch.receiveOneOf expected deadline)).link.past = reads ++ ch.link.past ∧
      match ch.receiveOneOf expected deadline with
      | .ok m after => m.command ∈ expected ∧ after.fragment = [] ∧ Clear reads (skipped ++ [m])
      | .error e after => heard reads = skipped ∧
          (e.isTimeout = false ∧ trouble reads = some e ∨
            e = .timeout deadline.budget (.oneOf expected) ∧ trouble reads = none ∧
              (Late reads ∨ deadline.hasExpired after.now = true)) := by
  fun_induction receiveOneOf expected deadline ch with
  | case1 ch he =>
    exact ⟨[], [], nofun, nofun, rfl, heard_nil, .inr ⟨rfl, trouble_nil, .inr he⟩⟩
  | case2 ch he m after hr hm =>
    obtain ⟨reads, hreads, hp, ht⟩ := receive_record h deadline
    rw [hr] at hp ht
    exact ⟨reads, [], hreads, nofun, hp, hm, fragment_of_receive hr, ht⟩
  | case3 ch he m after hr hm ih =>
    obtain ⟨reads, hreads, hp, ht⟩ := receive_record h deadline
    rw [hr] at hp ht
    obtain ⟨more, skipped, hmore, hskipped, hp', hend⟩ := ih (fragment_of_receive hr)
    have hclear : Clear reads [m] := ht
    refine ⟨more ++ reads, m :: skipped, ?_, ?_, ?_, ?_⟩
    · intro t ht
      rcases List.mem_append.mp ht with ht | ht
      · exact hmore t ht
      · exact hreads t ht
    · rw [List.forall_mem_cons]
      exact ⟨hm, hskipped⟩
    · rw [hp', List.append_assoc]
      exact congrArg (more ++ ·) hp
    · cases hr' : after.receiveOneOf expected deadline with
      | ok k last =>
        rw [hr'] at hend
        exact ⟨hend.1, hend.2.1, hclear.append hend.2.2⟩
      | error e last =>
        rw [hr'] at hend
        obtain ⟨hheard, hend⟩ := hend
        refine ⟨?_, ?_⟩
        · rw [hclear.append_heard, hheard]
          rfl
        · rw [hclear.append_trouble]
          rcases hend with hend | ⟨he, hcalm, hl | hx⟩
          · exact .inl hend
          · exact .inr ⟨he, hcalm, .inl (hl.append _)⟩
          · exact .inr ⟨he, hcalm, .inr hx⟩
  | case4 ch he e after hr ht =>
    obtain ⟨reads, hreads, hp, htells⟩ := receive_record h deadline
    rw [hr] at hp htells
    obtain ⟨hheard, hcalm, hlate⟩ := htells
    rw [if_pos ht] at hcalm
    exact ⟨reads, [], hreads, nofun, hp, hheard, .inr ⟨rfl, hcalm, .inl (hlate ht)⟩⟩
  | case5 ch he e after hr ht =>
    obtain ⟨reads, hreads, hp, htells⟩ := receive_record h deadline
    rw [hr] at hp htells
    obtain ⟨hheard, htrouble, _⟩ := htells
    rw [if_neg ht] at htrouble
    exact ⟨reads, [], hreads, nofun, hp, hheard,
      .inl ⟨Bool.eq_false_iff.mpr ht, htrouble⟩⟩

end Channel
end DroidHost
