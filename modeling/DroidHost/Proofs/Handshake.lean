import DroidHost.Proofs.Reception
import DroidHost.Proofs.Wire

/-! The handshake as a dialogue. What the host is to say, and how the handshake ends, is told from
the device's messages alone. -/
namespace DroidHost
open Transfer

def Message.frames (m : Message) : List Bytes := m.writes.map fun w => w.2.of w.1

theorem Message.frames_of_empty {m : Message} (h : m.payload.isEmpty = true) :
    m.frames = [m.header] := by
  rw [frames, writes, if_pos (List.isEmpty_iff.mp h)]
  rfl

theorem Message.frames_of_payload {m : Message} (h : ¬ m.payload.isEmpty = true) :
    m.frames = [m.header, m.payload] := by
  have hp : m.payload ≠ [] := fun he => h (List.isEmpty_iff.mpr he)
  rw [frames, writes, if_neg hp]
  rfl

namespace Handshake

def IsToken (c : Message) : Prop := AuthType.ofWord? c.arg0 = some .token

instance (c : Message) : Decidable (IsToken c) := inferInstanceAs (Decidable (_ = _))

def challenges (heard : List Message) : List Message := heard.filter (·.command = .auth)

def signature (key : Signer) (c : Message) : Message :=
  ⟨.auth, AuthType.signature.word, 0, key.sign c.payload⟩

def offer (key : Signer) : Message := ⟨.auth, AuthType.publicKey.word, 0, key.publicKey ++ [0]⟩

/-- The keys sign one token each, and when they are used up the first one is offered. -/
def answers (first : Signer) : List Signer → List Message → List Message
  | _, [] => []
  | [], _ :: _ => [offer first]
  | key :: rest, c :: cs => if IsToken c then signature key c :: answers first rest cs else []

/-- All that the host has to say, given what it heard. -/
def letters (signers : List Signer) (settings : HostSettings) (heard : List Message) :
    List Message :=
  Channel.greeting settings ::
    match signers with
    | [] => []
    | first :: _ => answers first signers (challenges heard)

/-- Any challenge if there are no keys, else the first without a token. -/
def objection : List Signer → List Message → Option BridgeError
  | [], _ :: _ => some (.auth .noKeys)
  | signers, cs => ((cs.take signers.length).find? fun c => ¬ IsToken c).map fun c =>
      .protocol (.challengeType c.arg0)

def offered (signers : List Signer) (cs : List Message) : Bool :=
  !signers.isEmpty && signers.length < cs.length

/-- How long the device may take to answer, before the key is offered or since. -/
def patience (settings : HostSettings) (offered : Bool) : Nat :=
  if offered then settings.authTimeout else settings.timeout

def lapse (settings : HostSettings) (offered : Bool) : BridgeError :=
  if offered then .auth .keyNotAccepted else .timeout settings.timeout (.oneOf [.auth, .connect])

/-- What went wrong, or a challenge without an answer, or time. -/
def setback (signers : List Signer) (settings : HostSettings) (lately : List Transfer) :
    BridgeError :=
  let cs := challenges (heard lately)
  ((trouble lately).or (objection signers cs)).getD (lapse settings (offered signers cs))

def introduction (settings : HostSettings) (m : Message) : Option DeviceInfo :=
  DeviceInfo.parse m.payload m.arg0 (if m.arg1 = 0 then settings.maxData else m.arg1)

def verdict (signers : List Signer) (settings : HostSettings) (lately : List Transfer) :
    Except BridgeError DeviceInfo :=
  match (heard lately).find? (·.command = .connect) with
  | none => .error (setback signers settings lately)
  | some m =>
    match introduction settings m with
    | none => .error (.protocol (.malformedBanner m.payload))
    | some info => .ok info

theorem answers_mono (first : Signer) (keys : List Signer) {cs more : List Message}
    (h : cs <+: more) : answers first keys cs <+: answers first keys more := by
  induction cs generalizing keys more with
  | nil =>
    rw [answers]
    exact List.nil_prefix
  | cons c cs ih =>
    obtain ⟨rest, rfl⟩ := h
    cases keys with
    | nil => exact List.prefix_refl _
    | cons key keys =>
      rw [List.cons_append, answers, answers]
      split
      · exact (List.cons_prefix_cons).mpr ⟨rfl, ih keys (List.prefix_append _ _)⟩
      · exact List.prefix_refl _

theorem letters_mono (signers : List Signer) (settings : HostSettings) {heard more : List Message}
    (h : heard <+: more) : letters signers settings heard <+: letters signers settings more := by
  cases signers with
  | nil => exact List.prefix_refl _
  | cons first others =>
    exact (List.cons_prefix_cons).mpr ⟨rfl, answers_mono first _ (h.filter _)⟩

theorem objection_of_keys {signers : List Signer} (h : signers ≠ []) (cs : List Message) :
    objection signers cs = ((cs.take signers.length).find? fun c => ¬ IsToken c).map fun c =>
      .protocol (.challengeType c.arg0) := by
  cases signers with
  | nil => exact absurd rfl h
  | cons key rest => rfl

theorem letters_congr {signers : List Signer} {settings : HostSettings} {heard other : List Message}
    (h : challenges heard = challenges other) :
    letters signers settings heard = letters signers settings other := by
  unfold letters
  rw [h]

theorem letters_accepted {signers : List Signer} {settings : HostSettings} {m : Message}
    (hm : m.command = .connect) (ms : List Message) :
    letters signers settings (ms ++ [m]) = letters signers settings ms := by
  have hc : challenges (ms ++ [m]) = challenges ms := by
    rw [challenges, List.filter_append, List.filter_cons_of_neg (by rw [hm]; decide)]
    exact List.append_nil _
  exact letters_congr hc

theorem frames_mono {ms more : List Message} (h : ms <+: more) :
    ms.flatMap Message.frames <+: more.flatMap Message.frames := by
  obtain ⟨rest, rfl⟩ := h
  rw [List.flatMap_append]
  exact List.prefix_append _ _

/-- Nothing was written before it was due. -/
def Lawful (signers : List Signer) (settings : HostSettings) (lately : List Transfer) : Prop :=
  ∀ earlier, earlier <:+ lately →
    frames earlier <+: (letters signers settings (heard earlier)).flatMap Message.frames

theorem suffix_append_cases {earlier later lately : List Transfer}
    (h : earlier <:+ later ++ lately) :
    earlier <:+ lately ∨ ∃ part, part <:+ later ∧ earlier = part ++ lately := by
  rcases List.suffix_or_suffix_of_suffix h (List.suffix_append later lately) with hs | ⟨part, rfl⟩
  · exact .inl hs
  · obtain ⟨front, hf⟩ := h
    rw [← List.append_assoc] at hf
    exact .inr ⟨part, ⟨front, List.append_cancel_right hf⟩, rfl⟩

section
variable {signers : List Signer} {settings : HostSettings}

theorem Lawful.reads {lately reads : List Transfer} (h : Lawful signers settings lately)
    (hr : ∀ t ∈ reads, t.isRead = true) : Lawful signers settings (reads ++ lately) := by
  intro earlier he
  rcases suffix_append_cases he with hs | ⟨part, hp, rfl⟩
  · exact h earlier hs
  · have hpart : frames part = [] := frames_of_reads fun t ht => hr t (hp.subset ht)
    rw [frames_append, hpart, List.append_nil]
    exact (h lately (List.suffix_refl _)).trans
      (frames_mono (letters_mono signers settings (heard_mono part lately)))

theorem heard_of_silent {writes : List Transfer} (hw : inflow writes = [])
    (lately : List Transfer) : heard (writes ++ lately) = heard lately := by
  rw [heard, inflow_append, hw, List.append_nil, heard]

theorem Lawful.writes {lately writes : List Transfer} {said : List Message} {m : Message}
    (h : Lawful signers settings lately) (hs : frames lately = said.flatMap Message.frames)
    (hm : said ++ [m] <+: letters signers settings (heard lately)) (hw : inflow writes = [])
    (hf : frames writes <+: m.frames) : Lawful signers settings (writes ++ lately) := by
  intro earlier he
  rcases suffix_append_cases he with hs | ⟨part, ⟨front, rfl⟩, rfl⟩
  · exact h earlier hs
  · rw [inflow_append] at hw
    rw [heard_of_silent (List.append_eq_nil_iff.mp hw).1, frames_append, hs]
    rw [frames_append] at hf
    have hpart : frames part <+: m.frames := (List.prefix_append _ _).trans hf
    have hnext := frames_mono hm
    rw [List.flatMap_append, List.flatMap_singleton] at hnext
    exact ((List.prefix_append_right_inj _).mpr hpart).trans hnext

/-- Between two messages, with nothing gone wrong and no acceptance yet. -/
structure Talk (signers : List Signer) (settings : HostSettings) (start : Link)
    (ms said : List Message) (lately : List Transfer) (ch : Channel) : Prop where
  past : ch.link.past = lately ++ start.past
  fragment : ch.fragment = []
  later : start.now ≤ ch.now
  clear : Clear lately ms
  unaccepted : ∀ m ∈ ms, m.command ≠ .connect
  written : frames lately = said.flatMap Message.frames
  lawful : Lawful signers settings lately

structure Agreed (signers : List Signer) (settings : HostSettings) (start : Link)
    (lately : List Transfer) (reply : Message) (after : Channel) : Prop where
  past : after.link.past = lately ++ start.past
  lawful : Lawful signers settings lately
  accepted : reply.command = .connect
  last : ∃ before, heard lately = before ++ [reply] ∧ ∀ m ∈ before, m.command ≠ .connect
  whole : frames lately = (letters signers settings (heard lately)).flatMap Message.frames
  silent : ∀ earlier, earlier <:+ lately →
    (∃ m ∈ heard earlier, m.command = .connect) → frames lately = frames earlier

structure Broken (signers : List Signer) (settings : HostSettings) (start : Link)
    (lately : List Transfer) (e : BridgeError) (after : Channel) : Prop where
  past : after.link.past = lately ++ start.past
  lawful : Lawful signers settings lately
  unaccepted : ∀ m ∈ heard lately, m.command ≠ .connect
  whole : (∀ t ∈ lately, t.isUnsent = false) →
    frames lately = (letters signers settings (heard lately)).flatMap Message.frames
  reason : e = setback signers settings lately
  patient : trouble lately = none → objection signers (challenges (heard lately)) = none →
    Late lately ∨
      start.now + patience settings (offered signers (challenges (heard lately))) ≤ after.now

end

end Handshake

namespace Channel

theorem now_receiveOneOf (expected : List Command) (deadline : Deadline) (ch : Channel) :
    ch.now ≤ (final (ch.receiveOneOf expected deadline)).now := by
  fun_induction receiveOneOf expected deadline ch with
  | case1 => exact Nat.le_refl _
  | case2 ch _ m after hr _ => exact (receive_ok_weight hr).2
  | case3 ch _ m after hr _ ih => exact Nat.le_trans (receive_ok_weight hr).2 ih
  | case4 ch _ e after hr _ => exact (receive_error_cases hr).2.1
  | case5 ch _ e after hr _ => exact (receive_error_cases hr).2.1

theorem now_post (m : Message) (deadline : Deadline) (ch : Channel) :
    ch.now ≤ (final (post m deadline ch)).now := by
  have h₁ := (sendHeader_weight m deadline ch).2
  unfold post send
  cases hs : ch.sendHeader m deadline with
  | error f mid =>
    rw [hs] at h₁
    exact h₁
  | ok u mid =>
    rw [hs] at h₁
    have h₂ := (sendPayload_weight m deadline mid).2
    dsimp only
    cases hp : mid.sendPayload m deadline with
    | error f after =>
      rw [hp] at h₂
      exact Nat.le_trans h₁ h₂
    | ok u after =>
      rw [hp] at h₂
      exact Nat.le_trans h₁ h₂

theorem post_record (m : Message) (deadline : Deadline) (ch : Channel) :
    ∃ writes, (final (post m deadline ch)).link.past = writes ++ ch.link.past ∧
      inflow writes = [] ∧
      match post m deadline ch with
      | .ok _ after => after.fragment = ch.fragment ∧ frames writes = m.frames ∧
          Clear writes []
      | .error e _ => frames writes <+: m.frames ∧ trouble writes = some e ∧
          ∃ t ∈ writes, t.isUnsent = true := by
  have h₁ := put_record m.header (deadline.remaining ch.now) ch
  unfold post send sendHeader
  cases hs : ch.put m.header (deadline.remaining ch.now) with
  | error f mid =>
    rw [hs] at h₁
    refine ⟨[.unsent m.header _ f], h₁, rfl, List.nil_prefix, ?_, _, List.mem_singleton_self _, rfl⟩
    exact trouble_of_parse_nil Message.parse_nil
  | ok u mid =>
    rw [hs] at h₁
    obtain ⟨hpast, hfrag⟩ := h₁
    dsimp only
    unfold sendPayload
    by_cases he : m.payload.isEmpty = true
    · rw [if_pos he, Message.frames_of_empty he]
      exact ⟨[.sent m.header _], hpast, rfl, hfrag, rfl, Clear.sent _ _⟩
    · rw [if_neg he, Message.frames_of_payload he]
      have h₂ := put_record m.payload
        (deadline.remainingOrFloor Deadline.transferFloor mid.now) mid
      cases hp : mid.put m.payload (deadline.remainingOrFloor Deadline.transferFloor mid.now) with
      | error f after =>
        rw [hp, hpast] at h₂
        refine ⟨[.unsent m.payload _ f, .sent m.header _], h₂, rfl, ?_, ?_, _,
          List.mem_cons_self .., rfl⟩
        · exact ⟨[m.payload], rfl⟩
        · exact trouble_of_parse_nil Message.parse_nil
      | ok u after =>
        rw [hp, hpast] at h₂
        refine ⟨[.sent m.payload _, .sent m.header _], h₂.1, rfl, h₂.2.trans hfrag, rfl, ?_⟩
        exact (Clear.sent _ _).append (Clear.sent _ _)

end Channel

namespace Handshake

/-- Nothing is said whatever is heard while these commands are waited for. -/
def Idle (signers : List Signer) (settings : HostSettings) (ms said : List Message)
    (expected : List Command) (offer : Bool) : Prop :=
  ∀ skipped : List Message, (∀ m ∈ skipped, m.command ∉ expected) →
    letters signers settings (ms ++ skipped) = said ∧
      objection signers (challenges (ms ++ skipped)) = none ∧
      offered signers (challenges (ms ++ skipped)) = offer

/-- A part of the handshake ends in a channel of which something holds, or it has failed. -/
def Yields (signers : List Signer) (settings : HostSettings) (start : Link)
    (good : α → Channel → Prop) : EStateM.Result BridgeError Channel α → Prop
  | .ok a after => good a after
  | .error e after => ∃ since, Broken signers settings start since e after

section
variable {signers : List Signer} {settings : HostSettings} {start : Link}
  {ms said skipped : List Message} {m : Message} {lately reads : List Transfer}
  {ch after : Channel} {e : BridgeError} {offer : Bool}

theorem Yields.goOn {x : EStateM BridgeError Channel α} {f : α → EStateM BridgeError Channel β}
    {first : α → Channel → Prop} {P : EStateM.Result BridgeError Channel β → Prop}
    (hx : Yields signers settings start first (x ch))
    (hbroken : ∀ since e after, Broken signers settings start since e after → P (.error e after))
    (hf : ∀ a mid, first a mid → P (f a mid)) : P ((x >>= f) ch) := by
  change P (EStateM.bind x f ch)
  unfold EStateM.bind
  cases hr : x ch with
  | ok a mid =>
    rw [hr] at hx
    exact hf a mid hx
  | error e mid =>
    rw [hr] at hx
    obtain ⟨since, h⟩ := hx
    exact hbroken since e mid h

theorem Yields.bind {x : EStateM BridgeError Channel α} {f : α → EStateM BridgeError Channel β}
    {first : α → Channel → Prop} {good : β → Channel → Prop}
    (hx : Yields signers settings start first (x ch))
    (hf : ∀ a mid, first a mid → Yields signers settings start good (f a mid)) :
    Yields signers settings start good ((x >>= f) ch) :=
  hx.goOn (fun since _ _ h => ⟨since, h⟩) hf

theorem Talk.refuse (h : Talk signers settings start ms said lately ch)
    (hs : letters signers settings ms = said) (ho : objection signers (challenges ms) = some e) :
    Broken signers settings start lately e ch where
  past := h.past
  lawful := h.lawful
  unaccepted := by
    rw [h.clear.heard_eq]
    exact h.unaccepted
  whole _ := by rw [h.clear.heard_eq, hs, h.written]
  reason := by
    rw [setback, h.clear.calm, h.clear.heard_eq, ho]
    rfl
  patient _ hn := by
    rw [h.clear.heard_eq, ho] at hn
    cases hn

theorem Talk.post (h : Talk signers settings start ms said lately ch)
    (hm : letters signers settings ms = said ++ [m]) (deadline : Deadline) :
    Yields signers settings start
      (fun _ after => ∃ since, Talk signers settings start ms (said ++ [m]) since after)
      (Channel.post m deadline ch) := by
  have hnow := Channel.now_post m deadline ch
  obtain ⟨writes, hpast, hsilent, hend⟩ := Channel.post_record m deadline ch
  rw [h.past, ← List.append_assoc] at hpast
  have hall : letters signers settings (heard lately) = said ++ [m] := by
    rw [h.clear.heard_eq, hm]
  have hdue : said ++ [m] <+: letters signers settings (heard lately) :=
    hall ▸ List.prefix_refl _
  cases hr : Channel.post m deadline ch with
  | ok u after =>
    rw [hr] at hnow hpast hend
    obtain ⟨hfrag, hframes, hclear⟩ := hend
    refine ⟨writes ++ lately, hpast, hfrag.trans h.fragment, Nat.le_trans h.later hnow, ?_,
      h.unaccepted, ?_, ?_⟩
    · have hboth := h.clear.append hclear
      rw [List.append_nil] at hboth
      exact hboth
    · rw [frames_append, h.written, hframes, List.flatMap_append, List.flatMap_singleton]
    · exact h.lawful.writes h.written hdue hsilent (hframes ▸ List.prefix_refl _)
  | error e after =>
    rw [hr] at hpast hend
    obtain ⟨hframes, htrouble, t, ht, hunsent⟩ := hend
    have htrouble' : trouble (writes ++ lately) = some e := by
      rw [h.clear.append_trouble, htrouble]
    refine ⟨writes ++ lately, hpast, h.lawful.writes h.written hdue hsilent hframes, ?_, ?_, ?_, ?_⟩
    · rw [heard_of_silent hsilent, h.clear.heard_eq]
      exact h.unaccepted
    · intro hsent
      rw [hsent t (List.mem_append_left _ ht)] at hunsent
      cases hunsent
    · rw [setback, htrouble']
      rfl
    · intro hn
      rw [htrouble'] at hn
      cases hn

theorem Talk.written_after (h : Talk signers settings start ms said lately ch)
    (hreads : ∀ t ∈ reads, t.isRead = true) :
    frames (reads ++ lately) = said.flatMap Message.frames := by
  rw [frames_append, frames_of_reads hreads, List.append_nil, h.written]

theorem Talk.agreed (h : Talk signers settings start ms said lately ch)
    (hreads : ∀ t ∈ reads, t.isRead = true) (hpast : after.link.past = reads ++ lately ++ start.past)
    (hclear : Clear reads (skipped ++ [m])) (hm : m.command = .connect)
    (hopen : ∀ k ∈ ms ++ skipped, k.command ≠ .connect)
    (hsaid : letters signers settings (ms ++ skipped) = said) :
    Agreed signers settings start (reads ++ lately) m after := by
  have hheard : heard (reads ++ lately) = ms ++ skipped ++ [m] := by
    rw [(h.clear.append hclear).heard_eq, List.append_assoc]
  refine ⟨hpast, h.lawful.reads hreads, hm, ⟨ms ++ skipped, hheard, hopen⟩, ?_, ?_⟩
  · rw [hheard, letters_accepted hm, hsaid, h.written_after hreads]
  · rintro earlier he ⟨k, hk, hkc⟩
    rcases suffix_append_cases he with ⟨between, rfl⟩ | ⟨part, hp, rfl⟩
    · have hkms := (heard_mono between earlier).subset hk
      rw [h.clear.heard_eq] at hkms
      exact absurd hkc (h.unaccepted k hkms)
    · have hpart : ∀ t ∈ part, t.isRead = true := fun t ht => hreads t (hp.subset ht)
      rw [h.written_after hreads, h.written_after hpart]

theorem Talk.broken (h : Talk signers settings start ms said lately ch)
    (hidle : letters signers settings (ms ++ skipped) = said ∧
      objection signers (challenges (ms ++ skipped)) = none ∧
      offered signers (challenges (ms ++ skipped)) = offer)
    (hreads : ∀ t ∈ reads, t.isRead = true) (hpast : after.link.past = reads ++ lately ++ start.past)
    (hheard : heard reads = skipped) (hopen : ∀ k ∈ ms ++ skipped, k.command ≠ .connect)
    (hend : trouble reads = some e ∨ e = lapse settings offer ∧ trouble reads = none ∧
      (Late reads ∨ start.now + patience settings offer ≤ after.now)) :
    Broken signers settings start (reads ++ lately) e after := by
  obtain ⟨hsaid, hobjection, hoffer⟩ := hidle
  have hheard' : heard (reads ++ lately) = ms ++ skipped := by
    rw [h.clear.append_heard, hheard]
  have htrouble : trouble (reads ++ lately) = trouble reads := h.clear.append_trouble reads
  refine ⟨hpast, h.lawful.reads hreads, ?_, ?_, ?_, ?_⟩
  · rw [hheard']
    exact hopen
  · intro _
    rw [hheard', hsaid, h.written_after hreads]
  · rw [setback, htrouble, hheard', hobjection, hoffer]
    rcases hend with ht | ⟨rfl, ht, _⟩
    · rw [ht]
      rfl
    · rw [ht]
      rfl
  · intro hcalm _
    rw [htrouble] at hcalm
    rcases hend with ht | ⟨_, _, hlate | hover⟩
    · rw [ht] at hcalm
      cases hcalm
    · exact .inl (hlate.append _)
    · rw [hheard', hoffer]
      exact .inr hover

theorem Talk.wait (h : Talk signers settings start ms said lately ch) {expected : List Command}
    (hidle : Idle signers settings ms said expected offer) (hc : .connect ∈ expected)
    (deadline : Deadline) (hd : start.now ≤ deadline.start)
    (hb : deadline.budget = patience settings offer) :
    match ch.receiveOneOf expected deadline with
    | .ok m after =>
        (m.command = .connect ∧ ∃ since, Agreed signers settings start since m after) ∨
          (m.command ∈ expected ∧ m.command ≠ .connect ∧ ∃ since skipped,
            (∀ k ∈ skipped, k.command ∉ expected) ∧
              Talk signers settings start (ms ++ (skipped ++ [m])) said since after)
    | .error e after =>
        (e.isTimeout = false ∧ ∃ since, Broken signers settings start since e after) ∨
          (e = .timeout deadline.budget (.oneOf expected) ∧
            ∃ since, Broken signers settings start since (lapse settings offer) after) := by
  have hnow := Channel.now_receiveOneOf expected deadline ch
  obtain ⟨reads, skipped, hreads, hskipped, hpast, hend⟩ :=
    Channel.receiveOneOf_record expected deadline h.fragment
  rw [h.past, ← List.append_assoc] at hpast
  have hstage := hidle skipped hskipped
  have hopen : ∀ k ∈ ms ++ skipped, k.command ≠ .connect := by
    intro k hk hkc
    rcases List.mem_append.mp hk with hk | hk
    · exact h.unaccepted k hk hkc
    · exact hskipped k hk (hkc ▸ hc)
  cases hr : ch.receiveOneOf expected deadline with
  | ok m after =>
    rw [hr] at hnow hpast hend
    obtain ⟨hm, hfrag, hclear⟩ := hend
    by_cases hcm : m.command = .connect
    · exact .inl ⟨hcm, reads ++ lately, h.agreed hreads hpast hclear hcm hopen hstage.1⟩
    · refine .inr ⟨hm, hcm, reads ++ lately, skipped, hskipped, hpast, hfrag,
        Nat.le_trans h.later hnow, h.clear.append hclear, ?_, h.written_after hreads,
        h.lawful.reads hreads⟩
      intro k hk
      rw [← List.append_assoc] at hk
      rcases List.mem_append.mp hk with hk | hk
      · exact hopen k hk
      · cases List.mem_singleton.mp hk
        exact hcm
  | error e after =>
    rw [hr] at hpast hend
    obtain ⟨hheard, ⟨he, ht⟩ | ⟨he, ht, hover⟩⟩ := hend
    · exact .inl ⟨he, reads ++ lately, h.broken hstage hreads hpast hheard hopen (.inl ht)⟩
    · refine .inr ⟨he, reads ++ lately, h.broken hstage hreads hpast hheard hopen
        (.inr ⟨rfl, ht, ?_⟩)⟩
      rcases hover with hlate | hexpired
      · exact .inl hlate
      · rw [Deadline.hasExpired_iff, hb] at hexpired
        exact .inr (Nat.le_trans (Nat.add_le_add_right hd _) hexpired)

theorem filter_skipped (h : ∀ m ∈ skipped, m.command ∉ [Command.auth, .connect]) :
    skipped.filter (·.command = .auth) = [] := by
  rw [List.filter_eq_nil_iff]
  intro m hm hc
  apply h m hm
  rw [of_decide_eq_true hc]
  exact List.mem_cons_self ..

def Answered (signers : List Signer) (settings : HostSettings) (start : Link)
    (cs said : List Message) (m : Message) (after : Channel) : Prop :=
  (m.command = .connect ∧ ∃ since, Agreed signers settings start since m after) ∨
    (m.command = .auth ∧ ∃ since ms, challenges ms = cs ++ [m] ∧
      Talk signers settings start ms said since after)

theorem Talk.waitForAnswer (h : Talk signers settings start ms said lately ch)
    (hs : letters signers settings ms = said) (ho : objection signers (challenges ms) = none)
    (hf : offered signers (challenges ms) = false) :
    Yields signers settings start (Answered signers settings start (challenges ms) said)
      (ch.receiveOneOf [.auth, .connect] ⟨start.now, settings.timeout⟩) := by
  have hidle : Idle signers settings ms said [.auth, .connect] false := by
    intro skipped hskipped
    have hsame : challenges (ms ++ skipped) = challenges ms := by
      rw [challenges, List.filter_append, filter_skipped hskipped, List.append_nil, challenges]
    rw [letters_congr hsame, hsame]
    exact ⟨hs, ho, hf⟩
  have hw := h.wait hidle (List.mem_cons_of_mem _ (List.mem_cons_self ..))
    ⟨start.now, settings.timeout⟩ (Nat.le_refl _) rfl
  cases hr : ch.receiveOneOf [.auth, .connect] ⟨start.now, settings.timeout⟩ with
  | ok m after =>
    rw [hr] at hw
    rcases hw with hagreed | ⟨hexpected, hm, since, skipped, hskipped, htalk⟩
    · exact .inl hagreed
    · have hauth : m.command = .auth := by
        rcases List.mem_cons.mp hexpected with ha | hc
        · exact ha
        · exact absurd (List.mem_singleton.mp hc) hm
      have hone : [m].filter (·.command = .auth) = [m] :=
        List.filter_cons_of_pos (decide_eq_true hauth)
      refine .inr ⟨hauth, since, _, ?_, htalk⟩
      rw [challenges, List.filter_append, List.filter_append, filter_skipped hskipped, hone,
        List.nil_append, challenges]
  | error e after =>
    rw [hr] at hw
    rcases hw with ⟨_, hbroken⟩ | ⟨rfl, hbroken⟩
    · exact hbroken
    · exact hbroken

end

/-- These keys are left after the others have each signed one of these challenges. -/
structure Turn (signers rest : List Signer) (cs : List Message) : Prop where
  used : ∃ done, signers = done ++ rest ∧ done.length = cs.length
  tokens : ∀ c ∈ cs, IsToken c

namespace Turn
variable {signers rest : List Signer} {cs : List Message}

theorem initial (signers : List Signer) : Turn signers signers [] := ⟨⟨[], rfl, rfl⟩, nofun⟩

theorem next {key : Signer} {c : Message} (h : Turn signers (key :: rest) cs) (hc : IsToken c) :
    Turn signers rest (cs ++ [c]) := by
  obtain ⟨done, hdone, hlen⟩ := h.used
  refine ⟨⟨done ++ [key], ?_, ?_⟩, ?_⟩
  · rw [hdone, List.append_assoc]
    rfl
  · rw [List.length_append, List.length_append, hlen]
    rfl
  · intro k hk
    rcases List.mem_append.mp hk with hk | hk
    · exact h.tokens k hk
    · cases List.mem_singleton.mp hk
      exact hc

theorem answers (h : Turn signers rest cs) (first : Signer) (more : List Message) :
    answers first signers (cs ++ more) = answers first signers cs ++ answers first rest more := by
  obtain ⟨⟨done, rfl, hlen⟩, htokens⟩ := h
  induction cs generalizing done with
  | nil =>
    cases List.length_eq_zero_iff.mp hlen
    rw [List.nil_append, List.nil_append, Handshake.answers]
    rfl
  | cons c cs ih =>
    cases done with
    | nil => cases hlen
    | cons key done =>
      obtain ⟨hc, hcs⟩ := List.forall_mem_cons.mp htokens
      have hi := ih hcs done (Nat.succ.inj hlen)
      simp only [List.cons_append, Handshake.answers, if_pos hc]
      exact congrArg _ hi

theorem objection (h : Turn signers rest cs) (hs : signers ≠ []) (more : List Message) :
    objection signers (cs ++ more) = ((more.take rest.length).find? fun c => ¬ IsToken c).map
      fun c => .protocol (.challengeType c.arg0) := by
  obtain ⟨⟨done, rfl, hlen⟩, htokens⟩ := h
  have htake : (cs ++ more).take (done ++ rest).length = cs ++ more.take rest.length := by
    rw [List.length_append, hlen, List.take_length_add_append]
  have hnone : (cs.find? fun c => ¬ IsToken c) = none := by
    rw [List.find?_eq_none]
    exact fun c hc hn => of_decide_eq_true hn (htokens c hc)
  rw [objection_of_keys hs, htake, List.find?_append, hnone]
  rfl

theorem offered (h : Turn signers rest cs) (hs : signers ≠ []) (more : List Message) :
    offered signers (cs ++ more) = decide (rest.length < more.length) := by
  obtain ⟨⟨done, rfl, hlen⟩, _⟩ := h
  have hempty : (done ++ rest).isEmpty = false := List.isEmpty_eq_false_iff.mpr hs
  rw [Handshake.offered, hempty, List.length_append, List.length_append, hlen]
  simp only [Bool.not_false, Bool.true_and, Nat.add_lt_add_iff_left]

theorem letters {first : Signer} {others : List Signer} (h : Turn (first :: others) rest cs)
    (settings : HostSettings) {ms more : List Message} (hc : challenges ms = cs ++ more) :
    letters (first :: others) settings ms =
      Channel.greeting settings :: Handshake.answers first (first :: others) cs ++
        Handshake.answers first rest more := by
  rw [Handshake.letters, hc, h.answers, List.cons_append]

theorem objection_head {key : Signer} {c : Message} (h : Turn signers (key :: rest) cs)
    (hc : ¬ IsToken c) :
    Handshake.objection signers (cs ++ [c]) = some (.protocol (.challengeType c.arg0)) := by
  obtain ⟨done, hdone, _⟩ := h.used
  have hs : signers ≠ [] := by
    rw [hdone]
    exact List.append_ne_nil_of_right_ne_nil _ (List.cons_ne_nil _ _)
  have hfind : ([c].find? fun c => ¬ IsToken c) = some c :=
    List.find?_cons_of_pos (decide_eq_true hc)
  rw [h.objection hs, List.length_cons, List.take_succ_cons, List.take_nil, hfind]
  rfl

theorem pending (h : Turn signers rest cs) (hs : signers ≠ []) :
    Handshake.objection signers cs = none ∧ Handshake.offered signers cs = false := by
  have ho := h.objection hs []
  have hf := h.offered hs []
  rw [List.append_nil] at ho hf
  rw [ho, hf, List.take_nil]
  exact ⟨rfl, decide_eq_false (Nat.not_lt_zero _)⟩

theorem used_up (h : Turn signers [] cs) (hs : signers ≠ []) (c : Message) (more : List Message) :
    Handshake.objection signers (cs ++ c :: more) = none ∧
      Handshake.offered signers (cs ++ c :: more) = true := by
  rw [h.objection hs, h.offered hs]
  exact ⟨rfl, decide_eq_true (Nat.succ_pos _)⟩

end Turn

/-- These keys are left, and the challenge for the next one has come. -/
def Challenged (first : Signer) (others : List Signer) (settings : HostSettings) (start : Link)
    (rest : List Signer) (c : Message) (ch : Channel) : Prop :=
  ∃ ms lately cs, Turn (first :: others) rest cs ∧ challenges ms = cs ++ [c] ∧
    Talk (first :: others) settings start ms
      (Channel.greeting settings :: answers first (first :: others) cs) lately ch

section
variable {first : Signer} {others rest : List Signer} {settings : HostSettings} {start : Link}
  {c : Message} {ch : Channel}

theorem Challenged.tryKeys (h : Challenged first others settings start rest c ch) :
    Yields (first :: others) settings start
      (fun found after => match found with
        | some reply => ∃ since, Agreed (first :: others) settings start since reply after
        | none => ∃ c, Challenged first others settings start [] c after)
      (Channel.tryKeys ⟨start.now, settings.timeout⟩ rest c ch) := by
  -- On the keys that are left; what the others have signed is in `Challenged`.
  induction rest generalizing c ch with
  | nil => exact ⟨c, h⟩
  | cons key rest ih =>
    obtain ⟨ms, lately, cs, hturn, hcs, htalk⟩ := h
    have hletters := hturn.letters settings hcs
    unfold Channel.tryKeys
    dsimp only
    split
    · next hc =>
      have hc : ¬ IsToken c := hc
      rw [answers, if_neg hc, List.append_nil] at hletters
      exact ⟨lately, htalk.refuse hletters (hcs ▸ hturn.objection_head hc)⟩
    · next hc =>
      have hc : IsToken c := Decidable.not_not.mp hc
      have hnext := hturn.next hc
      rw [answers, if_pos hc, answers] at hletters
      refine Yields.bind (htalk.post hletters ⟨start.now, settings.timeout⟩) ?_
      rintro _ mid ⟨since, htalk⟩
      obtain ⟨ho, hf⟩ := hnext.pending (List.cons_ne_nil _ _)
      rw [← hcs] at ho hf
      refine Yields.bind (htalk.waitForAnswer hletters ho hf) ?_
      rintro reply after (⟨hm, hagreed⟩ | ⟨hm, since, more, hmore, htalk⟩)
      · rw [if_pos hm]
        exact hagreed
      · rw [if_neg (by rw [hm]; decide)]
        apply ih
        refine ⟨more, since, cs ++ [c], hnext, hcs ▸ hmore, ?_⟩
        rw [hturn.answers, answers, if_pos hc, answers, ← List.cons_append]
        exact htalk

theorem Challenged.offerKey (h : Challenged first others settings start [] c ch) :
    Yields (first :: others) settings start
      (fun reply after => ∃ since, Agreed (first :: others) settings start since reply after)
      (Channel.offerKey first settings ⟨start.now, settings.timeout⟩ ch) := by
  obtain ⟨ms, lately, cs, hturn, hcs, htalk⟩ := h
  have hletters := hturn.letters settings hcs
  rw [answers] at hletters
  unfold Channel.offerKey
  refine Yields.bind (htalk.post hletters ⟨start.now, settings.timeout⟩) ?_
  rintro _ mid ⟨since, htalk⟩
  -- Further challenges change nothing: the key is offered once and for all.
  have hidle : Idle (first :: others) settings ms
      (Channel.greeting settings :: answers first (first :: others) cs ++ [offer first])
      [.connect] true := by
    intro skipped _
    have hmore : challenges (ms ++ skipped) = cs ++ c :: challenges skipped := by
      rw [challenges, List.filter_append]
      change challenges ms ++ challenges skipped = _
      rw [hcs, List.append_assoc]
      rfl
    refine ⟨?_, ?_⟩
    · rw [hturn.letters settings hmore, answers]
    · rw [hmore]
      exact hturn.used_up (List.cons_ne_nil _ _) c _
  have hw := htalk.wait hidle (List.mem_singleton_self _) ⟨mid.now, settings.authTimeout⟩
    htalk.later rfl
  change Yields _ _ _ _ (EStateM.tryCatch _ _ mid)
  unfold EStateM.tryCatch
  dsimp only
  cases hr : mid.receiveOneOf [.connect] ⟨mid.now, settings.authTimeout⟩ with
  | ok reply after =>
    rw [hr] at hw
    rcases hw with ⟨_, hagreed⟩ | ⟨hm, hn, _⟩
    · exact hagreed
    · exact absurd (List.mem_singleton.mp hm) hn
  | error e after =>
    rw [hr] at hw
    rcases hw with ⟨he, hbroken⟩ | ⟨rfl, hbroken⟩
    · cases e with
      | timeout => cases he
      | _ => exact hbroken
    · exact hbroken

end

section
variable {signers : List Signer} {settings : HostSettings} {start : Link}

theorem Talk.authenticate {ms : List Message} {c : Message} {lately : List Transfer} {ch : Channel}
    (h : Talk signers settings start ms [Channel.greeting settings] lately ch)
    (hc : challenges ms = [c]) :
    Yields signers settings start
      (fun reply after => ∃ since, Agreed signers settings start since reply after)
      (Channel.authenticate signers settings ⟨start.now, settings.timeout⟩ c ch) := by
  cases signers with
  | nil =>
    have ho : objection [] (challenges ms) = some (.auth .noKeys) := by rw [hc]; rfl
    exact ⟨lately, h.refuse rfl ho⟩
  | cons first others =>
    have hfirst : Challenged first others settings start (first :: others) c ch := by
      refine ⟨ms, lately, [], .initial _, hc, ?_⟩
      rw [answers]
      exact h
    unfold Channel.authenticate
    refine Yields.bind hfirst.tryKeys ?_
    intro found mid hfound
    cases found with
    | some reply => exact hfound
    | none =>
      obtain ⟨last, hlast⟩ := hfound
      exact hlast.offerKey

def accept (settings : HostSettings) (reply : Message) : EStateM BridgeError Channel DeviceInfo :=
  match introduction settings reply with
  | some info => pure info
  | none => throw (.protocol (.malformedBanner reply.payload))

/-- The handshake has failed on the way, or an acceptance was read. -/
def Concluded (signers : List Signer) (settings : HostSettings) (start : Link)
    (r : EStateM.Result BridgeError Channel DeviceInfo) : Prop :=
  (∃ since e after, Broken signers settings start since e after ∧ r = .error e after) ∨
    ∃ since reply after, Agreed signers settings start since reply after ∧
      r = accept settings reply after

theorem connect_concluded (signers : List Signer) (settings : HostSettings) (link : Link) :
    Concluded signers settings link (Channel.connect signers settings { link := link }) := by
  have hbroken (since : List Transfer) (e : BridgeError) (after : Channel)
      (h : Broken signers settings link since e after) :
      Concluded signers settings link (.error e after) := .inl ⟨since, e, after, h, rfl⟩
  have hstart : Talk signers settings link [] [] [] { link := link } := by
    refine ⟨rfl, rfl, Nat.le_refl _, Clear.nil, nofun, rfl, ?_⟩
    intro earlier he
    rw [List.suffix_nil.mp he]
    exact List.nil_prefix
  have hdue : letters signers settings [] = [] ++ [Channel.greeting settings] := by
    cases signers with
    | nil => rfl
    | cons first others => rfl
  have ho : objection signers (challenges []) = none := by
    cases signers with
    | nil => rfl
    | cons first others => rfl
  have hf : offered signers (challenges []) = false := Bool.and_false _
  change Concluded signers settings link ((Channel.post _ ⟨link.now, settings.timeout⟩ >>= _) _)
  refine (hstart.post hdue ⟨link.now, settings.timeout⟩).goOn hbroken ?_
  rintro _ mid ⟨since, htalk⟩
  refine (htalk.waitForAnswer hdue ho hf).goOn hbroken ?_
  rintro reply after (⟨hm, since, hagreed⟩ | ⟨hm, since, ms, hms, htalk⟩)
  · rw [if_neg (by rw [hm]; decide)]
    exact .inr ⟨since, reply, after, hagreed, rfl⟩
  · rw [if_pos hm]
    refine (htalk.authenticate hms).goOn hbroken ?_
    rintro accepted last ⟨since, hagreed⟩
    exact .inr ⟨since, accepted, last, hagreed, rfl⟩

theorem Broken.verdict {since : List Transfer} {e : BridgeError} {after : Channel}
    (h : Broken signers settings start since e after) :
    verdict signers settings since = .error e := by
  have hnone : (heard since).find? (·.command = .connect) = none := by
    rw [List.find?_eq_none]
    exact fun m hm hc => h.unaccepted m hm (of_decide_eq_true hc)
  rw [Handshake.verdict, hnone, h.reason]

theorem final_accept (settings : HostSettings) (reply : Message) (after : Channel) :
    final (accept settings reply after) = after := by
  unfold accept
  cases introduction settings reply with
  | none => rfl
  | some info => rfl

theorem accept_ok (settings : HostSettings) (reply : Message) (after : Channel) :
    (∃ info, outcome (accept settings reply after) = .ok info) ↔
      ∃ info, introduction settings reply = some info := by
  unfold accept
  cases introduction settings reply with
  | none => exact ⟨nofun, nofun⟩
  | some info => exact ⟨fun _ => ⟨info, rfl⟩, fun _ => ⟨info, rfl⟩⟩

theorem Agreed.find_reply {since : List Transfer} {reply : Message} {after : Channel}
    (h : Agreed signers settings start since reply after) :
    (heard since).find? (·.command = .connect) = some reply := by
  obtain ⟨before, hheard, hopen⟩ := h.last
  have hnone : before.find? (·.command = .connect) = none := by
    rw [List.find?_eq_none]
    exact fun m hm hc => hopen m hm (of_decide_eq_true hc)
  rw [hheard, List.find?_append, hnone, Option.none_or]
  exact List.find?_cons_of_pos (decide_eq_true h.accepted)

theorem Agreed.verdict {since : List Transfer} {reply : Message} {after : Channel}
    (h : Agreed signers settings start since reply after) :
    verdict signers settings since = outcome (accept settings reply after) := by
  rw [Handshake.verdict, h.find_reply]
  unfold accept
  dsimp only
  cases introduction settings reply with
  | none => rfl
  | some info => rfl

end

end Handshake

theorem DeviceInfo.parse_iff (payload : Bytes) (version maxData : UInt32) :
    (∃ info, DeviceInfo.parse payload version maxData = some info) ↔
      ∃ systemType serial banner, Text.dropEnd (· = '\x00') (Text.Utf8.chars payload) =
        systemType ++ ':' :: (serial ++ ':' :: banner) := by
  constructor
  · rintro ⟨info, h⟩
    exact ⟨_, _, _, (DeviceInfo.parse_eq_some.mp h).1⟩
  · rintro ⟨systemType, serial, banner, he⟩
    apply Option.ne_none_iff_exists'.mp
    rw [ne_eq, DeviceInfo.parse_eq_none, ← Text.count_dropEnd (p := (· = '\x00')) (by decide), he,
      List.count_append, List.count_cons_self, List.count_append, List.count_cons_self]
    omega

open Handshake

/-- The handshake, for all keys and whatever the link brings: at every moment what was written is
the beginning of what is due, it ends as the verdict over its transfers says, and it succeeds
exactly if the device accepts in three parts. -/
theorem handshake_conforms (signers : List Signer) (settings : HostSettings) (link : Link) :
    let r := Channel.connect signers settings { link := link }
    ∃ lately, (final r).link.past = lately ++ link.past ∧
      (∀ earlier, earlier <:+ lately →
        frames earlier <+: (letters signers settings (heard earlier)).flatMap Message.frames ∧
          ((∃ m ∈ heard earlier, m.command = .connect) → frames lately = frames earlier)) ∧
      ((∀ t ∈ lately, t.isUnsent = false) →
        frames lately = (letters signers settings (heard lately)).flatMap Message.frames) ∧
      (∀ m ∈ (heard lately).dropLast, m.command ≠ .connect) ∧
      outcome r = verdict signers settings lately ∧
      ((∀ m ∈ heard lately, m.command ≠ .connect) → trouble lately = none →
        objection signers (challenges (heard lately)) = none →
        Late lately ∨ link.now +
          patience settings (offered signers (challenges (heard lately))) ≤ (final r).now) ∧
      ((∃ info, outcome r = .ok info) ↔ ∃ m ∈ heard lately, m.command = .connect ∧
        ∃ systemType serial banner, Text.dropEnd (· = '\x00') (Text.Utf8.chars m.payload) =
          systemType ++ ':' :: (serial ++ ':' :: banner)) := by
  intro r
  rcases connect_concluded signers settings link with ⟨since, e, after, h, hr⟩ |
    ⟨since, reply, after, h, hr⟩
  · have hr : r = .error e after := hr
    rw [hr]
    refine ⟨since, h.past, ?_, h.whole, ?_, h.verdict.symm, fun _ => h.patient, ?_⟩
    · intro earlier he
      refine ⟨h.lawful earlier he, ?_⟩
      rintro ⟨m, hm, hc⟩
      obtain ⟨between, rfl⟩ := he
      exact absurd hc (h.unaccepted m ((heard_mono between earlier).subset hm))
    · exact fun m hm => h.unaccepted m ((List.dropLast_prefix _).subset hm)
    · constructor
      · rintro ⟨info, hi⟩
        cases hi
      · rintro ⟨m, hm, hc, _⟩
        exact absurd hc (h.unaccepted m hm)
  · have hr : r = accept settings reply after := hr
    obtain ⟨before, hheard, hopen⟩ := h.last
    rw [hr, final_accept]
    refine ⟨since, h.past, ?_, fun _ => h.whole, ?_, h.verdict.symm, ?_, ?_⟩
    · exact fun earlier he => ⟨h.lawful earlier he, h.silent earlier he⟩
    · rw [hheard, List.dropLast_concat]
      exact hopen
    · intro hn
      rw [hheard] at hn
      exact absurd h.accepted (hn reply (List.mem_append_right _ (List.mem_singleton_self _)))
    · rw [accept_ok, introduction, DeviceInfo.parse_iff, hheard]
      constructor
      · intro hp
        exact ⟨reply, List.mem_append_right _ (List.mem_singleton_self _), h.accepted, hp⟩
      · rintro ⟨m, hm, hc, hp⟩
        rcases List.mem_append.mp hm with hm | hm
        · exact absurd hc (hopen m hm)
        · cases List.mem_singleton.mp hm
          exact hp

example :
    let key : Signer := ⟨fun token => 9 :: token, [7]⟩
    let link : Link := { inbound := [.chunk (Message.encode ⟨.auth, 1, 0, [5]⟩),
      .chunk (Message.encode ⟨.okay, 3, 4, []⟩), .chunk (Message.encode ⟨.auth, 1, 0, [6]⟩)] }
    let r := Channel.connect [key] {} { link := link }
    outcome r = .error (.auth .keyNotAccepted) ∧
      frames (final r).link.past = [Channel.greeting {}, ⟨.auth, 2, 0, [9, 5]⟩,
        ⟨.auth, 3, 0, [7, 0]⟩].flatMap Message.frames := by
  decide +kernel

end DroidHost
