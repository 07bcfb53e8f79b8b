import DroidHost.Bridge.Message.Codec
import DroidHost.Link.Basic
import DroidHost.Outcome
import DroidHost.Time.Deadline

/-! Whole messages over a link. What is read of a message when the time runs out stays in the
channel, and the next read goes on from there. -/
namespace DroidHost

structure Channel where
  link : Link
  /-- The beginning of a message whose rest has not come yet. -/
  fragment : Bytes := []
  deriving DecidableEq, Repr

namespace Channel

def now (ch : Channel) : Nat := ch.link.now

/-- What is left to arrive or already here in part. -/
def weight (ch : Channel) : Nat := ch.link.weight + ch.fragment.length

/-- Once a message has started to arrive its rest gets at least the transfer floor. -/
def allowance (ch : Channel) (deadline : Deadline) : Nat :=
  if ch.fragment.isEmpty then deadline.remaining ch.now
  else deadline.remainingOrFloor Deadline.transferFloor ch.now

theorem remaining_le_allowance (ch : Channel) (deadline : Deadline) :
    deadline.remaining ch.now ≤ ch.allowance deadline := by
  unfold allowance
  split
  · exact Nat.le_refl _
  · exact deadline.remaining_le_remainingOrFloor _ _

/-- An empty read means that the other side is gone. -/
def fill (target : Nat) (deadline : Deadline) (ch : Channel) :
    EStateM.Result BridgeError Channel Unit :=
  if target ≤ ch.fragment.length then .ok () ch
  else
    match ch.link.read (target - ch.fragment.length) (ch.allowance deadline) with
    | .error f link => .error (.link f) { ch with link := link }
    | .ok [] link => .error (.protocol .hungUp) { ch with link := link }
    | .ok (b :: bytes) link =>
      fill target deadline { link := link, fragment := ch.fragment ++ b :: bytes }
termination_by target - ch.fragment.length
decreasing_by
  simp only [List.length_append, List.length_cons]
  omega

def gather (deadline : Deadline) (ch : Channel) : EStateM.Result BridgeError Channel Message :=
  match ch.fill Header.size deadline with
  | .error e ch => .error e ch
  | .ok _ ch =>
    match Header.decode (ch.fragment.take Header.size) with
    | .error e => .error e ch
    | .ok h =>
      match ch.fill (Header.size + h.length.toNat) deadline with
      | .error e ch => .error e ch
      | .ok _ ch =>
        match h.finish (ch.fragment.drop Header.size) with
        | .error e => .error e ch
        | .ok m => .ok m ch

def restart (ch : Channel) : Channel := { ch with fragment := [] }

def receive (deadline : Deadline) : EStateM BridgeError Channel Message := fun ch =>
  match ch.gather deadline with
  | .ok m ch => .ok m ch.restart
  -- Only when time ran out can what follows still belong to the fragment.
  | .error e ch => .error e (if e.isTimeout then ch else ch.restart)

def put (bytes : Bytes) (budget : Nat) : EStateM LinkFault Channel Unit := fun ch =>
  match ch.link.write bytes budget with
  | .error f link => .error f { ch with link := link }
  | .ok _ link => .ok () { ch with link := link }

def sendHeader (m : Message) (deadline : Deadline) : EStateM LinkFault Channel Unit := fun ch =>
  ch.put m.header (deadline.remaining ch.now)

/-- An empty payload is not written. -/
def sendPayload (m : Message) (deadline : Deadline) : EStateM LinkFault Channel Unit := fun ch =>
  if m.payload.isEmpty then .ok () ch
  else ch.put m.payload (deadline.remainingOrFloor Deadline.transferFloor ch.now)

def send (m : Message) (deadline : Deadline) : EStateM LinkFault Channel Unit := fun ch =>
  match ch.sendHeader m deadline with
  | .error f ch => .error f ch
  | .ok _ ch => ch.sendPayload m deadline

def close (ch : Channel) : Channel := { ch with link := ch.link.close }

theorem fill_ok {target : Nat} {deadline : Deadline} {ch after : Channel} {u : Unit}
    (h : fill target deadline ch = .ok u after) :
    after.weight ≤ ch.weight ∧ ch.now ≤ after.now ∧ target ≤ after.fragment.length := by
  fun_induction fill target deadline ch with
  | case1 ch hle =>
    cases h
    exact ⟨Nat.le_refl _, Nat.le_refl _, hle⟩
  | case2 => cases h
  | case3 => cases h
  | case4 ch hle b bytes link hr ih =>
    obtain ⟨hw, hn, ht⟩ := ih h
    obtain ⟨hlw, hln, _⟩ := Link.read_ok_weight hr
    simp only [weight, now, List.length_append] at hw hn hlw hln ⊢
    exact ⟨by omega, by omega, ht⟩

theorem fill_error {target : Nat} {deadline : Deadline} {ch after : Channel} {e : BridgeError}
    (h : fill target deadline ch = .error e after) :
    after.weight ≤ ch.weight ∧ ch.now ≤ after.now ∧
      (e.isTimeout = true → after.weight < ch.weight ∨ deadline.hasExpired after.now = true) := by
  fun_induction fill target deadline ch with
  | case1 => cases h
  | case2 ch hle f link hr =>
    cases h
    obtain ⟨hn, hw, hc⟩ := Link.read_error_cases hr
    refine ⟨Nat.add_le_add_right hw _, hn, fun ht => ?_⟩
    rcases hc with rfl | hlt | hb
    · cases ht
    · exact .inl (Nat.add_lt_add_right hlt _)
    · refine .inr ?_
      simp only [now, hb]
      exact Deadline.hasExpired_of_remaining_le (ch.remaining_le_allowance deadline)
  | case3 ch hle link hr =>
    cases h
    obtain ⟨hlw, hln, _⟩ := Link.read_ok_weight hr
    exact ⟨Nat.add_le_add_right hlw _, hln, fun ht => nomatch ht⟩
  | case4 ch hle b bytes link hr ih =>
    obtain ⟨hw, hn, ht⟩ := ih h
    obtain ⟨hlw, hln, _⟩ := Link.read_ok_weight hr
    simp only [weight, now, List.length_append] at hw hn hlw hln ht ⊢
    refine ⟨by omega, by omega, fun he => ?_⟩
    rcases ht he with hlt | hd
    · exact .inl (by omega)
    · exact .inr hd

theorem gather_ok {deadline : Deadline} {ch after : Channel} {m : Message}
    (h : ch.gather deadline = .ok m after) :
    after.weight ≤ ch.weight ∧ ch.now ≤ after.now ∧
      Header.size + m.payload.length ≤ after.fragment.length := by
  unfold gather at h
  split at h
  · cases h
  · next hf =>
    split at h
    · cases h
    · split at h
      · cases h
      · next hg =>
        split at h
        · cases h
        · next hd =>
          cases h
          have h₁ := fill_ok hf
          have h₂ := fill_ok hg
          rw [Header.payload_of_finish hd, List.length_drop]
          omega

theorem gather_error {deadline : Deadline} {ch after : Channel} {e : BridgeError}
    (h : ch.gather deadline = .error e after) :
    after.weight ≤ ch.weight ∧ ch.now ≤ after.now ∧
      (e.isTimeout = true → after.weight < ch.weight ∨ deadline.hasExpired after.now = true) := by
  unfold gather at h
  split at h
  · next hf =>
    cases h
    exact fill_error hf
  · next hf =>
    have h₁ := fill_ok hf
    split at h
    · next hd =>
      cases h
      exact ⟨h₁.1, h₁.2.1, fun ht => by rw [Header.isTimeout_of_decode hd] at ht; cases ht⟩
    · split at h
      · next hg =>
        cases h
        have h₂ := fill_error hg
        refine ⟨by omega, by omega, fun ht => ?_⟩
        rcases h₂.2.2 ht with h | h
        · exact .inl (by omega)
        · exact .inr h
      · next hg =>
        have h₂ := fill_ok hg
        split at h
        · next hd =>
          cases h
          exact ⟨by omega, by omega, fun ht => by
            rw [Header.isTimeout_of_finish hd] at ht; cases ht⟩
        · cases h

theorem weight_restart (ch : Channel) : ch.restart.weight + ch.fragment.length = ch.weight := rfl

theorem receive_ok_weight {deadline : Deadline} {ch after : Channel} {m : Message}
    (h : ch.receive deadline = .ok m after) :
    after.weight + Header.size + m.payload.length ≤ ch.weight ∧ ch.now ≤ after.now := by
  unfold receive at h
  split at h
  · next mid hg =>
    cases h
    have hm := gather_ok hg
    have := mid.weight_restart
    exact ⟨by omega, hm.2.1⟩
  · cases h

theorem receive_error_cases {deadline : Deadline} {ch after : Channel} {e : BridgeError}
    (h : ch.receive deadline = .error e after) :
    after.weight ≤ ch.weight ∧ ch.now ≤ after.now ∧
      (e.isTimeout = true → after.weight < ch.weight ∨ deadline.hasExpired after.now = true) := by
  unfold receive at h
  split at h
  · cases h
  · next mid hg =>
    cases h
    have hm := gather_error hg
    split
    · exact hm
    · next ht =>
      have := mid.weight_restart
      exact ⟨by omega, hm.2.1, fun hb => absurd hb ht⟩

theorem outcome_receive (deadline : Deadline) (ch : Channel) :
    outcome (ch.receive deadline) = outcome (ch.gather deadline) := by
  unfold receive
  cases ch.gather deadline with
  | ok m after => rfl
  | error e after => rfl

theorem link_receive (deadline : Deadline) (ch : Channel) :
    (final (ch.receive deadline)).link = (final (ch.gather deadline)).link := by
  unfold receive
  cases ch.gather deadline with
  | ok m after => rfl
  | error e after =>
    dsimp only
    split
    · rfl
    · rfl

theorem put_record (bytes : Bytes) (budget : Nat) (ch : Channel) :
    match ch.put bytes budget with
    | .ok _ after => after.link.past = .sent bytes budget :: ch.link.past ∧
        after.fragment = ch.fragment
    | .error f after => after.link.past = .unsent bytes budget f :: ch.link.past := by
  have h := ch.link.write_record bytes budget
  unfold put
  cases hw : ch.link.write bytes budget with
  | ok u link =>
    rw [hw] at h
    exact ⟨h, rfl⟩
  | error f link =>
    rw [hw] at h
    exact h

theorem put_weight (bytes : Bytes) (budget : Nat) (ch : Channel) :
    (final (ch.put bytes budget)).weight = ch.weight ∧
      ch.now ≤ (final (ch.put bytes budget)).now := by
  unfold put
  split
  · next hw =>
    have := Link.write_error_weight hw
    exact ⟨congrArg (· + _) this.1, this.2⟩
  · next hw =>
    have := Link.write_ok_weight hw
    exact ⟨congrArg (· + _) this.1, this.2⟩

theorem sendHeader_weight (m : Message) (deadline : Deadline) (ch : Channel) :
    (final (ch.sendHeader m deadline)).weight = ch.weight ∧
      ch.now ≤ (final (ch.sendHeader m deadline)).now := put_weight _ _ ch

theorem sendPayload_weight (m : Message) (deadline : Deadline) (ch : Channel) :
    (final (ch.sendPayload m deadline)).weight = ch.weight ∧
      ch.now ≤ (final (ch.sendPayload m deadline)).now := by
  unfold sendPayload
  split
  · exact ⟨rfl, Nat.le_refl _⟩
  · exact put_weight _ _ ch

/-- The next message with one of the given commands; others are dropped. -/
def receiveOneOf (expected : List Command) (deadline : Deadline) (ch : Channel) :
    EStateM.Result BridgeError Channel Message :=
  if deadline.hasExpired ch.now then .error (.timeout deadline.budget (.oneOf expected)) ch
  else
    match _ : ch.receive deadline with
    | .ok m after =>
      if m.command ∈ expected then .ok m after else receiveOneOf expected deadline after
    | .error e after =>
      if e.isTimeout then .error (.timeout deadline.budget (.oneOf expected)) after
      else .error e after
termination_by ch.weight
decreasing_by
  have := receive_ok_weight ‹ch.receive deadline = _›
  simp only [Header.size] at this
  omega

end Channel
end DroidHost
