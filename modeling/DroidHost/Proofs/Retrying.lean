import Mathlib.Data.ENat.Lattice
import DroidHost.Bootloader.Retry
import DroidHost.Outcome

/-! The law of trying again, for every device whatever state it keeps. -/
namespace DroidHost

/-- What can be seen of the use of a device. -/
inductive Observed
  | image (outcome : Except BootError Bytes)
  | attempt (command : BootCommand) (outcome : Except BootError String)
  | pause (nanos : Nat)
  deriving DecidableEq, Repr

def Observed.isAttempt : Observed → Bool
  | attempt .. => true
  | _ => false

/-- A state with what was seen so far, in order. -/
structure Watched (σ : Type) where
  state : σ
  seen : List Observed := []
  deriving DecidableEq, Repr

instance clockedWatched [Clocked σ] : Clocked (Watched σ) :=
  ⟨fun nanos w => ⟨Clocked.sleep nanos w.state, w.seen ++ [.pause nanos]⟩⟩

def mark (seen : List Observed) :
    EStateM.Result BootError σ α → EStateM.Result BootError (Watched σ) α
  | .ok a s => .ok a ⟨s, seen⟩
  | .error e s => .error e ⟨s, seen⟩

def watching (entry : Except BootError α → Observed) (x : EStateM BootError σ α) :
    EStateM BootError (Watched σ) α := fun w =>
  mark (w.seen ++ [entry (outcome (x w.state))]) (x w.state)

/-- The device with each try of a command on record. -/
def BootDevice.watched (device : BootDevice σ) : BootDevice (Watched σ) := fun command =>
  watching (.attempt command) (device command)

def LinkFails (r : EStateM.Result BootError σ α) : Prop :=
  ∃ fault, outcome r = .error (.link fault)

/-- The tries of an operation if it is tried for ever, each but the first one after a pause. -/
def tries [Clocked σ] (pause : Nat) (x : EStateM BootError σ α) (s : σ) :
    Nat → EStateM.Result BootError σ α
  | 0 => x s
  | i + 1 => x (Clocked.sleep pause (final (tries pause x s i)))

/-- How many failures of the link a sequence of tries begins with. -/
noncomputable def leadingFaults (rs : Nat → EStateM.Result BootError σ α) : ℕ∞ :=
  ⨅ (i : Nat) (_ : ¬ LinkFails (rs i)), (i : ℕ∞)

noncomputable def RetryPolicy.repeats (policy : RetryPolicy)
    (rs : Nat → EStateM.Result BootError σ α) : Nat :=
  (min (leadingFaults rs) policy.retries).toNat

def attempts (entry : Except BootError α → Observed) (pause : Nat)
    (rs : Nat → EStateM.Result BootError σ α) (more : Nat) : List Observed :=
  (List.range more).flatMap (fun i => [entry (outcome (rs i)), .pause pause]) ++
    [entry (outcome (rs more))]

theorem attempts_succ (entry : Except BootError α → Observed) (pause : Nat)
    (rs : Nat → EStateM.Result BootError σ α) (more : Nat) :
    attempts entry pause rs (more + 1) =
      attempts entry pause rs more ++ [.pause pause] ++ [entry (outcome (rs (more + 1)))] := by
  rw [attempts, attempts, List.range_succ, List.flatMap_append, List.flatMap_singleton,
    List.append_assoc _ _ [Observed.pause pause]]
  rfl

theorem countP_attempts (command : BootCommand) (pause : Nat)
    (rs : Nat → EStateM.Result BootError σ String) (more : Nat) :
    (attempts (.attempt command) pause rs more).countP Observed.isAttempt = more + 1 := by
  induction more with
  | zero => rfl
  | succ more ih =>
    rw [attempts_succ, List.countP_append, List.countP_append, ih]
    rfl

@[simp] theorem outcome_mark (seen : List Observed) (r : EStateM.Result BootError σ α) :
    outcome (mark seen r) = outcome r := by
  cases r <;> rfl

theorem linkFails_mark {seen : List Observed} {r : EStateM.Result BootError σ α} :
    LinkFails (mark seen r) ↔ LinkFails r := by
  rw [LinkFails, LinkFails, outcome_mark]

theorem final_mark (seen : List Observed) (r : EStateM.Result BootError σ α) :
    final (mark seen r) = ⟨final r, seen⟩ := by
  cases r <;> rfl

def unmark : EStateM.Result BootError (Watched σ) α → EStateM.Result BootError σ α
  | .ok a w => .ok a w.state
  | .error e w => .error e w.state

theorem unmark_mark (seen : List Observed) (r : EStateM.Result BootError σ α) :
    unmark (mark seen r) = r := by
  cases r <;> rfl

theorem isLink_iff {e : BootError} : e.isLink = true ↔ ∃ fault, e = .link fault := by
  cases e with
  | link fault => exact ⟨fun _ => ⟨fault, rfl⟩, fun _ => rfl⟩
  | stateMismatch | remoteFailure | invalidResponse | transfer | localFile => simp [BootError.isLink]

section Tries

variable [Clocked σ] {pause : Nat} {x : EStateM BootError σ α}

theorem tries_succ (s : σ) (i : Nat) :
    tries pause x s (i + 1) = tries pause x (Clocked.sleep pause (final (x s))) i := by
  induction i with
  | zero => rfl
  | succ i ih =>
    rw [tries, ih]
    rfl

variable (pause x)

/-- What happens to an operation is the front of its tries: those that fail by the link, and one
more. -/
theorem attempt_tries (more : Nat) (s : σ) :
    ∃ m ≤ more, (∀ i < m, LinkFails (tries pause x s i)) ∧
      (m = more ∨ ¬ LinkFails (tries pause x s m)) ∧
      RetryPolicy.attempt pause x more s = tries pause x s m := by
  induction more generalizing s with
  | zero => exact ⟨0, Nat.le_refl 0, fun i hi => absurd hi (Nat.not_lt_zero i), .inl rfl, rfl⟩
  | succ more ih =>
    unfold RetryPolicy.attempt
    cases hx : x s with
    | ok a after =>
      have hgood : ¬ LinkFails (tries pause x s 0) := by
        rintro ⟨fault, hfault⟩
        rw [tries, hx] at hfault
        cases hfault
      exact ⟨0, Nat.zero_le _, fun i hi => absurd hi (Nat.not_lt_zero i), .inr hgood, hx.symm⟩
    | error e after =>
      dsimp only
      split
      · next hlink =>
        obtain ⟨fault, rfl⟩ := isLink_iff.mp hlink
        obtain ⟨m, hle, hfail, hlast, hresult⟩ := ih (Clocked.sleep pause after)
        have hshift (i : Nat) :
            tries pause x s (i + 1) = tries pause x (Clocked.sleep pause after) i := by
          rw [tries_succ, hx, final_error]
        refine ⟨m + 1, Nat.succ_le_succ hle, fun i hi => ?_, ?_, ?_⟩
        · cases i with
          | zero => exact ⟨fault, by rw [tries, hx, outcome_error]⟩
          | succ i =>
            rw [hshift]
            exact hfail i (Nat.lt_of_succ_lt_succ hi)
        · rw [hshift]
          exact hlast.imp_left (congrArg (· + 1))
        · rw [hresult, hshift]
      · next hlink =>
        have hgood : ¬ LinkFails (tries pause x s 0) := by
          rintro ⟨fault, hfault⟩
          rw [tries, hx, outcome_error, Except.error.injEq] at hfault
          exact hlink (isLink_iff.mpr ⟨fault, hfault⟩)
        exact ⟨0, Nat.zero_le _, fun i hi => absurd hi (Nat.not_lt_zero i), .inr hgood, hx.symm⟩

theorem tries_watching (entry : Except BootError α → Observed) (s : σ) (seen : List Observed)
    (i : Nat) :
    tries pause (watching entry x) ⟨s, seen⟩ i =
      mark (seen ++ attempts entry pause (tries pause x s) i) (tries pause x s i) := by
  induction i with
  | zero => rfl
  | succ i ih =>
    rw [tries, ih, final_mark, attempts_succ, ← List.append_assoc, ← List.append_assoc]
    rfl

end Tries

section Repeats

variable {rs : Nat → EStateM.Result BootError σ α} {policy : RetryPolicy}

theorem cast_repeats (policy : RetryPolicy) (rs : Nat → EStateM.Result BootError σ α) :
    (policy.repeats rs : ℕ∞) = min (leadingFaults rs) policy.retries :=
  ENat.natCast_toNat (ne_top_of_le_ne_top (ENat.natCast_ne_top _) (min_le_right _ _))

theorem fails_of_lt_repeats {i : Nat} (h : i < policy.repeats rs) : LinkFails (rs i) := by
  by_contra hgood
  have hfew : leadingFaults rs ≤ i := iInf₂_le i hgood
  have hle : (policy.repeats rs : ℕ∞) ≤ i := by
    rw [cast_repeats]
    exact (min_le_left _ _).trans hfew
  exact absurd h (Nat.not_lt.mpr (Nat.cast_le.mp hle))

theorem eq_repeats {m : Nat} (hle : m ≤ policy.retries) (hfail : ∀ i < m, LinkFails (rs i))
    (hlast : m = policy.retries ∨ ¬ LinkFails (rs m)) : m = policy.repeats rs := by
  have hfirst : (m : ℕ∞) ≤ leadingFaults rs := by
    refine le_iInf₂ fun i hgood => ?_
    rw [Nat.cast_le]
    by_contra hlt
    exact hgood (hfail i (Nat.lt_of_not_le hlt))
  apply Nat.cast_injective (R := ℕ∞)
  rw [cast_repeats]
  apply le_antisymm (le_min hfirst (Nat.cast_le.mpr hle))
  rcases hlast with rfl | hgood
  · exact min_le_right _ _
  · exact (min_le_left _ _).trans (iInf₂_le m hgood)

theorem repeats_congr {ω β : Type} {rs' : Nat → EStateM.Result BootError ω β}
    (h : ∀ i, LinkFails (rs i) ↔ LinkFails (rs' i)) : policy.repeats rs = policy.repeats rs' := by
  rw [RetryPolicy.repeats, RetryPolicy.repeats, leadingFaults, leadingFaults]
  simp only [h]

end Repeats

namespace BootDevice

section Stages

variable {device : BootDevice σ} {image : EStateM BootError σ Bytes} {s read loaded : σ}
  {bytes : Bytes}

theorem flashImage_unread {e : BootError} (partition : String) (h : image s = .error e read) :
    device.flashImage partition image s = .error e read := bind_of_error _ h

theorem flashImage_unloaded {e : BootError} (partition : String) (h : image s = .ok bytes read)
    (hload : device (.download bytes) read = .error e loaded) :
    device.flashImage partition image s = .error e loaded :=
  (bind_of_ok _ h).trans (bind_of_error _ hload)

theorem flashImage_loaded {text : String} (partition : String) (h : image s = .ok bytes read)
    (hload : device (.download bytes) read = .ok text loaded) :
    device.flashImage partition image s = device (.flash partition none) loaded :=
  (bind_of_ok _ h).trans (bind_of_ok _ hload)

end Stages

variable [Clocked σ]

theorem retrying_tries (device : BootDevice σ) (policy : RetryPolicy) (command : BootCommand)
    (s : σ) :
    let rs := tries policy.pause (device command) s
    device.retrying policy command s = rs (policy.repeats rs) := by
  intro rs
  obtain ⟨m, hle, hfail, hlast, hresult⟩ :=
    attempt_tries policy.pause (device command) policy.retries s
  rw [← eq_repeats hle hfail hlast]
  exact hresult

theorem retrying_watched (device : BootDevice σ) (policy : RetryPolicy) (command : BootCommand)
    (s : σ) (seen : List Observed) :
    let rs := tries policy.pause (device command) s
    let m := policy.repeats rs
    device.watched.retrying policy command ⟨s, seen⟩ =
      mark (seen ++ attempts (.attempt command) policy.pause rs m) (rs m) := by
  intro rs m
  have htries := tries_watching policy.pause (device command) (.attempt command) s seen
  -- The record does not change which tries fail, so it does not change their number.
  have hnumber : policy.repeats (tries policy.pause (device.watched command) ⟨s, seen⟩) = m := by
    apply repeats_congr
    intro i
    change LinkFails (tries policy.pause (watching (.attempt command) (device command)) _ i) ↔ _
    rw [htries, linkFails_mark]
  have hlast := retrying_tries device.watched policy command ⟨s, seen⟩
  dsimp only at hlast
  rw [hnumber] at hlast
  exact hlast.trans (htries m)

end BootDevice

variable [Clocked σ]

/-- A command is tried once, and again for each failure of the link up to the number of retries; the
last try gives the outcome and the state. A flash reads its image once, downloads it by the same law
and flashes it by the same law. -/
theorem retry_law (device : BootDevice σ) (policy : RetryPolicy) (s : σ) :
    (∀ command,
      let rs := tries policy.pause (device command) s
      let m := policy.repeats rs
      let r := device.watched.retrying policy command ⟨s, []⟩
      device.retrying policy command s = rs m ∧
      r = mark (attempts (.attempt command) policy.pause rs m) (rs m) ∧
      ((final r).seen.countP Observed.isAttempt : ℕ∞) = min (leadingFaults rs) policy.retries + 1 ∧
      ∀ i < m, LinkFails (rs i)) ∧
    ∀ partition image,
      let watched := device.watched.retrying policy
      let r := watched.flashImage partition (watching .image image) ⟨s, []⟩
      unmark r = (device.retrying policy).flashImage partition image s ∧
      match image s with
      | .error e s => r = .error e ⟨s, [.image (.error e)]⟩
      | .ok bytes s =>
        let downloads := tries policy.pause (device (.download bytes)) s
        let m := policy.repeats downloads
        let seen :=
          .image (.ok bytes) :: attempts (.attempt (.download bytes)) policy.pause downloads m
        match downloads m with
        | .error e s => r = .error e ⟨s, seen⟩
        | .ok _ s =>
          let flashes := tries policy.pause (device (.flash partition none)) s
          let n := policy.repeats flashes
          r = mark (seen ++ attempts (.attempt (.flash partition none)) policy.pause flashes n)
            (flashes n) := by
  constructor
  · intro command rs m r
    have hr : r = mark (attempts (.attempt command) policy.pause rs m) (rs m) :=
      device.retrying_watched policy command s []
    refine ⟨device.retrying_tries policy command s, hr, ?_, fun i hi => fails_of_lt_repeats hi⟩
    rw [hr, final_mark, countP_attempts, Nat.cast_add, cast_repeats]
    rfl
  · intro partition image watched r
    have hread : watching .image image ⟨s, []⟩ =
        mark [.image (outcome (image s))] (image s) := rfl
    cases himage : image s with
    | error e read =>
      rw [himage] at hread
      have hr : r = .error e ⟨read, [.image (.error e)]⟩ :=
        BootDevice.flashImage_unread partition hread
      rw [hr, BootDevice.flashImage_unread partition himage]
      exact ⟨rfl, rfl⟩
    | ok bytes read =>
      rw [himage] at hread
      have hload := device.retrying_tries policy (.download bytes) read
      have hseen := device.retrying_watched policy (.download bytes) read [.image (.ok bytes)]
      dsimp only at hload hseen ⊢
      cases hlast : tries policy.pause (device (.download bytes)) read
          (policy.repeats (tries policy.pause (device (.download bytes)) read)) with
      | error e loaded =>
        rw [hlast] at hload hseen
        have hr : r = .error e ⟨loaded, _⟩ := BootDevice.flashImage_unloaded partition hread hseen
        rw [hr, BootDevice.flashImage_unloaded partition himage hload]
        exact ⟨rfl, rfl⟩
      | ok text loaded =>
        rw [hlast] at hload hseen
        have hr : r = device.watched.retrying policy (.flash partition none) ⟨loaded, _⟩ :=
          BootDevice.flashImage_loaded partition hread hseen
        rw [hr, BootDevice.flashImage_loaded partition himage hload, BootDevice.retrying_watched,
          unmark_mark]
        exact ⟨(device.retrying_tries policy (.flash partition none) loaded).symm, rfl⟩

/-- A command that does not get out at first and is answered when it does. -/
example :
    let device : BootDevice Dialogue := BootCommand.run {}
    let d : Dialogue := { link :=
      { inbound := [.chunk (Text.Utf8.encode "OKAYa")], plan := [.refused .closed] } }
    (final (device.watched.retrying { retries := 3 } (.getvar "a") ⟨d, []⟩)).seen =
      [.attempt (.getvar "a") (.error (.link .closed)), .pause (Duration.ofMillis 100),
        .attempt (.getvar "a") (.ok "a")] := by decide +kernel

end DroidHost
