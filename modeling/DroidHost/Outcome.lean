namespace DroidHost

instance decidableEqExcept [DecidableEq ε] [DecidableEq α] : DecidableEq (Except ε α)
  | .ok a, .ok b => decidable_of_iff (a = b) ⟨congrArg _, Except.ok.inj⟩
  | .error e, .error f => decidable_of_iff (e = f) ⟨congrArg _, Except.error.inj⟩
  | .ok _, .error _ => isFalse nofun
  | .error _, .ok _ => isFalse nofun

/-- However the run ended. -/
def final : EStateM.Result ε σ α → σ
  | .ok _ s => s
  | .error _ s => s

@[simp] theorem final_ok (a : α) (s : σ) : final (.ok a s : EStateM.Result ε σ α) = s := rfl

@[simp] theorem final_error (e : ε) (s : σ) : final (.error e s : EStateM.Result ε σ α) = s := rfl

def outcome : EStateM.Result ε σ α → Except ε α
  | .ok a _ => .ok a
  | .error e _ => .error e

@[simp] theorem outcome_ok (a : α) (s : σ) :
    outcome (.ok a s : EStateM.Result ε σ α) = .ok a := rfl

@[simp] theorem outcome_error (e : ε) (s : σ) :
    outcome (.error e s : EStateM.Result ε σ α) = .error e := rfl

theorem eq_ok_of_outcome {r : EStateM.Result ε σ α} {a : α} (h : outcome r = .ok a) :
    r = .ok a (final r) := by
  cases r with
  | ok b s =>
    cases h
    rfl
  | error e s => cases h

theorem eq_error_of_outcome {r : EStateM.Result ε σ α} {e : ε} (h : outcome r = .error e) :
    r = .error e (final r) := by
  cases r with
  | ok a s => cases h
  | error e' s =>
    cases h
    rfl

theorem bind_ok {x : EStateM ε σ α} {f : α → EStateM ε σ β} {s after : σ} {b : β}
    (h : (x >>= f) s = .ok b after) : ∃ a mid, x s = .ok a mid ∧ f a mid = .ok b after := by
  change EStateM.bind x f s = _ at h
  unfold EStateM.bind at h
  split at h
  · next a mid hx => exact ⟨a, mid, hx, h⟩
  · cases h

theorem bind_of_ok {x : EStateM ε σ α} (f : α → EStateM ε σ β) {s mid : σ} {a : α}
    (h : x s = .ok a mid) : (x >>= f) s = f a mid := by
  change EStateM.bind x f s = _
  rw [EStateM.bind, h]

theorem bind_of_error {x : EStateM ε σ α} (f : α → EStateM ε σ β) {s mid : σ} {e : ε}
    (h : x s = .error e mid) : (x >>= f) s = .error e mid := by
  change EStateM.bind x f s = _
  rw [EStateM.bind, h]

theorem tryCatch_ok {x : EStateM ε σ α} {f : ε → EStateM ε σ α} {s after : σ} {a : α}
    (h : (tryCatch x f) s = .ok a after) :
    x s = .ok a after ∨ ∃ e mid, x s = .error e mid ∧ f e mid = .ok a after := by
  change EStateM.tryCatch x f s = _ at h
  unfold EStateM.tryCatch at h
  split at h
  · next e mid hx => exact .inr ⟨e, mid, hx, h⟩
  · exact .inl h

end DroidHost
