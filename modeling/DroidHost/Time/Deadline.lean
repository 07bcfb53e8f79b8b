import DroidHost.Time.Duration

/-! One budget for a whole operation, however many steps it takes. -/
namespace DroidHost

structure Deadline where
  start : Nat
  budget : Nat
  deriving DecidableEq, Repr

namespace Deadline

/-- The least time given to a transfer that has to happen though the deadline has passed. -/
def transferFloor : Nat := Duration.ofMillis 10

def elapsed (d : Deadline) (now : Nat) : Nat := now - d.start

def hasExpired (d : Deadline) (now : Nat) : Bool := d.start + d.budget ≤ now

def remaining (d : Deadline) (now : Nat) : Nat := d.start + d.budget - now

def remainingOrFloor (d : Deadline) (floor now : Nat) : Nat := max (d.remaining now) floor

theorem remaining_le_remainingOrFloor (d : Deadline) (floor now : Nat) :
    d.remaining now ≤ d.remainingOrFloor floor now := Nat.le_max_left _ _

theorem hasExpired_iff {d : Deadline} {now : Nat} :
    d.hasExpired now = true ↔ d.start + d.budget ≤ now := decide_eq_true_iff

theorem hasExpired_mono {d : Deadline} {s t : Nat} (hst : s ≤ t)
    (h : d.hasExpired s = true) : d.hasExpired t = true := by
  simp only [hasExpired, decide_eq_true_eq] at h ⊢
  omega

theorem hasExpired_of_remaining_le {d : Deadline} {now wait : Nat}
    (h : d.remaining now ≤ wait) : d.hasExpired (now + wait) = true := by
  simp only [hasExpired, remaining, decide_eq_true_eq] at h ⊢
  omega

end Deadline
end DroidHost
