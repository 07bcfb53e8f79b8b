import DroidHost.Bytes
import DroidHost.Link.Fault

/-! A byte pipe to a device, with its future written down: what will arrive and when, how each write
will go, and a clock that moves only while a transfer waits. -/
namespace DroidHost

inductive Arrival
  | chunk (bytes : Bytes)
  /-- What follows arrives this many nanoseconds after being waited for. -/
  | pause (nanos : Nat)
  /-- The read that meets this entry fails. -/
  | fault (fault : LinkFault)
  deriving DecidableEq, Repr

inductive Delivery
  /-- The bytes are out after so many nanoseconds. -/
  | taken (nanos : Nat)
  /-- No byte gets out. -/
  | refused (fault : LinkFault)
  deriving DecidableEq, Repr

/-- With the time it was given. -/
inductive Transfer
  | received (wanted budget : Nat) (bytes : Bytes)
  | missed (wanted budget : Nat) (fault : LinkFault)
  | sent (bytes : Bytes) (budget : Nat)
  | unsent (bytes : Bytes) (budget : Nat) (fault : LinkFault)
  deriving DecidableEq, Repr

def Transfer.sent? : Transfer → Option (Bytes × Nat)
  | .sent bytes budget => some (bytes, budget)
  | _ => none

def Transfer.isRead : Transfer → Bool
  | .received .. | .missed .. => true
  | _ => false

structure Link where
  inbound : List Arrival
  /-- Past the end every write succeeds at once. -/
  plan : List Delivery := []
  /-- Nanoseconds since the link was set up. -/
  now : Nat := 0
  /-- Seconds since 1970 when the link was set up. -/
  epoch : Nat := 0
  isClosed : Bool := false
  /-- Latest first. -/
  past : List Transfer := []
  deriving DecidableEq, Repr

structure Found where
  outcome : Except LinkFault Bytes
  rest : List Arrival
  waited : Nat

def Found.after (nanos : Nat) (found : Found) : Found :=
  { found with waited := nanos + found.waited }

namespace Arrival

/-- Bytes still to come, and one for the entry itself. -/
def weight : Arrival → Nat
  | chunk bytes => bytes.length + 1
  | _ => 1

/-- A pause longer than what is left is shortened by it and stays. -/
def take (wanted budget left : Nat) : List Arrival → Found
  | [] => ⟨.error (.timeout budget), [], left⟩
  | pause nanos :: rest =>
    if nanos ≤ left then (take wanted budget (left - nanos) rest).after nanos
    else ⟨.error (.timeout budget), pause (nanos - left) :: rest, left⟩
  | fault f :: rest => ⟨.error f, rest, 0⟩
  | chunk bytes :: rest =>
    if bytes.length ≤ wanted then ⟨.ok bytes, rest, 0⟩
    else ⟨.ok (bytes.take wanted), chunk (bytes.drop wanted) :: rest, 0⟩

def load : List Arrival → Nat
  | [] => 0
  | a :: queue => a.weight + load queue

@[simp] theorem load_nil : load [] = 0 := rfl

@[simp] theorem load_cons (a : Arrival) (queue : List Arrival) :
    load (a :: queue) = a.weight + load queue := rfl

theorem load_take_ok {wanted budget left : Nat} {queue : List Arrival} {bytes : Bytes}
    (h : (take wanted budget left queue).outcome = .ok bytes) :
    load (take wanted budget left queue).rest + bytes.length ≤ load queue ∧
      bytes.length ≤ wanted := by
  fun_induction take wanted budget left queue with
  | case1 => cases h
  | case2 left nanos rest _ ih =>
    have := ih h
    simp only [load_cons, weight, Found.after]
    omega
  | case3 => cases h
  | case4 => cases h
  | case5 left bs rest hle =>
    cases h
    simp only [load_cons, weight]
    omega
  | case6 left bs rest hle =>
    cases h
    simp only [load_cons, weight, List.length_drop, List.length_take]
    omega

theorem load_take_error {wanted budget left : Nat} {queue : List Arrival} {f : LinkFault}
    (h : (take wanted budget left queue).outcome = .error f) :
    load (take wanted budget left queue).rest < load queue ∨
      load (take wanted budget left queue).rest ≤ load queue ∧
        (take wanted budget left queue).waited = left := by
  fun_induction take wanted budget left queue with
  | case1 => exact .inr ⟨Nat.le_refl _, rfl⟩
  | case2 left nanos rest _ ih =>
    have := ih h
    simp only [load_cons, weight, Found.after]
    omega
  | case3 =>
    refine .inr ⟨?_, rfl⟩
    simp only [load_cons, weight]
    omega
  | case4 left f' rest =>
    refine .inl ?_
    simp only [load_cons, weight]
    omega
  | case5 => cases h
  | case6 => cases h

end Arrival

namespace Link

def weight (link : Link) : Nat := Arrival.load link.inbound

def record (link : Link) (t : Transfer) : Link := { link with past := t :: link.past }

def leave (link : Link) (found : Found) : Link :=
  { link with inbound := found.rest, now := link.now + found.waited }

/-- An empty result means that the peer is gone. -/
def read (wanted budget : Nat) : EStateM LinkFault Link Bytes := fun link =>
  if link.isClosed then .error .closed (link.record (.missed wanted budget .closed))
  else
    let found := Arrival.take wanted budget budget link.inbound
    match found.outcome with
    | .ok bytes => .ok bytes ((link.leave found).record (.received wanted budget bytes))
    | .error f => .error f ((link.leave found).record (.missed wanted budget f))

def write (bytes : Bytes) (budget : Nat) : EStateM LinkFault Link Unit := fun link =>
  if link.isClosed then .error .closed (link.record (.unsent bytes budget .closed))
  else
    match link.plan with
    | [] => .ok () (link.record (.sent bytes budget))
    | .taken nanos :: rest =>
      .ok () (({ link with plan := rest, now := link.now + nanos }).record (.sent bytes budget))
    | .refused f :: rest =>
      .error f (({ link with plan := rest }).record (.unsent bytes budget f))

def calendarTime (link : Link) : UInt32 := UInt32.ofNat (link.epoch + link.now / 1000000000)

def close (link : Link) : Link := { link with isClosed := true }

def sleep (nanos : Nat) (link : Link) : Link := { link with now := link.now + nanos }

theorem read_record (wanted budget : Nat) (link : Link) :
    match link.read wanted budget with
    | .ok bytes after => after.past = .received wanted budget bytes :: link.past
    | .error f after => after.past = .missed wanted budget f :: link.past := by
  unfold read
  by_cases hc : link.isClosed = true
  · rw [if_pos hc]
    rfl
  · rw [if_neg hc]
    dsimp only
    cases (Arrival.take wanted budget budget link.inbound).outcome with
    | ok bytes => rfl
    | error f => rfl

theorem write_record (bytes : Bytes) (budget : Nat) (link : Link) :
    match link.write bytes budget with
    | .ok _ after => after.past = .sent bytes budget :: link.past
    | .error f after => after.past = .unsent bytes budget f :: link.past := by
  unfold write
  by_cases hc : link.isClosed = true
  · rw [if_pos hc]
    rfl
  · rw [if_neg hc]
    rcases link.plan with _ | ⟨⟨nanos⟩ | ⟨f⟩, rest⟩ <;> rfl

theorem read_ok_weight {wanted budget : Nat} {link after : Link} {bytes : Bytes}
    (h : read wanted budget link = .ok bytes after) :
    after.weight + bytes.length ≤ link.weight ∧ link.now ≤ after.now ∧ bytes.length ≤ wanted := by
  unfold read at h
  split at h
  · cases h
  · dsimp only at h
    split at h
    · next b hb =>
      cases h
      have := Arrival.load_take_ok hb
      exact ⟨this.1, Nat.le_add_right _ _, this.2⟩
    · cases h

theorem read_error_cases {wanted budget : Nat} {link after : Link} {f : LinkFault}
    (h : read wanted budget link = .error f after) :
    link.now ≤ after.now ∧ after.weight ≤ link.weight ∧
      (f = .closed ∨ after.weight < link.weight ∨ after.now = link.now + budget) := by
  unfold read at h
  split at h
  · cases h
    exact ⟨Nat.le_refl _, Nat.le_refl _, .inl rfl⟩
  · dsimp only at h
    split at h
    · cases h
    · next b hb =>
      cases h
      refine ⟨Nat.le_add_right _ _, ?_, ?_⟩
      · rcases Arrival.load_take_error hb with h | h
        · exact Nat.le_of_lt h
        · exact h.1
      · rcases Arrival.load_take_error hb with h | h
        · exact .inr (.inl h)
        · exact .inr (.inr (congrArg (link.now + ·) h.2))

theorem write_ok_weight {bytes : Bytes} {budget : Nat} {link after : Link} {u : Unit}
    (h : write bytes budget link = .ok u after) :
    after.weight = link.weight ∧ link.now ≤ after.now := by
  unfold write at h
  split at h
  · cases h
  · split at h <;> cases h
    · exact ⟨rfl, Nat.le_refl _⟩
    · exact ⟨rfl, Nat.le_add_right _ _⟩

theorem write_error_weight {bytes : Bytes} {budget : Nat} {link after : Link} {f : LinkFault}
    (h : write bytes budget link = .error f after) :
    after.weight = link.weight ∧ link.now ≤ after.now := by
  unfold write at h
  split at h
  · cases h
    exact ⟨rfl, Nat.le_refl _⟩
  · split at h <;> cases h
    exact ⟨rfl, Nat.le_refl _⟩

end Link
end DroidHost
