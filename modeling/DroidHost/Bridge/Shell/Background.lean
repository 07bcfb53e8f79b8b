import DroidHost.Bridge.Shell
import DroidHost.LocalFile.Sink
import DroidHost.LocalFile.Source

/-! A command that runs while its owner does something else. Input, output and a timer take turns on
its stream, and a turn that moves something leaves less to do (`step_moved`). -/
namespace DroidHost.Shell

structure Feed where
  source : Source
  /-- Read from the source and not yet sent. -/
  pieces : List Bytes := []
  deadline : Deadline := ⟨0, 0⟩
  /-- A piece is out and not yet acknowledged. -/
  awaiting : Bool := false
  deriving DecidableEq, Repr

def Feed.work (f : Feed) : Nat :=
  4 * f.source.weight + 2 * f.pieces.length + f.awaiting.toNat + 1

inductive Completion
  | output (bytes : Bytes)
  | forwarded
  deriving DecidableEq, Repr

structure Background where
  stream : Stream
  /-- None when there is no more input. -/
  feed : Option Feed
  /-- Where output goes. Without one it is kept. -/
  sink : Option Sink
  /-- Latest first. -/
  kept : List Bytes := []
  sent : Nat := 0
  /-- When it passes the stream is closed, whatever the command does. -/
  deadline : Deadline
  isDone : Bool := false
  deriving DecidableEq, Repr

inductive Turn
  | blocked
  | moved (b : Background) (c : Connection)
  | wrote (b : Background) (c : Connection)
  deriving DecidableEq, Repr

namespace Background

/-- Input is read in portions of at most this size. -/
def portion : Nat := 4096

def start (command : String) (raw : Bool) (source : Option Source) (sink : Option Sink)
    (budget : Nat) : EStateM BridgeError Connection Background := fun c =>
  match c.openService (destination command raw) budget with
  | .error e c => .error e c
  | .ok s c =>
    .ok ⟨s, source.map fun source => { source := source }, sink, [], 0, c.deadline budget, false⟩ c

def completion? (b : Background) : Option Completion :=
  if b.isDone then
    match b.sink with
    | some _ => some .forwarded
    | none => some (.output b.kept.reverse.flatten)
  else none

def close (b : Background) (c : Connection) : Background × Connection :=
  ({ b with stream := (c.closeStream b.stream).1 }, (c.closeStream b.stream).2)

/-- Ends the input. -/
def starve (b : Background) : Background := { b with feed := none }

/-- Ends the output. -/
def finish (b : Background) : Background := { b with isDone := true }

def abandon (b : Background) (c : Connection) : Turn := .moved (b.close c).1.finish (b.close c).2

def readInput (b : Background) (f : Feed) (c : Connection) : Background :=
  if c.isClosed b.stream then b.starve
  else
    match f.source.read portion with
    | (.ok (x :: bytes), source) =>
      { b with feed := some ⟨source, Bytes.pieces c.info.maxData.toNat (x :: bytes),
          c.deadline b.deadline.budget, false⟩ }
    | _ => b.starve

/-- The feed ends with the source, or when a piece cannot be sent or is not acknowledged. -/
def feedTurn (b : Background) (c : Connection) : Turn :=
  match b.feed with
  | none => .blocked
  | some f =>
    if f.awaiting then
      match c.inspect b.stream.localId (StreamState.acknowledging b.stream.localId) with
      | none => .blocked
      | some (.ok _ c) => .moved { b with feed := some { f with awaiting := false } } c
      | some (.error _ c) => .moved b.starve c
    else
      match f.pieces with
      | [] => .moved (b.readInput f c) c
      | piece :: rest =>
        match c.sendPiece b.stream.localId f.deadline piece with
        | .ok _ c => .wrote { b with
            feed := some { f with pieces := rest, awaiting := true }
            sent := b.sent + 1 } c
        | .error _ c => .moved b.starve c

def deliver (b : Background) (bytes : Bytes) (c : Connection) : Turn :=
  match b.sink with
  | none => .moved { b with kept := bytes :: b.kept } c
  | some sink =>
    match sink.write bytes with
    | .error _ => b.abandon c
    | .ok sink =>
      match sink.flush with
      | .error _ => { b with sink := some sink }.abandon c
      | .ok _ => .moved { b with sink := some sink } c

/-- The collection ends when the stream is closed, and a failure closes the stream. -/
def collectTurn (b : Background) (c : Connection) : Turn :=
  match c.inspect b.stream.localId (StreamState.supplying b.stream.localId 0) with
  | none => .blocked
  | some (.ok bytes c) => b.deliver bytes (c.note (.taken b.stream.localId bytes))
  | some (.error (.streamClosed _) c) => .moved b.finish c
  | some (.error _ c) => b.abandon c

/-- The timer still has a stream to close. -/
def isTimed (b : Background) : Bool := !b.stream.released

/-- Until when there is nothing to do but wait. -/
def horizon (b : Background) (limit : Nat) : Nat :=
  if b.isTimed then min limit (b.deadline.start + b.deadline.budget) else limit

/-- The turn of the timer: waits for a message, but not past `limit`. -/
def waitTurn (limit : Nat) (b : Background) (c : Connection) : Turn :=
  if b.isTimed && b.deadline.hasExpired c.now then .moved (b.close c).1 (b.close c).2
  else if limit ≤ c.now then .blocked
  else
    match c.takeIn (c.deadline (b.horizon limit - c.now)) with
    | .ok _ c => .moved b c
    | .error _ c => b.abandon c

/-- The first of the three that has something to do. -/
def step (limit : Nat) (b : Background) (c : Connection) : Turn :=
  if b.isDone then .blocked
  else
    -- Waiting comes last: it is the only turn that lets time pass for nothing.
    match b.feedTurn c with
    | .blocked =>
      match b.collectTurn c with
      | .blocked => b.waitTurn limit c
      | turn => turn
    | turn => turn

/-- What is outstanding: bytes, the end of the output, and three moments that can pass. -/
def outstanding (limit : Nat) (b : Background) (c : Connection) : Nat :=
  c.load + c.channel.weight + (!b.isDone).toNat + b.isTimed.toNat +
    (!b.deadline.hasExpired c.now).toNat + (decide (c.now < limit)).toNat

def work (b : Background) : Nat := (b.feed.map Feed.work).getD 0

theorem toNat_le_of_imp {p q : Bool} (h : q = true → p = true) : q.toNat ≤ p.toNat := by
  cases p <;> cases q <;> simp_all

theorem unexpired_le (d : Deadline) {s t : Nat} (h : s ≤ t) :
    (!d.hasExpired t).toNat ≤ (!d.hasExpired s).toNat := by
  refine toNat_le_of_imp fun ht => ?_
  rw [Bool.not_eq_true'] at ht ⊢
  exact Bool.eq_false_iff.mpr fun hs => Bool.eq_false_iff.mp ht (Deadline.hasExpired_mono h hs)

theorem before_le (limit : Nat) {s t : Nat} (h : s ≤ t) :
    (decide (t < limit)).toNat ≤ (decide (s < limit)).toNat :=
  toNat_le_of_imp fun ht => decide_eq_true (Nat.lt_of_le_of_lt h (of_decide_eq_true ht))

theorem outstanding_add_le (limit gain : Nat) {b b' : Background} {c c' : Connection}
    (hb : b'.deadline = b.deadline) (hn : c.now ≤ c'.now)
    (hl : c'.load + c'.channel.weight + (!b'.isDone).toNat + b'.isTimed.toNat + gain ≤
      c.load + c.channel.weight + (!b.isDone).toNat + b.isTimed.toNat) :
    outstanding limit b' c' + gain ≤ outstanding limit b c := by
  have := unexpired_le b.deadline hn
  have := before_le limit hn
  simp only [outstanding, hb]
  omega

theorem outstanding_le (limit : Nat) {b b' : Background} {c c' : Connection}
    (hb : b'.deadline = b.deadline) (hn : c.now ≤ c'.now)
    (hl : c'.load + c'.channel.weight + (!b'.isDone).toNat + b'.isTimed.toNat ≤
      c.load + c.channel.weight + (!b.isDone).toNat + b.isTimed.toNat) :
    outstanding limit b' c' ≤ outstanding limit b c :=
  outstanding_add_le limit 0 hb hn hl

theorem close_outstanding (limit : Nat) (b : Background) (c : Connection) :
    outstanding limit (b.close c).1 (b.close c).2 + b.isTimed.toNat ≤ outstanding limit b c := by
  obtain ⟨hw, hl, hn⟩ := Connection.closeStream_load b.stream c
  refine outstanding_add_le limit b.isTimed.toNat rfl hn ?_
  simp only [close, isTimed, Connection.released_closeStream, Bool.not_true, Bool.toNat_false]
  omega

theorem abandon_moved {limit : Nat} {b b' : Background} {c c' : Connection}
    (hd : b.isDone = false) (h : b.abandon c = .moved b' c') :
    outstanding limit b' c' < outstanding limit b c := by
  cases h
  have := close_outstanding limit b c
  have hc : (b.close c).1.isDone = false := hd
  simp only [outstanding, finish, hc] at this ⊢
  simp only [Bool.not_true, Bool.not_false, Bool.toNat_false, Bool.toNat_true, isTimed] at this ⊢
  omega

theorem work_readInput {b : Background} {f : Feed} {c : Connection} (hf : b.feed = some f)
    (hp : f.pieces = []) : (b.readInput f c).work < b.work := by
  have hb : b.work = f.work := by simp only [work, hf, Option.map_some, Option.getD_some]
  have h0 : 0 < f.work := Nat.succ_pos _
  unfold readInput
  split
  · rw [hb]; exact h0
  · split
    · next x bytes source hr =>
      have hw := Source.weight_read hr
      have hk := Bytes.length_pieces_le c.info.maxData.toNat (x :: bytes)
      simp only [work, hf, Option.map_some, Option.getD_some, Feed.work, hp, List.length_cons,
        List.length_nil, Bool.toNat_false] at hw hk ⊢
      omega
    · rw [hb]; exact h0

theorem feedTurn_moved {limit : Nat} {b b' : Background} {c c' : Connection}
    (h : b.feedTurn c = .moved b' c') :
    outstanding limit b' c' ≤ outstanding limit b c ∧ b'.work < b.work := by
  unfold feedTurn at h
  split at h
  · cases h
  · next f hf =>
    have hb : b.work = f.work := by simp only [work, hf, Option.map_some, Option.getD_some]
    have h0 : 0 < f.work := Nat.succ_pos _
    have hs : b.starve.work < b.work := by rw [hb]; exact h0
    split at h
    · next ha =>
      split at h
      · cases h
      · next u c₁ hi =>
        cases h
        obtain ⟨hl, hc⟩ := Connection.inspect_load (fun _ => 0) (fun s a s' hr => by
          unfold StreamState.acknowledging at hr
          split at hr
          · cases hr; exact Nat.le_refl _
          · split at hr <;> cases hr) hi
        refine ⟨outstanding_le limit rfl (Nat.le_of_eq (congrArg Channel.now hc).symm) ?_, ?_⟩
        · simp only [hc, isTimed] at hl ⊢
          omega
        · simp only [work, hf, Option.map_some, Option.getD_some, Feed.work, ha, Bool.toNat_false,
            Bool.toNat_true]
          omega
      · next e c₁ hi =>
        cases h
        cases Connection.inspect_error hi
        exact ⟨Nat.le_refl _, hs⟩
    · split at h
      · next hp =>
        cases h
        refine ⟨Nat.le_of_eq ?_, work_readInput hf hp⟩
        unfold readInput
        split
        · rfl
        · split <;> rfl
      · split at h
        · cases h
        · next e c₁ hi =>
          cases h
          obtain ⟨hw, hl, hn⟩ := Connection.sendPiece_error hi
          refine ⟨outstanding_le limit rfl hn ?_, hs⟩
          simp only [starve, isTimed]
          omega

theorem deliver_moved (limit : Nat) {b b' : Background} {c c' : Connection} {bytes : Bytes}
    (hd : b.isDone = false) (h : b.deliver bytes c = .moved b' c') :
    outstanding limit b' c' ≤ outstanding limit b c := by
  unfold deliver at h
  split at h
  · cases h
    exact Nat.le_refl _
  · split at h
    · exact Nat.le_of_lt (abandon_moved hd h)
    · next sink _ =>
      split at h
      · have hs : outstanding limit b' c' < outstanding limit { b with sink := some sink } c :=
          abandon_moved hd h
        exact Nat.le_of_lt hs
      · cases h
        exact Nat.le_refl _

theorem collectTurn_moved {limit : Nat} {b b' : Background} {c c' : Connection}
    (hd : b.isDone = false) (h : b.collectTurn c = .moved b' c') :
    outstanding limit b' c' < outstanding limit b c := by
  unfold collectTurn at h
  split at h
  · cases h
  · next bytes c₁ hi =>
    obtain ⟨hl, hc⟩ := Connection.inspect_load List.length
      (fun s a s' hr => (StreamState.length_of_supplying hr).1) hi
    obtain ⟨_, _, _, hr, _⟩ := Connection.inspect_ok hi
    have hb := (StreamState.length_of_supplying hr).2
    have hn : c.now ≤ c₁.now := Nat.le_of_eq (congrArg Channel.now hc).symm
    have hm : outstanding limit b c₁ + 1 ≤ outstanding limit b c :=
      outstanding_add_le limit 1 rfl hn (by
        simp only [hc] at hl ⊢
        omega)
    exact Nat.lt_of_le_of_lt (deliver_moved limit hd h) hm
  · next c₁ hi =>
    cases h
    cases Connection.inspect_error hi
    refine outstanding_add_le limit 1 rfl (Nat.le_refl _) ?_
    simp only [finish, hd, isTimed, Bool.not_true, Bool.not_false, Bool.toNat_false, Bool.toNat_true]
    omega
  · next e c₁ hi =>
    cases Connection.inspect_error hi
    exact abandon_moved hd h

theorem horizon_passed {limit : Nat} {b : Background} {c after : Connection}
    (ht : ¬(b.isTimed && b.deadline.hasExpired c.now) = true) (hl : c.now < limit)
    (hp : (c.deadline (b.horizon limit - c.now)).hasExpired after.now = true) :
    (!b.deadline.hasExpired after.now).toNat + (decide (after.now < limit)).toNat <
      (!b.deadline.hasExpired c.now).toNat + (decide (c.now < limit)).toNat := by
  have hz := Deadline.hasExpired_iff.mp hp
  simp only [Connection.deadline] at hz
  have hn : c.now ≤ after.now := by omega
  have h₁ := unexpired_le b.deadline hn
  have h₂ := before_le limit hn
  have hlate : limit ≤ after.now → (decide (after.now < limit)).toNat <
      (decide (c.now < limit)).toNat := fun h => by
    rw [decide_eq_true hl, decide_eq_false (Nat.not_lt.mpr h)]
    exact Nat.zero_lt_one
  unfold horizon at hz
  split at hz
  · next hb =>
    by_cases h : limit ≤ after.now
    · have := hlate h
      omega
    · have he : b.deadline.hasExpired after.now = true :=
        Deadline.hasExpired_iff.mpr (by omega)
      rw [hb, Bool.true_and, Bool.not_eq_true] at ht
      rw [he, ht, Bool.not_true, Bool.not_false, Bool.toNat_false, Bool.toNat_true]
      omega
  · have := hlate (by omega)
    omega

theorem waitTurn_moved {limit : Nat} {b b' : Background} {c c' : Connection}
    (hd : b.isDone = false) (h : b.waitTurn limit c = .moved b' c') :
    outstanding limit b' c' < outstanding limit b c := by
  unfold waitTurn at h
  split at h
  · next ht =>
    cases h
    have := close_outstanding limit b c
    rw [(Bool.and_eq_true_iff.mp ht).1] at this
    exact this
  · next ht =>
    split at h
    · cases h
    · next hlt =>
      split at h
      · next u c₁ hr =>
        cases h
        obtain ⟨hw, hl, hn, hp⟩ := Connection.takeIn_ok hr
        rcases hp with hp | hp
        · exact outstanding_add_le limit 1 rfl hn (by omega)
        · have hz := horizon_passed ht (Nat.lt_of_not_le hlt) hp
          simp only [outstanding]
          omega
      · next e c₁ hr =>
        obtain ⟨hw, hl, hn⟩ := Connection.takeIn_error hr
        have hm : outstanding limit b c₁ ≤ outstanding limit b c :=
          outstanding_le limit rfl hn (by omega)
        exact Nat.lt_of_lt_of_le (abandon_moved hd h) hm

/-- A turn that moves something leaves less outstanding, or as much of it and less input. -/
theorem step_moved {limit : Nat} {b b' : Background} {c c' : Connection}
    (h : b.step limit c = .moved b' c') :
    outstanding limit b' c' < outstanding limit b c ∨
      outstanding limit b' c' ≤ outstanding limit b c ∧ b'.work < b.work := by
  unfold step at h
  split at h
  · cases h
  · next hd =>
    have hd := Bool.eq_false_iff.mpr hd
    split at h
    · split at h
      · exact .inl (waitTurn_moved hd h)
      · exact .inl (collectTurn_moved hd h)
    · exact .inr (feedTurn_moved h)

/-- Takes turns until input has been written, or the command is done, or the clock has reached
`limit` and nothing is left that needs no waiting. -/
def advance (limit : Nat) (b : Background) (c : Connection) : Background × Connection :=
  match _ : b.step limit c with
  | .moved later after => advance limit later after
  | .wrote later after => (later, after)
  | .blocked => (b, c)
termination_by (outstanding limit b c, b.work)
decreasing_by
  rcases step_moved ‹b.step limit c = _› with h | h
  · exact .left _ _ h
  · rcases Nat.lt_or_eq_of_le h.1 with ho | ho
    · exact .left _ _ ho
    · rw [ho]
      exact .right _ h.2

end Background
end DroidHost.Shell
