import DroidHost.Bridge.Client
import Mathlib.Logic.Relation

/-! Runs of a connection. What every move keeps is kept by every run. -/
namespace DroidHost

namespace Connection

/-- Each call on a connection is a chain of these. -/
inductive Move : Connection → Connection → Prop
  /-- More is under way, or time passes, or the link is closed. -/
  | outside {c : Connection} (link : Link) (h : link.past = c.channel.link.past) :
    Move c { c with channel := { c.channel with link := link } }
  | ask {c : Connection} (destination : String) (deadline : Deadline) :
    Move c (final (c.ask destination deadline))
  | takeIn {c : Connection} (deadline : Deadline) : Move c (final (c.takeIn deadline))
  | sendPiece {c : Connection} (id : UInt32) (deadline : Deadline) (piece : Bytes) :
    Move c (final (c.sendPiece id deadline piece))
  /-- Bytes that have come are handed out. -/
  | take {c after : Connection} (id : UInt32) (length : Nat) (bytes : Bytes)
      (h : c.inspect id (StreamState.supplying id length) = some (.ok bytes after)) :
    Move c (after.note (.taken id bytes))
  | release {c : Connection} (id : UInt32) : Move c (c.release id)

def Moves : Connection → Connection → Prop := Relation.ReflTransGen Move

theorem Moves.kept {P : Connection → Prop} (hp : ∀ c after, Move c after → P c → P after)
    {c after : Connection} (h : Moves c after) (hc : P c) : P after := by
  induction h with
  | refl => exact hc
  | tail _ hm ih => exact hp _ _ hm ih

theorem inspect_same {id : UInt32} {look : StreamState → Look α} {c after : Connection} {a : α}
    (hl : ∀ s a s', look s = .ready a s' → s' = s)
    (h : c.inspect id look = some (.ok a after)) : after = c := by
  obtain ⟨s, s', hs, hr, rfl⟩ := inspect_ok h
  rw [hl s a s' hr, setStream, StreamTable.set_eq_self hs]

/-- Messages are taken in, any number of them. -/
def Waits (deadline : Deadline) : Connection → Connection → Prop :=
  Relation.ReflTransGen fun c after => after = final (c.takeIn deadline)

theorem Waits.moves {deadline : Deadline} {c after : Connection} (h : Waits deadline c after) :
    Moves c after := by
  induction h with
  | refl => exact .refl
  | tail _ hm ih =>
    subst hm
    exact ih.tail (.takeIn deadline)

theorem waitFor_waits (id : UInt32) (deadline : Deadline) (awaited : Awaited)
    (look : StreamState → Look α) (c : Connection) :
    match c.waitFor id deadline awaited look with
    | .error _ after => Waits deadline c after
    | .ok a after => ∃ mid, Waits deadline c mid ∧ mid.inspect id look = some (.ok a after) := by
  fun_induction waitFor id deadline awaited look c with
  | case1 c said hs =>
    cases said with
    | ok a after => exact ⟨c, .refl, hs⟩
    | error e after =>
      rw [inspect_error hs]
      exact .refl
  | case2 c hs he => exact .refl
  | case3 c hs he u mid ht ih =>
    have hm : mid = final (c.takeIn deadline) := by rw [ht, final_ok]
    cases hw : mid.waitFor id deadline awaited look with
    | ok a after =>
      rw [hw] at ih
      obtain ⟨last, hl, hi⟩ := ih
      exact ⟨last, hl.head hm, hi⟩
    | error e after =>
      rw [hw] at ih
      exact Relation.ReflTransGen.head hm ih
  | case4 c hs he e' mid ht =>
    have hm : mid = final (c.takeIn deadline) := by rw [ht, final_error]
    exact .single hm

theorem final_waitFor_moves (id : UInt32) (deadline : Deadline) (awaited : Awaited)
    {look : StreamState → Look α} (hl : ∀ s a s', look s = .ready a s' → s' = s) (c : Connection) :
    Moves c (final (c.waitFor id deadline awaited look)) := by
  have hw := waitFor_waits id deadline awaited look c
  cases h : c.waitFor id deadline awaited look with
  | error e after =>
    rw [h] at hw
    exact hw.moves
  | ok a after =>
    rw [h] at hw
    obtain ⟨mid, hm, hi⟩ := hw
    rw [final_ok, inspect_same hl hi]
    exact hm.moves

theorem readBy_waits (id : UInt32) (length : Nat) (deadline : Deadline) (c : Connection) :
    match c.readBy id length deadline with
    | .error _ after => Waits deadline c after
    | .ok bytes after => ∃ mid taken, Waits deadline c mid ∧
        mid.inspect id (StreamState.supplying id length) = some (.ok bytes taken) ∧
        after = taken.note (.taken id bytes) := by
  have hw := waitFor_waits id deadline (.data id) (StreamState.supplying id length) c
  unfold readBy
  cases h : c.waitFor id deadline (.data id) (StreamState.supplying id length) with
  | error e after =>
    rw [h] at hw
    exact hw
  | ok bytes after =>
    rw [h] at hw
    obtain ⟨mid, hm, hi⟩ := hw
    exact ⟨mid, after, hm, hi, rfl⟩

theorem readBy_moves (id : UInt32) (length : Nat) (deadline : Deadline) (c : Connection) :
    Moves c (final (c.readBy id length deadline)) := by
  have hw := readBy_waits id length deadline c
  cases h : c.readBy id length deadline with
  | error e after =>
    rw [h] at hw
    exact hw.moves
  | ok bytes after =>
    rw [h] at hw
    obtain ⟨mid, taken, hm, hi, rfl⟩ := hw
    exact hm.moves.tail (.take id length bytes hi)

end Connection

namespace StreamState

theorem eq_of_opening {s s' : StreamState} {a : Bool} (h : s.opening = .ready a s') : s' = s := by
  unfold opening at h
  split at h <;> cases h <;> rfl

theorem eq_of_acknowledging {id : UInt32} {s s' : StreamState} {u : Unit}
    (h : s.acknowledging id = .ready u s') : s' = s := by
  unfold acknowledging at h
  split at h
  · cases h
    rfl
  · split at h <;> cases h

end StreamState

namespace Connection

theorem openStream_moves (destination : String) (budget : Nat) (c : Connection) :
    Moves c (final (c.openStream destination budget)) := by
  have ha : Move c (final (c.ask destination (c.deadline budget))) := .ask _ _
  unfold openStream
  split
  · next e after h =>
    rw [h] at ha
    exact .single ha
  · next id asked h =>
    rw [h] at ha
    have hw := final_waitFor_moves id (c.deadline budget) (.openReply id)
      (fun _ _ _ => StreamState.eq_of_opening) asked
    split
    · next hr =>
      rw [hr] at hw
      exact hw.head ha
    · next hr =>
      rw [hr] at hw
      exact (hw.head ha).tail (.release id)
    · next hr =>
      rw [hr] at hw
      exact (hw.head ha).tail (.release id)

theorem openService_moves (destination : String) (budget : Nat) (c : Connection) :
    Moves c (final (c.openService destination budget)) := by
  have h := c.openStream_moves destination budget
  unfold openService
  split
  all_goals
    next hr =>
    rw [hr] at h
    exact h

theorem writePiece_moves (id : UInt32) (deadline : Deadline) (piece : Bytes) (c : Connection) :
    Moves c (final (c.writePiece id deadline piece)) := by
  have hs : Move c (final (c.sendPiece id deadline piece)) := .sendPiece _ _ _
  unfold writePiece
  split
  · next mid h =>
    rw [h] at hs
    exact (final_waitFor_moves id deadline (.okay id)
      (fun _ _ _ => StreamState.eq_of_acknowledging) mid).head hs
  · next h =>
    rw [h] at hs
    exact .single hs

theorem writePieces_moves (id : UInt32) (deadline : Deadline) (pieces : List Bytes)
    (c : Connection) : Moves c (final (c.writePieces id deadline pieces)) := by
  induction pieces generalizing c with
  | nil => exact .refl
  | cons piece rest ih =>
    have hp := c.writePiece_moves id deadline piece
    unfold writePieces
    split
    · next mid h =>
      rw [h] at hp
      exact hp.trans (ih mid)
    · next h =>
      rw [h] at hp
      exact hp

theorem collect_of_reads {R : Connection → Connection → Prop}
    (htrans : ∀ {c mid after}, R c mid → R mid after → R c after) {id : UInt32}
    {deadline : Deadline} (hread : ∀ c : Connection, R c (final (c.readBy id 0 deadline)))
    (got : List Bytes) (c : Connection) : R c (final (c.collect id deadline got)) := by
  fun_induction collect id deadline got c with
  | case1 got c bytes after h ih =>
    have hr := hread c
    rw [h] at hr
    exact htrans hr ih
  | case2 got c k after h =>
    have hr := hread c
    rw [h] at hr
    exact hr
  | case3 got c e after hne h =>
    have hr := hread c
    rw [h] at hr
    exact hr

theorem collect_moves (id : UInt32) (deadline : Deadline) (got : List Bytes) (c : Connection) :
    Moves c (final (c.collect id deadline got)) :=
  collect_of_reads Relation.ReflTransGen.trans (readBy_moves id 0 deadline) got c

theorem closeStream_moves (s : Stream) (c : Connection) : Moves c (c.closeStream s).2 := by
  unfold closeStream
  split
  · exact .refl
  · exact .single (.release s.localId)

end Connection

/-- What can happen next to a client. -/
inductive Event
  | call (call : Call)
  | supply (arrivals : List Arrival)
  /-- How further writes will go. -/
  | plan (deliveries : List Delivery)
  | pass (nanos : Nat)
  | hangUp
  deriving DecidableEq, Repr

namespace Client

/-- A client of a connection on which no stream was ever opened. -/
def fresh (channel : Channel) (info : DeviceInfo) (settings : HostSettings) : Client :=
  { connection := { channel := channel, info := info, settings := settings } }

def relink (client : Client) (f : Link → Link) : Client :=
  let c := client.connection
  { client with connection := { c with channel := { c.channel with link := f c.channel.link } } }

def happen (client : Client) : Event → Client
  | .call call => (client.perform call).2
  | .supply arrivals => client.relink fun link => { link with inbound := link.inbound ++ arrivals }
  | .plan deliveries => client.relink fun link => { link with plan := link.plan ++ deliveries }
  | .pass nanos => client.relink (Link.sleep nanos)
  | .hangUp => client.relink Link.close

def after (client : Client) (events : List Event) : Client := events.foldl happen client

theorem answering_connection (client : Client) (answer : α → Answer)
    (r : EStateM.Result BridgeError Connection α) :
    (client.answering answer r).2.connection = final r := by
  cases r <;> rfl

theorem keep_connection (client : Client)
    (r : EStateM.Result BridgeError Connection (Option Stream)) :
    (client.keep r).2.connection = final r := by
  rcases r with ⟨_ | _, _⟩ | ⟨_, _⟩ <;> rfl

theorem withHandle_moves {client : Client} {handle : Nat} {act : Stream → Answer × Client}
    (h : ∀ s, client.connection.Moves (act s).2.connection) :
    client.connection.Moves (client.withHandle handle act).2.connection := by
  unfold withHandle
  split
  · exact h _
  · exact .refl
  · exact .refl

theorem perform_moves (call : Call) (client : Client) :
    client.connection.Moves (client.perform call).2.connection := by
  cases call with
  | openStream destination budget =>
    rw [perform, keep_connection]
    exact Connection.openStream_moves destination budget _
  | openService destination budget =>
    have h := client.connection.openService_moves destination budget
    rw [perform]
    split
    · next hr =>
      rw [hr] at h
      exact h
    · next hr =>
      rw [hr] at h
      exact h
  | write handle bytes budget =>
    apply withHandle_moves
    intro s
    rw [answering_connection]
    exact Connection.writePieces_moves _ _ _ _
  | read handle length budget =>
    apply withHandle_moves
    intro s
    rw [answering_connection]
    exact Connection.readBy_moves _ _ _ _
  | readUntilClose handle budget =>
    apply withHandle_moves
    intro s
    rw [answering_connection]
    exact Connection.collect_moves _ _ _ _
  | close handle =>
    apply withHandle_moves
    intro s
    exact Connection.closeStream_moves s _
  | drop handle =>
    apply withHandle_moves
    intro s
    exact Connection.closeStream_moves s _

theorem happen_moves (client : Client) (e : Event) :
    client.connection.Moves (client.happen e).connection := by
  cases e with
  | call call => exact perform_moves call client
  | supply arrivals => exact .single (.outside _ rfl)
  | plan deliveries => exact .single (.outside _ rfl)
  | pass nanos => exact .single (.outside _ rfl)
  | hangUp => exact .single (.outside _ rfl)

theorem after_moves (client : Client) (events : List Event) :
    client.connection.Moves (client.after events).connection := by
  induction events generalizing client with
  | nil => exact .refl
  | cons e rest ih => exact (client.happen_moves e).trans (ih (client.happen e))

/-- What holds of a connection without a history and is kept by every move holds after every
run. -/
theorem connection_after {P : Connection → Prop}
    (hp : ∀ c after, c.Move after → P c → P after) {channel : Channel} {info : DeviceInfo}
    {settings : HostSettings} (h : P (fresh channel info settings).connection)
    (events : List Event) : P ((fresh channel info settings).after events).connection :=
  ((fresh channel info settings).after_moves events).kept hp h

end Client
end DroidHost
