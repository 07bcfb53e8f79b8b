import DroidHost.Bridge.Device
import DroidHost.Proofs.FileCalls

/-! The file session that a device keeps from one call to the next. A call that ends in order leaves
it at rest. -/
namespace DroidHost

open Connection SyncSession

namespace Device

def perform (d : Device) : FileCall → EStateM.Result BridgeError Device Unit
  | .stat path => forget (Device.stat path d)
  | .list path => forget (Device.list path d)
  | .push source path mode => Device.push source path mode d
  | .pull path sink => forget (Device.pull path sink d).1

theorem forget_settle (s : SyncSession) (r : EStateM.Result BridgeError Connection α) :
    forget (settle s r) = settle s (forget r) := by
  cases r with
  | ok a c => rfl
  | error e c =>
    cases h : losesPosition e with
    | true => simp only [settle, forget, h, if_true]
    | false => simp only [settle, forget, h, Bool.false_eq_true, if_false]

theorem perform_eq (d : Device) (call : FileCall) :
    d.perform call = match openSync d with
      | .error e d => .error e d
      | .ok s d => settle s (call.work s d.connection) := by
  cases call with
  | stat path =>
    unfold perform Device.stat withSync
    cases openSync d with
    | error e d => rfl
    | ok s d => exact forget_settle s _
  | list path =>
    unfold perform Device.list withSync
    cases openSync d with
    | error e d => rfl
    | ok s d => exact forget_settle s _
  | push source path mode =>
    unfold perform Device.push withSync
    cases openSync d with
    | error e d => rfl
    | ok s d => rfl
  | pull path sink =>
    unfold perform Device.pull
    cases openSync d with
    | error e d => rfl
    | ok s d => exact forget_settle s _

def fresh (channel : Channel) (info : DeviceInfo) (settings : HostSettings) : Device :=
  { connection := (Client.fresh channel info settings).connection }

def outside (d : Device) (link : Link) : Device :=
  let ch := d.connection.channel
  { d with connection := { d.connection with
      channel := { ch with link := { link with past := ch.link.past } } } }

end Device

inductive FileEvent
  | call (call : FileCall)
  | outside (link : Link)
  deriving DecidableEq, Repr

namespace Device

def happen (d : Device) : FileEvent → Device
  | .call call => final (d.perform call)
  | .outside link => d.outside link

def after (d : Device) (events : List FileEvent) : Device := events.foldl happen d

/-- The next call finds no session and opens one. -/
def Renews (d : Device) : Prop := ∀ link, (d.outside link).dropClosedSync.sync = none

/-- The session is kept then, wherever it stands. -/
def strands : BridgeError → Bool
  | .link f => !f.isTimeout
  | .integrity _ => true
  | .localFile _ => true
  | _ => false

/-- Whole exchanges and nothing else. -/
inductive Exchanged : Bytes → Bytes → Prop
  | none : Exchanged [] []
  | one {put got replies : Bytes} (call : FileCall) (mtime : UInt32) (h : Exchanged put got)
      (hr : call.Concluded replies) : Exchanged (put ++ call.wording mtime) (got ++ replies)

/-- The call was made on the session from end to end. -/
def Answered (s : SyncSession) (call : FileCall) (opened after : Device) : Prop :=
  ∃ mtime replies,
    after.connection.written s.stream.localId =
      opened.connection.written s.stream.localId ++ call.wording mtime ∧
    after.connection.taken s.stream.localId =
      opened.connection.taken s.stream.localId ++ replies ∧ call.Concluded replies

/-- No session is kept, or only one whose stream is closed. -/
def GivenUp (d : Device) : Prop := ∀ s, d.sync = some s → d.connection.Shut s.stream.localId

theorem isClosed_of_shut {c : Connection} {s : Stream} (h : c.Shut s.localId) :
    c.isClosed s = true := by
  rw [Connection.isClosed, Bool.or_eq_true]
  right
  cases hf : c.table.find? s.localId with
  | none => rfl
  | some state => exact decide_eq_true (h state hf)

theorem GivenUp.renews {d : Device} (h : d.GivenUp) : d.Renews := by
  intro link
  unfold dropClosedSync
  split
  · next s hs =>
    have hclosed : (d.outside link).connection.isClosed s.stream = true :=
      isClosed_of_shut (h s hs)
    rw [if_pos hclosed]
  · next hs => exact hs

theorem of_dropClosedSync_some {d : Device} {s : SyncSession} (h : d.dropClosedSync.sync = some s) :
    d.dropClosedSync = d ∧ d.connection.isClosed s.stream = false := by
  unfold dropClosedSync at h ⊢
  split at h
  · next t hs =>
    split at h
    · cases h
    · next hopen =>
      rw [hs] at h
      cases h
      exact ⟨if_neg hopen, Bool.eq_false_iff.mpr hopen⟩
  · next hs =>
    rw [hs] at h
    cases h

theorem dropClosedSync_moves (d : Device) :
    d.connection.Moves d.dropClosedSync.connection := by
  unfold dropClosedSync
  split
  · split
    · exact Connection.closeStream_moves _ _
    · exact .refl
  · exact .refl

theorem start_fresh {timeout : Nat} {c after : Connection} {s : SyncSession}
    (h : SyncSession.start timeout c = .ok s after) :
    after.written s.stream.localId = [] ∧ after.taken s.stream.localId = [] := by
  unfold SyncSession.start at h
  split at h
  · next hs =>
    cases h
    unfold Connection.openService at hs
    split at hs
    · next ho =>
      cases hs
      exact openStream_fresh ho
    · cases hs
    · cases hs
  · cases h

theorem start_moves (timeout : Nat) (c : Connection) :
    c.Moves (final (SyncSession.start timeout c)) := by
  have hm := c.openService_moves "sync:" timeout
  unfold SyncSession.start
  cases h : c.openService "sync:" timeout with
  | ok stream after =>
    rw [h] at hm
    exact hm
  | error e after =>
    rw [h] at hm
    exact hm

theorem openSync_cases (d : Device) :
    match openSync d with
    | .ok s after => after.sync = some s ∧ d.connection.Moves after.connection ∧
        (after = d ∧ ¬ d.connection.Shut s.stream.localId ∨
          after.connection.written s.stream.localId = [] ∧
            after.connection.taken s.stream.localId = [])
    | .error _ after => after.sync = none ∧ d.connection.Moves after.connection := by
  have hd := d.dropClosedSync_moves
  unfold openSync
  cases h : d.dropClosedSync with
  | mk c sync =>
    cases sync with
    | some s =>
      have hsync : d.dropClosedSync.sync = some s := congrArg Device.sync h
      obtain ⟨hsame, hopen⟩ := of_dropClosedSync_some hsync
      have hkept : d = ⟨c, some s⟩ := hsame.symm.trans h
      subst hkept
      refine ⟨rfl, .refl, .inl ⟨rfl, ?_⟩⟩
      intro hshut
      rw [isClosed_of_shut hshut] at hopen
      cases hopen
    | none =>
      rw [h] at hd
      have hm := start_moves d.timeout c
      dsimp only
      cases hs : SyncSession.start d.timeout c with
      | ok s after =>
        rw [hs] at hm
        exact ⟨rfl, hd.trans hm, .inr (start_fresh hs)⟩
      | error e after =>
        rw [hs] at hm
        exact ⟨rfl, hd.trans hm⟩

theorem openSync_accounted {d after : Device} {s : SyncSession} (hd : d.connection.Accounted)
    (h : openSync d = .ok s after) : after.connection.Accounted := by
  have ho := openSync_cases d
  rw [h] at ho
  exact ho.2.1.kept (fun _ _ => Connection.Accounted.move) hd

theorem settle_cases {s : SyncSession} {after : Device}
    {r : EStateM.Result BridgeError Connection Unit} {e : BridgeError}
    (h : settle s r = .error e after) :
    ∃ c, r = .error e c ∧ (losesPosition e = true ∧ after = ⟨s.abandon c, none⟩ ∨
      losesPosition e = false ∧ after = ⟨c, some s⟩) := by
  unfold settle at h
  split at h
  · cases h
  · next e' c =>
    split at h
    · next hl =>
      cases h
      exact ⟨c, rfl, .inl ⟨hl, rfl⟩⟩
    · next hl =>
      cases h
      exact ⟨c, rfl, .inr ⟨Bool.eq_false_iff.mpr hl, rfl⟩⟩

theorem isStreamClosed_of_failed {id : UInt32} {e : BridgeError} {c : Connection}
    (h : Failed id e c) (hl : losesPosition e = false) (hs : strands e = false) :
    e.isStreamClosed = true := by
  rw [losesPosition, Bool.or_eq_false_iff] at hl
  rcases h.cause with hcause | ht | hclosed
  · cases e with
    | link f =>
      rw [strands, Bool.not_eq_false'] at hs
      rw [BridgeError.isTimeout, hs] at hl
      cases hl.2
    | protocol violation => cases hl.1
    | integrity mismatch => cases hs
    | _ => cases hcause
  · rw [ht] at hl
    cases hl.2
  · exact hclosed

theorem perform_error {d opened after : Device} {s : SyncSession} {call : FileCall}
    {e : BridgeError} (hd : d.connection.Accounted) (ho : openSync d = .ok s opened)
    (h : d.perform call = .error e after) (hs : strands e = false) :
    after.GivenUp ∨ after = opened ∨ Answered s call opened after := by
  have hc := openSync_cases d
  have hw := FileCall.ends_work (openSync_accounted hd ho) s call
  rw [perform_eq, ho] at h
  rw [ho] at hc
  obtain ⟨c, hr, ⟨_, rfl⟩ | ⟨hl, rfl⟩⟩ := settle_cases h
  · exact .inl nofun
  · rw [hr] at hw
    obtain ⟨put, got, hu, hf⟩ := hw
    cases hf with
    | traffic hf =>
      have hclosed : e.isStreamClosed = true := isStreamClosed_of_failed hf hl hs
      refine .inl ?_
      rintro _ ⟨⟩
      exact hf.shut hclosed
    | localFile f => cases hs
    | refused length =>
      obtain ⟨connection, sync⟩ := opened
      cases hc.1
      exact .inr (.inl rfl)
    | reported text hg hp =>
      rcases hp with ⟨mtime, rfl⟩ | hshut
      · exact .inr (.inr ⟨mtime, got, hu.did.written, hu.did.taken, hg⟩)
      · refine .inl ?_
        rintro _ ⟨⟩
        exact hshut

theorem perform_ok {d opened after : Device} {s : SyncSession} {call : FileCall} {u : Unit}
    (hd : d.connection.Accounted) (ho : openSync d = .ok s opened)
    (h : d.perform call = .ok u after) :
    after.sync = some s ∧ Answered s call opened after := by
  have hw := FileCall.ends_work (openSync_accounted hd ho) s call
  rw [perform_eq, ho] at h
  dsimp only at h
  cases hr : call.work s opened.connection with
  | error e c =>
    rw [hr, settle] at h
    split at h <;> cases h
  | ok u c =>
    rw [hr, settle] at h
    cases h
    rw [hr] at hw
    obtain ⟨put, got, hu, ⟨mtime, rfl⟩, hg⟩ := hw
    exact ⟨rfl, mtime, got, hu.did.written, hu.did.taken, hg⟩

theorem perform_accounted {d : Device} (hd : d.connection.Accounted) (call : FileCall) :
    (final (d.perform call)).connection.Accounted := by
  have hc := openSync_cases d
  rw [perform_eq]
  cases ho : openSync d with
  | error e after =>
    rw [ho] at hc
    exact hc.2.kept (fun _ _ => Connection.Accounted.move) hd
  | ok s opened =>
    have hopened : opened.connection.Accounted := openSync_accounted hd ho
    have hw := FileCall.ends_work hopened s call
    dsimp only
    cases hr : call.work s opened.connection with
    | ok u c =>
      rw [hr] at hw
      obtain ⟨put, got, hu, _⟩ := hw
      exact hu.accounted hopened
    | error e c =>
      rw [hr] at hw
      obtain ⟨put, got, hu, _⟩ := hw
      have hafter : c.Accounted := hu.accounted hopened
      rw [settle]
      split
      · exact (Connection.closeStream_moves s.stream c).kept
          (fun _ _ => Connection.Accounted.move) hafter
      · exact hafter

theorem after_accounted (channel : Channel) (info : DeviceInfo) (settings : HostSettings)
    (events : List FileEvent) :
    ((fresh channel info settings).after events).connection.Accounted := by
  have hstep (d : Device) (hd : d.connection.Accounted) (e : FileEvent) :
      (d.happen e).connection.Accounted := by
    cases e with
    | call call => exact perform_accounted hd call
    | outside link => exact hd.of_eq (fun _ => rfl) rfl
  have hrun (events : List FileEvent) (d : Device) (hd : d.connection.Accounted) :
      (d.after events).connection.Accounted := by
    induction events generalizing d with
    | nil => exact hd
    | cons e rest ih => exact ih (d.happen e) (hstep d hd e)
  exact hrun events _ (Connection.accounted_fresh channel info settings)

/-- The session that is kept has had whole exchanges and nothing else. -/
def Rests (d : Device) : Prop :=
  ∀ s, d.sync = some s → d.connection.Shut s.stream.localId ∨
    Exchanged (d.connection.written s.stream.localId) (d.connection.taken s.stream.localId)

theorem Rests.opened {d opened : Device} {s : SyncSession} (h : d.Rests)
    (ho : openSync d = .ok s opened) :
    Exchanged (opened.connection.written s.stream.localId)
      (opened.connection.taken s.stream.localId) := by
  have hc := openSync_cases d
  rw [ho] at hc
  obtain ⟨hsync, _, ⟨rfl, hopen⟩ | ⟨hput, hgot⟩⟩ := hc
  · exact (h s hsync).resolve_left hopen
  · rw [hput, hgot]
    exact .none

theorem Rests.perform {d : Device} (h : d.Rests) (hd : d.connection.Accounted) {call : FileCall}
    (hs : ∀ e after, d.perform call = .error e after → strands e = false) :
    (final (d.perform call)).Rests := by
  cases ho : openSync d with
  | error e after =>
    have hc := openSync_cases d
    rw [ho] at hc
    rw [perform_eq, ho]
    intro s hsync
    rw [final_error, hc.1] at hsync
    cases hsync
  | ok s opened =>
    have hopened := h.opened ho
    have hsync : opened.sync = some s := by
      have hc := openSync_cases d
      rw [ho] at hc
      exact hc.1
    cases hp : d.perform call with
    | ok u after =>
      obtain ⟨hkept, mtime, replies, hput, hgot, hreplies⟩ := perform_ok hd ho hp
      intro t ht
      rw [final_ok, hkept] at ht
      cases ht
      rw [final_ok, hput, hgot]
      exact .inr (.one call mtime hopened hreplies)
    | error e after =>
      rw [final_error]
      have hkept (t : SyncSession) (ht : after.sync = some t) : t = s := by
        rw [perform_eq, ho] at hp
        obtain ⟨c, _, ⟨_, rfl⟩ | ⟨_, rfl⟩⟩ := settle_cases hp
        · cases ht
        · exact (Option.some.inj ht).symm
      rcases perform_error hd ho hp (hs e after hp) with hup | rfl | ⟨mtime, replies, hput, hgot, hr⟩
      · intro t ht
        exact .inl (hup t ht)
      · intro t ht
        rw [hkept t ht]
        exact .inr hopened
      · intro t ht
        rw [hkept t ht, hput, hgot]
        exact .inr (.one call mtime hopened hr)

def Unstranded (start : Device) (events : List FileEvent) : Prop :=
  ∀ earlier call later, events = earlier ++ .call call :: later →
    ∀ e after, (start.after earlier).perform call = .error e after → strands e = false

theorem rests_after {start : Device} (hd : start.connection.Accounted) (h : start.Rests)
    (events : List FileEvent) (hu : start.Unstranded events) : (start.after events).Rests := by
  induction events generalizing start with
  | nil => exact h
  | cons e rest ih =>
    have hrest (hh : (start.happen e).connection.Accounted) (hr : (start.happen e).Rests) :
        ((start.happen e).after rest).Rests := by
      apply ih hh hr
      rintro earlier call later rfl
      exact hu (e :: earlier) call later rfl
    cases e with
    | call call =>
      exact hrest (perform_accounted hd call) (h.perform hd (hu [] call rest rfl))
    | outside link => exact hrest (hd.of_eq (fun _ => rfl) rfl) h

theorem Renews.opened {d opened : Device} {s : SyncSession} (h : d.Renews) (link : Link)
    (ho : openSync (d.outside link) = .ok s opened) :
    opened.connection.written s.stream.localId = [] ∧
      opened.connection.taken s.stream.localId = [] := by
  have hnone := h link
  unfold openSync at ho
  cases hd : (d.outside link).dropClosedSync with
  | mk c sync =>
    rw [hd] at hnone ho
    cases hnone
    dsimp only at ho
    split at ho
    · next hs =>
      cases ho
      exact start_fresh hs
    · cases ho

theorem losesPosition_of_strands {e : BridgeError} (h : strands e = true) :
    losesPosition e = false := by
  cases e with
  | link f =>
    rw [strands, Bool.not_eq_true'] at h
    rw [losesPosition, BridgeError.isTimeout, h]
    rfl
  | integrity mismatch => rfl
  | localFile f => rfl
  | _ => cases h

/-- A call that fails, and whose failure does not strand its session, leaves no session that the
next call could go on with, unless it had not begun or was answered to the end. Only failures of the
link that are no timeouts, corrupt messages and local files strand a session. -/
theorem file_session_position (channel : Channel) (info : DeviceInfo) (settings : HostSettings)
    (events : List FileEvent) (call : FileCall) :
    let start := fresh channel info settings
    let d := start.after events
    (∀ e after, openSync d = .error e after → d.perform call = .error e after ∧ after.Renews) ∧
    (∀ s opened, openSync d = .ok s opened →
      (start.Unstranded events → Exchanged (opened.connection.written s.stream.localId)
        (opened.connection.taken s.stream.localId)) ∧
      ∀ e after, d.perform call = .error e after →
        (losesPosition e = true → after.sync = none) ∧
        (strands e = true → after.sync = some s) ∧
        (strands e = false → after.Renews ∨ after = opened ∨ Answered s call opened after)) ∧
    (d.Renews → ∀ link s opened, openSync (d.outside link) = .ok s opened →
      opened.connection.written s.stream.localId = [] ∧
        opened.connection.taken s.stream.localId = []) := by
  intro start d
  have hd : d.connection.Accounted := after_accounted channel info settings events
  refine ⟨?_, ?_, fun h link s opened ho => h.opened link ho⟩
  · intro e after ho
    have hc := openSync_cases d
    rw [ho] at hc
    refine ⟨by rw [perform_eq, ho], GivenUp.renews ?_⟩
    intro s hs
    rw [hc.1] at hs
    cases hs
  · intro s opened ho
    refine ⟨?_, ?_⟩
    · intro hu
      have hrests : d.Rests :=
        rests_after (Connection.accounted_fresh channel info settings) (fun _ h => by cases h)
          events hu
      exact hrests.opened ho
    · intro e after hp
      have hsettled := hp
      rw [perform_eq, ho] at hsettled
      obtain ⟨c, _, hcases⟩ := settle_cases hsettled
      refine ⟨?_, ?_, ?_⟩
      · intro hl
        rcases hcases with ⟨_, rfl⟩ | ⟨hkept, _⟩
        · rfl
        · rw [hl] at hkept
          cases hkept
      · intro hs
        rcases hcases with ⟨hlost, _⟩ | ⟨_, rfl⟩
        · rw [losesPosition_of_strands hs] at hlost
          cases hlost
        · rfl
      · intro hs
        rcases perform_error hd ho hp hs with hup | hsame | hdone
        · exact .inl hup.renews
        · exact .inr (.inl hsame)
        · exact .inr (.inr hdone)

/-- A download runs out of time in the middle. Its session is given up, and the next call has a
stream of its own. -/
theorem file_session_position_timeout :
    let message (m : Message) : Arrival := .chunk m.encode
    let link : Link := { inbound := [message ⟨.okay, 100, 1, []⟩, message ⟨.okay, 100, 1, []⟩,
      message ⟨.write, 100, 1, SyncSession.frame .data 1 [120]⟩] }
    let d := fresh { link := link } ⟨"device", "S", "", 0, 4096⟩ {}
    let pull : FileCall := .pull "/a" {}
    let pulled := final (d.perform pull)
    let next : Link := { inbound := [message ⟨.okay, 101, 2, []⟩] }
    outcome (d.perform pull) = .error (.timeout 10000000000 (.data 1)) ∧ pulled.sync = none ∧
      pulled.Renews ∧
      ∃ s opened, openSync (pulled.outside next) = .ok s opened ∧ s.stream.localId = 2 ∧
        opened.connection.written 2 = [] ∧ opened.connection.taken 2 = [] := by
  intro message link d pull pulled next
  let session (id : UInt32) : SyncSession := ⟨⟨"sync:", id, false⟩, 10000000000⟩
  have hfailed : outcome (d.perform pull) = .error (.timeout 10000000000 (.data 1)) := by
    decide +kernel
  have hopened : openSync d = .ok (session 1) (final (openSync d)) :=
    eq_ok_of_outcome (by decide +kernel)
  have hnext : openSync (pulled.outside next) =
      .ok (session 2) (final (openSync (pulled.outside next))) := eq_ok_of_outcome (by decide +kernel)
  obtain ⟨_, hcall, _⟩ := file_session_position { link := link } ⟨"device", "S", "", 0, 4096⟩ {}
    [] pull
  have hnone : pulled.sync = none :=
    ((hcall (session 1) _ hopened).2 _ _ (eq_error_of_outcome hfailed)).1 rfl
  have hrenews : pulled.Renews := by
    apply GivenUp.renews
    intro s hs
    rw [hnone] at hs
    cases hs
  obtain ⟨_, _, hfresh⟩ := file_session_position { link := link } ⟨"device", "S", "", 0, 4096⟩ {}
    [.call pull] pull
  exact ⟨hfailed, hnone, hrenews, session 2, _, hnext, rfl, hfresh hrenews next _ _ hnext⟩

/-- A download stops because the file cannot be written. The next call takes what is left of the
replies for its own. -/
theorem full_sink_keeps_session :
    let message (m : Message) : Arrival := .chunk m.encode
    let link : Link := { inbound := [message ⟨.okay, 100, 1, []⟩, message ⟨.okay, 100, 1, []⟩,
      message ⟨.write, 100, 1, SyncSession.frame .data 1 [120]⟩,
      message ⟨.write, 100, 1, SyncSession.frame .data 8 [1, 2, 3, 4, 5, 6, 7, 8]⟩,
      message ⟨.okay, 100, 1, []⟩] }
    let d := fresh { link := link } ⟨"device", "S", "", 0, 4096⟩ {}
    let pull : FileCall := .pull "/a" { limit := some 0 }
    let pulled := final (d.perform pull)
    outcome (d.perform pull) = .error (.localFile ⟨.other, "sink full"⟩) ∧
      pulled.connection.written 1 = pull.wording 0 ∧
      ¬ pull.Concluded (pulled.connection.taken 1) ∧ pulled.sync.isSome = true ∧
      ¬ pulled.Renews ∧
      outcome (pulled.perform (.stat "/b")) = .error (.protocol (.misplacedReply .data .stat)) := by
  intro message link d pull pulled
  have htaken : pulled.connection.taken 1 = SyncSession.frame .data 1 [120] := by decide +kernel
  refine ⟨by decide +kernel, by decide +kernel, ?_, by decide +kernel, ?_, by decide +kernel⟩
  · have hparse : SyncReply.parse .data (SyncSession.frame .data 1 [120]) =
        some (.ok (.data [120]), []) := by decide +kernel
    rw [htaken]
    exact FileCall.not_concluded hparse rfl
  · intro hrenews
    have hkept : (pulled.outside link).dropClosedSync.sync.isSome = true := by decide +kernel
    rw [hrenews link] at hkept
    cases hkept

end Device

end DroidHost
