import DroidHost.Proofs.Refusal

/-! How an upload fails when the device closes the stream: with the reason that the device has
given, if it has given one. -/
namespace DroidHost

namespace Connection

/-- The device has closed the stream and nothing is wrong with it, or there is none. -/
def Over (id : UInt32) (c : Connection) : Prop :=
  ∀ s, c.table.find? id = some s → s.phase = .closed ∧ s.fault = none

theorem over_of_inspect {id k : UInt32} {look : StreamState → Look α} {c after : Connection}
    (hl : ∀ s e, look s = .failed e → s.phase = .closed)
    (h : c.inspect id look = some (.error (.streamClosed k) after)) :
    c.Over id ∧ ∀ s, c.table.find? id = some s → look s = .failed (.streamClosed k) := by
  unfold inspect at h
  cases hs : c.table.find? id with
  | none =>
    refine ⟨fun s hfound => ?_, nofun⟩
    rw [hs] at hfound
    cases hfound
  | some s =>
    simp only [hs] at h
    cases hfault : s.fault with
    | some fault =>
      rw [hfault] at h
      cases h
    | none =>
      rw [hfault] at h
      cases hlook : look s with
      | ready a s' =>
        rw [hlook] at h
        cases h
      | notYet =>
        rw [hlook] at h
        cases h
      | failed e =>
        rw [hlook] at h
        cases h
        refine ⟨fun t ht => ?_, fun t ht => ?_⟩
        · rw [hs] at ht
          cases ht
          exact ⟨hl s _ hlook, hfault⟩
        · cases ht
          exact hlook

def Fair (id : UInt32) (c : Connection) (r : EStateM.Result BridgeError Connection α) : Prop :=
  c.Accounted → (∀ a after, r = .ok a after → after.Accounted) ∧
    ∀ k after, r = .error (.streamClosed k) after → after.Over id

theorem fair_ok (id : UInt32) (c : Connection) (a : α) : Fair id c (.ok a c) := by
  intro ha
  refine ⟨?_, nofun⟩
  rintro a' after ⟨⟩
  exact ha

theorem fair_error {e : BridgeError} (he : e.isStreamClosed = false) (id : UInt32) (c : Connection) :
    Fair id c (.error e c : EStateM.Result BridgeError Connection α) := by
  intro _
  refine ⟨fun a after hok => ?_, fun k after hclosed => ?_⟩
  · cases hok
  · cases hclosed
    cases he

theorem Fair.bind {id : UInt32} {c : Connection} {x : EStateM BridgeError Connection α}
    {f : α → EStateM BridgeError Connection β} (hx : Fair id c (x c))
    (hf : ∀ a mid, Fair id mid (f a mid)) : Fair id c ((x >>= f) c) := by
  intro ha
  obtain ⟨hgood, hclosed⟩ := hx ha
  cases hr : x c with
  | ok a mid =>
    rw [bind_of_ok f hr]
    exact hf a mid (hgood a mid hr)
  | error e mid =>
    rw [bind_of_error f hr]
    refine ⟨fun b after hok => ?_, fun k after hfailed => ?_⟩
    · cases hok
    · cases hfailed
      exact hclosed k mid hr

theorem fair_writePiece (id : UInt32) (deadline : Deadline) (piece : Bytes) (c : Connection) :
    Fair id c (c.writePiece id deadline piece) := by
  intro ha
  have hafter := (c.writePiece_moves id deadline piece).kept (fun _ _ => Accounted.move) ha
  refine ⟨fun u after hr => ?_, fun k after hr => ?_⟩
  · rw [hr] at hafter
    exact hafter
  · unfold writePiece at hr
    cases hsend : c.sendPiece id deadline piece with
    | ok u sent =>
      rw [hsend] at hr
      have hl (s : StreamState) (e : BridgeError) (he : s.acknowledging id = .failed e) :
          s.phase = .closed := (StreamState.of_acknowledging_failed he).1
      exact (over_of_inspect hl (waitFor_closed hr)).1
    | error e sent =>
      rw [hsend] at hr
      cases hr
      unfold sendPiece at hsend
      cases hs : c.table.find? id with
      | none =>
        simp only [hs] at hsend
        cases hsend
        intro s hfound
        rw [hs] at hfound
        cases hfound
      | some s =>
        simp only [hs] at hsend
        cases hready : s.writable id with
        | ok peer =>
          simp only [hready] at hsend
          split at hsend <;> cases hsend
        | error e =>
          simp only [hready] at hsend
          cases hsend
          have hshut := (failed_writable hs (ha.met id s hs) hready).shut rfl
          intro t ht
          refine ⟨hshut t ht, ?_⟩
          rw [hs] at ht
          cases ht
          cases hfault : s.fault with
          | none => rfl
          | some fault =>
            rw [StreamState.writable, hfault] at hready
            cases hready

theorem fair_writePieces (id : UInt32) (deadline : Deadline) (pieces : List Bytes)
    (c : Connection) : Fair id c (c.writePieces id deadline pieces) := by
  induction pieces generalizing c with
  | nil => exact fair_ok id c ()
  | cons piece rest ih =>
    have hp := fair_writePiece id deadline piece c
    unfold writePieces
    cases hr : c.writePiece id deadline piece with
    | ok u mid =>
      rw [hr] at hp
      exact fun ha => ih mid ((hp ha).1 u mid rfl)
    | error e mid =>
      rw [hr] at hp
      refine fun ha => ⟨fun u after hok => ?_, fun k after hclosed => ?_⟩
      · cases hok
      · cases hclosed
        exact (hp ha).2 k mid rfl

end Connection

namespace SyncSession
open Connection

variable {s : SyncSession} {peer : UInt32}

theorem fair_writeFrame (s : SyncSession) (id : SyncId) (value : UInt32) (bytes : Bytes)
    (c : Connection) : Fair s.stream.localId c (s.writeFrame id value bytes c) :=
  fair_writePieces s.stream.localId (c.deadline s.timeout) _ c

theorem fair_sendFile (s : SyncSession) (source : Source) (c : Connection) :
    Fair s.stream.localId c (s.sendFile source c) := by
  fun_induction sendFile s source generalizing c with
  | case1 source f rest hr => exact fair_error rfl _ c
  | case2 source rest hr => exact fair_ok _ c ()
  | case3 source b bs rest hr ih =>
    apply (fair_writeFrame s .data (UInt32.ofNat (bs.length + 1)) (b :: bs) c).bind
    intro u mid
    split
    · exact fair_ok _ mid ()
    · next hmore => exact ih hmore mid

theorem fair_sendBody (s : SyncSession) (source : Source) (target : Bytes) (mtime : UInt32)
    (c : Connection) : Fair s.stream.localId c (s.sendBody source target mtime c) := by
  have hrequest : Fair s.stream.localId c (s.request .send target c) := by
    unfold request
    split
    · exact fair_error rfl _ c
    · exact fair_writeFrame s .send _ target c
  unfold sendBody
  apply hrequest.bind
  intro u asked
  apply (fair_sendFile s source asked).bind
  intro u sent
  exact fair_writeFrame s .done mtime [] sent

/-- What is read of a stream that is over comes from its buffer. -/
def Drawn (id : UInt32) (c after : Connection) : Prop :=
  c.Over id → after.Over id ∧
    ∃ got, after.taken id = c.taken id ++ got ∧ c.unread id = got ++ after.unread id

theorem drawn_refl (id : UInt32) (c : Connection) : Drawn id c c :=
  fun h => ⟨h, [], (List.append_nil _).symm, rfl⟩

theorem drawn_take (s : SyncSession) (n : Nat) : Leads (Drawn s.stream.localId) (s.take n) := by
  intro c
  unfold take
  by_cases hn : n = 0
  · rw [if_pos hn]
    exact drawn_refl _ c
  · rw [if_neg hn, Connection.read, readBy]
    intro hover
    cases ht : c.table.find? s.stream.localId with
    | none =>
      have hinspect : c.inspect s.stream.localId (StreamState.supplying s.stream.localId n) =
          some (.error (.streamClosed s.stream.localId) c) := by
        simp only [inspect, ht]
      rw [waitFor, hinspect]
      exact drawn_refl _ c hover
    | some t =>
      obtain ⟨hclosed, hfault⟩ := hover t ht
      by_cases hlength : n ≤ t.buffer.length
      · obtain ⟨hfound, _, hadvance⟩ :=
          advance_taken ht (StreamState.supplying_of_le hn hlength s.stream.localId)
        rw [waitFor, inspect_ready ht hfault hn hlength]
        refine ⟨?_, t.buffer.take n, hadvance.taken, ?_⟩
        · intro t' ht'
          rw [final_ok, hfound] at ht'
          cases ht'
          exact ⟨hclosed, hfault⟩
        · rw [final_ok, unread, unread, hfound, ht]
          exact (List.take_append_drop n t.buffer).symm
      · have hmax : ¬ max n 1 ≤ t.buffer.length := by omega
        have hinspect : c.inspect s.stream.localId (StreamState.supplying s.stream.localId n) =
            some (.error (.streamClosed s.stream.localId) c) := by
          simp only [inspect, ht, hfault, StreamState.supplying, hmax, hclosed, if_true, if_false]
        rw [waitFor, hinspect]
        exact drawn_refl _ c hover

theorem drawn_readReply (s : SyncSession) (shape : ReplyShape) :
    Leads (Drawn s.stream.localId) (s.readReply shape) := by
  refine leads_readReply (R := Drawn s.stream.localId) ?_ (drawn_refl _) s.drawn_take shape
  intro c mid after h h' hover
  obtain ⟨hmid, got, htaken, hunread⟩ := h hover
  obtain ⟨hafter, more, htaken', hunread'⟩ := h' hmid
  refine ⟨hafter, got ++ more, ?_, ?_⟩
  · rw [htaken', htaken, List.append_assoc]
  · rw [hunread, hunread', List.append_assoc]

/-- A run that finds the stream closed has read, with what is left in the buffer, less than some
parser needs. -/
def Short (s : SyncSession) (p : Parser β) (c : Connection)
    (r : EStateM.Result BridgeError Connection α) : Prop :=
  ∀ k after, r = .error (.streamClosed k) after → ∃ got,
    after.taken s.stream.localId = c.taken s.stream.localId ++ got ∧
      p (got ++ after.unread s.stream.localId) = none

theorem short_ok (s : SyncSession) (p : Parser β) (c mid : Connection) (a : α) :
    s.Short p c (.ok a mid) := by
  intro k after h
  cases h

theorem short_error (s : SyncSession) (p : Parser β) (c mid : Connection) {e : BridgeError}
    (he : e.isStreamClosed = false) :
    s.Short p c (.error e mid : EStateM.Result BridgeError Connection α) := by
  intro k after h
  cases h
  cases he

theorem take_closed {c after : Connection} {n : Nat} {k : UInt32}
    (h : s.take n c = .error (.streamClosed k) after) :
    after.taken s.stream.localId = c.taken s.stream.localId ∧
      (after.unread s.stream.localId).length < n := by
  have hw := c.readBy_waits s.stream.localId n (c.deadline s.timeout)
  unfold take at h
  split at h
  · cases h
  · next hn =>
    rw [Connection.read] at h
    rw [h] at hw
    refine ⟨(hw.did s.stream.localId).taken.trans (List.append_nil _), ?_⟩
    unfold readBy at h
    split at h
    · cases h
    · next hwait =>
      cases h
      have hl (t : StreamState) (e : BridgeError)
          (he : t.supplying s.stream.localId n = .failed e) : t.phase = .closed :=
        (StreamState.of_supplying_failed he).2.1
      have hlook := (over_of_inspect hl (waitFor_closed hwait)).2
      cases ht : after.table.find? s.stream.localId with
      | none =>
        rw [unread, ht]
        exact Nat.pos_of_ne_zero hn
      | some t =>
        have hshort := (StreamState.of_supplying_failed (hlook t ht)).1
        rw [unread, ht, Option.map_some, Option.getD_some]
        omega

theorem short_take_bind {c : Connection} (n : Nat) {f : Bytes → EStateM BridgeError Connection α}
    {k : Bytes → Parser β} {p : Parser β}
    (hp : ∀ bytes, p bytes = (Bytes.cut n bytes).bind fun cut => k cut.1 cut.2)
    (hf : ∀ front mid, s.Short (k front) mid (f front mid)) :
    s.Short p c ((s.take n >>= f) c) := by
  intro id after hr
  have hends := s.ends_take n c
  cases htake : s.take n c with
  | error e mid =>
    rw [bind_of_error f htake] at hr
    cases hr
    obtain ⟨htaken, hshort⟩ := take_closed htake
    refine ⟨[], htaken.trans (List.append_nil _).symm, ?_⟩
    rw [List.nil_append, hp, Bytes.cut, if_neg (Nat.not_le.mpr hshort)]
    rfl
  | ok front mid =>
    rw [bind_of_ok f htake] at hr
    rw [htake] at hends
    obtain ⟨put, got, hu, _, rfl, hlength⟩ := hends
    obtain ⟨more, htaken, hnone⟩ := hf got mid id after hr
    refine ⟨got ++ more, ?_, ?_⟩
    · rw [htaken, hu.did.taken, List.append_assoc]
    · rw [hp, List.append_assoc, Bytes.cut_append hlength, Option.bind_some]
      exact hnone

theorem short_readReply (s : SyncSession) (shape : ReplyShape) (c : Connection) :
    s.Short (SyncReply.parse shape) c (s.readReply shape c) := by
  have hbind : s.readReply shape c = (s.take 8 >>= s.readRest shape) c := by
    change _ = EStateM.bind (s.take 8) (s.readRest shape) c
    unfold readReply EStateM.bind
    cases s.take 8 c <;> rfl
  rw [hbind]
  refine short_take_bind (k := SyncReply.parseRest shape) 8 (fun bytes => rfl) fun head mid => ?_
  unfold readRest
  cases hid : SyncId.ofBytes? (head.take 4) with
  | none => exact s.short_error _ mid mid rfl
  | some id =>
    dsimp only
    by_cases hfail : id = .fail
    · rw [if_pos hfail]
      let k (text : Bytes) : Parser (Except BridgeError SyncReply) := fun rest =>
        some (.error (.remote (Text.Utf8.decode text)), rest)
      refine short_take_bind (k := k) _ (fun bytes => ?_) fun text last =>
        s.short_error _ last last rfl
      simp only [SyncReply.parseRest, hid, hfail, if_true]
      rfl
    · rw [if_neg hfail]
      let first := (Bytes.words (head.drop 4)).headD 0
      refine short_take_bind (k := parseBody id shape first) _ (fun bytes => ?_)
        fun more mid => ?_
      · simp only [SyncReply.parseRest, hid, hfail, if_false]
        rfl
      · unfold parseBody
        dsimp only [first]
        cases layout id shape ((Bytes.words (head.drop 4)).headD 0) (Bytes.words more) with
        | none => exact s.short_error _ mid mid rfl
        | some announced =>
          let last (body : Bytes) : Parser (Except BridgeError SyncReply) := fun rest =>
            some (.ok (announced.2 body), rest)
          exact short_take_bind (k := last) _ (fun bytes => rfl) fun body last =>
            s.short_ok _ last last _

theorem supplied_drop {id : UInt32} {c after : Connection} (ha : after.Accounted) {t : StreamState}
    (ht : after.table.find? id = some t) {got : Bytes}
    (htaken : after.taken id = c.taken id ++ got) :
    (after.supplied id).drop (c.taken id).length = got ++ after.unread id := by
  have hunread : after.unread id = t.buffer := by
    rw [unread, ht]
    rfl
  rw [← ha.balance id t ht, htaken, List.append_assoc, List.drop_left, hunread]

theorem send_of_said {source : Source} {path : String} {mode mtime : UInt32} {c mid : Connection}
    (hbody : s.sendBody source (Text.Utf8.encode (path ++ "," ++ Text.decimal mode.toNat)) mtime c =
      .ok () mid) {e : BridgeError}
    (h : outcome (s.send source path mode mtime c) = .error e) (he : e.isStreamClosed = true) :
    outcome (s.readReply .data mid) = .error e := by
  unfold send at h
  simp only [hbody] at h
  cases hr : s.readReply .data mid with
  | ok reply last =>
    simp only [hr] at h
    cases reply with
    | okay => cases h
    | _ =>
      cases h
      cases he
  | error e' last =>
    simp only [hr] at h
    cases h
    rfl

theorem send_of_remote {source : Source} {path : String} {mode mtime : UInt32} {c mid : Connection}
    {text : String} (hremote : outcome (s.readReply .data mid) = .error (.remote text))
    (hbody : let target := Text.Utf8.encode (path ++ "," ++ Text.decimal mode.toNat)
      s.sendBody source target mtime c = .ok () mid ∨
        ∃ k, s.sendBody source target mtime c = .error (.streamClosed k) mid) :
    outcome (s.send source path mode mtime c) = .error (.remote text) := by
  have hreply := eq_error_of_outcome hremote
  generalize final (s.readReply .data mid) = last at hreply
  unfold send
  obtain hbody | ⟨k, hbody⟩ := hbody
  · simp only [hbody, hreply, outcome_error]
  · simp only [hbody, hreply, BridgeError.isStreamClosed, if_true, outcome_error]

/-- The stream is not closed in time; nor are the pieces of a frame acknowledged, once it is sent,
or the bytes there that are read next of a report. -/
structure UploadOverdue (s : SyncSession) (written : List Bytes) (report : Bytes)
    (c after : Connection) : Prop where
  isOpen : ¬ c.Shut s.stream.localId
  whole : c.Overdue s.timeout (2 * allCuts c.info written)
    (fun came => came.any (Message.closes s.stream.localId) = true)
  transfer : ∃ heard mid, Meanwhile heard (2 * allCuts c.info written) c mid ∧
    ((∃ id value bytes, frame id value bytes ∈ written ∧ s.Unheeded id value bytes mid after) ∨
      ∃ got n, mid.taken s.stream.localId = c.taken s.stream.localId ++ got ∧
        got.length + n ≤ report.length ∧ s.Unsupplied n mid after)

theorem not_closed {id : UInt32} {budget writes : Nat} {heard : List Message} {c after : Connection}
    (h : Meanwhile heard writes c after) (hopen : ¬ after.Shut id)
    (hlate : c.now + budget ≤ after.now) :
    ¬ c.Shut id ∧ c.Overdue budget writes (fun came => came.any (Message.closes id) = true) :=
  ⟨fun hshut => hopen (h.shut id (.inl hshut)),
    h.overdue hlate fun _ hcame => h.not_closes hopen hcame⟩

theorem Stuck.overdue {written : List Bytes} {c after : Connection} (h : s.Stuck written c after)
    (report : Bytes) : s.UploadOverdue written report c after := by
  obtain ⟨hopen, hlate, ⟨heard, hheard⟩, few, mid, id, value, bytes, hfew, hframe⟩ := h
  obtain ⟨hbefore, hwhole⟩ := not_closed hheard hopen hlate
  exact ⟨hbefore, hwhole, few, mid, hfew, .inl ⟨id, value, bytes, hframe⟩⟩

theorem Withheld.overdue {written : List Bytes} {report : Bytes} {heard : List Message}
    {c mid after : Connection} (h : s.Withheld report mid after)
    (hm : Meanwhile heard (2 * allCuts c.info written) c mid) (hg : Gave s.stream.localId [] c mid) :
    s.UploadOverdue written report c after := by
  obtain ⟨hopen, hlate, ⟨more, hmore⟩, few, got, n, last, hfew, htaken, hlength, hunsupplied⟩ := h
  have hlater : c.now + s.timeout ≤ after.now :=
    Nat.le_trans (Nat.add_le_add_right hg.now _) hlate
  obtain ⟨hbefore, hwhole⟩ := not_closed (hm.trans hmore) hopen hlater
  refine ⟨hbefore, hwhole, heard ++ few, last, hm.trans hfew, .inr ⟨got, n, ?_, hlength, hunsupplied⟩⟩
  rw [htaken, hg.taken, List.append_nil]

/-- An upload that is refused gives the reason, or is overdue. -/
theorem send_turned {c : Connection} {text : PieceSaid} {source : Source}
    (hsource : source.contents.2 = none) (path : String) (mode mtime : UInt32) :
    let target := Text.Utf8.encode (path ++ "," ++ Text.decimal mode.toNat)
    let written := frames source target mtime
    let r := s.send source path mode mtime c
    target.length ≤ maxPathLength →
    c.Turned s.stream.localId peer (text.wire .fail) (allCuts c.info written) →
    outcome r = .error (.remote (Text.Utf8.decode text.bytes)) ∨
      s.UploadOverdue written (text.wire .fail) c (final r) := by
  intro target written r hshort hturned
  have hmeets := (s.meets_byFrames peer (text.wire .fail)).sendBody hsource hshort mtime c
  have hstalls := s.stalls_byFrames.sendBody hsource hshort mtime c
  have hcases := s.send_cases source path mode mtime c
  dsimp only at hcases
  obtain ⟨hrefusing, hidle⟩ | hrefused := hturned
  rotate_left
  · obtain ⟨_, hlast, he⟩ := hmeets.1 hrefused
    refine .inl ?_
    cases hbody : s.sendBody source target mtime c with
    | ok u mid =>
      rw [hbody] at hlast
      exact send_of_remote (readReply_refused hlast .data) (.inl hbody)
    | error e mid =>
      rw [hbody] at hlast he
      rw [he e rfl] at hbody
      exact send_of_remote (readReply_refused hlast .data) (.inr ⟨_, hbody⟩)
  have hmet := hmeets.2 0 hrefusing hidle
  have hheld := hstalls hrefusing.channel.framed
  cases hbody : s.sendBody source target mtime c with
  | ok u mid =>
    rw [hbody] at hmet hheld hcases
    obtain ⟨heard, hheard⟩ := hheld
    obtain hremote | hwithheld := readReply_turned hmet.2 .data
    · exact .inl (send_of_remote hremote (.inl hbody))
    · have hfinal : final r = final (s.readReply .data mid) := hcases
      exact .inr (hfinal ▸ hwithheld.overdue hheard hmet.1)
  | error e mid =>
    rw [hbody] at hmet hheld hcases
    obtain ⟨rfl, hrefused⟩ | rfl := hmet.2
    · exact .inl (send_of_remote (readReply_refused hrefused .data) (.inr ⟨_, hbody⟩))
    · have hr : r = .error _ mid := hcases
      rw [hr]
      exact .inr ((hheld rfl).overdue _)

theorem accounted_readReply (s : SyncSession) (shape : ReplyShape) {c : Connection}
    (ha : c.Accounted) : (final (s.readReply shape c)).Accounted :=
  (s.readReply_writes_nothing shape c).1.kept (fun _ _ => Accounted.move) ha

theorem send_closed {c : Connection} (ha : c.Accounted) (source : Source) (path : String)
    (mode mtime : UInt32) {k : UInt32}
    (h : outcome (s.send source path mode mtime c) = .error (.streamClosed k)) :
    let after := final (s.send source path mode mtime c)
    after.Shut s.stream.localId ∧ after.Accounted ∧
      ∃ got, after.taken s.stream.localId = c.taken s.stream.localId ++ got ∧
        ∀ text : PieceSaid, ¬ text.wire .fail <+: got ++ after.unread s.stream.localId := by
  intro after
  let target := Text.Utf8.encode (path ++ "," ++ Text.decimal mode.toNat)
  have hends := ends_sendBody ha s source target mtime
  have hfair := (fair_sendBody s source target mtime c ha).2
  have hcases := s.send_cases source path mode mtime c
  dsimp only at hcases
  cases hbody : s.sendBody source target mtime c with
  | ok u mid =>
    rw [hbody] at hends hcases
    obtain ⟨put, none, hu, _, rfl, _⟩ := hends
    have htaken : mid.taken s.stream.localId = c.taken s.stream.localId :=
      hu.did.taken.trans (List.append_nil _)
    have hfinal : after = final (s.readReply .data mid) := hcases
    have haccounted : after.Accounted := hfinal ▸ s.accounted_readReply .data (hu.accounted ha)
    have hreply : s.readReply .data mid = .error (.streamClosed k) after := by
      rw [hfinal]
      exact eq_error_of_outcome (send_of_said hbody h rfl)
    have hshut : after.Shut s.stream.localId := by
      have hreads := s.ends_readReply .data mid
      rw [hreply] at hreads
      obtain ⟨_, _, _, _, hfailed | ⟨text, htext, _⟩⟩ := hreads
      · exact hfailed.shut rfl
      · cases htext
    obtain ⟨got, hgot, hnone⟩ := s.short_readReply .data mid _ _ hreply
    refine ⟨hshut, haccounted, got, hgot.trans (congrArg (· ++ got) htaken), ?_⟩
    rintro text ⟨rest, hrest⟩
    rw [← hrest, SyncReply.parse_failure] at hnone
    cases hnone
  | error e mid =>
    rw [hbody] at hends hcases hfair
    dsimp only at hcases
    obtain ⟨put, got, hu, rfl, _⟩ := hends
    have htaken : mid.taken s.stream.localId = c.taken s.stream.localId :=
      hu.did.taken.trans (List.append_nil _)
    by_cases hclosed : e.isStreamClosed = true
    · obtain ⟨k', rfl⟩ : ∃ k', e = .streamClosed k' := by
        cases e with
        | streamClosed k' => exact ⟨k', rfl⟩
        | _ => cases hclosed
      have hover : mid.Over s.stream.localId := hfair k' mid rfl
      obtain ⟨hlast, got, hgot, hunread⟩ := s.drawn_readReply .data mid hover
      rw [if_pos hclosed] at hcases
      have hfinal : after = final (s.readReply .data mid) := hcases
      have haccounted : after.Accounted := hfinal ▸ s.accounted_readReply .data (hu.accounted ha)
      rw [← hfinal] at hlast hgot hunread
      refine ⟨fun t ht => (hlast t ht).1, haccounted, got, hgot.trans (congrArg (· ++ got) htaken), ?_⟩
      intro text hreport
      rw [← hunread] at hreport
      -- The report was in the buffer, so the reply that is read then gives it.
      cases ht : mid.table.find? s.stream.localId with
      | none =>
        rw [unread, ht] at hreport
        have hlength := hreport.length_le
        rw [(wire_fail text).2.2] at hlength
        exact absurd hlength (by simp only [Option.map_none, Option.getD_none, List.length_nil]; omega)
      | some t =>
        obtain ⟨hphase, hfault⟩ := hover t ht
        rw [unread, ht] at hreport
        have hremote := readReply_refused ⟨t, ht, hphase, hfault, hreport⟩ .data
        rw [send_of_remote hremote (.inr ⟨k', hbody⟩)] at h
        cases h
    · rw [if_neg hclosed] at hcases
      rw [hcases] at h
      cases h
      exact absurd rfl hclosed

end SyncSession

/-- If the device acknowledges as many pieces as it likes, reports a failure and closes the stream,
the upload fails with the text of that report, unless it is overdue. An upload that fails because
the stream is closed was given no such report in full. -/
theorem refusal_reported (channel : Channel) (info : DeviceInfo) (settings : HostSettings)
    (s : SyncSession) (source : Source) (path : String) (mode mtime : UInt32) {c : Connection}
    (hc : (Client.fresh channel info settings).connection.Moves c) :
    let id := s.stream.localId
    let target := Text.Utf8.encode (path ++ "," ++ Text.decimal mode.toNat)
    let r := s.send source path mode mtime c
    (∀ (peer : UInt32) (text : PieceSaid), source.contents.2 = none →
      let written := SyncSession.frames source target mtime
      (c.Refusing id peer (text.wire .fail) (SyncSession.allCuts c.info written) ∧ c.awaited id = 0 ∨
        c.Refused id (text.wire .fail)) →
      outcome r = .error (if maxPathLength < target.length then .argument (.longPath target.length)
        else .remote (Text.Utf8.decode text.bytes)) ∨
      s.UploadOverdue written (text.wire .fail) c (final r)) ∧
    ∀ k, outcome r = .error (.streamClosed k) → (final r).Shut id ∧
      ∃ got, (final r).taken id = c.taken id ++ got ∧
        (∀ t, (final r).table.find? id = some t →
          ((final r).supplied id).drop (c.taken id).length = got ++ (final r).unread id) ∧
        ∀ text : PieceSaid, ¬ text.wire .fail <+: got ++ (final r).unread id := by
  intro id target r
  have ha : c.Accounted := hc.kept (fun _ _ => Connection.Accounted.move)
    (Connection.accounted_fresh channel info settings)
  refine ⟨?_, fun k hclosed => ?_⟩
  rotate_left
  · obtain ⟨hshut, hafter, got, hgot, hnone⟩ :=
      SyncSession.send_closed ha source path mode mtime hclosed
    exact ⟨hshut, got, hgot, fun t ht => SyncSession.supplied_drop hafter ht hgot, hnone⟩
  intro peer text hsource written hturned
  by_cases hlong : maxPathLength < target.length
  · have hrequest : s.request .send target c =
        .error (.argument (.longPath target.length)) c := by
      rw [SyncSession.request, if_pos hlong]
      rfl
    have hbody : s.sendBody source target mtime c =
        .error (.argument (.longPath target.length)) c := by
      unfold SyncSession.sendBody
      rw [bind_of_error _ hrequest]
    have hr : r = .error (.argument (.longPath target.length)) c := by
      change s.send source path mode mtime c = _
      rw [SyncSession.send, hbody]
      rfl
    rw [hr, if_pos hlong, outcome_error]
    exact .inl rfl
  · rw [if_neg hlong]
    exact SyncSession.send_turned hsource path mode mtime (Nat.le_of_not_lt hlong) hturned

/-- The device acknowledges one of five pieces, reports a failure in two messages and closes the
stream. Another closes it with half of the report. -/
theorem refusal_reported_cut :
    let okay : Message := ⟨.okay, 101, 1, []⟩
    let data (bytes : Bytes) : Message := ⟨.write, 101, 1, bytes⟩
    let close : Message := ⟨.close, 101, 1, []⟩
    let text : PieceSaid := ⟨[110, 111], by decide⟩
    let report := text.wire .fail
    let front : List Message := [okay, data (report.take 5), ⟨.write, 7, 9, [1]⟩, data (report.drop 5)]
    let half : List Message := [okay, data (report.take 9), close]
    let device : DeviceInfo := ⟨"device", "S", "", 0, 8⟩
    let inbound (told : List Message) : List Arrival :=
      (okay :: told).map (fun m => .chunk m.encode) ++ [.chunk (List.replicate 24 0)]
    let client (told : List Message) : Client :=
      Client.fresh { link := { inbound := inbound told } } device {}
    let opens : List Event := [.call (.openStream "sync:" 10)]
    let c := ((client (front ++ [close])).after opens).connection
    let c' := ((client half).after opens).connection
    let s : SyncSession := ⟨⟨"sync:", 1, false⟩, 10⟩
    let source : Source := [.bytes [1, 2, 3]]
    let written := SyncSession.frames source (Text.Utf8.encode "a,420") 9
    let pieces := SyncSession.allCuts c.info written
    let r' := s.send source "a" 420 9 c'
    pieces = 5 ∧ (c.Refusing 1 101 report pieces ∧ c.awaited 1 = 0) ∧
      outcome (s.send source "a" 420 9 c) = .error (.remote "no") ∧
      outcome r' = .error (.streamClosed 1) ∧ (final r').Shut 1 ∧
      ∃ got, (final r').taken 1 = c'.taken 1 ++ got ∧
        ((final r').supplied 1).drop (c'.taken 1).length = got ++ (final r').unread 1 ∧
        ∀ text : PieceSaid, ¬ text.wire .fail <+: got ++ (final r').unread 1 := by
  intro okay data close text report front half device inbound client opens c c' s source written pieces
    r'
  have hserves : ∀ m ∈ front, m.Serves 1 101 := by
    unfold Message.Serves
    decide
  have hrefusing : c.Refusing 1 101 report pieces := by
    refine ⟨⟨⟨⟨?_, ?_⟩, ?_⟩, ?_⟩, ⟨⟨some 101, .opened, false, [], none⟩, ?_, rfl, rfl, rfl⟩, front,
      close, [.error (.protocol (.unknownCommand 0))], ?_, hserves, rfl, rfl, ?_, ?_⟩
    · decide +kernel
    · decide +kernel
    · decide +kernel
    · decide +kernel
    · decide +kernel
    · decide +kernel
    · decide +kernel
    · decide +kernel
  have hidle : c.awaited 1 = 0 := by decide +kernel
  have hclosed : outcome r' = .error (.streamClosed 1) := by decide +kernel
  have hintime : ¬ s.UploadOverdue written report c (final (s.send source "a" 420 9 c)) :=
    fun hoverdue => absurd (hoverdue.whole _ _ (List.append_nil _).symm (by decide +kernel))
      (by decide +kernel)
  have hrefused := ((refusal_reported _ device {} s source "a" 420 9
    ((client (front ++ [close])).after_moves opens)).1 101 text rfl
    (.inl ⟨hrefusing, hidle⟩)).resolve_right hintime
  have hshort : ¬ maxPathLength <
    (Text.Utf8.encode ("a" ++ "," ++ Text.decimal (420 : UInt32).toNat)).length := by decide
  have htext : Text.Utf8.decode text.bytes = "no" := by decide +kernel
  rw [if_neg hshort, htext] at hrefused
  obtain ⟨hshut, got, hgot, hcame, hnone⟩ :=
    (refusal_reported _ device {} s source "a" 420 9 ((client half).after_moves opens)).2 1 hclosed
  obtain ⟨t, ht⟩ : ∃ t, (final r').table.find? 1 = some t :=
    Option.isSome_iff_exists.mp (by decide +kernel)
  exact ⟨by decide +kernel, ⟨hrefusing, hidle⟩, hrefused, hclosed, hshut, got, hgot, hcame t ht, hnone⟩

/-- The report is there in two messages, and the closing behind it. The acknowledgement of the first
takes longer than a transfer may. -/
theorem refusal_slow_acknowledgement :
    let message (m : Message) : Arrival := .chunk m.encode
    let okay : Message := ⟨.okay, 101, 1, []⟩
    let data (bytes : Bytes) : Message := ⟨.write, 101, 1, bytes⟩
    let close : Message := ⟨.close, 101, 1, []⟩
    let text : PieceSaid := ⟨[110, 111], by decide⟩
    let report := text.wire .fail
    let front : List Message := [data (report.take 5), data (report.drop 5)]
    let c := ((Client.fresh { link := { inbound := [message okay] } } ⟨"device", "S", "", 0, 4096⟩
      {}).after [.call (.openStream "sync:" 10), .supply ((front ++ [close]).map message),
        .plan [.taken 0, .taken 0, .taken (Duration.ofMillis 5)]]).connection
    let s : SyncSession := ⟨⟨"sync:", 1, false⟩, Duration.ofMillis 1⟩
    let written := SyncSession.frames [] (Text.Utf8.encode "a,420") 9
    c.Refusing 1 101 report (SyncSession.allCuts c.info written) ∧ c.awaited 1 = 0 ∧
      Arrival.delay c.channel.link.inbound = 0 ∧ 0 < s.timeout ∧ Source.contents [] = ([], none) ∧
      outcome (s.send [] "a" 420 9 c) = .error (.timeout s.timeout (.okay 1)) := by
  intro message okay data close text report front c s written
  have hserves : ∀ m ∈ front, m.Serves 1 101 := by
    unfold Message.Serves
    decide
  refine ⟨⟨⟨⟨⟨?_, ?_⟩, ?_⟩, ?_⟩, ⟨⟨some 101, .opened, false, [], none⟩, ?_, rfl, rfl, rfl⟩, front,
    close, [], ?_, hserves, rfl, rfl, ?_, ?_⟩, ?_, ?_, ?_, ?_, ?_⟩ <;> decide +kernel

end DroidHost
