import DroidHost.Proofs.SyncTraffic

/-! Calls on a file session from end to end. -/
namespace DroidHost

def forget : EStateM.Result ε σ α → EStateM.Result ε σ Unit
  | .ok _ s => .ok () s
  | .error e s => .error e s

inductive FileCall
  | stat (path : String)
  | list (path : String)
  | push (source : Source) (path : String) (mode : Option UInt32)
  | pull (path : String) (sink : Sink)
  deriving DecidableEq, Repr

namespace FileCall

def shape : FileCall → ReplyShape
  | .stat _ => .stat
  | .list _ => .entry
  | .push .. => .data
  | .pull .. => .data

def more : FileCall → SyncReply → Bool
  | .list _, .entry .. => true
  | .pull .., .data _ => true
  | _, _ => false

def last : FileCall → SyncReply → Bool
  | .stat _, .stat .. => true
  | .list _, .done _ => true
  | .pull .., .done _ => true
  | .push .., .okay => true
  | _, _ => false

/-- All the bytes of a call's replies up to the one that ends it, or up to the report of a
failure. -/
inductive Concluded (call : FileCall) : Bytes → Prop
  | last {got : Bytes} {reply : SyncReply}
      (h : SyncReply.parse call.shape got = some (.ok reply, [])) (hl : call.last reply = true) :
    Concluded call got
  | reported {got : Bytes} {text : String}
      (h : SyncReply.parse call.shape got = some (.error (.remote text), [])) :
    Concluded call got
  | more {piece rest : Bytes} {reply : SyncReply}
      (h : SyncReply.parse call.shape piece = some (.ok reply, [])) (hm : call.more reply = true)
      (hr : Concluded call rest) : Concluded call (piece ++ rest)

theorem Concluded.ne_nil {call : FileCall} {got : Bytes} (h : call.Concluded got) : got ≠ [] := by
  have hparse {piece : Bytes} {said : Except BridgeError SyncReply}
      (h : SyncReply.parse call.shape piece = some (said, [])) : piece ≠ [] := by
    rintro rfl
    rw [SyncReply.parse_nil] at h
    cases h
  cases h with
  | last h hl => exact hparse h
  | reported h => exact hparse h
  | more h hm hr => exact List.append_ne_nil_of_left_ne_nil (hparse h) _

theorem not_concluded {call : FileCall} {got : Bytes} {reply : SyncReply}
    (h : SyncReply.parse call.shape got = some (.ok reply, [])) (hl : call.last reply = false) :
    ¬ call.Concluded got := by
  intro hc
  cases hc with
  | last h' hl' =>
    rw [h] at h'
    cases h'
    rw [hl] at hl'
    cases hl'
  | reported h' =>
    rw [h] at h'
    cases h'
  | more h' hm hr =>
    rw [SyncReply.parse_more h'] at h
    exact hr.ne_nil (congrArg Prod.snd (Option.some.inj h))

/-- The mode goes behind the path. -/
def target (path : String) (mode : Option UInt32) : Bytes :=
  Text.Utf8.encode (path ++ "," ++ Text.decimal (mode.getD SyncSession.defaultMode).toNat)

def wording (mtime : UInt32) : FileCall → Bytes
  | .stat path => SyncSession.naming .stat (Text.Utf8.encode path)
  | .list path => SyncSession.naming .list (Text.Utf8.encode path)
  | .push source path mode =>
    SyncSession.naming .send (target path mode) ++
      SyncSession.dataFrames (SyncSession.pushPieces source.contents) ++
      SyncSession.frame .done mtime []
  | .pull path _ => SyncSession.naming .recv (Text.Utf8.encode path)

def work (s : SyncSession) (c : Connection) : FileCall → EStateM.Result BridgeError Connection Unit
  | .stat path => forget (s.stat path c)
  | .list path =>
    forget ((do ofExcept ((← s.list path none).mapM id) :
      EStateM BridgeError Connection (List FileStat)) c)
  | .push source path mode =>
    s.send source path (mode.getD SyncSession.defaultMode) c.channel.link.calendarTime c
  | .pull path sink => forget (s.receive path sink c).1

inductive Fails (id : UInt32) (call : FileCall) (c : Connection) :
    BridgeError → Bytes → Bytes → Connection → Prop
  | traffic {e : BridgeError} {put got : Bytes} {after : Connection} (h : Connection.Failed id e after) :
    Fails id call c e put got after
  | localFile (f : IoFault) {put got : Bytes} {after : Connection} :
    Fails id call c (.localFile f) put got after
  /-- Nothing has happened. -/
  | refused (length : Nat) : Fails id call c (.argument (.longPath length)) [] [] c
  /-- The report was read to its end. -/
  | reported (text : String) {put got : Bytes} {after : Connection} (hg : Concluded call got)
      (hp : (∃ mtime, put = call.wording mtime) ∨ after.Shut id) :
    Fails id call c (.remote text) put got after

end FileCall

open Connection SyncSession

theorem ends_forget {id : UInt32} {c : Connection} {good : α → Bytes → Bytes → Prop}
    {bad : BridgeError → Bytes → Bytes → Connection → Prop}
    {r : EStateM.Result BridgeError Connection α} (h : Ends id c good bad r) :
    Ends id c (fun _ put got => ∃ a, good a put got) bad (forget r) := by
  cases r with
  | ok a after =>
    obtain ⟨put, got, hu, ha⟩ := h
    exact ⟨put, got, hu, a, ha⟩
  | error e after => exact h

namespace FileCall

/-- A run does a call to its end, or fails as calls do. -/
def Does (id : UInt32) (call : FileCall) (c : Connection)
    (r : EStateM.Result BridgeError Connection α) : Prop :=
  Ends id c (fun _ put got => (∃ mtime, put = call.wording mtime) ∧ Concluded call got)
    (Fails id call c) r

def Unsaid (id : UInt32) (call : FileCall) (c : Connection) (e : BridgeError) (put got : Bytes)
    (after : Connection) : Prop := got = [] ∧ Fails id call c e put got after

theorem ends_asked {c : Connection} (hc : c.Accounted) (s : SyncSession) (call : FileCall)
    (id : SyncId) (name : Bytes) :
    Ends s.stream.localId c (fun _ put got => put = naming id name ∧ got = [])
      (Unsaid s.stream.localId call c) (s.request id name c) := by
  refine (ends_request hc s id name).imp (fun _ _ _ h => h) ?_
  rintro e put got after ⟨_, rfl, hf | ⟨_, rfl, rfl, rfl⟩⟩
  · exact ⟨rfl, .traffic hf⟩
  · exact ⟨rfl, .refused _⟩

/-- Nothing was said, and no reply was read to its end unless that was the report of a failure. -/
def Unended (id : UInt32) (call : FileCall) (e : BridgeError) (put got : Bytes)
    (after : Connection) : Prop :=
  put = [] ∧ (Failed id e after ∨ (∃ f, e = .localFile f) ∨
    ∃ text, e = .remote text ∧ Concluded call got)

theorem unended_of_unanswered {id : UInt32} (call : FileCall) {e : BridgeError} {put got : Bytes}
    {after : Connection} (h : Unanswered id (SyncReply.parse call.shape) e put got after) :
    Unended id call e put got after := by
  obtain ⟨rfl, hf | ⟨text, rfl, hparse⟩⟩ := h
  · exact ⟨rfl, .inl hf⟩
  · exact ⟨rfl, .inr (.inr ⟨text, rfl, .reported hparse⟩)⟩

theorem Unended.after {id : UInt32} {call : FileCall} {e : BridgeError} {put piece got : Bytes}
    {after : Connection} {reply : SyncReply} (h : Unended id call e put got after)
    (hp : SyncReply.parse call.shape piece = some (.ok reply, [])) (hm : call.more reply = true) :
    Unended id call e put (piece ++ got) after := by
  obtain ⟨rfl, hf | ⟨f, rfl⟩ | ⟨text, rfl, hg⟩⟩ := h
  · exact ⟨rfl, .inl hf⟩
  · exact ⟨rfl, .inr (.inl ⟨f, rfl⟩)⟩
  · exact ⟨rfl, .inr (.inr ⟨text, rfl, .more hp hm hg⟩)⟩

theorem Unended.fails {id : UInt32} {call : FileCall} {e : BridgeError} {said put got : Bytes}
    {after : Connection} (h : Unended id call e put got after)
    (hsaid : (∃ mtime, said = call.wording mtime) ∨ after.Shut id) (c : Connection) :
    Fails id call c e (said ++ put) got after := by
  obtain ⟨rfl, hf | ⟨f, rfl⟩ | ⟨text, rfl, hg⟩⟩ := h
  · exact .traffic hf
  · exact .localFile f
  · rw [List.append_nil]
    exact .reported text hg hsaid

theorem ends_stat {c : Connection} (hc : c.Accounted) (s : SyncSession) (path : String) :
    Does s.stream.localId (stat path) c (s.stat path c) := by
  unfold SyncSession.stat
  apply Ends.bind ((ends_asked hc s (stat path) .stat (Text.Utf8.encode path)).imp
    (fun _ _ _ h => h) fun _ _ _ _ h => h.2)
  rintro u put got mid hu ⟨rfl, rfl⟩
  apply Ends.bind ((s.ends_readReply .stat mid).imp (fun _ _ _ h => h) fun _ _ _ _ h =>
    (unended_of_unanswered (stat path) h).fails (.inl ⟨0, rfl⟩) c)
  rintro reply put got last hu' ⟨rfl, hparse⟩
  cases reply with
  | stat mode size mtime =>
    apply ends_pure
    simp only [List.append_nil, List.nil_append]
    exact ⟨⟨0, rfl⟩, .last hparse rfl⟩
  | _ => exact ends_throw (.traffic (failed_protocol _ _ _))

theorem ends_nextEntry (s : SyncSession) (path : String) (c : Connection) :
    Ends s.stream.localId c
      (fun entry put got => put = [] ∧ ∃ reply,
        SyncReply.parse .entry got = some (.ok reply, []) ∧
        if entry.isSome then (list path).more reply = true else (list path).last reply = true)
      (Unanswered s.stream.localId (SyncReply.parse .entry)) (s.nextEntry c) := by
  have hr := s.ends_readReply .entry c
  unfold nextEntry
  cases h : s.readReply .entry c with
  | error e after =>
    rw [h] at hr
    exact hr
  | ok reply after =>
    rw [h] at hr
    obtain ⟨put, got, hu, rfl, hparse⟩ := hr
    have hother (violation : Violation) :
        Ends s.stream.localId c
          (fun entry put got => put = [] ∧ ∃ reply,
            SyncReply.parse .entry got = some (.ok reply, []) ∧
            if entry.isSome then (list path).more reply = true else (list path).last reply = true)
          (Unanswered s.stream.localId (SyncReply.parse .entry))
          (.error (.protocol violation) after : EStateM.Result _ _ (Option FileStat)) :=
      ⟨[], got, hu, rfl, .inl (failed_protocol _ _ _)⟩
    cases reply with
    | entry mode size mtime name => exact ⟨[], got, hu, rfl, _, hparse, rfl⟩
    | done value => exact ⟨[], got, hu, rfl, _, hparse, rfl⟩
    | stat mode size mtime => exact hother _
    | data bytes => exact hother _
    | okay => exact hother _

def gathered (s : SyncSession) (c : Connection) :
    EStateM.Result BridgeError Connection (List FileStat) :=
  match (s.entries c).1.mapM id with
  | .ok items => .ok items (s.entries c).2
  | .error e => .error e (s.entries c).2

theorem ends_gathered (s : SyncSession) (path : String) (c : Connection) :
    Ends s.stream.localId c (fun _ put got => put = [] ∧ Concluded (list path) got)
      (Unended s.stream.localId (list path)) (gathered s c) := by
  unfold gathered
  fun_induction SyncSession.entries s c with
  | case1 c entry after h rest ih =>
    have hn := ends_nextEntry s path c
    rw [h] at hn
    obtain ⟨put, got, hu, rfl, reply, hparse, hmore⟩ := hn
    apply Ends.after hu
    dsimp only [rest] at ih ⊢
    rw [List.mapM_cons]
    cases hm : (s.entries after).1.mapM id with
    | ok items =>
      rw [hm] at ih
      obtain ⟨p, g, hu', rfl, hg⟩ := ih
      exact ⟨[], g, hu', rfl, .more hparse hmore hg⟩
    | error e =>
      rw [hm] at ih
      obtain ⟨p, g, hu', hg⟩ := ih
      exact ⟨p, g, hu', hg.after hparse hmore⟩
  | case2 c after h =>
    have hn := ends_nextEntry s path c
    rw [h] at hn
    obtain ⟨put, got, hu, rfl, reply, hparse, hlast⟩ := hn
    exact ⟨[], got, hu, rfl, .last hparse hlast⟩
  | case3 c e after h =>
    have hn := ends_nextEntry s path c
    rw [h] at hn
    obtain ⟨put, got, hu, hg⟩ := hn
    exact ⟨put, got, hu, unended_of_unanswered _ hg⟩

theorem work_list (s : SyncSession) (c : Connection) (path : String) :
    work s c (list path) = forget (match s.request .list (Text.Utf8.encode path) c with
      | .ok _ mid => gathered s mid
      | .error e mid => .error e mid) := by
  rw [work]
  congr 1
  change EStateM.bind (s.list path none) _ c = _
  unfold EStateM.bind SyncSession.list
  cases s.request .list (Text.Utf8.encode path) c with
  | error e mid => rfl
  | ok u mid =>
    unfold gathered
    dsimp only
    cases (s.entries mid).1.mapM id with
    | ok items => rfl
    | error e => rfl

theorem ends_receivePieces (s : SyncSession) (path : String) (into : Sink) (total : Nat)
    (sink : Sink) (c : Connection) :
    Ends s.stream.localId c (fun _ put got => put = [] ∧ Concluded (pull path into) got)
      (Unended s.stream.localId (pull path into)) (s.receivePieces total sink c).1 := by
  have hr := s.ends_readReply .data
  fun_induction SyncSession.receivePieces s total sink c with
  | case1 total sink c bytes after h sink' hw ih =>
    have hc := hr c
    rw [h] at hc
    obtain ⟨put, got, hu, rfl, hparse⟩ := hc
    refine Ends.after hu (ih.imp ?_ ?_)
    · rintro n p g ⟨rfl, hg⟩
      exact ⟨rfl, .more hparse rfl hg⟩
    · intro e p g last hg
      exact hg.after hparse rfl
  | case2 total sink c bytes after h f hw =>
    have hc := hr c
    rw [h] at hc
    obtain ⟨put, got, hu, rfl, hparse⟩ := hc
    exact ⟨[], got, hu, rfl, .inr (.inl ⟨f, rfl⟩)⟩
  | case3 total sink c value after h u hw =>
    have hc := hr c
    rw [h] at hc
    obtain ⟨put, got, hu, rfl, hparse⟩ := hc
    exact ⟨[], got, hu, rfl, .last hparse rfl⟩
  | case4 total sink c value after h f hw =>
    have hc := hr c
    rw [h] at hc
    obtain ⟨put, got, hu, rfl, hparse⟩ := hc
    exact ⟨[], got, hu, rfl, .inr (.inl ⟨f, rfl⟩)⟩
  | case5 total sink c other after hdata hdone h =>
    have hc := hr c
    rw [h] at hc
    obtain ⟨put, got, hu, rfl, hparse⟩ := hc
    exact ⟨[], got, hu, rfl, .inl (failed_protocol _ _ _)⟩
  | case6 total sink c e after h =>
    have hc := hr c
    rw [h] at hc
    obtain ⟨put, got, hu, hg⟩ := hc
    exact ⟨put, got, hu, unended_of_unanswered _ hg⟩

theorem ends_sendBody {c : Connection} (hc : c.Accounted) (s : SyncSession) (source : Source)
    (path : String) (mode : Option UInt32) (mtime : UInt32) :
    Ends s.stream.localId c
      (fun _ put got => put = (push source path mode).wording mtime ∧ got = [])
      (Unsaid s.stream.localId (push source path mode) c)
      (s.sendBody source (target path mode) mtime c) := by
  refine (SyncSession.ends_sendBody hc s source (target path mode) mtime).imp ?_ ?_
  · rintro u put got ⟨rfl, rfl, _⟩
    exact ⟨rfl, rfl⟩
  · rintro e put got after ⟨rfl, _, hf | ⟨f, rfl, _⟩ | ⟨_, rfl, rfl, rfl⟩⟩
    · exact ⟨rfl, .traffic hf⟩
    · exact ⟨rfl, .localFile f⟩
    · exact ⟨rfl, .refused _⟩

theorem Fails.failed {id : UInt32} {call : FileCall} {c after : Connection} {e : BridgeError}
    {put got : Bytes} (h : Fails id call c e put got after) (he : e.isStreamClosed = true) :
    Failed id e after := by
  cases h with
  | traffic h => exact h
  | localFile f => cases he
  | refused length => cases he
  | reported text hg hp => cases he

theorem ends_push {c : Connection} (hc : c.Accounted) (s : SyncSession) (source : Source)
    (path : String) (mode : Option UInt32) :
    Does s.stream.localId (push source path mode) c (work s c (push source path mode)) := by
  have hbody := ends_sendBody hc s source path mode c.channel.link.calendarTime
  unfold work SyncSession.send
  change Ends _ _ _ _ (match s.sendBody source (target path mode) _ c with
    | .ok _ mid => _
    | .error e mid => _)
  cases h : s.sendBody source (target path mode) c.channel.link.calendarTime c with
  | ok u said =>
    rw [h] at hbody
    obtain ⟨put, got, hu, rfl, rfl⟩ := hbody
    apply Ends.after hu
    have hr := s.ends_readReply .data said
    dsimp only
    cases hreply : s.readReply .data said with
    | ok reply after =>
      rw [hreply] at hr
      obtain ⟨p, g, hu', rfl, hparse⟩ := hr
      cases reply with
      | okay =>
        refine ⟨[], g, hu', ⟨_, List.append_nil _⟩, ?_⟩
        exact .last hparse rfl
      | _ => exact ⟨[], g, hu', .traffic (failed_protocol _ _ _)⟩
    | error e after =>
      rw [hreply] at hr
      obtain ⟨p, g, hu', hg⟩ := hr
      have hunended := unended_of_unanswered (push source path mode) hg
      exact ⟨p, g, hu', hunended.fails (.inl ⟨c.channel.link.calendarTime, rfl⟩) c⟩
  | error e said =>
    rw [h] at hbody
    obtain ⟨put, got, hu, rfl, hfails⟩ := hbody
    dsimp only
    by_cases hclosed : e.isStreamClosed = true
    · rw [if_pos hclosed]
      have hfailed : Failed s.stream.localId e said := hfails.failed hclosed
      have hr := s.ends_readReply .data said
      have hlast {p g : Bytes} {after : Connection} (hu' : Used s.stream.localId p g said after) :
          Failed s.stream.localId e after :=
        ⟨hfailed.cause, fun _ => hu'.did.shut (hfailed.shut hclosed)⟩
      apply Ends.after hu
      cases hreply : s.readReply .data said with
      | ok reply after =>
        rw [hreply] at hr
        obtain ⟨p, g, hu', _⟩ := hr
        exact ⟨p, g, hu', .traffic (hlast hu')⟩
      | error e' after =>
        rw [hreply] at hr
        obtain ⟨p, g, hu', hg⟩ := hr
        have hshut : after.Shut s.stream.localId := (hlast hu').shut hclosed
        have hunended := unended_of_unanswered (push source path mode) hg
        cases e' with
        | remote text => exact ⟨p, g, hu', hunended.fails (.inr hshut) c⟩
        | _ => exact ⟨p, g, hu', .traffic (hlast hu')⟩
    · rw [if_neg hclosed]
      exact ⟨put, [], hu, hfails⟩

theorem ends_list {c : Connection} (hc : c.Accounted) (s : SyncSession) (path : String) :
    Does s.stream.localId (list path) c (work s c (list path)) := by
  have hasked := ends_asked hc s (list path) .list (Text.Utf8.encode path)
  rw [work_list]
  cases h : s.request .list (Text.Utf8.encode path) c with
  | error e after =>
    rw [h] at hasked
    obtain ⟨put, got, hu, _, hfails⟩ := hasked
    exact ⟨put, got, hu, hfails⟩
  | ok u mid =>
    rw [h] at hasked
    obtain ⟨put, got, hu, rfl, rfl⟩ := hasked
    refine Ends.after hu ((ends_forget (ends_gathered s path mid)).imp ?_ ?_)
    · rintro u put got ⟨_, rfl, hg⟩
      exact ⟨⟨0, List.append_nil _⟩, hg⟩
    · intro e put got after h
      exact h.fails (.inl ⟨0, rfl⟩) c

theorem ends_pull {c : Connection} (hc : c.Accounted) (s : SyncSession) (path : String)
    (sink : Sink) :
    Does s.stream.localId (pull path sink) c (work s c (pull path sink)) := by
  have hasked := ends_asked hc s (pull path sink) .recv (Text.Utf8.encode path)
  change Ends _ _ _ _ (forget (s.receive path sink c).1)
  unfold SyncSession.receive
  cases h : s.request .recv (Text.Utf8.encode path) c with
  | error e after =>
    rw [h] at hasked
    obtain ⟨put, got, hu, _, hfails⟩ := hasked
    exact ⟨put, got, hu, hfails⟩
  | ok u mid =>
    rw [h] at hasked
    obtain ⟨put, got, hu, rfl, rfl⟩ := hasked
    refine Ends.after hu ((ends_forget (ends_receivePieces s path sink 0 sink mid)).imp ?_ ?_)
    · rintro u put got ⟨_, rfl, hg⟩
      exact ⟨⟨0, List.append_nil _⟩, hg⟩
    · intro e put got after h
      exact h.fails (.inl ⟨0, rfl⟩) c

/-- A call on a session says all it has to say and reads the replies to the last, or it fails. -/
theorem ends_work {c : Connection} (hc : c.Accounted) (s : SyncSession) (call : FileCall) :
    Does s.stream.localId call c (work s c call) := by
  cases call with
  | stat path =>
    refine (ends_forget (ends_stat hc s path)).imp ?_ (fun _ _ _ _ h => h)
    rintro u put got ⟨_, h⟩
    exact h
  | list path => exact ends_list hc s path
  | push source path mode => exact ends_push hc s source path mode
  | pull path sink => exact ends_pull hc s path sink

end FileCall

end DroidHost
