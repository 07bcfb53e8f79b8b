import DroidHost.Proofs.FileCalls
import DroidHost.Proofs.ReplyParser
import DroidHost.Proofs.Service
import DroidHost.Proofs.Tardiness

/-! Replies are read by their content, up to the first request that something is late for. -/
namespace DroidHost

/-- What a run gave is looked at once more, and may turn out wrong. -/
def checked (f : α → Except ε β) : EStateM.Result ε σ α → EStateM.Result ε σ β
  | .error e s => .error e s
  | .ok a s =>
    match f a with
    | .ok b => .ok b s
    | .error e => .error e s

namespace SyncSession
open Connection

variable {s : SyncSession} {peer : UInt32} {later : Bytes}

/-- The device serves the stream, and nothing that was sent on it is under way. -/
structure Ready (s : SyncSession) (peer : UInt32) (later : Bytes) (c : Connection) : Prop where
  serving : c.Serving s.stream.localId peer later
  quiet : c.Quiet s.stream.localId

/-- These bytes were read from the stream, and nothing was sent on it. -/
structure Took (s : SyncSession) (peer : UInt32) (later got : Bytes) (c after : Connection) :
    Prop where
  ready : s.Ready peer later after
  advance : Advance s.stream.localId got 0 c after
  meanwhile : ∃ heard, Meanwhile heard 0 c after

/-- What was read are the bytes that a parser takes, and what came of them is what the parser makes
of them. -/
def Parsed (s : SyncSession) (peer : UInt32) (later : Bytes) (p : Parser α) (c : Connection) (a : α)
    (after : Connection) : Prop :=
  ∃ got, s.Took peer later got c after ∧ ∀ rest, p (got ++ rest) = some (a, rest)

structure Missed (s : SyncSession) (peer : UInt32) (later : Bytes) (n : Nat) (c after : Connection) :
    Prop where
  took : s.Took peer later [] c after
  short : (after.unread s.stream.localId).length < n
  late : c.now + s.timeout ≤ after.now
  unsupplied : s.Unsupplied n c after

/-- The time is over for bytes that a parser has not enough without. -/
def Starved (s : SyncSession) (peer : UInt32) (later : Bytes) (p : Parser α) (c after : Connection) :
    Prop :=
  ∃ got n mid, s.Took peer later got c mid ∧ (∀ more, more.length < n → p (got ++ more) = none) ∧
    s.Missed peer later n mid after

/-- An operation answers as a parser does, unless it ran out of time. -/
def Answers (s : SyncSession) (peer : UInt32) (later : Bytes) (p : Parser α) (c : Connection) (a : α)
    (after : Connection) : Prop :=
  s.Parsed peer later p c a after ∨ s.Starved peer later p c after

/-- A run that gives a result or an error, held against a parser of both. -/
def Reads (s : SyncSession) (peer : UInt32) (later : Bytes) (p : Parser (Except BridgeError α))
    (c : Connection) : EStateM.Result BridgeError Connection α → Prop
  | .ok a after => s.Parsed peer later p c (.ok a) after
  | .error e after => s.Answers peer later p c (.error e) after

theorem Took.refl {c : Connection} (h : s.Ready peer later c) : s.Took peer later [] c c where
  ready := h
  advance := .refl _ c
  meanwhile := ⟨[], .refl h.serving.channel.framed⟩

theorem Took.trans {got more : Bytes} {c mid after : Connection} (h : s.Took peer later got c mid)
    (h' : s.Took peer later more mid after) : s.Took peer later (got ++ more) c after where
  ready := h'.ready
  advance := h.advance.trans h'.advance
  meanwhile := by
    obtain ⟨heard, hheard⟩ := h.meanwhile
    obtain ⟨more, hmore⟩ := h'.meanwhile
    exact ⟨heard ++ more, hheard.trans hmore⟩

theorem parsed_here {p : Parser α} {c : Connection} {a : α} (h : s.Ready peer later c)
    (hp : ∀ rest, p rest = some (a, rest)) : s.Parsed peer later p c a c := ⟨[], .refl h, hp⟩

theorem Parsed.ready {p : Parser α} {c after : Connection} {a : α}
    (h : s.Parsed peer later p c a after) : s.Ready peer later after := by
  obtain ⟨got, htook, _⟩ := h
  exact htook.ready

theorem Parsed.then {p : Parser α} {q k : Parser β} {c mid after : Connection} {a : α} {b : β}
    (h : s.Parsed peer later p c a mid)
    (hq : ∀ bytes rest, p bytes = some (a, rest) → q bytes = k rest)
    (h' : s.Parsed peer later k mid b after) : s.Parsed peer later q c b after := by
  obtain ⟨got, htook, hp⟩ := h
  obtain ⟨more, htook', hk⟩ := h'
  refine ⟨got ++ more, htook.trans htook', fun rest => ?_⟩
  rw [List.append_assoc, hq _ _ (hp (more ++ rest)), hk]

theorem Parsed.starved {p : Parser α} {q k : Parser β} {c mid after : Connection} {a : α}
    (h : s.Parsed peer later p c a mid)
    (hq : ∀ bytes rest, p bytes = some (a, rest) → q bytes = k rest)
    (h' : s.Starved peer later k mid after) : s.Starved peer later q c after := by
  obtain ⟨got, htook, hp⟩ := h
  obtain ⟨more, n, last, htook', hk, hmissed⟩ := h'
  refine ⟨got ++ more, n, last, htook.trans htook', fun few hfew => ?_, hmissed⟩
  rw [List.append_assoc, hq _ _ (hp (more ++ few)), hk few hfew]

theorem Parsed.answers {p : Parser α} {q k : Parser β} {c mid after : Connection} {a : α} {b : β}
    (h : s.Parsed peer later p c a mid)
    (hq : ∀ bytes rest, p bytes = some (a, rest) → q bytes = k rest)
    (h' : s.Answers peer later k mid b after) : s.Answers peer later q c b after :=
  h'.imp (h.then hq) (h.starved hq)

theorem Starved.of {p : Parser α} {q : Parser β} {c after : Connection}
    (h : s.Starved peer later p c after) (hq : ∀ bytes, p bytes = none → q bytes = none) :
    s.Starved peer later q c after := by
  obtain ⟨got, n, mid, htook, hp, hmissed⟩ := h
  exact ⟨got, n, mid, htook, fun few hfew => hq _ (hp few hfew), hmissed⟩

theorem Answers.last {p : Parser α} {q : Parser β} {c after : Connection} {a : α} {b : β}
    (h : s.Answers peer later p c a after)
    (hq : ∀ bytes rest, p bytes = some (a, rest) → q bytes = some (b, rest))
    (hn : ∀ bytes, p bytes = none → q bytes = none) : s.Answers peer later q c b after :=
  h.imp (fun h => h.then (k := fun rest => some (b, rest)) hq (parsed_here h.ready fun _ => rfl))
    (fun h => h.of hn)

def taking (n : Nat) : Parser (Except BridgeError Bytes) := fun bytes =>
  (Bytes.cut n bytes).map fun cut => (.ok cut.1, cut.2)

theorem reads_take {c : Connection} (h : s.Ready peer later c) (n : Nat) :
    s.Reads peer later (taking n) c (s.take n c) := by
  unfold take
  by_cases hn : n = 0
  · rw [if_pos hn, hn]
    exact parsed_here h fun _ => rfl
  · rw [if_neg hn]
    have hr := readBy_serving h.serving h.quiet hn (c.deadline s.timeout)
    have hm := s.take_meanwhile n h.serving.channel.framed
    rw [take, if_neg hn] at hm
    unfold Connection.read at hm ⊢
    cases hread : c.readBy s.stream.localId n (c.deadline s.timeout) with
    | ok bytes after =>
      rw [hread] at hr hm
      obtain ⟨hserving, hquiet, hadvance, hlen⟩ := hr
      refine ⟨bytes, ⟨⟨hserving, hquiet⟩, hadvance, hm⟩, fun rest => ?_⟩
      rw [taking, Bytes.cut_append hlen]
      rfl
    | error e after =>
      rw [hread] at hr hm
      obtain ⟨hserving, hquiet, hadvance, hshort, _, he⟩ := hr
      obtain ⟨t, ht, hsound⟩ := h.serving.sound
      obtain ⟨_, hlate, hunsupplied, hheard⟩ := hm he ⟨t, peer, ht, hsound⟩
      refine .inr ⟨[], n, c, .refl h, fun few hfew => ?_,
        ⟨⟨⟨hserving, hquiet⟩, hadvance, hheard⟩, hshort, hlate, hunsupplied⟩⟩
      rw [taking, List.nil_append, Bytes.cut, if_neg (Nat.not_le.mpr hfew)]
      rfl

theorem reads_take_bind {c : Connection} (h : s.Ready peer later c) (n : Nat)
    {f : Bytes → EStateM BridgeError Connection α} {k : Bytes → Parser (Except BridgeError α)}
    {q : Parser (Except BridgeError α)}
    (hq : ∀ bytes, q bytes = (Bytes.cut n bytes).bind fun cut => k cut.1 cut.2)
    (hf : ∀ front mid, s.Ready peer later mid → s.Reads peer later (k front) mid (f front mid)) :
    s.Reads peer later q c ((s.take n >>= f) c) := by
  have hcut {bytes front rest : Bytes} (hp : taking n bytes = some (.ok front, rest)) :
      q bytes = k front rest := by
    obtain ⟨⟨front', rest'⟩, hc, hsame⟩ := Option.map_eq_some_iff.mp hp
    cases hsame
    rw [hq, hc, Option.bind_some]
  have ht := reads_take h n
  change s.Reads peer later q c (EStateM.bind (s.take n) f c)
  unfold EStateM.bind
  cases hr : s.take n c with
  | ok front mid =>
    rw [hr] at ht
    have hnext := hf front mid ht.ready
    dsimp only
    cases hrest : f front mid with
    | ok a after =>
      rw [hrest] at hnext
      exact ht.then (fun _ _ => hcut) hnext
    | error e after =>
      rw [hrest] at hnext
      exact ht.answers (fun _ _ => hcut) hnext
  | error e mid =>
    rw [hr] at ht
    refine ht.last ?_ ?_
    · intro bytes rest hp
      obtain ⟨cut, _, hsame⟩ := Option.map_eq_some_iff.mp hp
      cases hsame
    · intro bytes hp
      rw [hq, Option.map_eq_none_iff.mp hp, Option.bind_none]

/-- What follows the words of a reply that is no failure. -/
def parseBody (id : SyncId) (shape : ReplyShape) (first : UInt32) (more : Bytes) :
    Parser (Except BridgeError SyncReply) := fun bytes =>
  match layout id shape first (Bytes.words more) with
  | some (length, reply) =>
    (Bytes.cut length bytes).bind fun cut => some (.ok (reply cut.1), cut.2)
  | none => some (.error (.protocol (.misplacedReply id shape)), bytes)

theorem reads_readRest {c : Connection} (h : s.Ready peer later c) (shape : ReplyShape)
    (head : Bytes) :
    s.Reads peer later (SyncReply.parseRest shape head) c (s.readRest shape head c) := by
  unfold readRest
  cases hid : SyncId.ofBytes? (head.take 4) with
  | none =>
    refine .inl (parsed_here h fun rest => ?_)
    rw [SyncReply.parseRest, hid]
  | some id =>
    dsimp only
    by_cases hfail : id = .fail
    · rw [if_pos hfail]
      let k (text : Bytes) : Parser (Except BridgeError SyncReply) := fun rest =>
        some (.error (.remote (Text.Utf8.decode text)), rest)
      refine reads_take_bind (k := k) h _ (fun bytes => ?_) fun text mid hmid => ?_
      · simp only [SyncReply.parseRest, hid, hfail, if_true]
        rfl
      · exact .inl (parsed_here hmid fun _ => rfl)
    · rw [if_neg hfail]
      let first := (Bytes.words (head.drop 4)).headD 0
      refine reads_take_bind (k := parseBody id shape first) h _ (fun bytes => ?_)
        fun more mid hmid => ?_
      · simp only [SyncReply.parseRest, hid, hfail, if_false]
        rfl
      · unfold parseBody
        dsimp only [first]
        cases layout id shape ((Bytes.words (head.drop 4)).headD 0) (Bytes.words more) with
        | none => exact .inl (parsed_here hmid fun _ => rfl)
        | some announced =>
          let last (body : Bytes) : Parser (Except BridgeError SyncReply) := fun rest =>
            some (.ok (announced.2 body), rest)
          refine reads_take_bind (k := last) hmid _ (fun bytes => rfl) fun body end_ hend => ?_
          exact parsed_here hend fun _ => rfl

theorem reads_readReply {c : Connection} (h : s.Ready peer later c) (shape : ReplyShape) :
    s.Reads peer later (SyncReply.parse shape) c (s.readReply shape c) := by
  have hbind : s.readReply shape c = (s.take 8 >>= s.readRest shape) c := by
    change _ = EStateM.bind (s.take 8) (s.readRest shape) c
    unfold readReply EStateM.bind
    cases s.take 8 c <;> rfl
  rw [hbind]
  exact reads_take_bind (k := SyncReply.parseRest shape) h 8 (fun bytes => rfl)
    fun head mid hmid => reads_readRest hmid shape head

theorem Reads.check {p : Parser (Except BridgeError α)} {c : Connection}
    {r : EStateM.Result BridgeError Connection α} (h : s.Reads peer later p c r)
    (f : α → Except BridgeError β) : s.Reads peer later (p.check f) c (checked f r) := by
  have hsome {bytes rest : Bytes} {said : Except BridgeError α} (hp : p bytes = some (said, rest)) :
      p.check f bytes = some (said.bind f, rest) := by
    rw [Parser.check, hp]
    rfl
  have hnone (bytes : Bytes) (hp : p bytes = none) : p.check f bytes = none := by
    rw [Parser.check, hp]
    rfl
  cases r with
  | error e after => exact Answers.last h (fun _ _ => hsome) hnone
  | ok a after =>
    obtain ⟨got, htook, hp⟩ := h
    cases hf : f a with
    | ok b =>
      have hgood : checked f (.ok a after : EStateM.Result _ _ α) = .ok b after := by
        simp only [checked, hf]
      rw [hgood]
      refine ⟨got, htook, fun rest => ?_⟩
      rw [hsome (hp rest)]
      exact congrArg (fun said => some (said, rest)) hf
    | error e =>
      have hbad : checked f (.ok a after : EStateM.Result _ _ α) = .error e after := by
        simp only [checked, hf]
      rw [hbad]
      refine .inl ⟨got, htook, fun rest => ?_⟩
      rw [hsome (hp rest)]
      exact congrArg (fun said => some (said, rest)) hf

theorem Reads.answers {p : Parser (Except BridgeError α)} {c : Connection}
    {r : EStateM.Result BridgeError Connection α} (h : s.Reads peer later p c r) :
    s.Answers peer later p c (outcome r) (final r) := by
  cases r with
  | ok a after => exact .inl h
  | error e after => exact h

theorem nextEntry_eq (s : SyncSession) (c : Connection) :
    s.nextEntry c = checked SyncRequest.listed (s.readReply .entry c) := by
  unfold nextEntry checked
  cases s.readReply .entry c with
  | error e after => rfl
  | ok reply after => cases reply <;> rfl

theorem reads_nextEntry {c : Connection} (h : s.Ready peer later c) :
    s.Reads peer later SyncRequest.parseEntry c (s.nextEntry c) := by
  rw [nextEntry_eq]
  exact (reads_readReply h .entry).check SyncRequest.listed

theorem parseEntries_none {bytes : Bytes} (h : SyncRequest.parseEntry bytes = none) :
    SyncRequest.parseEntries bytes = none := by
  rw [SyncRequest.parseEntries, h]

theorem answers_entries {c : Connection} (h : s.Ready peer later c) :
    s.Answers peer later SyncRequest.parseEntries c (s.entries c).1 (s.entries c).2 := by
  -- The recursion is that of the listing: an entry and the rest, its end, or a failure.
  fun_induction entries s c with
  | case1 c entry after hnext rest ih =>
    have hr := reads_nextEntry h
    rw [hnext] at hr
    let k : Parser (List (Except BridgeError FileStat)) := fun bytes =>
      (SyncRequest.parseEntries bytes).map fun items => (.ok entry :: items.1, items.2)
    refine Parsed.answers (k := k) hr (fun bytes left hp => ?_) ((ih hr.ready).imp ?_ ?_)
    · rw [SyncRequest.parseEntries, hp]
    · rintro ⟨got, htook, hp⟩
      refine ⟨got, htook, fun left => ?_⟩
      dsimp only [k]
      rw [hp]
      rfl
    · intro hstarved
      refine hstarved.of fun bytes hp => ?_
      dsimp only [k]
      rw [hp]
      rfl
  | case2 c after hnext =>
    have hr := reads_nextEntry h
    rw [hnext] at hr
    refine Answers.last (.inl hr) (fun bytes left hp => ?_) fun _ => parseEntries_none
    rw [SyncRequest.parseEntries, hp]
  | case3 c e after hnext =>
    have hr := reads_nextEntry h
    rw [hnext] at hr
    refine Answers.last hr (fun bytes left hp => ?_) fun _ => parseEntries_none
    rw [SyncRequest.parseEntries, hp]

theorem parsePieces_none {total : Nat} {sink : Sink} {bytes : Bytes}
    (h : SyncReply.parse .data bytes = none) : SyncRequest.parsePieces total sink bytes = none := by
  rw [SyncRequest.parsePieces, h]

theorem answers_receivePieces {c : Connection} (h : s.Ready peer later c) (total : Nat)
    (sink : Sink) :
    s.Answers peer later (SyncRequest.parsePieces total sink) c
      (outcome (s.receivePieces total sink c).1, (s.receivePieces total sink c).2)
      (final (s.receivePieces total sink c).1) := by
  have hr := reads_readReply h .data
  fun_induction receivePieces s total sink c with
  | case1 total sink c bytes after hreply sink' hw ih =>
    rw [hreply] at hr
    have hrest := ih hr.ready (reads_readReply hr.ready .data)
    refine Parsed.answers hr (fun bytes' left hp => ?_) hrest
    rw [SyncRequest.parsePieces, hp]
    simp only [hw]
  | case2 total sink c bytes after hreply f hw =>
    rw [hreply] at hr
    refine Answers.last (.inl hr) (fun bytes' left hp => ?_) fun _ => parsePieces_none
    rw [SyncRequest.parsePieces, hp]
    simp only [hw, outcome]
  | case3 total sink c value after hreply u hf =>
    rw [hreply] at hr
    refine Answers.last (.inl hr) (fun bytes' left hp => ?_) fun _ => parsePieces_none
    rw [SyncRequest.parsePieces, hp]
    simp only [hf, outcome]
  | case4 total sink c value after hreply f hf =>
    rw [hreply] at hr
    refine Answers.last (.inl hr) (fun bytes' left hp => ?_) fun _ => parsePieces_none
    rw [SyncRequest.parsePieces, hp]
    simp only [hf, outcome]
  | case5 total sink c other after hdata hdone hreply =>
    rw [hreply] at hr
    refine Answers.last (.inl hr) (fun bytes' left hp => ?_) fun _ => parsePieces_none
    rw [SyncRequest.parsePieces, hp]
    cases other with
    | data piece => exact absurd rfl (hdata piece)
    | done value => exact absurd rfl (hdone value)
    | stat mode size mtime => rfl
    | entry mode size mtime name => rfl
    | okay => rfl
  | case6 total sink c e after hreply =>
    rw [hreply] at hr
    refine Answers.last hr (fun bytes' left hp => ?_) fun _ => parsePieces_none
    rw [SyncRequest.parsePieces, hp]
    rfl

end SyncSession

namespace SyncRequest
open Connection

def perform (s : SyncSession) : SyncRequest → Connection → SyncAnswer × Connection
  | stat path, c => (.stat (outcome (s.stat path c)), final (s.stat path c))
  | list path, c => (.list (outcome (s.list path none c)), final (s.list path none c))
  | recv path sink, c =>
    (.recv (outcome (s.receive path sink c).1) (s.receive path sink c).2,
      final (s.receive path sink c).1)

/-- What the file calls make of a request that is out. -/
def await (s : SyncSession) : SyncRequest → Connection → SyncAnswer × Connection
  | stat path, c =>
    (.stat (outcome (checked (known path) (s.readReply .stat c))),
      final (checked (known path) (s.readReply .stat c)))
  | list _, c => (.list (.ok (s.entries c).1), (s.entries c).2)
  | recv _ sink, c =>
    (.recv (outcome (s.receivePieces 0 sink c).1) (s.receivePieces 0 sink c).2,
      final (s.receivePieces 0 sink c).1)

theorem perform_eq (request : SyncRequest) (s : SyncSession) (c : Connection) :
    request.perform s c = match s.request request.syncId request.name c with
      | .ok _ mid => request.await s mid
      | .error e mid => (request.failed e, mid) := by
  cases request with
  | stat path =>
    unfold perform syncId name
    dsimp only [SyncRequest.path]
    cases h : s.request .stat (Text.Utf8.encode path) c with
    | error e mid =>
      have hstat : s.stat path c = .error e mid := by
        change EStateM.bind (s.request .stat (Text.Utf8.encode path)) _ c = _
        simp only [EStateM.bind, h]
      rw [hstat]
      rfl
    | ok u mid =>
      have hstat : s.stat path c = checked (known path) (s.readReply .stat mid) := by
        change EStateM.bind (s.request .stat (Text.Utf8.encode path)) _ c = _
        simp only [EStateM.bind, h]
        change EStateM.bind (s.readReply .stat) _ mid = _
        unfold EStateM.bind checked
        cases s.readReply .stat mid with
        | error e last => rfl
        | ok reply last => cases reply <;> rfl
      rw [hstat]
      rfl
  | list path =>
    unfold perform syncId name SyncSession.list
    dsimp only [SyncRequest.path]
    cases s.request .list (Text.Utf8.encode path) c <;> rfl
  | recv path sink =>
    unfold perform syncId name SyncSession.receive
    dsimp only [SyncRequest.path]
    cases s.request .recv (Text.Utf8.encode path) c <;> rfl

theorem answers_await {s : SyncSession} {peer : UInt32} {later : Bytes} {c : Connection}
    (h : s.Ready peer later c) (request : SyncRequest) :
    s.Answers peer later request.parseAnswer c (request.await s c).1 (request.await s c).2 := by
  cases request with
  | stat path =>
    have hr := (SyncSession.reads_readReply h .stat).check (known path)
    have hmap {bytes rest : Bytes} {said : Except BridgeError FileStat}
        (hp : Parser.check (SyncReply.parse .stat) (known path) bytes = some (said, rest)) :
        (stat path).parseAnswer bytes = some (.stat said, rest) := by
      rw [parseAnswer, hp]
      rfl
    have hnone (bytes : Bytes) (hp : Parser.check (SyncReply.parse .stat) (known path) bytes = none) :
        (stat path).parseAnswer bytes = none := by
      rw [parseAnswer, hp]
      rfl
    exact hr.answers.last (fun _ _ => hmap) hnone
  | list path =>
    refine (SyncSession.answers_entries h).last ?_ ?_
    · intro bytes rest hp
      rw [parseAnswer, hp]
      rfl
    · intro bytes hp
      rw [parseAnswer, hp]
      rfl
  | recv path sink =>
    refine (SyncSession.answers_receivePieces h 0 sink).last ?_ ?_
    · intro bytes rest hp
      rw [parseAnswer, hp]
      rfl
    · intro bytes hp
      rw [parseAnswer, hp]
      rfl

/-- Pieces of data that a request is sent in. The device acknowledges each of them. -/
def pieces (info : DeviceInfo) (request : SyncRequest) : Nat :=
  if maxPathLength < request.name.length then 0
  else (Bytes.pieces info.maxData.toNat
    (SyncSession.naming request.syncId request.name)).length

/-- These messages acknowledge all pieces of a request, and bring all of its reply. -/
def Fulfils (s : SyncSession) (request : SyncRequest) (c : Connection)
    (came : List (Except BridgeError Message)) : Prop :=
  request.pieces c.info ≤ came.countP (Message.isOkayFor s.stream.localId) ∧
    (request.parse (c.unread s.stream.localId ++
      came.flatMap (Message.dataFor s.stream.localId))).isSome = true

instance (s : SyncSession) (request : SyncRequest) (c : Connection)
    (came : List (Except BridgeError Message)) : Decidable (request.Fulfils s c came) :=
  inferInstanceAs (Decidable (_ ∧ _))

/-- All that a request calls for does not come in time; nor do the acknowledgements of its pieces,
once it is sent, or the bytes that are read next of its reply. -/
structure Overdue (s : SyncSession) (request : SyncRequest) (c : Connection) : Prop where
  whole : c.Overdue s.timeout (2 * request.pieces c.info) (request.Fulfils s c)
  transfer : s.Unheeded request.syncId (UInt32.ofNat request.name.length) request.name c
      (request.perform s c).2 ∨
    ∃ heard got n mid, Meanwhile heard (2 * request.pieces c.info) c mid ∧
      mid.taken s.stream.localId = c.taken s.stream.localId ++ got ∧
      (∀ more, more.length < n → request.parse (got ++ more) = none) ∧
      s.Unsupplied n mid (request.perform s c).2

/-- The device serves the stream, nothing is under way on it, and no more acknowledgements are to
come than the request asks for. -/
structure Posed (s : SyncSession) (peer : UInt32) (later : Bytes) (request : SyncRequest)
    (c : Connection) : Prop where
  serving : c.Serving s.stream.localId peer later
  idle : c.awaited s.stream.localId = 0
  asked : c.okays s.stream.localId [] ≤ request.pieces c.info

/-- A request goes out and its pieces are acknowledged, or they are not in time. -/
theorem request_posed {s : SyncSession} {peer : UInt32} {later : Bytes} {request : SyncRequest}
    {c : Connection} (h : request.Posed s peer later c)
    (hshort : ¬ maxPathLength < request.name.length) :
    match s.request request.syncId request.name c with
    | .ok _ mid => s.Ready peer later mid ∧ Advance s.stream.localId [] (request.pieces c.info) c mid ∧
        ∃ heard, Meanwhile heard (2 * request.pieces c.info) c mid
    | .error _ mid => c.now + s.timeout ≤ mid.now ∧
        s.Unheeded request.syncId (UInt32.ofNat request.name.length) request.name c mid ∧
        ∃ heard, Meanwhile heard (2 * request.pieces c.info) c mid ∧
          (heard.map .ok).countP (Message.isOkayFor s.stream.localId) < request.pieces c.info := by
  let text := SyncSession.naming request.syncId request.name
  have hpieces : SyncSession.cuts c.info text = request.pieces c.info := by
    rw [SyncRequest.pieces, if_neg hshort, SyncSession.cuts]
  have hwrite : s.writeFrame request.syncId (UInt32.ofNat request.name.length) request.name c =
      c.writePieces s.stream.localId (c.deadline s.timeout)
        (Bytes.pieces c.info.maxData.toNat text) := rfl
  have hsent : s.request request.syncId request.name c =
      c.writePieces s.stream.localId (c.deadline s.timeout)
        (Bytes.pieces c.info.maxData.toNat text) := by
    rw [SyncSession.request, if_neg hshort]
    rfl
  have hw := writePieces_serving h.serving h.idle (c.deadline s.timeout)
    (Bytes.pieces c.info.maxData.toNat text)
  have hm := s.writeFrame_meanwhile request.syncId (UInt32.ofNat request.name.length) request.name
    h.serving.channel.framed
  rw [hwrite] at hm
  rw [hsent]
  cases hr : c.writePieces s.stream.localId (c.deadline s.timeout)
      (Bytes.pieces c.info.maxData.toNat text) with
  | error e mid =>
    rw [hr] at hw hm
    obtain ⟨_, hlate, hunheeded, heard, hheard, hless⟩ := hm hw.2.2.2.2
    exact ⟨hlate, hunheeded, heard, hpieces ▸ hheard, hpieces ▸ hless⟩
  | ok u mid =>
    rw [hr] at hw hm
    obtain ⟨hserving, hidle, hadvance⟩ := hw
    obtain ⟨heard, hheard⟩ := hm
    refine ⟨⟨hserving, hidle, ?_⟩, hpieces ▸ hadvance, heard, hpieces ▸ hheard⟩
    have hcount := hadvance.okays []
    have hasked := h.asked
    have hfirst := h.idle
    change _ + _ + SyncSession.cuts c.info text = _ at hcount
    omega

theorem heard_data {id : UInt32} {got : Bytes} {pieces writes : Nat} {heard : List Message}
    {c after : Connection} (ha : Advance id got pieces c after) (hm : Meanwhile heard writes c after) :
    c.unread id ++ (heard.map .ok).flatMap (Message.dataFor id) = got ++ after.unread id := by
  have hread := ha.toRead []
  rw [toRead, toRead, hm.coming, List.flatMap_append, ← List.append_assoc, ← List.append_assoc] at hread
  exact List.append_cancel_right hread

theorem whole_overdue {s : SyncSession} {peer : UInt32} {later : Bytes} {request : SyncRequest}
    {c mid after : Connection} {heard : List Message}
    (ha : Advance s.stream.localId [] (request.pieces c.info) c mid)
    (hm : Meanwhile heard (2 * request.pieces c.info) c mid)
    (h : s.Starved peer later request.parse mid after) :
    c.Overdue s.timeout (2 * request.pieces c.info) (request.Fulfils s c) := by
  obtain ⟨got, n, last, htook, hnone, hmissed⟩ := h
  have hall := htook.trans hmissed.took
  obtain ⟨more, hmore⟩ := hall.meanwhile
  have hlate : c.now + s.timeout ≤ after.now := Nat.le_trans
    (Nat.add_le_add_right (Nat.le_trans ha.now htook.advance.now) _) hmissed.late
  refine (hm.trans hmore).overdue hlate ?_
  rintro came ⟨rest, hrest⟩ ⟨_, hparse⟩
  have hdata := heard_data (ha.trans hall.advance) (hm.trans hmore)
  rw [← hrest, List.flatMap_append, ← List.append_assoc, List.nil_append, List.append_nil] at hdata
  obtain ⟨⟨answer, left⟩, hanswer⟩ := Option.isSome_iff_exists.mp hparse
  have hsaid := parse_more hanswer (rest.flatMap (Message.dataFor s.stream.localId))
  rw [hdata, hnone _ hmissed.short] at hsaid
  cases hsaid

/-- A request is answered as its parser answers, from the bytes that it takes. -/
def Answered (s : SyncSession) (request : SyncRequest) (c : Connection) : Prop :=
  let done := request.perform s c
  ∃ got, Advance s.stream.localId got (request.pieces c.info) c done.2 ∧
    ∀ rest, request.parse (got ++ rest) = some (done.1, rest)

/-- A request comes to what its parser makes of the stream, or it is overdue. -/
theorem perform_answered {s : SyncSession} {peer : UInt32} {later : Bytes} {request : SyncRequest}
    {c : Connection} (h : request.Posed s peer later c) :
    s.Ready peer later (request.perform s c).2 ∧ request.Answered s c ∨ request.Overdue s c := by
  by_cases hlong : maxPathLength < request.name.length
  · have hrefused : s.request request.syncId request.name c =
        .error (.argument (.longPath request.name.length)) c := by
      rw [SyncSession.request, if_pos hlong]
      rfl
    have hnone : request.pieces c.info = 0 := if_pos hlong
    have hasked := h.asked
    rw [hnone] at hasked
    refine .inl ?_
    rw [Answered, perform_eq, hrefused, hnone]
    refine ⟨⟨h.serving, h.idle, Nat.le_zero.mp hasked⟩, [], .refl _ c, fun rest => ?_⟩
    rw [parse, if_pos hlong]
    rfl
  · have hrequest := request_posed h hlong
    have hparser : request.parse = request.parseAnswer := by
      funext bytes
      rw [parse, if_neg hlong]
    cases hr : s.request request.syncId request.name c with
    | error e mid =>
      have hdone : request.perform s c = (request.failed e, mid) := by rw [perform_eq, hr]
      rw [hr] at hrequest
      obtain ⟨hlate, hunheeded, heard, hheard, hless⟩ := hrequest
      refine .inr ⟨hheard.overdue hlate ?_, .inl (hdone ▸ hunheeded)⟩
      rintro came hcame ⟨hall, _⟩
      exact absurd hless (Nat.not_lt.mpr (Nat.le_trans hall hcame.sublist.countP_le))
    | ok u mid =>
      have hdone : request.perform s c = request.await s mid := by rw [perform_eq, hr]
      rw [hr] at hrequest
      obtain ⟨hready, hadvance, heard, hheard⟩ := hrequest
      have hanswer := answers_await hready request
      rw [← hparser, ← hdone] at hanswer
      obtain ⟨got, htook, hp⟩ | hstarved := hanswer
      · refine .inl ⟨htook.ready, got, ?_, hp⟩
        have hboth := hadvance.trans htook.advance
        rw [List.nil_append, Nat.add_zero] at hboth
        exact hboth
      · refine .inr ⟨whole_overdue hadvance hheard hstarved, .inr ?_⟩
        obtain ⟨got, n, last, htook, hnone, hmissed⟩ := hstarved
        obtain ⟨more, hmore⟩ := htook.meanwhile
        refine ⟨heard ++ more, got, n, last, hheard.trans hmore, ?_, hnone, hmissed.unsupplied⟩
        rw [htook.advance.taken, hadvance.taken, List.append_nil]

end SyncRequest

namespace Connection

def supply (arrivals : List Arrival) (c : Connection) : Connection :=
  { c with channel := { c.channel with link :=
    { c.channel.link with inbound := c.channel.link.inbound ++ arrivals } } }

theorem supply_moves (arrivals : List Arrival) (c : Connection) : c.Moves (c.supply arrivals) :=
  .single (.outside _ rfl)

theorem coming_supply (arrivals : List Arrival) (later : Bytes) (c : Connection) :
    (c.supply arrivals).coming later = c.coming (arrivals.flatMap Arrival.bytes ++ later) := by
  simp only [coming, supply, Channel.stream, Link.coming, List.flatMap_append, List.append_assoc]

theorem toRead_supply (id : UInt32) (arrivals : List Arrival) (later : Bytes) (c : Connection) :
    (c.supply arrivals).toRead id later = c.toRead id (arrivals.flatMap Arrival.bytes ++ later) := by
  rw [toRead, coming_supply]
  rfl

theorem okays_supply (id : UInt32) (arrivals : List Arrival) (later : Bytes) (c : Connection) :
    (c.supply arrivals).okays id later = c.okays id (arrivals.flatMap Arrival.bytes ++ later) := by
  rw [okays, coming_supply]
  rfl

theorem Serving.supply {id peer : UInt32} {later : Bytes} {arrivals : List Arrival} {c : Connection}
    (h : c.Serving id peer (arrivals.flatMap Arrival.bytes ++ later))
    (ha : ∀ a ∈ arrivals, a.isHarmless = true) : (c.supply arrivals).Serving id peer later where
  channel := by
    refine ⟨⟨⟨h.channel.framed.steady.isOpen, ?_⟩, h.channel.framed.cut⟩, h.channel.taken⟩
    exact List.forall_mem_append.mpr ⟨h.channel.framed.steady.harmless, ha⟩
  told := by
    rw [coming_supply]
    exact h.told
  sound := h.sound

end Connection

/-- A request, and what arrives once it has been made. -/
structure SyncTurn where
  arrivals : List Arrival
  request : SyncRequest

namespace SyncTurn

def bytes (turn : SyncTurn) : Bytes := turn.arrivals.flatMap Arrival.bytes

def perform (s : SyncSession) (turn : SyncTurn) (c : Connection) : SyncAnswer × Connection :=
  turn.request.perform s (c.supply turn.arrivals)

def Answered (s : SyncSession) (turn : SyncTurn) (c : Connection) : Prop :=
  turn.request.Answered s (c.supply turn.arrivals)

def Overdue (s : SyncSession) (turn : SyncTurn) (c : Connection) : Prop :=
  turn.request.Overdue s (c.supply turn.arrivals)

end SyncTurn

namespace SyncSession
open Connection

def converse (s : SyncSession) : List SyncTurn → Connection → List SyncAnswer × Connection
  | [], c => ([], c)
  | turn :: rest, c =>
    let done := turn.perform s c
    let last := converse s rest done.2
    (done.1 :: last.1, last.2)

theorem converse_take (s : SyncSession) (turns : List SyncTurn) (k : Nat) (c : Connection) :
    (s.converse (turns.take k) c).1 = (s.converse turns c).1.take k := by
  induction turns generalizing c k with
  | nil => rw [List.take_nil, converse, List.take_nil]
  | cons turn rest ih =>
    cases k with
    | zero => rfl
    | succ k => rw [List.take_succ_cons, converse, converse, ih, List.take_succ_cons]

theorem converse_turn {s : SyncSession} {turns : List SyncTurn} {k : Nat} {turn : SyncTurn}
    (h : turns[k]? = some turn) (c : Connection) :
    let before := (s.converse (turns.take k) c).2
    (s.converse turns c).1[k]? = some (turn.perform s before).1 ∧
      (s.converse (turns.take (k + 1)) c).2 = (turn.perform s before).2 := by
  induction turns generalizing c k with
  | nil => cases h
  | cons first rest ih =>
    cases k with
    | zero =>
      cases h
      exact ⟨rfl, rfl⟩
    | succ k => exact ih h (first.perform s c).2

def asking (info : DeviceInfo) : List SyncTurn → Nat
  | [] => 0
  | turn :: rest => turn.request.pieces info + asking info rest

/-- No turn is overdue. -/
def Timely (s : SyncSession) (turns : List SyncTurn) (c : Connection) : Prop :=
  ∀ (k : Nat) (turn : SyncTurn), turns[k]? = some turn →
    ¬ turn.Overdue s (s.converse (turns.take k) c).2

theorem timely_of_fulfilled {s : SyncSession} {turns : List SyncTurn} {c : Connection}
    (h : ∀ k, (hk : k < turns.length) →
      let asked := (s.converse (turns.take k) c).2.supply turns[k].arrivals
      let queue := asked.channel.link.inbound
      let came := Message.parse (asked.channel.fragment ++ queue.flatMap Arrival.bytes)
      turns[k].request.Fulfils s asked came ∧
        Arrival.delay queue + asked.channel.link.due
          (2 * turns[k].request.pieces asked.info + asked.duties came) < s.timeout) :
    s.Timely turns c := by
  intro k turn hturn hoverdue
  obtain ⟨hk, rfl⟩ := List.getElem?_eq_some_iff.mp hturn
  obtain ⟨hfulfils, htime⟩ := h k hk
  exact absurd htime (Nat.not_lt.mpr (hoverdue.whole _ _ (List.append_nil _).symm hfulfils))

/-- The messages for the stream are data and acknowledgements, and no more of these than pieces were
sent by then. -/
structure Served (s : SyncSession) (peer : UInt32) (turns : List SyncTurn) (c : Connection) :
    Prop where
  serving : c.Serving s.stream.localId peer (turns.flatMap SyncTurn.bytes)
  idle : c.awaited s.stream.localId = 0
  harmless : ∀ turn ∈ turns, ∀ a ∈ turn.arrivals, a.isHarmless = true
  asked : ∀ k, c.okays s.stream.localId ((turns.take k).flatMap SyncTurn.bytes) ≤
    asking c.info (turns.take k)

theorem Served.posed {s : SyncSession} {peer : UInt32} {turn : SyncTurn} {rest : List SyncTurn}
    {c : Connection} (h : s.Served peer (turn :: rest) c) :
    turn.request.Posed s peer (rest.flatMap SyncTurn.bytes) (c.supply turn.arrivals) where
  serving := h.serving.supply (h.harmless turn (List.mem_cons_self ..))
  idle := h.idle
  asked := by
    have hfirst := h.asked 1
    simp only [List.take_succ_cons, List.take_zero, List.flatMap_cons, List.flatMap_nil, asking,
      Nat.add_zero] at hfirst
    rw [okays_supply]
    exact hfirst

theorem Served.next {s : SyncSession} {peer : UInt32} {turn : SyncTurn} {rest : List SyncTurn}
    {c after : Connection} (h : s.Served peer (turn :: rest) c)
    (hr : s.Ready peer (rest.flatMap SyncTurn.bytes) after) {got : Bytes}
    (ha : Advance s.stream.localId got (turn.request.pieces c.info) (c.supply turn.arrivals) after) :
    s.Served peer rest after where
  serving := hr.serving
  idle := hr.quiet.1
  harmless := fun t ht => h.harmless t (List.mem_cons_of_mem _ ht)
  asked := by
    intro k
    have hall := h.asked (k + 1)
    have hcount := ha.okays ((rest.take k).flatMap SyncTurn.bytes)
    have hfirst : (c.supply turn.arrivals).awaited s.stream.localId = 0 := h.idle
    have hlast := hr.quiet.1
    rw [okays_supply, hfirst, hlast] at hcount
    rw [List.take_succ_cons, List.flatMap_cons, asking] at hall
    rw [ha.info]
    change c.okays s.stream.localId (turn.bytes ++ _) ≤ _ at hall
    change after.okays s.stream.localId _ ≤ asking c.info (rest.take k)
    change _ = c.okays s.stream.localId (turn.bytes ++ _) + 0 at hcount
    omega

theorem served_of_messages {s : SyncSession} {peer : UInt32} {turns : List SyncTurn} {c : Connection}
    (hchannel : c.channel.Serving)
    (hsound : ∃ t, c.table.find? s.stream.localId = some t ∧ t.Sound peer) {messages : List Message}
    (hcoming : c.coming (turns.flatMap SyncTurn.bytes) = messages.map .ok)
    (hall : ∀ m ∈ messages, m.Serves s.stream.localId peer)
    (hidle : c.awaited s.stream.localId = 0)
    (hharmless : ∀ turn ∈ turns, ∀ a ∈ turn.arrivals, a.isHarmless = true)
    (hasked : ∀ k ≤ turns.length, c.okays s.stream.localId ((turns.take k).flatMap SyncTurn.bytes) ≤
      asking c.info (turns.take k)) : s.Served peer turns c where
  serving := by
    refine ⟨hchannel, fun r hr => ?_, hsound⟩
    rw [hcoming] at hr
    obtain ⟨m, hm, rfl⟩ := List.mem_map.mp hr
    exact ⟨m, rfl, hall m hm⟩
  idle := hidle
  harmless := hharmless
  asked := by
    intro k
    rcases Nat.le_total k turns.length with hk | hk
    · exact hasked k hk
    · rw [List.take_of_length_le hk]
      have hlast := hasked turns.length (Nat.le_refl _)
      rwa [List.take_length] at hlast

def Settled (s : SyncSession) : List SyncTurn → Connection → Prop
  | [], _ => True
  | turn :: rest, c => turn.Answered s c ∧ Settled s rest (turn.perform s c).2

/-- Turns are answered up to the first one that is overdue. -/
theorem converse_settled {s : SyncSession} {peer : UInt32} {turns : List SyncTurn} {c : Connection}
    (h : s.Served peer turns c) :
    ∃ k ≤ turns.length, s.Settled (turns.take k) c ∧
      ∀ turn, turns[k]? = some turn → turn.Overdue s (s.converse (turns.take k) c).2 := by
  induction turns generalizing c with
  | nil => exact ⟨0, Nat.le_refl 0, trivial, fun turn => by rintro ⟨⟩⟩
  | cons turn rest ih =>
    obtain ⟨hready, hanswered⟩ | hoverdue := SyncRequest.perform_answered h.posed
    · obtain ⟨got, hadvance, hparse⟩ := hanswered
      obtain ⟨k, hk, hsettled, hlate⟩ := ih (h.next hready hadvance)
      exact ⟨k + 1, Nat.succ_le_succ hk, ⟨⟨got, hadvance, hparse⟩, hsettled⟩, hlate⟩
    · exact ⟨0, Nat.zero_le _, trivial, fun turn hturn => by cases hturn; exact hoverdue⟩

theorem Timely.settled {s : SyncSession} {peer : UInt32} {turns : List SyncTurn} {c : Connection}
    (ht : s.Timely turns c) (h : s.Served peer turns c) : s.Settled turns c := by
  obtain ⟨k, hk, hsettled, hlate⟩ := converse_settled h
  rcases Nat.lt_or_eq_of_le hk with hless | rfl
  · have hturn := List.getElem?_eq_getElem hless
    exact absurd (hlate _ hturn) (ht k _ hturn)
  · rwa [List.take_length] at hsettled

theorem Settled.turn {s : SyncSession} {turns : List SyncTurn} {c : Connection}
    (h : s.Settled turns c) {k : Nat} {turn : SyncTurn} (hturn : turns[k]? = some turn) :
    turn.Answered s (s.converse (turns.take k) c).2 := by
  induction turns generalizing c k with
  | nil => cases hturn
  | cons first rest ih =>
    cases k with
    | zero =>
      cases hturn
      exact h.1
    | succ k => exact ih h.2 hturn

theorem Settled.parsed {s : SyncSession} {turns : List SyncTurn} {c : Connection}
    (h : s.Settled turns c) (later : Bytes) :
    SyncRequest.parseAll (turns.map (·.request))
        (c.toRead s.stream.localId (turns.flatMap SyncTurn.bytes ++ later)) =
      some ((s.converse turns c).1, (s.converse turns c).2.toRead s.stream.localId later) := by
  induction turns generalizing c with
  | nil => rfl
  | cons turn rest ih =>
    obtain ⟨⟨got, hadvance, hparse⟩, hrest⟩ := h
    have hbytes : c.toRead s.stream.localId ((turn :: rest).flatMap SyncTurn.bytes ++ later) =
        got ++ toRead s.stream.localId (rest.flatMap SyncTurn.bytes ++ later) (turn.perform s c).2 := by
      rw [List.flatMap_cons, List.append_assoc, SyncTurn.perform, ← hadvance.toRead, toRead_supply]
      rfl
    rw [hbytes, List.map_cons, SyncRequest.parseAll, hparse]
    dsimp only [Option.bind_eq_bind, Option.bind_some]
    rw [← SyncTurn.perform, ih hrest]
    rfl

end SyncSession

theorem SyncTurn.Answered.said {s : SyncSession} {turn : SyncTurn} {c : Connection}
    (h : turn.Answered s c) {said rest later : Bytes} {answer : SyncAnswer}
    (hsaid : Said turn.request said answer) (hshort : turn.request.name.length ≤ maxPathLength)
    (hstands : c.toRead s.stream.localId (turn.bytes ++ later) = said ++ rest) :
    let done := turn.perform s c
    done.1 = answer ∧ done.2.taken s.stream.localId = c.taken s.stream.localId ++ said ∧
      done.2.toRead s.stream.localId later = rest := by
  obtain ⟨got, hadvance, hparse⟩ := h
  have hread := hadvance.toRead later
  rw [Connection.toRead_supply] at hread
  change c.toRead s.stream.localId (turn.bytes ++ later) = _ at hread
  have htwice := SyncRequest.parse_said hsaid hshort rest
  rw [← hstands, hread, hparse, Option.some.injEq, Prod.mk.injEq] at htwice
  obtain ⟨hsame, hleft⟩ := htwice
  rw [hstands, hleft] at hread
  have hgot : said = got := List.append_cancel_right hread
  exact ⟨hsame, hgot ▸ hadvance.taken, hleft⟩

/-- Requests to stat, list and receive on a session are answered, up to the first one that
is overdue, as the parser answers them from the plain bytes, into whatever messages these
are cut and whatever comes in between. An answer that the device ends properly takes its own
bytes and no more. -/
theorem replies_by_content (s : SyncSession) (peer : UInt32) (turns : List SyncTurn) {c : Connection}
    (hserved : s.Served peer turns c) :
    let id := s.stream.localId
    let run := s.converse turns c
    ∃ k ≤ turns.length,
      SyncRequest.parseAll ((turns.take k).map (·.request))
          (c.toRead id (turns.flatMap SyncTurn.bytes)) =
        some (run.1.take k, (s.converse (turns.take k) c).2.toRead id
          ((turns.drop k).flatMap SyncTurn.bytes)) ∧
      (∀ j turn said answer rest, j < k → turns[j]? = some turn → Said turn.request said answer →
        turn.request.name.length ≤ maxPathLength →
        let before := (s.converse (turns.take j) c).2
        let after := (s.converse (turns.take (j + 1)) c).2
        before.toRead id ((turns.drop j).flatMap SyncTurn.bytes) = said ++ rest →
        run.1[j]? = some answer ∧ after.taken id = before.taken id ++ said ∧
          after.toRead id ((turns.drop (j + 1)).flatMap SyncTurn.bytes) = rest) ∧
      ∀ turn, turns[k]? = some turn → turn.Overdue s (s.converse (turns.take k) c).2 := by
  intro id run
  obtain ⟨k, hk, hsettled, hlate⟩ := SyncSession.converse_settled hserved
  refine ⟨k, hk, ?_, ?_, hlate⟩
  · have hparse := hsettled.parsed ((turns.drop k).flatMap SyncTurn.bytes)
    rw [← List.flatMap_append, List.take_append_drop, SyncSession.converse_take] at hparse
    exact hparse
  · intro j turn said answer rest hj hturn hsaid hshort before after hstands
    have hamong : (turns.take k)[j]? = some turn := by rw [List.getElem?_take_of_lt hj, hturn]
    have hanswered := hsettled.turn hamong
    rw [List.take_take, Nat.min_eq_left (Nat.le_of_lt hj)] at hanswered
    obtain ⟨hless, rfl⟩ := List.getElem?_eq_some_iff.mp hturn
    rw [List.drop_eq_getElem_cons hless, List.flatMap_cons] at hstands
    obtain ⟨hanswer, hafter⟩ := SyncSession.converse_turn (s := s) hturn c
    rw [hanswer, show after = _ from hafter]
    obtain ⟨hsame, htaken, hleft⟩ := hanswered.said hsaid hshort hstands
    exact ⟨congrArg some hsame, htaken, hleft⟩

/-- Eight bytes at a time. A reply in three messages, one of them empty, around an acknowledgement;
the last brings the first byte of the next reply. -/
theorem replies_by_content_cut :
    let message (m : Message) : Arrival := .chunk m.encode
    let okay : Message := ⟨.okay, 101, 1, []⟩
    let data (bytes : Bytes) : Message := ⟨.write, 101, 1, bytes⟩
    let device : DeviceInfo := ⟨"device", "S", "", 0, 8⟩
    let c := ((Client.fresh { link := { inbound := [message okay] } } device {}).after
      [.call (.openStream "sync:" 10)]).connection
    let s : SyncSession := ⟨⟨"sync:", 1, false⟩, 10⟩
    let stat : Bytes := SyncId.stat.bytes ++ [33188, 5, 9].flatMap Bytes.ofWord
    let text : PieceSaid := ⟨[110, 111], by decide⟩
    let first : List Message := [data (stat.take 3), okay, data [], okay,
      data (stat.drop 3 ++ (text.wire .fail).take 1)]
    let second : List Message := [okay, okay, data ((text.wire .fail).drop 1)]
    let turns : List SyncTurn := [⟨first.map message, .stat "/a"⟩,
      ⟨second.map message, .recv "/b" {}⟩]
    let run := s.converse turns c
    (s.Served 101 turns c ∧ s.Timely turns c) ∧
      c.toRead 1 (turns.flatMap SyncTurn.bytes) = stat ++ text.wire .fail ∧
      run.1 = [.stat (.ok ⟨"/a", 33188, 5, 9⟩), .recv (.error (.remote "no")) {}] ∧
      SyncRequest.parseAll (turns.map (·.request)) (stat ++ text.wire .fail) =
        some (run.1, run.2.toRead 1 []) ∧
      (s.converse (turns.take 1) c).2.taken 1 = stat := by
  intro message okay data device c s stat text first second turns run
  have hall : ∀ m ∈ first ++ second, m.Serves 1 101 := by
    unfold Message.Serves
    decide
  have hcoming : c.coming (turns.flatMap SyncTurn.bytes) = (first ++ second).map .ok := by
    decide +kernel
  have hbytes : c.toRead 1 (turns.flatMap SyncTurn.bytes) = stat ++ text.wire .fail := by
    decide +kernel
  have hserved : s.Served 101 turns c := by
    refine SyncSession.served_of_messages ⟨⟨⟨?_, ?_⟩, ?_⟩, ?_⟩ ⟨⟨some 101, .opened, false, [], none⟩,
      ?_, rfl, rfl, rfl⟩ hcoming hall ?_ ?_ ?_ <;> decide +kernel
  have htimely : s.Timely turns c := SyncSession.timely_of_fulfilled (by decide +kernel)
  obtain ⟨k, hk, hparse, hproper, hlate⟩ := replies_by_content s 101 turns hserved
  have htwo : k = 2 := by
    rcases Nat.lt_or_eq_of_le hk with hless | heq
    · have hturn := List.getElem?_eq_getElem hless
      exact absurd (hlate _ hturn) (htimely k _ hturn)
    · exact heq
  subst htwo
  change SyncRequest.parseAll _ (c.toRead 1 (turns.flatMap SyncTurn.bytes)) = _ at hparse
  rw [hbytes] at hparse
  have hfirst := hproper 0 ⟨first.map message, .stat "/a"⟩ stat (.stat (.ok ⟨"/a", 33188, 5, 9⟩))
    (text.wire .fail) (Nat.zero_lt_two) rfl (.stat "/a" 33188 5 9) (by decide) hbytes
  have hnone : c.taken 1 = [] := by decide +kernel
  have htaken : (s.converse (turns.take 1) c).2.taken 1 = c.taken 1 ++ stat := hfirst.2.1
  rw [hnone] at htaken
  exact ⟨⟨hserved, htimely⟩, hbytes, by decide +kernel, hparse, htaken⟩

/-- The reply is there in two messages. The acknowledgement of the first takes longer than the read
of the reply may. -/
theorem replies_slow_acknowledgement :
    let message (m : Message) : Arrival := .chunk m.encode
    let okay : Message := ⟨.okay, 101, 1, []⟩
    let data (bytes : Bytes) : Message := ⟨.write, 101, 1, bytes⟩
    let c := ((Client.fresh { link := { inbound := [message okay] } } ⟨"device", "S", "", 0, 4096⟩
      {}).after [.call (.openStream "sync:" 10),
        .plan [.taken 0, .taken 0, .taken (Duration.ofMillis 5)]]).connection
    let s : SyncSession := ⟨⟨"sync:", 1, false⟩, Duration.ofMillis 1⟩
    let stat : Bytes := SyncId.stat.bytes ++ [33188, 5, 9].flatMap Bytes.ofWord
    let queue : List Message := [okay, data (stat.take 4), data (stat.drop 4)]
    let turn : SyncTurn := ⟨queue.map message, .stat "/a"⟩
    s.Served 101 [turn] c ∧ Arrival.delay turn.arrivals = 0 ∧ 0 < s.timeout ∧
      c.toRead 1 turn.bytes = stat ∧
      turn.request.parse stat = some (.stat (.ok ⟨"/a", 33188, 5, 9⟩), []) ∧
      (s.converse [turn] c).1 = [.stat (.error (.timeout s.timeout (.data 1)))] := by
  intro message okay data c s stat queue turn
  have hall : ∀ m ∈ queue, m.Serves 1 101 := by
    unfold Message.Serves
    decide
  have hcoming : c.coming ([turn].flatMap SyncTurn.bytes) = queue.map .ok := by decide +kernel
  refine ⟨?_, by decide +kernel, by decide, by decide +kernel, by decide +kernel, by decide +kernel⟩
  refine SyncSession.served_of_messages ⟨⟨⟨?_, ?_⟩, ?_⟩, ?_⟩ ⟨⟨some 101, .opened, false, [], none⟩,
    ?_, rfl, rfl, rfl⟩ hcoming hall ?_ ?_ ?_ <;> decide +kernel

end DroidHost
