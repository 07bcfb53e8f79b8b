import DroidHost.Proofs.Codec
import DroidHost.Proofs.SyncTraffic

/-! The replies to whole requests as a parser reads them off plain bytes, held against the layouts
of a device that answers properly. -/
namespace DroidHost

/-- A request that the device answers with data of its own. -/
inductive SyncRequest
  | stat (path : String)
  | list (path : String)
  | recv (path : String) (sink : Sink)
  deriving DecidableEq, Repr

/-- A listing item by item, a file in the sink with the number of its bytes. -/
inductive SyncAnswer
  | stat (result : Except BridgeError FileStat)
  | list (result : Except BridgeError (List (Except BridgeError FileStat)))
  | recv (result : Except BridgeError Nat) (sink : Sink)
  deriving DecidableEq

/-- Reads something off the front of some bytes and gives what is behind it; none while it is not
all there. -/
abbrev Parser (α : Type) := Bytes → Option (α × Bytes)

def Parser.check (parser : Parser (Except BridgeError α)) (f : α → Except BridgeError β) :
    Parser (Except BridgeError β) := fun bytes =>
  (parser bytes).map fun said => (said.1.bind f, said.2)

theorem Parser.check_more {parser : Parser (Except BridgeError α)} {f : α → Except BridgeError β}
    {bytes rest more : Bytes} {said : Except BridgeError β}
    (hp : ∀ {said rest}, parser bytes = some (said, rest) →
      parser (bytes ++ more) = some (said, rest ++ more))
    (h : parser.check f bytes = some (said, rest)) :
    parser.check f (bytes ++ more) = some (said, rest ++ more) := by
  obtain ⟨⟨first, left⟩, hfirst, hsaid⟩ := Option.map_eq_some_iff.mp h
  cases hsaid
  rw [Parser.check, hp hfirst]
  rfl

theorem Bytes.length_cut {n : Nat} {bytes front rest : Bytes}
    (h : Bytes.cut n bytes = some (front, rest)) : rest.length + n = bytes.length := by
  unfold cut at h
  split at h
  · next hle =>
    cases h
    rw [List.length_drop]
    omega
  · cases h

namespace SyncReply

theorem length_parseRest {shape : ReplyShape} {head bytes rest : Bytes}
    {said : Except BridgeError SyncReply} (h : parseRest shape head bytes = some (said, rest)) :
    rest.length ≤ bytes.length := by
  unfold parseRest at h
  cases hid : SyncId.ofBytes? (head.take 4) with
  | none =>
    rw [hid] at h
    cases h
    exact Nat.le_refl _
  | some id =>
    simp only [hid, Option.bind_eq_bind] at h
    by_cases hfail : id = .fail
    · rw [if_pos hfail] at h
      obtain ⟨⟨text, left⟩, hcut, hsaid⟩ := Option.bind_eq_some_iff.mp h
      cases hsaid
      have htext := Bytes.length_cut hcut
      exact Nat.le_of_add_right_le (Nat.le_of_eq htext)
    · rw [if_neg hfail] at h
      obtain ⟨⟨words, left⟩, hcut, hsaid⟩ := Option.bind_eq_some_iff.mp h
      have hwords := Bytes.length_cut hcut
      dsimp only at hsaid
      split at hsaid
      · obtain ⟨⟨body, last⟩, hbody, hlast⟩ := Option.bind_eq_some_iff.mp hsaid
        cases hlast
        have hlength := Bytes.length_cut hbody
        dsimp only
        omega
      · cases hsaid
        omega

theorem length_parse {shape : ReplyShape} {bytes rest : Bytes} {said : Except BridgeError SyncReply}
    (h : parse shape bytes = some (said, rest)) : rest.length < bytes.length := by
  obtain ⟨⟨head, left⟩, hcut, hsaid⟩ := Option.bind_eq_some_iff.mp h
  have hhead := Bytes.length_cut hcut
  have hrest := length_parseRest hsaid
  omega

theorem length_bytes (id : SyncId) : id.bytes.length = 4 := by cases id <;> rfl

theorem parse_head (shape : ReplyShape) (id : SyncId) (first : UInt32) (rest : Bytes) :
    parse shape (id.bytes ++ Bytes.ofWord first ++ rest) =
      parseRest shape (id.bytes ++ Bytes.ofWord first) rest := by
  have hlen : (id.bytes ++ Bytes.ofWord first).length = 8 := by
    rw [List.length_append, length_bytes, Bytes.length_ofWord]
  rw [parse, Bytes.cut_append hlen]
  rfl

theorem words_ofWord (first : UInt32) : Bytes.words (Bytes.ofWord first) = [first] := by
  have hw := Bytes.words_flatMap_ofWord [first]
  rw [List.flatMap_singleton] at hw
  exact hw

theorem parse_layout {id : SyncId} (hid : id ≠ .fail) {shape : ReplyShape} (first : UInt32)
    {more : List UInt32} (hmore : more.length = shape.words - 1) {reply : Bytes → SyncReply}
    {body : Bytes} (hl : SyncSession.layout id shape first more = some (body.length, reply))
    (rest : Bytes) :
    parse shape (id.bytes ++ (first :: more).flatMap Bytes.ofWord ++ body ++ rest) =
      some (.ok (reply body), rest) := by
  have hwords : (more.flatMap Bytes.ofWord).length = 4 * (shape.words - 1) := by
    rw [Bytes.length_flatMap_ofWord, hmore]
  have hsplit : id.bytes ++ (first :: more).flatMap Bytes.ofWord ++ body ++ rest =
      id.bytes ++ Bytes.ofWord first ++ (more.flatMap Bytes.ofWord ++ (body ++ rest)) := by
    simp only [List.flatMap_cons, List.append_assoc]
  have htake : (id.bytes ++ Bytes.ofWord first).take 4 = id.bytes := by
    rw [← length_bytes id, List.take_left]
  have hdrop : (id.bytes ++ Bytes.ofWord first).drop 4 = Bytes.ofWord first := by
    rw [← length_bytes id, List.drop_left]
  rw [hsplit, parse_head]
  simp only [parseRest, htake, hdrop, SyncId.ofBytes?_bytes, hid, if_false, words_ofWord,
    List.headD_cons, Bytes.cut_append hwords, Bytes.words_flatMap_ofWord, hl,
    Bytes.cut_append (rfl : body.length = body.length), Option.bind_eq_bind, Option.bind_some]
  rfl

end SyncReply

namespace SyncRequest

def path : SyncRequest → String
  | stat path => path
  | list path => path
  | recv path _ => path

def name (request : SyncRequest) : Bytes := Text.Utf8.encode request.path

def syncId : SyncRequest → SyncId
  | stat _ => .stat
  | list _ => .list
  | recv .. => .recv

/-- The answer when nothing comes of the request. -/
def failed (e : BridgeError) : SyncRequest → SyncAnswer
  | stat _ => .stat (.error e)
  | list _ => .list (.error e)
  | recv _ sink => .recv (.error e) sink

def known (path : String) : SyncReply → Except BridgeError FileStat
  | .stat mode size mtime => .ok ⟨path, mode, size, mtime⟩
  | other => .error (.protocol (.notStat other))

/-- The next entry, or none at the end. -/
def listed : SyncReply → Except BridgeError (Option FileStat)
  | .entry mode size mtime name => .ok (some ⟨name, mode, size, mtime⟩)
  | .done _ => .ok none
  | other => .error (.protocol (.notEntry other))

def parseEntry : Parser (Except BridgeError (Option FileStat)) :=
  Parser.check (SyncReply.parse .entry) listed

theorem length_parseEntry {bytes rest : Bytes} {said : Except BridgeError (Option FileStat)}
    (h : parseEntry bytes = some (said, rest)) : rest.length < bytes.length := by
  obtain ⟨⟨reply, left⟩, hparse, hsaid⟩ := Option.map_eq_some_iff.mp h
  cases hsaid
  exact SyncReply.length_parse hparse

/-- The items of a listing up to its end, or to what breaks it off. -/
def parseEntries (bytes : Bytes) : Option (List (Except BridgeError FileStat) × Bytes) :=
  match _ : parseEntry bytes with
  | none => none
  | some (.ok (some entry), rest) =>
    (parseEntries rest).map fun items => (.ok entry :: items.1, items.2)
  | some (.ok none, rest) => some ([], rest)
  | some (.error e, rest) => some ([.error e], rest)
termination_by bytes.length
decreasing_by exact length_parseEntry ‹_›

/-- The pieces of a file up to its end, into a sink that holds what it holds. -/
def parsePieces (total : Nat) (sink : Sink) (bytes : Bytes) :
    Option ((Except BridgeError Nat × Sink) × Bytes) :=
  match _ : SyncReply.parse .data bytes with
  | none => none
  | some (.ok (.data piece), rest) =>
    match sink.write piece with
    | .ok sink => parsePieces (total + piece.length) sink rest
    | .error f => some ((.error (.localFile f), sink), rest)
  | some (.ok (.done _), rest) =>
    match sink.flush with
    | .ok _ => some ((.ok total, sink), rest)
    | .error f => some ((.error (.localFile f), sink), rest)
  | some (.ok other, rest) => some ((.error (.protocol (.notData other)), sink), rest)
  | some (.error e, rest) => some ((.error e, sink), rest)
termination_by bytes.length
decreasing_by exact SyncReply.length_parse ‹_›

/-- The answer to a request that is out. -/
def parseAnswer : SyncRequest → Parser SyncAnswer
  | stat path, bytes =>
    (Parser.check (SyncReply.parse .stat) (known path) bytes).map fun said => (.stat said.1, said.2)
  | list _, bytes => (parseEntries bytes).map fun items => (.list (.ok items.1), items.2)
  | recv _ sink, bytes =>
    (parsePieces 0 sink bytes).map fun file => (.recv file.1.1 file.1.2, file.2)

/-- One whose name is too long is not even asked. -/
def parse (request : SyncRequest) : Parser SyncAnswer := fun bytes =>
  if maxPathLength < request.name.length then
    some (request.failed (.argument (.longPath request.name.length)), bytes)
  else request.parseAnswer bytes

theorem parseEntry_more {bytes rest : Bytes} {said : Except BridgeError (Option FileStat)}
    (h : parseEntry bytes = some (said, rest)) (more : Bytes) :
    parseEntry (bytes ++ more) = some (said, rest ++ more) :=
  Parser.check_more (fun hp => SyncReply.parse_more hp more) h

theorem parseEntries_more {bytes rest : Bytes} {items : List (Except BridgeError FileStat)}
    (h : parseEntries bytes = some (items, rest)) (more : Bytes) :
    parseEntries (bytes ++ more) = some (items, rest ++ more) := by
  fun_induction parseEntries bytes generalizing items rest with
  | case1 bytes hentry => cases h
  | case2 bytes entry left hentry ih =>
    obtain ⟨⟨later, last⟩, hlater, hitems⟩ := Option.map_eq_some_iff.mp h
    cases hitems
    rw [parseEntries, parseEntry_more hentry more]
    dsimp only
    rw [ih hlater]
    rfl
  | case3 bytes left hentry =>
    cases h
    rw [parseEntries, parseEntry_more hentry more]
  | case4 bytes e left hentry =>
    cases h
    rw [parseEntries, parseEntry_more hentry more]

theorem parsePieces_more {total : Nat} {sink : Sink} {bytes rest : Bytes}
    {file : Except BridgeError Nat × Sink} (h : parsePieces total sink bytes = some (file, rest))
    (more : Bytes) : parsePieces total sink (bytes ++ more) = some (file, rest ++ more) := by
  fun_induction parsePieces total sink bytes with
  | case1 total sink bytes hreply => cases h
  | case2 total sink bytes piece left hreply sink' hw ih =>
    rw [parsePieces, SyncReply.parse_more hreply more]
    simp only [hw]
    exact ih h
  | case3 total sink bytes piece left hreply f hw =>
    cases h
    rw [parsePieces, SyncReply.parse_more hreply more]
    simp only [hw]
  | case4 total sink bytes value left hreply u hf =>
    cases h
    rw [parsePieces, SyncReply.parse_more hreply more]
    simp only [hf]
  | case5 total sink bytes value left hreply f hf =>
    cases h
    rw [parsePieces, SyncReply.parse_more hreply more]
    simp only [hf]
  | case6 total sink bytes other left hdata hdone hreply =>
    cases h
    rw [parsePieces, SyncReply.parse_more hreply more]
    cases other with
    | data piece => exact absurd rfl (hdata piece)
    | done value => exact absurd rfl (hdone value)
    | _ => rfl
  | case7 total sink bytes e left hreply =>
    cases h
    rw [parsePieces, SyncReply.parse_more hreply more]

/-- What follows an answer does not change it. -/
theorem parse_more {request : SyncRequest} {bytes rest : Bytes} {answer : SyncAnswer}
    (h : request.parse bytes = some (answer, rest)) (more : Bytes) :
    request.parse (bytes ++ more) = some (answer, rest ++ more) := by
  unfold parse at h ⊢
  by_cases hlong : maxPathLength < request.name.length
  · rw [if_pos hlong] at h ⊢
    cases h
    rfl
  · rw [if_neg hlong] at h ⊢
    cases request with
    | stat path =>
      obtain ⟨⟨said, left⟩, hsaid, hanswer⟩ := Option.map_eq_some_iff.mp h
      cases hanswer
      rw [parseAnswer, Parser.check_more (fun hp => SyncReply.parse_more hp more) hsaid]
      rfl
    | list path =>
      obtain ⟨⟨items, left⟩, hitems, hanswer⟩ := Option.map_eq_some_iff.mp h
      cases hanswer
      rw [parseAnswer, parseEntries_more hitems more]
      rfl
    | recv path sink =>
      obtain ⟨⟨file, left⟩, hfile, hanswer⟩ := Option.map_eq_some_iff.mp h
      cases hanswer
      rw [parseAnswer, parsePieces_more hfile more]
      rfl

def parseAll : List SyncRequest → Parser (List SyncAnswer)
  | [], bytes => some ([], bytes)
  | request :: later, bytes => do
    let (answer, rest) ← request.parse bytes
    let (answers, last) ← parseAll later rest
    return (answer :: answers, last)

end SyncRequest

structure EntrySaid where
  mode : UInt32
  size : UInt32
  mtime : UInt32
  name : Bytes
  fits : name.length < UInt32.size

structure PieceSaid where
  bytes : Bytes
  fits : bytes.length < UInt32.size

namespace EntrySaid

/-- Twenty bytes and the name. -/
def wire (e : EntrySaid) : Bytes :=
  SyncId.entry.bytes ++ [e.mode, e.size, e.mtime, UInt32.ofNat e.name.length].flatMap Bytes.ofWord ++
    e.name

def stat (e : EntrySaid) : FileStat := ⟨Text.Utf8.decode e.name, e.mode, e.size, e.mtime⟩

end EntrySaid

namespace PieceSaid

/-- Eight bytes and the bytes themselves. -/
def wire (id : SyncId) (p : PieceSaid) : Bytes :=
  SyncSession.frame id (UInt32.ofNat p.bytes.length) p.bytes

end PieceSaid

/-- What a device says to a request that it answers properly, and what the answer is. A reply that
ends a series has the size of the replies in it; a failure may come at any point. -/
inductive Said : SyncRequest → Bytes → SyncAnswer → Prop
  | stat (path : String) (mode size mtime : UInt32) :
    Said (.stat path) (SyncId.stat.bytes ++ [mode, size, mtime].flatMap Bytes.ofWord)
      (.stat (.ok ⟨path, mode, size, mtime⟩))
  | statFailed (path : String) (text : PieceSaid) :
    Said (.stat path) (text.wire .fail)
      (.stat (.error (.remote (Text.Utf8.decode text.bytes))))
  | list (path : String) (entries : List EntrySaid) (value size mtime length : UInt32) :
    Said (.list path) (entries.flatMap EntrySaid.wire ++
        (SyncId.done.bytes ++ [value, size, mtime, length].flatMap Bytes.ofWord))
      (.list (.ok (entries.map fun e => .ok e.stat)))
  | listFailed (path : String) (entries : List EntrySaid) (text : PieceSaid) :
    Said (.list path) (entries.flatMap EntrySaid.wire ++ text.wire .fail)
      (.list (.ok ((entries.map fun e => .ok e.stat) ++
        [.error (.remote (Text.Utf8.decode text.bytes))])))
  | recv (path : String) (pieces : List PieceSaid) {sink after : Sink} (value : UInt32)
      (hw : pieces.foldlM (fun sink p => sink.write p.bytes) sink = .ok after) :
    Said (.recv path sink) (pieces.flatMap (PieceSaid.wire .data) ++
        (SyncId.done.bytes ++ Bytes.ofWord value))
      (.recv ((after.flush.mapError .localFile).map fun _ => (pieces.flatMap (·.bytes)).length) after)
  | recvFailed (path : String) (pieces : List PieceSaid) {sink after : Sink} (text : PieceSaid)
      (hw : pieces.foldlM (fun sink p => sink.write p.bytes) sink = .ok after) :
    Said (.recv path sink) (pieces.flatMap (PieceSaid.wire .data) ++ text.wire .fail)
      (.recv (.error (.remote (Text.Utf8.decode text.bytes))) after)

namespace SyncReply

theorem parse_entry (e : EntrySaid) (rest : Bytes) :
    parse .entry (e.wire ++ rest) =
      some (.ok (.entry e.mode e.size e.mtime (Text.Utf8.decode e.name)), rest) := by
  have hl : SyncSession.layout .entry .entry e.mode
      [e.size, e.mtime, UInt32.ofNat e.name.length] = some (e.name.length,
        fun name => .entry e.mode e.size e.mtime (Text.Utf8.decode name)) := by
    rw [SyncSession.layout, UInt32.toNat_ofNat_of_lt' e.fits]
  exact parse_layout (by nofun) e.mode rfl hl rest

theorem parse_piece (p : PieceSaid) (rest : Bytes) :
    parse .data (p.wire .data ++ rest) = some (.ok (.data p.bytes), rest) := by
  have hl : SyncSession.layout .data .data (UInt32.ofNat p.bytes.length) [] =
      some (p.bytes.length, .data) := by
    rw [SyncSession.layout, UInt32.toNat_ofNat_of_lt' p.fits]
  have hp := parse_layout (by nofun) (UInt32.ofNat p.bytes.length) rfl hl rest
  rw [List.flatMap_singleton] at hp
  exact hp

theorem parse_done {shape : ReplyShape} (value : UInt32) {more : List UInt32}
    (hmore : more.length = shape.words - 1) (rest : Bytes) :
    parse shape (SyncId.done.bytes ++ (value :: more).flatMap Bytes.ofWord ++ rest) =
      some (.ok (.done value), rest) := by
  have hl : SyncSession.layout .done shape value more =
      some (([] : Bytes).length, fun _ => .done value) := rfl
  have hp := parse_layout (by nofun) value hmore hl rest
  rw [List.append_nil] at hp
  exact hp

theorem parse_failure (shape : ReplyShape) (text : PieceSaid) (rest : Bytes) :
    parse shape (text.wire .fail ++ rest) =
      some (.error (.remote (Text.Utf8.decode text.bytes)), rest) := by
  have hsplit : text.wire .fail ++ rest = SyncId.fail.bytes ++
      Bytes.ofWord (UInt32.ofNat text.bytes.length) ++ (text.bytes ++ rest) :=
    List.append_assoc _ _ _
  have hfirst : (Bytes.words (Bytes.ofWord (UInt32.ofNat text.bytes.length))).headD 0 =
      UInt32.ofNat text.bytes.length := by
    rw [words_ofWord, List.headD_cons]
  have htake (tail : Bytes) : (SyncId.fail.bytes ++ tail).take 4 = SyncId.fail.bytes := rfl
  have hdrop (tail : Bytes) : (SyncId.fail.bytes ++ tail).drop 4 = tail := rfl
  rw [hsplit, parse_head]
  simp only [parseRest, htake, hdrop, SyncId.ofBytes?_bytes, if_true, hfirst,
    UInt32.toNat_ofNat_of_lt' text.fits,
    Bytes.cut_append (rfl : text.bytes.length = text.bytes.length), Option.bind_eq_bind,
    Option.bind_some]
  rfl

end SyncReply

namespace SyncRequest

theorem parseEntries_append (entries : List EntrySaid) {bytes rest : Bytes}
    {items : List (Except BridgeError FileStat)} (h : parseEntries bytes = some (items, rest)) :
    parseEntries (entries.flatMap EntrySaid.wire ++ bytes) =
      some ((entries.map fun e => .ok e.stat) ++ items, rest) := by
  induction entries with
  | nil => exact h
  | cons e entries ih =>
    have hentry (more : Bytes) : parseEntry (e.wire ++ more) = some (.ok (some e.stat), more) := by
      rw [parseEntry, Parser.check, SyncReply.parse_entry]
      rfl
    rw [List.flatMap_cons, List.append_assoc, parseEntries, hentry]
    dsimp only
    rw [ih]
    rfl

theorem parsePieces_append (pieces : List PieceSaid) {total : Nat} {sink after : Sink}
    (hw : pieces.foldlM (fun sink p => sink.write p.bytes) sink = .ok after) (bytes : Bytes) :
    parsePieces total sink (pieces.flatMap (PieceSaid.wire .data) ++ bytes) =
      parsePieces (total + (pieces.flatMap (·.bytes)).length) after bytes := by
  induction pieces generalizing total sink with
  | nil =>
    cases hw
    rfl
  | cons p pieces ih =>
    rw [List.foldlM_cons] at hw
    rw [List.flatMap_cons, List.append_assoc, parsePieces, SyncReply.parse_piece]
    dsimp only
    cases hs : sink.write p.bytes with
    | error f =>
      rw [hs] at hw
      cases hw
    | ok next =>
      rw [hs] at hw
      dsimp only
      rw [ih hw, List.flatMap_cons, List.length_append, Nat.add_assoc]

/-- A request that is answered properly takes the bytes up to the end of its last reply. -/
theorem parse_said {request : SyncRequest} {said : Bytes} {answer : SyncAnswer}
    (h : Said request said answer) (hshort : request.name.length ≤ maxPathLength) (rest : Bytes) :
    request.parse (said ++ rest) = some (answer, rest) := by
  rw [parse, if_neg (Nat.not_lt.mpr hshort)]
  cases h with
  | stat path mode size mtime =>
    have hl : SyncSession.layout .stat .stat mode [size, mtime] =
        some (([] : Bytes).length, fun _ => .stat mode size mtime) := rfl
    have hp := SyncReply.parse_layout (by nofun) mode rfl hl rest
    rw [List.append_nil] at hp
    rw [parseAnswer, Parser.check, hp]
    rfl
  | statFailed path text =>
    rw [parseAnswer, Parser.check, SyncReply.parse_failure]
    rfl
  | list path entries value size mtime length =>
    have hend : parseEntries (SyncId.done.bytes ++
        [value, size, mtime, length].flatMap Bytes.ofWord ++ rest) = some ([], rest) := by
      rw [parseEntries, parseEntry, Parser.check, SyncReply.parse_done value rfl]
      rfl
    rw [parseAnswer, List.append_assoc, parseEntries_append entries hend, List.append_nil]
    rfl
  | listFailed path entries text =>
    have hend : parseEntries (text.wire .fail ++ rest) =
        some ([.error (.remote (Text.Utf8.decode text.bytes))], rest) := by
      rw [parseEntries, parseEntry, Parser.check, SyncReply.parse_failure]
      rfl
    rw [parseAnswer, List.append_assoc, parseEntries_append entries hend]
    rfl
  | @recv path pieces sink after value hw =>
    have hend (total : Nat) :
        parsePieces total after (SyncId.done.bytes ++ Bytes.ofWord value ++ rest) =
          some (((after.flush.mapError .localFile).map fun _ => total, after), rest) := by
      have hword : ([] : List UInt32).length = ReplyShape.data.words - 1 := rfl
      have hdone := SyncReply.parse_done value hword rest
      rw [List.flatMap_singleton] at hdone
      rw [parsePieces, hdone]
      dsimp only
      cases after.flush <;> rfl
    rw [parseAnswer, List.append_assoc, parsePieces_append pieces hw, hend, Nat.zero_add]
    rfl
  | @recvFailed path pieces sink after text hw =>
    rw [parseAnswer, List.append_assoc, parsePieces_append pieces hw, parsePieces,
      SyncReply.parse_failure]
    rfl

end SyncRequest

end DroidHost
