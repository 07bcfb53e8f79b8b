import DroidHost.Proofs.Heeding
import DroidHost.Proofs.Numerals

/-! An upload is exact: the request, the file in full frames, and the frame that ends it. -/
namespace DroidHost

namespace Bytes

/-- The bytes in front of the last one of a kind, and those behind it. -/
def splitLast (mark : UInt8) : Bytes → Option (Bytes × Bytes)
  | [] => none
  | b :: rest =>
    match splitLast mark rest with
    | some (front, back) => some (b :: front, back)
    | none => if b = mark then some ([], rest) else none

theorem splitLast_none {mark : UInt8} {bytes : Bytes} (h : mark ∉ bytes) :
    splitLast mark bytes = none := by
  induction bytes with
  | nil => rfl
  | cons b rest ih =>
    obtain ⟨hb, hrest⟩ := not_or.mp (mt List.mem_cons.mpr h)
    rw [splitLast, ih hrest]
    exact if_neg (Ne.symm hb)

theorem splitLast_append {mark : UInt8} (front : Bytes) {back : Bytes} (h : mark ∉ back) :
    splitLast mark (front ++ mark :: back) = some (front, back) := by
  induction front with
  | nil =>
    rw [List.nil_append, splitLast, splitLast_none h]
    exact if_pos rfl
  | cons b front ih => rw [List.cons_append, splitLast, ih]

end Bytes

namespace Text

theorem utf8_append (front back : String) :
    Utf8.encode (front ++ back) = Utf8.encode front ++ Utf8.encode back := by
  rw [Utf8.encode, String.toList_append, List.flatMap_append, Utf8.encode, Utf8.encode]

theorem decimal_chars (n : Nat) : (decimal n).toList = Nat.toDigits 10 n := by
  rw [decimal, digits, String.toList_ofList]

theorem comma_decimal (n : Nat) : (0x2C : UInt8) ∉ Utf8.encode (decimal n) := by
  intro hmem
  rw [Utf8.encode, decimal_chars] at hmem
  obtain ⟨c, hc, hbyte⟩ := List.mem_flatMap.mp hmem
  obtain ⟨hlow, hhigh⟩ : 48 ≤ c.toNat ∧ c.toNat ≤ 57 := Char.isDigit_iff_toNat.mp
    (Nat.isDigit_of_mem_toDigits (by decide) (Nat.le_refl 10) hc)
  have hshort : c.val.toNat ≤ 127 := Nat.le_trans hhigh (by decide)
  have hchar : String.utf8EncodeChar c = [UInt8.ofNat c.toNat] := if_pos hshort
  rw [hchar, List.mem_singleton] at hbyte
  have hval := congrArg UInt8.toNat hbyte
  rw [UInt8.toNat_ofNat', Nat.mod_eq_of_lt (by omega)] at hval
  change 44 = c.toNat at hval
  omega

theorem readNumber_decimal {n bound : Nat} (h : n < bound) :
    readNumber 10 bound (decimal n).toList = some n :=
  readNumber_digits (by decide) (by decide) h

end Text

namespace SyncSession
open Connection Occurrence

theorem pushPieces_sizes (contents : Bytes × Option IoFault) :
    ∀ piece ∈ pushPieces contents, piece ≠ [] ∧ piece.length ≤ maxPush := by
  intro piece hpiece
  have hpos : 0 < maxPush := by decide
  unfold pushPieces at hpiece
  split at hpiece
  · exact Bytes.mem_pieces hpos hpiece
  · exact Bytes.mem_pieces hpos (List.mem_of_mem_take hpiece)

theorem pushPieces_prefix (contents : Bytes × Option IoFault) :
    (pushPieces contents).flatten <+: contents.1 := by
  have hall := Bytes.flatten_pieces maxPush contents.1
  unfold pushPieces
  split
  · exact ⟨[], (List.append_nil _).trans hall⟩
  · let count := contents.1.length / maxPush
    refine ⟨((Bytes.pieces maxPush contents.1).drop count).flatten, ?_⟩
    rw [← List.flatten_append, List.take_append_drop, hall]

theorem pushPieces_whole {contents : Bytes × Option IoFault} (h : contents.2 = none) :
    (pushPieces contents).flatten = contents.1 ∧
      (pushPieces contents).length = (contents.1.length + 65535) / 65536 := by
  have hpos : 0 < maxPush := by decide
  unfold pushPieces
  rw [h]
  exact ⟨Bytes.flatten_pieces maxPush contents.1, Bytes.length_pieces hpos contents.1⟩

theorem splitLast_target (path : String) (mode : UInt32) :
    Bytes.splitLast 0x2C (Text.Utf8.encode (path ++ "," ++ Text.decimal mode.toNat)) =
      some (Text.Utf8.encode path, Text.Utf8.encode (Text.decimal mode.toNat)) := by
  have hcomma : Text.Utf8.encode "," = [0x2C] := by decide
  rw [Text.utf8_append, Text.utf8_append, hcomma, List.append_assoc, List.singleton_append]
  exact Bytes.splitLast_append _ (Text.comma_decimal mode.toNat)

/-- A run that writes is mindful; with a device that serves the stream it fails for a local file, or
for want of an acknowledgement once the time is over. -/
def Attends (s : SyncSession) (c : Connection) (r : EStateM.Result BridgeError Connection α) :
    Prop :=
  Mindful s.stream.localId c r ∧ ∀ peer, c.Serving s.stream.localId peer [] →
    match r with
    | .ok _ after => after.Serving s.stream.localId peer [] ∧ c.now ≤ after.now
    | .error e after => (∃ f, e = .localFile f) ∨ after.Serving s.stream.localId peer [] ∧
        after.awaited s.stream.localId = 1 ∧ c.now + s.timeout ≤ after.now

theorem attends_pure {s : SyncSession} {c : Connection} (h : c.Writable s.stream.localId) (a : α) :
    s.Attends c (.ok a c) :=
  ⟨⟨h, [], rfl⟩, fun _ hserving => ⟨hserving, Nat.le_refl _⟩⟩

theorem Attends.bind {s : SyncSession} {c : Connection} {x : EStateM BridgeError Connection α}
    {f : α → EStateM BridgeError Connection β} (hx : s.Attends c (x c))
    (hf : ∀ a mid, mid.Writable s.stream.localId → s.Attends mid (f a mid)) :
    s.Attends c ((x >>= f) c) := by
  change s.Attends c (EStateM.bind x f c)
  unfold EStateM.bind
  cases hr : x c with
  | error e mid =>
    rw [hr] at hx
    exact hx
  | ok a mid =>
    rw [hr] at hx
    obtain ⟨⟨hready, earlier, hpast⟩, hserved⟩ := hx
    obtain ⟨hmindful, hrest⟩ := hf a mid hready
    refine ⟨hmindful.after hpast, fun peer hserving => ?_⟩
    obtain ⟨hmid, hnow⟩ := hserved peer hserving
    have hlast := hrest peer hmid
    dsimp only
    cases hw : f a mid with
    | ok b after =>
      rw [hw] at hlast
      exact ⟨hlast.1, Nat.le_trans hnow hlast.2⟩
    | error e after =>
      rw [hw] at hlast
      refine hlast.imp_right fun ⟨hafter, hone, hlate⟩ => ⟨hafter, hone, ?_⟩
      exact Nat.le_trans (Nat.add_le_add_right hnow _) hlate

theorem attends_writeFrame {c : Connection} (s : SyncSession) (h : c.Writable s.stream.localId)
    (id : SyncId) (value : UInt32) (bytes : Bytes) :
    s.Attends c (s.writeFrame id value bytes c) := by
  let pieces := Bytes.pieces c.info.maxData.toNat (frame id value bytes)
  refine ⟨mindful_writePieces h (c.deadline s.timeout) pieces, fun peer hserving => ?_⟩
  have hw := writePieces_serving hserving (awaited_of_writable h) (c.deadline s.timeout) pieces
  have hframe : s.writeFrame id value bytes c =
      c.writePieces s.stream.localId (c.deadline s.timeout) pieces := rfl
  rw [hframe]
  cases hr : c.writePieces s.stream.localId (c.deadline s.timeout) pieces with
  | ok u after =>
    rw [hr] at hw
    exact ⟨hw.1, hw.2.2.now⟩
  | error e after =>
    rw [hr] at hw
    exact .inr ⟨hw.1, hw.2.1, of_decide_eq_true hw.2.2.2.1⟩

theorem attends_sendFile {c : Connection} (s : SyncSession) (h : c.Writable s.stream.localId)
    (source : Source) : s.Attends c (s.sendFile source c) := by
  fun_induction sendFile s source generalizing c with
  | case1 source f rest hr => exact ⟨⟨[], rfl, .inl ⟨f, rfl⟩⟩, fun _ _ => .inl ⟨f, rfl⟩⟩
  | case2 source rest hr => exact attends_pure h ()
  | case3 source b bs rest hr ih =>
    apply (attends_writeFrame s h .data (UInt32.ofNat (bs.length + 1)) (b :: bs)).bind
    intro u mid hmid
    split
    · exact attends_pure hmid ()
    · next hmore => exact ih hmore hmid

theorem attends_sendBody {c : Connection} (s : SyncSession) (h : c.Writable s.stream.localId)
    (source : Source) {target : Bytes} (hshort : target.length ≤ maxPathLength) (mtime : UInt32) :
    s.Attends c (s.sendBody source target mtime c) := by
  unfold sendBody
  have hasks : s.request .send target = s.writeFrame .send (UInt32.ofNat target.length) target := by
    rw [request, if_neg (Nat.not_lt.mpr hshort)]
  rw [hasks]
  apply (attends_writeFrame s h .send (UInt32.ofNat target.length) target).bind
  intro u asked hasked
  apply (attends_sendFile s hasked source).bind
  intro u sent hsent
  exact attends_writeFrame s hsent .done mtime []

theorem calm_take (s : SyncSession) (n : Nat) : Leads (Calm s.stream.localId) (s.take n) := by
  intro c
  unfold take
  split
  · exact .refl _ c
  · exact calm_readBy _ _ _ c

theorem calm_readReply (s : SyncSession) (shape : ReplyShape) :
    Leads (Calm s.stream.localId) (s.readReply shape) :=
  leads_readReply (R := Calm s.stream.localId) (fun _ _ _ => Calm.trans) (Calm.refl _)
    s.calm_take shape

theorem readReply_writes_nothing (s : SyncSession) (shape : ReplyShape) (c : Connection) :
    c.Moves (final (s.readReply shape c)) ∧
      (final (s.readReply shape c)).written s.stream.localId = c.written s.stream.localId := by
  have hr := s.ends_readReply shape c
  cases h : s.readReply shape c with
  | ok reply after =>
    rw [h] at hr
    obtain ⟨put, got, hu, rfl, _⟩ := hr
    exact ⟨hu.moves, hu.did.written.trans (List.append_nil _)⟩
  | error e after =>
    rw [h] at hr
    obtain ⟨put, got, hu, rfl, _⟩ := hr
    exact ⟨hu.moves, hu.did.written.trans (List.append_nil _)⟩

theorem send_cases (s : SyncSession) (source : Source) (path : String) (mode mtime : UInt32)
    (c : Connection) :
    let target := Text.Utf8.encode (path ++ "," ++ Text.decimal mode.toNat)
    match s.sendBody source target mtime c with
    | .ok _ mid => final (s.send source path mode mtime c) = final (s.readReply .data mid)
    | .error e mid =>
      if e.isStreamClosed then final (s.send source path mode mtime c) = final (s.readReply .data mid)
      else s.send source path mode mtime c = .error e mid := by
  intro target
  unfold send
  dsimp only [target]
  cases s.sendBody source (Text.Utf8.encode (path ++ "," ++ Text.decimal mode.toNat)) mtime c with
  | ok u mid =>
    dsimp only
    cases s.readReply .data mid with
    | ok reply after => cases reply <;> rfl
    | error e after => rfl
  | error e mid =>
    dsimp only
    split
    · cases s.readReply .data mid with
      | ok reply after => rfl
      | error e' after => cases e' <;> rfl
    · rfl

/-- The device acknowledges every piece of data: so says the record, or it serves the stream and
never takes longer than a transfer may last. -/
def Attended (s : SyncSession) (c after : Connection) (lately : List Occurrence) : Prop :=
  Heeded s.stream.localId lately ∨ ∃ peer, c.Serving s.stream.localId peer [] ∧
    (c.now + s.timeout ≤ after.now → after.owed s.stream.localId peer = false)

theorem owed_of_awaited {c : Connection} (hp : c.Paced) {id peer : UInt32} {later : Bytes}
    (hs : c.Serving id peer later) (h : c.awaited id = 1) : c.owed id peer = true := by
  obtain ⟨t, hfound, hopen, hpeer, _⟩ := hs.sound
  rw [← hp.awaited id t peer hfound hopen hpeer]
  rw [awaited, hfound, Option.map_some, Option.getD_some, Bool.toNat_eq_one] at h
  exact h

theorem not_attended_of_shut {s : SyncSession} {c mid after : Connection}
    {earlier later : List Occurrence} (hshut : mid.Shut s.stream.localId)
    (hserved : ∀ peer, c.Serving s.stream.localId peer [] → mid.Serving s.stream.localId peer [])
    (hnot : ¬ Heeded s.stream.localId earlier)
    (hsilent : ∀ peer, Silent s.stream.localId peer later) :
    ¬ s.Attended c after (later ++ earlier) := by
  rintro (hheeded | ⟨peer, hserving, _⟩)
  · exact not_heeded_later hnot hsilent hheeded
  · -- A device that serves the stream does not close it.
    obtain ⟨t, hfound, hsound⟩ := (hserved peer hserving).sound
    have hphase := hshut t hfound
    rw [hsound.1] at hphase
    cases hphase

theorem not_attended_of_late {s : SyncSession} {c after : Connection} {lately : List Occurrence}
    (hp : after.Paced)
    (hserved : ∀ peer, c.Serving s.stream.localId peer [] →
      after.Serving s.stream.localId peer [] ∧ after.awaited s.stream.localId = 1 ∧
        c.now + s.timeout ≤ after.now)
    (hnot : ¬ Heeded s.stream.localId lately) : ¬ s.Attended c after lately := by
  rintro (hheeded | ⟨peer, hserving, hintime⟩)
  · exact hnot hheeded
  · obtain ⟨hafter, hone, hlate⟩ := hserved peer hserving
    have howed := owed_of_awaited hp hafter hone
    rw [hintime hlate] at howed
    cases howed

theorem send_says {c : Connection} (ha : c.Accounted) (hp : c.Paced) (s : SyncSession)
    (source : Source) (path : String) (mode mtime : UInt32) (hopen : c.Writable s.stream.localId)
    (hshort : (Text.Utf8.encode (path ++ "," ++ Text.decimal mode.toNat)).length ≤ maxPathLength) :
    let target := Text.Utf8.encode (path ++ "," ++ Text.decimal mode.toNat)
    let r := s.send source path mode mtime c
    ∃ put lately, (final r).written s.stream.localId = c.written s.stream.localId ++ put ∧
      Since c (final r) lately ∧ put <+: opening source target ++ ending source mtime ∧
      (s.Attended c (final r) lately → put = opening source target ++ ending source mtime ∧
        ∀ f, source.contents.2 = some f → outcome r = .error (.localFile f)) := by
  intro target r
  have hends := ends_sendBody ha s source target mtime
  have hattends := attends_sendBody s hopen source hshort mtime
  have hcases := s.send_cases source path mode mtime c
  dsimp only at hcases
  cases hbody : s.sendBody source target mtime c with
  | ok u mid =>
    rw [hbody] at hends hcases
    obtain ⟨put, got, hu, rfl, rfl, hnone⟩ := hends
    obtain ⟨hmoves, hwritten⟩ := s.readReply_writes_nothing .data mid
    obtain ⟨lately, hlately⟩ := Moves.since (hu.moves.trans hmoves)
    have hfinal : final r = final (s.readReply .data mid) := hcases
    have hwhole : opening source target ++ frame .done mtime [] =
        opening source target ++ ending source mtime := by
      rw [ending, if_pos hnone]
    rw [hfinal]
    refine ⟨_, lately, hwritten.trans hu.did.written, hlately, ?_, fun _ => ⟨hwhole, ?_⟩⟩
    · exact ⟨[], (List.append_nil _).trans hwhole⟩
    · intro f hsome
      rw [hnone] at hsome
      cases hsome
  | error e mid =>
    rw [hbody] at hends hattends hcases
    dsimp only at hcases
    obtain ⟨put, got, hu, rfl, hput, hcause⟩ := hends
    obtain ⟨⟨lately, hlately, hunheeded⟩, hserved⟩ := hattends
    rcases hcause with hfailed | ⟨f, rfl, hsome, rfl⟩ | ⟨hlong, _⟩
    · have hfile : ¬ ∃ f, e = .localFile f := by
        rintro ⟨f, rfl⟩
        rcases hfailed.cause with h | h | h <;> cases h
      have hnot := hunheeded.resolve_left hfile
      have hthere (peer : UInt32) (hserving : c.Serving s.stream.localId peer []) :=
        (hserved peer hserving).resolve_left hfile
      by_cases hclosed : e.isStreamClosed = true
      · have hshut := hfailed.shut hclosed
        obtain ⟨_, later, hlater, hsilent⟩ := s.calm_readReply .data mid hshut
        rw [if_pos hclosed] at hcases
        have hfinal : final r = final (s.readReply .data mid) := hcases
        rw [hfinal]
        have hunattended : ¬ s.Attended c (final (s.readReply .data mid)) (later ++ lately) :=
          not_attended_of_shut hshut (fun peer hserving => (hthere peer hserving).1) hnot hsilent
        refine ⟨put, later ++ lately, ?_, hlately.trans hlater, hput,
          fun h => absurd h hunattended⟩
        exact (s.readReply_writes_nothing .data mid).2.trans hu.did.written
      · rw [if_neg hclosed] at hcases
        have hr : r = .error e mid := hcases
        have hpaced : mid.Paced := hu.moves.steps.kept (fun _ _ => Paced.step) hp
        rw [hr]
        exact ⟨put, lately, hu.did.written, hlately, hput,
          fun h => absurd h (not_attended_of_late hpaced hthere hnot)⟩
    · have hr : r = .error (.localFile f) mid := hcases
      have hwhole : opening source target ++ ending source mtime = opening source target := by
        rw [ending, hsome, if_neg (Option.some_ne_none f), List.append_nil]
      rw [hr, hwhole]
      refine ⟨_, lately, hu.did.written, hlately, List.prefix_refl _, fun _ => ⟨rfl, ?_⟩⟩
      intro f' hsome'
      rw [hsome] at hsome'
      cases hsome'
      rfl
    · exact absurd hshort (Nat.not_le.mpr hlong)

end SyncSession

/-- For every source, path, mode, time and piece size: an upload writes the beginning of the
request, the file in as few pieces as fit, and one frame that ends it, and all of it if the device
acknowledges what it is sent. A source that fails leaves that frame out. -/
theorem upload_exact (channel : Channel) (info : DeviceInfo) (settings : HostSettings)
    (s : SyncSession) (source : Source) (path : String) (mode mtime : UInt32) {c : Connection}
    (hc : (Client.fresh channel info settings).connection.Moves c)
    (hopen : c.Writable s.stream.localId)
    (hshort : (Text.Utf8.encode (path ++ "," ++ Text.decimal mode.toNat)).length ≤ maxPathLength) :
    let id := s.stream.localId
    let target := Text.Utf8.encode (path ++ "," ++ Text.decimal mode.toNat)
    let r := s.send source path mode mtime c
    let contents := source.contents
    (∃ (put : Bytes) (lately : List Occurrence) (pieces : List Bytes),
      (final r).written id = c.written id ++ put ∧ (final r).past = lately ++ c.past ∧
      (∀ piece ∈ pieces, piece ≠ [] ∧ piece.length ≤ 65536) ∧ pieces.flatten <+: contents.1 ∧
      let said := SyncSession.frame .send (UInt32.ofNat target.length) target ++
        pieces.flatMap fun piece => SyncSession.frame .data (UInt32.ofNat piece.length) piece
      match contents.2 with
      | none => pieces.flatten = contents.1 ∧
          pieces.length = (contents.1.length + 65535) / 65536 ∧
          put <+: said ++ SyncSession.frame .done mtime [] ∧
          (s.Attended c (final r) lately → put = said ++ SyncSession.frame .done mtime [])
      | some f => put <+: said ∧
          (s.Attended c (final r) lately → put = said ∧ outcome r = .error (.localFile f))) ∧
    Bytes.splitLast 0x2C target =
      some (Text.Utf8.encode path, Text.Utf8.encode (Text.decimal mode.toNat)) ∧
    Text.readNumber 10 UInt32.size (Text.decimal mode.toNat).toList = some mode.toNat := by
  intro id target r contents
  have ha : c.Accounted := hc.kept (fun _ _ => Connection.Accounted.move)
    (Connection.accounted_fresh channel info settings)
  have hp : c.Paced := hc.steps.kept (fun _ _ => Connection.Paced.step)
    (Connection.paced_fresh channel info settings)
  obtain ⟨put, lately, hwritten, hlately, hput, hall⟩ :=
    SyncSession.send_says ha hp s source path mode mtime hopen hshort
  refine ⟨⟨put, lately, SyncSession.pushPieces contents, hwritten, hlately,
    SyncSession.pushPieces_sizes contents, SyncSession.pushPieces_prefix contents, ?_⟩,
    SyncSession.splitLast_target path mode, Text.readNumber_decimal mode.toNat_lt⟩
  intro said
  have hsaid : SyncSession.opening source target = said := rfl
  cases hfault : contents.2 with
  | none =>
    have hending : SyncSession.ending source mtime = SyncSession.frame .done mtime [] := if_pos hfault
    rw [hending, hsaid] at hput hall
    obtain ⟨hflat, hcount⟩ := SyncSession.pushPieces_whole hfault
    exact ⟨hflat, hcount, hput, fun h => (hall h).1⟩
  | some f =>
    have hending : SyncSession.ending source mtime = [] := if_neg (by rw [hfault]; nofun)
    rw [hending, List.append_nil, hsaid] at hput hall
    exact ⟨hput, fun h => ⟨(hall h).1, (hall h).2 f hfault⟩⟩

/-- A path with a comma, a source that is interrupted, and a device that takes eight bytes at a
time. -/
theorem upload_exact_interrupted :
    let message (m : Message) : Arrival := .chunk m.encode
    let okay : Message := ⟨.okay, 101, 1, []⟩
    let reply : Message := ⟨.write, 101, 1, SyncId.okay.bytes ++ Bytes.ofWord 0⟩
    let device : DeviceInfo := ⟨"device", "S", "", 0, 8⟩
    let said : List Message := List.replicate 5 okay ++ [reply]
    let c := ((Client.fresh { link := { inbound := (okay :: said).map message } } device {}).after
      [.call (.openStream "sync:" 10)]).connection
    let s : SyncSession := ⟨⟨"sync:", 1, false⟩, 10⟩
    let source : Source := [.bytes [1, 2], .interrupted, .bytes [3]]
    let target := Text.Utf8.encode "a,b,420"
    let r := s.send source "a,b" 420 9 c
    c.Writable 1 ∧ target.length ≤ maxPathLength ∧ c.Serving 1 101 [] ∧ outcome r = .ok () ∧
      (final r).written 1 = SyncSession.frame .send 7 target ++ SyncSession.frame .data 3 [1, 2, 3] ++
        SyncSession.frame .done 9 [] ∧
      Bytes.splitLast 0x2C target = some (Text.Utf8.encode "a,b", Text.Utf8.encode "420") := by
  intro message okay reply device said c s source target r
  have hall : ∀ m ∈ said, m.Serves 1 101 := by
    unfold Message.Serves
    decide
  have hfound : c.table.find? 1 = some ⟨some 101, .opened, false, [], none⟩ := by decide +kernel
  have hcoming : c.coming [] = said.map .ok := by decide +kernel
  have hserving : c.Serving 1 101 [] := by
    refine ⟨⟨⟨⟨?_, ?_⟩, ?_⟩, ?_⟩, ?_, _, hfound, rfl, rfl, rfl⟩
    · decide +kernel
    · decide +kernel
    · decide +kernel
    · decide +kernel
    · intro m hm
      rw [hcoming] at hm
      obtain ⟨m', hm', rfl⟩ := List.mem_map.mp hm
      exact ⟨m', rfl, hall m' hm'⟩
  have hopen : c.Writable 1 := ⟨_, 101, hfound, rfl⟩
  have hmoves := (Client.fresh { link := { inbound := (okay :: said).map message } } device
    {}).after_moves [.call (.openStream "sync:" 10)]
  obtain ⟨⟨put, lately, pieces, hwritten, _, _, _, hflat, hlength, _, hput⟩, hsplit, _⟩ :=
    upload_exact _ device {} s source "a,b" 420 9 hmoves hopen (by decide)
  have hattended : s.Attended c (final r) lately :=
    .inr ⟨101, hserving, fun h => absurd h (by decide +kernel)⟩
  have hcontents : source.contents = ([1, 2, 3], none) := rfl
  rw [hcontents] at hflat hlength
  obtain ⟨piece, rfl⟩ := List.length_eq_one_iff.mp hlength
  rw [List.flatten_singleton] at hflat
  have hbefore : c.written 1 = [] := by decide +kernel
  refine ⟨hopen, by decide, hserving, by decide +kernel, ?_, hsplit⟩
  change (final r).written 1 = c.written 1 ++ put at hwritten
  rw [hwritten, hbefore, hput hattended, hflat]
  rfl

end DroidHost
