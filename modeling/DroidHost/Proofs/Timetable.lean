import DroidHost.Proofs.FrameWait

/-! The wait for a frame held against a timetable of what reads of one size will find, and when. -/
namespace DroidHost

namespace Arrival

/-- What reads of a size get of one chunk. An empty chunk is read once. -/
def portions (size : Nat) (bytes : Bytes) : List Bytes :=
  if bytes.isEmpty then [[]] else Bytes.pieces size bytes

/-- What reads of a size will find in a queue, with the time by which each has come, if the clock
shows `now`. -/
def timetable (size : Nat) : (now : Nat) → List Arrival → List (Nat × Except LinkFault Bytes)
  | _, [] => []
  | now, pause nanos :: rest => timetable size (now + nanos) rest
  | now, fault f :: rest => (now, .error f) :: timetable size now rest
  | now, chunk bytes :: rest =>
    (portions size bytes).map (fun part => (now, .ok part)) ++ timetable size now rest

theorem portions_short {size : Nat} {bytes : Bytes} (h : bytes.length ≤ size) :
    portions size bytes = [bytes] := by
  cases bytes with
  | nil => rfl
  | cons b rest => exact Bytes.pieces_short (List.cons_ne_nil _ _) h

theorem portions_long {size : Nat} (hsize : 0 < size) {bytes : Bytes} (h : size < bytes.length) :
    portions size bytes = bytes.take size :: portions size (bytes.drop size) := by
  have hne : bytes ≠ [] := List.ne_nil_of_length_pos (by omega)
  have hmore : bytes.drop size ≠ [] := by
    apply List.ne_nil_of_length_pos
    rw [List.length_drop]
    omega
  have hfront : (bytes.take size).length = size := by
    rw [List.length_take]
    omega
  rw [portions, portions, if_neg (by rwa [List.isEmpty_iff]), if_neg (by rwa [List.isEmpty_iff])]
  calc Bytes.pieces size bytes
      = Bytes.pieces size (bytes.take size ++ bytes.drop size) := by rw [List.take_append_drop]
    _ = bytes.take size :: Bytes.pieces size (bytes.drop size) := Bytes.pieces_append hsize hfront _

theorem le_of_mem_timetable {size now : Nat} {queue : List Arrival}
    {due : Nat × Except LinkFault Bytes} (h : due ∈ timetable size now queue) : now ≤ due.1 := by
  fun_induction timetable size now queue with
  | case1 => cases h
  | case2 now nanos rest ih =>
    have hlater := ih h
    omega
  | case3 now f rest ih =>
    rcases List.mem_cons.mp h with rfl | h
    · exact Nat.le_refl _
    · exact ih h
  | case4 now bytes rest ih =>
    rcases List.mem_append.mp h with h | h
    · obtain ⟨part, _, rfl⟩ := List.mem_map.mp h
      exact Nat.le_refl _
    · exact ih h

theorem take_timetable {size : Nat} (hsize : 0 < size) (budget left now : Nat)
    (queue : List Arrival) :
    let found := take size budget left queue
    (∃ t rest, timetable size now queue = (t, found.outcome) :: rest ∧ t ≤ now + left ∧
      now + found.waited = t ∧ timetable size t found.rest = rest) ∨
    found.outcome = .error (.timeout budget) ∧ found.waited = left ∧
      timetable size (now + left) found.rest = timetable size now queue := by
  induction queue generalizing left now with
  | nil => exact .inr ⟨rfl, rfl, rfl⟩
  | cons a queue ih =>
    cases a with
    | pause nanos =>
      unfold take
      by_cases hshort : nanos ≤ left
      · rw [if_pos hshort]
        have hsum : now + nanos + (left - nanos) = now + left := by omega
        have hrest := ih (left - nanos) (now + nanos)
        rw [hsum] at hrest
        rcases hrest with ⟨t, rest, hfront, hin, hwaited, hleft⟩ | ⟨hout, hwaited, hleft⟩
        · refine .inl ⟨t, rest, hfront, hin, ?_, hleft⟩
          rw [← hwaited]
          exact (Nat.add_assoc ..).symm
        · refine .inr ⟨hout, ?_, hleft⟩
          change nanos + _ = left
          omega
      · have hsum : now + left + (nanos - left) = now + nanos := by omega
        rw [if_neg hshort]
        refine .inr ⟨rfl, rfl, ?_⟩
        change timetable size (now + left + (nanos - left)) queue = _
        rw [hsum]
        rfl
    | fault f => exact .inl ⟨now, _, rfl, Nat.le_add_right .., rfl, rfl⟩
    | chunk bytes =>
      unfold take
      by_cases hfits : bytes.length ≤ size
      · rw [if_pos hfits]
        refine .inl ⟨now, timetable size now queue, ?_, Nat.le_add_right .., rfl, rfl⟩
        rw [timetable, portions_short hfits]
        rfl
      · have hlong : size < bytes.length := Nat.lt_of_not_le hfits
        rw [if_neg hfits]
        refine .inl ⟨now, timetable size now (chunk (bytes.drop size) :: queue), ?_,
          Nat.le_add_right .., rfl, rfl⟩
        rw [timetable, portions_long hsize hlong]
        rfl

end Arrival

namespace Link

def timetable (size : Nat) (link : Link) : List (Nat × Except LinkFault Bytes) :=
  Arrival.timetable size link.now link.inbound

theorem read_timetable {size : Nat} (hsize : 0 < size) (budget : Nat) (link : Link) :
    let r := link.read size budget
    (final r).isClosed = link.isClosed ∧
      ((∃ t, link.timetable size = (t, outcome r) :: (final r).timetable size ∧
          t ≤ link.now + budget ∧ (final r).now = t) ∨
        link.timetable size = (final r).timetable size ∧
          ((final r).now = link.now + budget ∧ outcome r = .error (.timeout budget) ∨
            (final r).now = link.now ∧ link.isClosed = true ∧ outcome r = .error .closed)) := by
  intro r
  by_cases hclosed : link.isClosed = true
  · have hr : r = .error .closed (link.record (.missed size budget .closed)) := by
      change link.read size budget = _
      rw [read, if_pos hclosed]
    rw [hr]
    exact ⟨rfl, .inr ⟨rfl, .inr ⟨rfl, hclosed, rfl⟩⟩⟩
  have hfound := Arrival.take_timetable hsize budget budget link.now link.inbound
  have hleft : (final r).isClosed = link.isClosed ∧
      (final r).timetable size = Arrival.timetable size
        (link.now + (Arrival.take size budget budget link.inbound).waited)
        (Arrival.take size budget budget link.inbound).rest ∧
      (final r).now = link.now + (Arrival.take size budget budget link.inbound).waited ∧
      outcome r = (Arrival.take size budget budget link.inbound).outcome := by
    cases hfind : (Arrival.take size budget budget link.inbound).outcome with
    | ok bytes =>
      have hr : r = .ok bytes ((link.leave (Arrival.take size budget budget link.inbound)).record
          (.received size budget bytes)) := by
        change link.read size budget = _
        simp only [read, if_neg hclosed, hfind]
      rw [hr]
      exact ⟨rfl, rfl, rfl, rfl⟩
    | error f =>
      have hr : r = .error f ((link.leave (Arrival.take size budget budget link.inbound)).record
          (.missed size budget f)) := by
        change link.read size budget = _
        simp only [read, if_neg hclosed, hfind]
      rw [hr]
      exact ⟨rfl, rfl, rfl, rfl⟩
  obtain ⟨hstill, htable, hnow, hout⟩ := hleft
  refine ⟨hstill, ?_⟩
  rcases hfound with ⟨t, rest, hfront, hin, hwaited, hrest⟩ | ⟨htimeout, hwaited, hrest⟩
  · refine .inl ⟨t, ?_, hin, hnow.trans hwaited⟩
    rw [htable, hwaited, hrest, hout]
    exact hfront
  · refine .inr ⟨?_, .inl ⟨?_, hout.trans htimeout⟩⟩
    · rw [htable, hwaited, hrest]
      rfl
    · rw [hnow, hwaited]

end Link

namespace Frame

/-- The letters that bytes begin with. -/
def letters (bytes : Bytes) : Bytes := bytes.take 4

/-- The text behind the letters, without the zero bytes at its end. -/
def wording (bytes : Bytes) : String :=
  String.ofList (Text.dropEnd (· = '\x00') (Text.Utf8.chars (bytes.drop 4)))

theorem ofBytes_eq_ok {bytes : Bytes} {f : Frame} (h : ofBytes bytes = .ok f) :
    4 ≤ bytes.length ∧ f.tag = letters bytes ∧ f.text = wording bytes := by
  refine ⟨length_of_ofBytes h, ?_⟩
  unfold ofBytes at h
  split at h
  · cases h
  · split at h
    · cases h
    · cases h
      exact ⟨rfl, rfl⟩

end Frame

namespace FrameTag

theorem ofBytes?_eq_some {bytes : Bytes} {tag : FrameTag} (h : ofBytes? bytes = some tag) :
    bytes = tag.bytes := by
  have hsame := List.find?_some h
  exact (of_decide_eq_true hsame).symm

theorem ofBytes?_eq_none {bytes : Bytes} (h : ofBytes? bytes = none) (tag : FrameTag) :
    bytes ≠ tag.bytes := by
  rintro rfl
  rw [ofBytes?_bytes] at h
  cases h

/-- What bytes come to that are read for a frame and are no note. No bytes at all mean that the peer
is gone. -/
def judge (expected : FrameTag) (bytes : Bytes) : Except BootError String :=
  if bytes = [] then .error (.link .closed)
  else if bytes.length < 4 then .error (.invalidResponse (Text.Utf8.decode bytes) "")
  else if Frame.letters bytes = fail.bytes then .error (.remoteFailure (Frame.wording bytes))
  else if Frame.letters bytes = expected.bytes then .ok (Frame.wording bytes)
  else if Frame.letters bytes = okay.bytes then .error (.stateMismatch expected.name "OKAY")
  else if Frame.letters bytes = data.bytes then .error (.stateMismatch expected.name "DATA")
  else .error (.invalidResponse (Text.Utf8.decode (Frame.letters bytes)) (Frame.wording bytes))

theorem judge_of_error {bytes : Bytes} {e : BootError} (h : Frame.ofBytes bytes = .error e)
    (expected : FrameTag) :
    Frame.letters bytes ≠ info.bytes ∧ expected.judge bytes = .error e := by
  have hnote (hshort : bytes.length < 4) : Frame.letters bytes ≠ info.bytes := by
    intro hsame
    have hlength := congrArg List.length hsame
    rw [Frame.letters, List.length_take, Nat.min_eq_right (Nat.le_of_lt hshort)] at hlength
    exact absurd hlength (Nat.ne_of_lt hshort)
  unfold Frame.ofBytes at h
  split at h
  · next hempty =>
    cases h
    obtain rfl := List.isEmpty_iff.mp hempty
    exact ⟨hnote (by decide), rfl⟩
  · next hempty =>
    split at h
    · next hshort =>
      cases h
      refine ⟨hnote hshort, ?_⟩
      rw [judge, if_neg (fun hnil => hempty (List.isEmpty_iff.mpr hnil)), if_pos hshort]
    · cases h

theorem judge_of_ok {bytes : Bytes} {f : Frame} (h : Frame.ofBytes bytes = .ok f)
    (expected : FrameTag) :
    expected.judge bytes =
      if f.tag = fail.bytes then .error (.remoteFailure f.text)
      else if f.tag = expected.bytes then .ok f.text
      else if f.tag = okay.bytes then .error (.stateMismatch expected.name "OKAY")
      else if f.tag = data.bytes then .error (.stateMismatch expected.name "DATA")
      else .error (.invalidResponse (Text.Utf8.decode f.tag) f.text) := by
  obtain ⟨hlong, htag, htext⟩ := Frame.ofBytes_eq_ok h
  have hne : bytes ≠ [] := List.ne_nil_of_length_pos (by omega)
  rw [judge, if_neg hne, if_neg (Nat.not_lt.mpr hlong), htag, htext]

theorem bytes_inj {tag other : FrameTag} : tag.bytes = other.bytes ↔ tag = other := by
  refine ⟨fun h => ?_, congrArg bytes⟩
  have hsame := congrArg ofBytes? h
  rw [ofBytes?_bytes, ofBytes?_bytes] at hsame
  exact Option.some.inj hsame

theorem judge_of_tag {bytes : Bytes} {f : Frame} {tag : FrameTag} (h : Frame.ofBytes bytes = .ok f)
    (htag : ofBytes? f.tag = some tag) (hnote : tag ≠ .info) (expected : FrameTag) :
    Frame.letters bytes ≠ info.bytes ∧ expected.judge bytes = expected.verdict tag f.text := by
  obtain ⟨_, hletters, _⟩ := Frame.ofBytes_eq_ok h
  have hbytes := ofBytes?_eq_some htag
  refine ⟨?_, ?_⟩
  · rw [← hletters, hbytes]
    exact fun hsame => hnote (bytes_inj.mp hsame)
  · rw [judge_of_ok h, verdict, hbytes]
    simp only [bytes_inj]
    cases tag with
    | info => exact absurd rfl hnote
    | fail => rfl
    | okay => rfl
    | data => rfl

theorem judge_of_unknown {bytes : Bytes} {f : Frame} (h : Frame.ofBytes bytes = .ok f)
    (hnone : ofBytes? f.tag = none) (expected : FrameTag) :
    Frame.letters bytes ≠ info.bytes ∧
      expected.judge bytes = .error (.invalidResponse (Text.Utf8.decode f.tag) f.text) := by
  obtain ⟨_, hletters, _⟩ := Frame.ofBytes_eq_ok h
  have hother := ofBytes?_eq_none hnone
  refine ⟨hletters ▸ hother info, ?_⟩
  rw [judge_of_ok h, if_neg (hother _), if_neg (hother _), if_neg (hother _), if_neg (hother _)]

end FrameTag

namespace Dialogue

/-- Bytes in a timetable, with the time by which they have come. -/
def came (due : Nat × Bytes) : Nat × Except LinkFault Bytes := (due.1, .ok due.2)

/-- How a wait can end that has come to `coming` in its timetable: with bytes that are no note, with
a fault of the link, or with nothing. -/
def Settled (expected : FrameTag) (limit : Nat) (coming : List (Nat × Except LinkFault Bytes))
    (after : Link) (result : Except BootError String) : Prop :=
  let left := after.timetable Frame.size
  (∃ bytes, coming = (after.now, .ok bytes) :: left ∧
      Frame.letters bytes ≠ FrameTag.info.bytes ∧ result = expected.judge bytes) ∨
    ∃ f, result = .error (.link f) ∧
      (coming = (after.now, .error f) :: left ∨
        coming = left ∧ (after.now = limit ∨ after.isClosed = true))

theorem readFrame_timetable (d : Dialogue) (budget : Nat) :
    let r := d.readFrame budget
    let after := (final r).link
    after.isClosed = d.link.isClosed ∧ (final r).notes = d.notes ∧
      after.now ≤ d.link.now + budget ∧
      ((∃ bytes, d.link.timetable Frame.size =
            (after.now, .ok bytes) :: after.timetable Frame.size ∧
          outcome r = Frame.ofBytes bytes) ∨
        ∃ f, outcome r = .error (.link f) ∧
          (d.link.timetable Frame.size = (after.now, .error f) :: after.timetable Frame.size ∨
            d.link.timetable Frame.size = after.timetable Frame.size ∧
              (after.now = d.link.now + budget ∨ after.isClosed = true))) := by
  intro r after
  have hread := Link.read_timetable (show 0 < Frame.size by decide) budget d.link
  have hr : r = d.readFrame budget := rfl
  unfold readFrame at hr
  cases hl : d.link.read Frame.size budget with
  | error f link =>
    rw [hl] at hread hr
    have hafter : after = link := congrArg (Dialogue.link ∘ final) hr
    obtain ⟨hstill, hend⟩ := hread
    rw [hafter, hr]
    rcases hend with ⟨t, hfront, hin, rfl⟩ | ⟨hsame, ⟨hnow, hout⟩ | ⟨hnow, hclosed, hout⟩⟩
    · exact ⟨hstill, rfl, hin, .inr ⟨f, rfl, .inl hfront⟩⟩
    · exact ⟨hstill, rfl, Nat.le_of_eq hnow, .inr ⟨f, rfl, .inr ⟨hsame, .inl hnow⟩⟩⟩
    · exact ⟨hstill, rfl, Nat.le_trans (Nat.le_of_eq hnow) (Nat.le_add_right ..),
        .inr ⟨f, rfl, .inr ⟨hsame, .inr (hstill.trans hclosed)⟩⟩⟩
  | ok bytes link =>
    rw [hl] at hread hr
    have hlink : after = link ∧ (final r).notes = d.notes ∧ outcome r = Frame.ofBytes bytes := by
      dsimp only at hr
      change (final r).link = link ∧ _
      rw [hr]
      cases Frame.ofBytes bytes with
      | ok f => exact ⟨rfl, rfl, rfl⟩
      | error e => exact ⟨rfl, rfl, rfl⟩
    obtain ⟨hafter, hnotes, hout⟩ := hlink
    obtain ⟨hstill, hend⟩ := hread
    rw [hafter, hnotes, hout]
    rcases hend with ⟨t, hfront, hin, rfl⟩ | ⟨_, ⟨_, hfailed⟩ | ⟨_, _, hfailed⟩⟩
    · exact ⟨hstill, rfl, hin, .inl ⟨bytes, hfront, rfl⟩⟩
    · cases hfailed
    · cases hfailed

theorem awaitBy_timetable (expected : FrameTag) (deadline : Deadline) {limit : Nat}
    (hlimit : deadline.start + deadline.budget = limit) {d : Dialogue}
    (hbegun : d.link.now ≤ limit) :
    let r := d.awaitBy expected deadline
    let after := (final r).link
    after.now ≤ limit ∧ ∃ (told : List (Nat × Bytes)) (coming : _),
      d.link.timetable Frame.size = told.map came ++ coming ∧
      (∀ due ∈ told, due.1 ≤ limit ∧ Frame.letters due.2 = FrameTag.info.bytes) ∧
      (final r).notes = (told.map fun due => Frame.wording due.2).reverse ++ d.notes ∧
      Settled expected limit coming after (outcome r) := by
  have hleft (now : Nat) : now ≤ limit → now + deadline.remaining now = limit := by
    intro hnow
    rw [Deadline.remaining, hlimit]
    omega
  have hframe {d after : Dialogue} {f : Frame} (hbegun : d.link.now ≤ limit)
      (hr : d.readFrame (deadline.remaining d.link.now) = .ok f after) :
      ∃ bytes, d.link.timetable Frame.size =
          (after.link.now, .ok bytes) :: after.link.timetable Frame.size ∧
        after.link.now ≤ limit ∧ after.notes = d.notes ∧ Frame.ofBytes bytes = .ok f := by
    have hread := d.readFrame_timetable (deadline.remaining d.link.now)
    rw [hr, hleft _ hbegun] at hread
    obtain ⟨_, hnotes, hin, ⟨bytes, hfront, hout⟩ | ⟨_, hout, _⟩⟩ := hread
    · exact ⟨bytes, hfront, hin, hnotes, hout.symm⟩
    · cases hout
  fun_induction awaitBy expected deadline d with
  | case1 d hexpired =>
    have hover : d.link.now = limit := by
      have hpassed := Deadline.hasExpired_iff.mp hexpired
      omega
    exact ⟨hbegun, [], _, rfl, List.forall_mem_nil _, rfl, .inr ⟨_, rfl, .inr ⟨rfl, .inl hover⟩⟩⟩
  | case2 d hexpired e after hr =>
    have hread := d.readFrame_timetable (deadline.remaining d.link.now)
    rw [hr, hleft _ hbegun] at hread
    obtain ⟨_, hnotes, hin, hend⟩ := hread
    refine ⟨hin, [], _, rfl, List.forall_mem_nil _, hnotes, ?_⟩
    rcases hend with ⟨bytes, hfront, hout⟩ | ⟨f, hout, hend⟩
    · obtain ⟨hnote, hjudge⟩ := FrameTag.judge_of_error hout.symm expected
      exact .inl ⟨bytes, hfront, hnote, hjudge.symm⟩
    · cases hout
      exact .inr ⟨f, rfl, hend⟩
  | case3 d hexpired f after hr htag =>
    obtain ⟨bytes, hfront, hin, hnotes, hf⟩ := hframe hbegun hr
    obtain ⟨hnote, hjudge⟩ := FrameTag.judge_of_unknown hf htag expected
    exact ⟨hin, [], _, rfl, List.forall_mem_nil _, hnotes, .inl ⟨bytes, hfront, hnote, hjudge.symm⟩⟩
  | case4 d hexpired f after hr htag ih =>
    obtain ⟨bytes, hfront, hin, hnotes, hf⟩ := hframe hbegun hr
    obtain ⟨_, hletters, hwording⟩ := Frame.ofBytes_eq_ok hf
    obtain ⟨hover, told, coming, htable, hinfo, htold, hend⟩ := ih hin
    refine ⟨hover, (after.link.now, bytes) :: told, coming, ?_, ?_, ?_, hend⟩
    · rw [hfront]
      exact congrArg _ htable
    · refine List.forall_mem_cons.mpr ⟨⟨hin, ?_⟩, hinfo⟩
      exact hletters.symm.trans (FrameTag.ofBytes?_eq_some htag)
    · calc _ = (told.map fun due => Frame.wording due.2).reverse ++ f.text :: after.notes := htold
        _ = _ := by
          rw [hnotes, hwording, List.map_cons, List.reverse_cons, List.append_assoc]
          rfl
  | case5 d hexpired f after hr htag =>
    obtain ⟨bytes, hfront, hin, hnotes, hf⟩ := hframe hbegun hr
    obtain ⟨hnote, hjudge⟩ := FrameTag.judge_of_tag hf htag (by decide) expected
    exact ⟨hin, [], _, rfl, List.forall_mem_nil _, hnotes, .inl ⟨bytes, hfront, hnote, hjudge.symm⟩⟩
  | case6 d hexpired f after hr hinfo hfail htag =>
    obtain ⟨bytes, hfront, hin, hnotes, hf⟩ := hframe hbegun hr
    obtain ⟨hnote, hjudge⟩ := FrameTag.judge_of_tag hf htag hinfo expected
    refine ⟨hin, [], _, rfl, List.forall_mem_nil _, hnotes, .inl ⟨bytes, hfront, hnote, ?_⟩⟩
    rw [hjudge, FrameTag.verdict, if_neg hfail, if_pos rfl]
    rfl
  | case7 d hexpired f after hr tag hinfo hfail htag hother =>
    obtain ⟨bytes, hfront, hin, hnotes, hf⟩ := hframe hbegun hr
    obtain ⟨hnote, hjudge⟩ := FrameTag.judge_of_tag hf htag hinfo expected
    refine ⟨hin, [], _, rfl, List.forall_mem_nil _, hnotes, .inl ⟨bytes, hfront, hnote, ?_⟩⟩
    rw [hjudge, FrameTag.verdict, if_neg hfail, if_neg hother]
    rfl

/-- A wait for a frame tells the notes that come first, each once and in order, ends with what comes
behind them, which it judges by its letters, and leaves the rest. It is never over later than its
budget says. -/
theorem await_goes_by_timetable (expected : FrameTag) (budget : Nat) (d : Dialogue) :
    let r := d.await expected budget
    let limit := d.link.now + budget
    let after := (final r).link
    let left := after.timetable Frame.size
    after.now ≤ limit ∧ ∃ (told : List (Nat × Bytes))
      (coming : List (Nat × Except LinkFault Bytes)),
      d.link.timetable Frame.size = told.map (fun due => (due.1, .ok due.2)) ++ coming ∧
      (∀ due ∈ told, due.1 ≤ limit ∧ Frame.letters due.2 = FrameTag.info.bytes) ∧
      (final r).notes = (told.map fun due => Frame.wording due.2).reverse ++ d.notes ∧
      ((∃ bytes, coming = (after.now, .ok bytes) :: left ∧
          Frame.letters bytes ≠ FrameTag.info.bytes ∧ outcome r = expected.judge bytes) ∨
        ∃ f, outcome r = .error (.link f) ∧
          (coming = (after.now, .error f) :: left ∨
            coming = left ∧ (after.isClosed = true ∨ ∀ due ∈ left, limit ≤ due.1))) := by
  intro r limit after left
  obtain ⟨hover, told, coming, htable, hinfo, htold, hend⟩ :=
    awaitBy_timetable expected ⟨d.link.now, budget⟩ (show _ = limit from rfl) (Nat.le_add_right ..)
  refine ⟨hover, told, coming, htable, hinfo, htold, ?_⟩
  rcases hend with hframe | ⟨f, hout, hend⟩
  · exact .inl hframe
  · refine .inr ⟨f, hout, ?_⟩
    rcases hend with hfault | ⟨hsame, hlate | hclosed⟩
    · exact .inl hfault
    · refine .inr ⟨hsame, .inr ?_⟩
      intro due hdue
      calc limit = after.now := hlate.symm
        _ ≤ due.1 := Arrival.le_of_mem_timetable hdue
    · exact .inr ⟨hsame, .inl hclosed⟩

end Dialogue
end DroidHost
