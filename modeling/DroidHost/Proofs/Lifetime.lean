import DroidHost.Proofs.Acknowledgement
import DroidHost.Proofs.StreamCourse

/-! What a stream says on the wire in the course of its life, as a grammar of the record. -/
namespace DroidHost

namespace Occurrence

def leads (id : UInt32) : Occurrence → Option Phase → Option Phase
  | entered k, phase => if k = id then some .pending else phase
  | removed k, phase => if k = id then none else phase
  | arrived m _, phase => if m.arg1 = id then phase.map (Phase.next m.command) else phase
  | _, phase => phase

/-- Told from what happened, latest first. -/
def phase (id : UInt32) (past : List Occurrence) : Option Phase := past.foldr (leads id) none

theorem phase_cons (id : UInt32) (o : Occurrence) (past : List Occurrence) :
    phase id (o :: past) = leads id o (phase id past) := rfl

theorem phase_cons_of_tried {o : Occurrence} {w : Message} (h : o.tried = some w) (id : UInt32)
    (past : List Occurrence) : phase id (o :: past) = phase id past := by
  cases o with
  | sent m => rfl
  | unsent m begun => rfl
  | _ => cases h

def triedOn (id : UInt32) (o : Occurrence) : Option Message := o.tried.filter (·.arg0 = id)

/-- A history, latest first, in which nothing was tried on a stream out of its turn. -/
inductive Proper : List Occurrence → Prop
  | nil : Proper []
  | aside {o : Occurrence} {past : List Occurrence} (h : Proper past) (ho : o.tried = none)
      (hid : ∀ id, o ≠ entered id ∧ o ≠ removed id) : Proper (o :: past)
  | asked {o : Occurrence} {id : UInt32} {payload : Bytes} {past : List Occurrence}
      (h : Proper past) (hp : phase id past = none)
      (ho : o.tried = some ⟨.start, id, 0, payload⟩) : Proper (o :: entered id :: past)
  | used {o : Occurrence} {w : Message} {past : List Occurrence} (h : Proper past)
      (hp : phase w.arg0 past = some .opened) (ho : o.tried = some w)
      (hw : w.command = .write ∨ w.command = .okay) : Proper (o :: past)
  /-- A stream is removed that was not answered, or that the device closed. -/
  | dropped {id : UInt32} {past : List Occurrence} (h : Proper past)
      (hp : phase id past ≠ some .opened) : Proper (removed id :: past)
  /-- A stream is removed while it is open, and the device is told. -/
  | parted {id whom : UInt32} {o : Occurrence} {past : List Occurrence} (h : Proper past)
      (hp : phase id past = some .opened) (hwhom : peer id past = some whom)
      (ho : o.tried = some ⟨.close, id, whom, []⟩) : Proper (o :: removed id :: past)

/-- The turn of a message that was tried: what may stand directly behind what. -/
inductive Turn (w : Message) : List Occurrence → Prop
  | asks {past : List Occurrence} (hc : w.command = .start) : Turn w (entered w.arg0 :: past)
  | uses {past : List Occurrence} (hc : w.command = .write ∨ w.command = .okay)
      (hp : phase w.arg0 past = some .opened) : Turn w past
  | parts {past : List Occurrence} (hc : w.command = .close)
      (hp : phase w.arg0 past = some .opened) (hwhom : peer w.arg0 past = some w.arg1) :
      Turn w (removed w.arg0 :: past)

/-- Where something stands in a proper history, between what came later and what came earlier. -/
inductive Place (later : List Occurrence) : Occurrence → List Occurrence → Prop
  | aside {o : Occurrence} {earlier : List Occurrence} (ho : o.tried = none)
      (hid : ∀ id, o ≠ entered id ∧ o ≠ removed id) : Place later o earlier
  | entry {id : UInt32} {earlier : List Occurrence} (h : Proper earlier) :
      Place later (entered id) earlier
  | trial {o : Occurrence} {w : Message} {earlier : List Occurrence} (ho : o.tried = some w)
      (h : Turn w earlier) : Place later o earlier
  | dropped {id : UInt32} {earlier : List Occurrence} (hp : phase id earlier ≠ some .opened) :
      Place later (removed id) earlier
  | parting {id whom : UInt32} {between : List Occurrence} {o : Occurrence}
      {earlier : List Occurrence} (hlater : later = between ++ [o])
      (hwhom : peer id earlier = some whom) (ho : o.tried = some ⟨.close, id, whom, []⟩) :
      Place later (removed id) earlier

theorem Place.push {later earlier : List Occurrence} {o : Occurrence} (h : Place later o earlier)
    (newest : Occurrence) : Place (newest :: later) o earlier := by
  cases h with
  | aside ho hid => exact .aside ho hid
  | entry h => exact .entry h
  | trial ho h => exact .trial ho h
  | dropped hp => exact .dropped hp
  | @parting id whom between o _ hlater hwhom ho =>
    have hmore : newest :: later = (newest :: between) ++ [o] := by rw [hlater, List.cons_append]
    exact .parting hmore hwhom ho

namespace Proper

theorem place {past : List Occurrence} (h : Proper past) {later earlier : List Occurrence}
    {o : Occurrence} (hpast : past = later ++ o :: earlier) : Place later o earlier := by
  -- It belongs to what the history ends with, one occurrence or two, or it lies further back.
  induction h generalizing later with
  | nil => cases later <;> cases hpast
  | @aside a past h ha hid ih =>
    rcases later with _ | ⟨l, later⟩
    · obtain ⟨rfl, rfl⟩ := List.cons.inj hpast
      exact .aside ha hid
    · exact (ih (List.cons.inj hpast).2).push l
  | @asked a id payload past h hp ha ih =>
    rcases later with _ | ⟨l, _ | ⟨l', later⟩⟩
    · obtain ⟨rfl, rfl⟩ := List.cons.inj hpast
      exact .trial ha (.asks rfl)
    · obtain ⟨rfl, rfl⟩ := List.cons.inj (List.cons.inj hpast).2
      exact .entry h
    · exact ((ih (List.cons.inj (List.cons.inj hpast).2).2).push l').push l
  | @used a w past h hp ha hw ih =>
    rcases later with _ | ⟨l, later⟩
    · obtain ⟨rfl, rfl⟩ := List.cons.inj hpast
      exact .trial ha (.uses hw hp)
    · exact (ih (List.cons.inj hpast).2).push l
  | @dropped id past h hp ih =>
    rcases later with _ | ⟨l, later⟩
    · obtain ⟨rfl, rfl⟩ := List.cons.inj hpast
      exact .dropped hp
    · exact (ih (List.cons.inj hpast).2).push l
  | @parted id whom a past h hp hwhom ha ih =>
    rcases later with _ | ⟨l, _ | ⟨l', later⟩⟩
    · obtain ⟨rfl, rfl⟩ := List.cons.inj hpast
      exact .trial ha (.parts rfl hp hwhom)
    · obtain ⟨rfl, hrest⟩ := List.cons.inj hpast
      obtain ⟨rfl, rfl⟩ := List.cons.inj hrest
      exact .parting (List.nil_append _).symm hwhom ha
    · exact ((ih (List.cons.inj (List.cons.inj hpast).2).2).push l').push l

theorem turn {past : List Occurrence} (h : Proper past) {later earlier : List Occurrence}
    {o : Occurrence} {w : Message} (hpast : past = later ++ o :: earlier)
    (ho : o.tried = some w) : Turn w earlier := by
  cases h.place hpast with
  | aside hnone _ => cases hnone.symm.trans ho
  | entry _ => cases ho
  | trial hv h =>
    cases hv.symm.trans ho
    exact h
  | dropped _ => cases ho
  | parting _ _ _ => cases ho

theorem farewell {past : List Occurrence} (h : Proper past) {later earlier : List Occurrence}
    {id : UInt32} (hpast : past = later ++ removed id :: earlier)
    (hopen : phase id earlier = some .opened) : ∃ between o whom, later = between ++ [o] ∧
      peer id earlier = some whom ∧ o.tried = some ⟨.close, id, whom, []⟩ := by
  cases h.place hpast with
  | aside _ hid => exact absurd rfl (hid id).2
  | trial ho _ => cases ho
  | dropped hp => exact absurd hopen hp
  | parting hlater hwhom ho => exact ⟨_, _, _, hlater, hwhom, ho⟩

theorem of_entered {past : List Occurrence} (h : Proper past) {later earlier : List Occurrence}
    {id : UInt32} (hpast : past = later ++ entered id :: earlier) : Proper earlier := by
  cases h.place hpast with
  | aside _ hid => exact absurd rfl (hid id).1
  | entry h => exact h
  | trial ho _ => cases ho

end Proper

/-- What was tried on the stream since it was entered, in order. -/
def said (id : UInt32) (past : List Occurrence) : List Message :=
  ((since id past).filterMap (triedOn id)).reverse

theorem said_cons {id : UInt32} {o : Occurrence} (h : o ≠ entered id) (past : List Occurrence) :
    said id (o :: past) = said id past ++ (triedOn id o).toList := by
  rw [said, since_cons, if_neg h, said]
  cases hw : triedOn id o with
  | none => rw [List.filterMap_cons_none hw, Option.toList_none, List.append_nil]
  | some w => rw [List.filterMap_cons_some hw, List.reverse_cons, Option.toList_some]

theorem said_entered (id : UInt32) (past : List Occurrence) :
    said id (entered id :: past) = [] := by
  rw [said, since_cons, if_pos rfl]
  rfl

theorem triedOn_of_tried {id : UInt32} {o : Occurrence} {w : Message} (h : o.tried = some w) :
    triedOn id o = if w.arg0 = id then some w else none := by
  rw [triedOn, h, Option.filter_some]
  by_cases hid : w.arg0 = id
  · rw [if_pos (decide_eq_true hid), if_pos hid]
  · rw [if_neg (by simpa using hid), if_neg hid]

theorem triedOn_of_untried {o : Occurrence} (h : o.tried = none) (id : UInt32) :
    triedOn id o = none := by
  rw [triedOn, h, Option.filter_none]

theorem said_cons_of_untried {id : UInt32} {o : Occurrence} (hne : o ≠ entered id)
    (ho : o.tried = none) (past : List Occurrence) : said id (o :: past) = said id past := by
  rw [said_cons hne, triedOn_of_untried ho, Option.toList_none, List.append_nil]

/-- The request for a stream, data and acknowledgements, and at most one close, at the end. -/
def IsLife (id : UInt32) (words : List Message) : Prop :=
  ∃ payload body farewell, words = ⟨.start, id, 0, payload⟩ :: body ++ farewell ∧
    (∀ w ∈ body, w.command = .write ∨ w.command = .okay) ∧
    (farewell = [] ∨ ∃ whom, farewell = [⟨.close, id, whom, []⟩])

def IsYoung (id : UInt32) (words : List Message) : Prop :=
  ∃ payload body, words = ⟨.start, id, 0, payload⟩ :: body ∧
    ∀ w ∈ body, w.command = .write ∨ w.command = .okay

theorem IsYoung.life {id : UInt32} {words : List Message} (h : IsYoung id words) :
    IsLife id words := by
  obtain ⟨payload, body, rfl, hbody⟩ := h
  exact ⟨payload, body, [], (List.append_nil _).symm, hbody, .inl rfl⟩

theorem IsYoung.use {id : UInt32} {words : List Message} (h : IsYoung id words) {w : Message}
    (hw : w.command = .write ∨ w.command = .okay) : IsYoung id (words ++ [w]) := by
  obtain ⟨payload, body, rfl, hbody⟩ := h
  refine ⟨payload, body ++ [w], rfl, ?_⟩
  intro v hv
  rcases List.mem_append.mp hv with hv | hv
  · exact hbody v hv
  · rw [List.mem_singleton.mp hv]
    exact hw

theorem IsYoung.part {id : UInt32} {words : List Message} (h : IsYoung id words) (whom : UInt32) :
    IsLife id (words ++ [⟨.close, id, whom, []⟩]) := by
  obtain ⟨payload, body, rfl, hbody⟩ := h
  exact ⟨payload, body, [⟨.close, id, whom, []⟩], rfl, hbody, .inr ⟨whom, rfl⟩⟩

theorem ne_entered_of_tried {o : Occurrence} {w : Message} (h : o.tried = some w) (id : UInt32) :
    o ≠ entered id := by
  rintro rfl
  cases h

theorem Proper.life {past : List Occurrence} (h : Proper past) {id : UInt32}
    (hentered : entered id ∈ past) :
    IsLife id (said id past) ∧ (phase id past ≠ none → IsYoung id (said id past)) := by
  induction h with
  | nil => cases hentered
  | @aside o past h ho hid ih =>
    obtain ⟨hlife, hyoung⟩ := ih (List.mem_of_ne_of_mem (hid id).1.symm hentered)
    rw [said_cons_of_untried (hid id).1 ho]
    refine ⟨hlife, ?_⟩
    intro hthere
    apply hyoung
    intro hgone
    apply hthere
    rw [phase_cons, hgone]
    cases o with
    | entered k =>
      have hk : k ≠ id := fun hk => (hid id).1 (congrArg entered hk)
      exact if_neg hk
    | arrived m heard =>
      rw [leads, Option.map_none, ite_self]
    | removed k => rw [leads, ite_self]
    | _ => rfl
  | @asked o k payload past h hp ho ih =>
    have hne := ne_entered_of_tried ho id
    have hbelow := List.mem_of_ne_of_mem hne.symm hentered
    rw [phase_cons_of_tried ho, said_cons hne, triedOn_of_tried ho]
    by_cases hk : k = id
    · subst hk
      rw [said_entered, if_pos rfl]
      have hyoung : IsYoung k ([] ++ [⟨.start, k, 0, payload⟩]) :=
        ⟨payload, [], rfl, fun w hw => absurd hw List.not_mem_nil⟩
      exact ⟨hyoung.life, fun _ => hyoung⟩
    · have hother : entered k ≠ entered id := fun he => hk (entered.inj he)
      obtain ⟨hlife, hyoung⟩ := ih (List.mem_of_ne_of_mem hother.symm hbelow)
      rw [if_neg hk, said_cons_of_untried hother rfl, phase_cons, leads, if_neg hk,
        Option.toList_none, List.append_nil]
      exact ⟨hlife, hyoung⟩
  | @used o w past h hp ho hw ih =>
    have hne := ne_entered_of_tried ho id
    obtain ⟨hlife, hyoung⟩ := ih (List.mem_of_ne_of_mem hne.symm hentered)
    rw [phase_cons_of_tried ho, said_cons hne, triedOn_of_tried ho]
    by_cases hid : w.arg0 = id
    · rw [if_pos hid, ← hid, hp]
      rw [← hid] at hyoung
      have hmore := (hyoung (by rw [hp]; decide)).use hw
      exact ⟨hmore.life, fun _ => hmore⟩
    · rw [if_neg hid, Option.toList_none, List.append_nil]
      exact ⟨hlife, hyoung⟩
  | @dropped k past h hp ih =>
    have hne : removed k ≠ entered id := by rintro ⟨⟩
    obtain ⟨hlife, hyoung⟩ := ih (List.mem_of_ne_of_mem hne.symm hentered)
    rw [said_cons_of_untried hne rfl, phase_cons, leads]
    refine ⟨hlife, ?_⟩
    split
    · exact fun hnone => absurd rfl hnone
    · exact hyoung
  | @parted k whom o past h hp hwhom ho ih =>
    have hne := ne_entered_of_tried ho id
    have hne' : removed k ≠ entered id := by rintro ⟨⟩
    obtain ⟨hlife, hyoung⟩ :=
      ih (List.mem_of_ne_of_mem hne'.symm (List.mem_of_ne_of_mem hne.symm hentered))
    rw [phase_cons_of_tried ho, said_cons hne, triedOn_of_tried ho,
      said_cons_of_untried hne' rfl, phase_cons, leads]
    by_cases hk : k = id
    · subst hk
      rw [if_pos rfl, if_pos rfl]
      exact ⟨(hyoung (by rw [hp]; decide)).part whom, fun hnone => absurd rfl hnone⟩
    · rw [if_neg hk, if_neg hk, Option.toList_none, List.append_nil]
      exact ⟨hlife, hyoung⟩

theorem over_append {id : UInt32} {earlier : List Occurrence}
    (h : phase id earlier = none ∨ phase id earlier = some .closed) {later : List Occurrence}
    (hnew : entered id ∉ later) :
    phase id (later ++ earlier) = none ∨ phase id (later ++ earlier) = some .closed := by
  induction later with
  | nil => exact h
  | cons o later ih =>
    have hover := ih (fun hmem => hnew (List.mem_cons_of_mem o hmem))
    rw [List.cons_append, phase_cons]
    cases o with
    | entered k =>
      have hk : k ≠ id := by
        rintro rfl
        exact hnew (List.mem_cons_self ..)
      rw [leads, if_neg hk]
      exact hover
    | removed k =>
      rw [leads]
      split
      · exact .inl rfl
      · exact hover
    | arrived m heard =>
      rw [leads]
      split
      · rcases hover with hnone | hclosed
        · exact .inl (by rw [hnone, Option.map_none])
        · exact .inr (by rw [hclosed, Option.map_some, Phase.next_closed])
      · exact hover
    | _ => exact hover

/-- After the device has closed a stream, nothing is tried on it any more. -/
theorem Proper.silent {past : List Occurrence} (h : Proper past) {later earlier : List Occurrence}
    {m : Message} {heard : Option Phase} (hpast : past = later ++ arrived m heard :: earlier)
    (hm : m.command = .close) (hnew : entered m.arg1 ∉ later) {o : Occurrence} (ho : o ∈ later)
    {w : Message} (hw : o.tried = some w) : w.arg0 ≠ m.arg1 := by
  rintro hid
  obtain ⟨newer, older, rfl⟩ := List.append_of_mem ho
  have holder : entered m.arg1 ∉ older :=
    fun hmem => hnew (List.mem_append_right newer (List.mem_cons_of_mem o hmem))
  have hclosed : phase m.arg1 (arrived m heard :: earlier) = none ∨
      phase m.arg1 (arrived m heard :: earlier) = some .closed := by
    rw [phase_cons, leads, if_pos rfl, hm]
    cases phase m.arg1 earlier with
    | none => exact .inl rfl
    | some p => exact .inr rfl
  have hover := over_append hclosed holder
  have hsplit : past = newer ++ o :: (older ++ arrived m heard :: earlier) := by
    rw [hpast, List.append_assoc, List.cons_append]
  -- From the close up to what was tried the stream is closed, or not there.
  cases hback : older ++ arrived m heard :: earlier with
  | nil => cases older <;> cases hback
  | cons b back =>
    rw [hback] at hsplit hover
    have hopen (hp : phase m.arg1 (b :: back) = some .opened) : False := by
      rw [hp] at hover
      rcases hover with hnone | hclosed
      · cases hnone
      · cases hclosed
    cases h.turn hsplit hw with
    | asks hc =>
      rcases older with _ | ⟨b', older⟩
      · cases (List.cons.inj hback).1
      · rw [hid] at hback
        exact holder (by rw [(List.cons.inj hback).1]; exact List.mem_cons_self ..)
    | uses hc hp => exact hopen (hid ▸ hp)
    | parts hc hp hwhom =>
      rcases older with _ | ⟨b', older⟩
      · cases (List.cons.inj hback).1
      · have hrest : older ++ arrived m heard :: earlier = back := (List.cons.inj hback).2
        have hstill := over_append hclosed
          (fun hmem => holder (List.mem_cons_of_mem b' hmem) : entered m.arg1 ∉ older)
        rw [hrest, ← hid, hp] at hstill
        rcases hstill with hnone | hclosed
        · cases hnone
        · cases hclosed

end Occurrence

namespace StreamTable

theorem next_of_route_error {t : StreamTable} {m : Message} {e : BridgeError}
    (h : t.route m = .error e) (phase : Phase) : phase.next m.command = phase := by
  unfold route at h
  split at h
  · split at h <;> cases h
  · next hn =>
    unfold Phase.next
    split
    · next hc => exact absurd (.inl hc) hn
    · next hc => exact absurd (.inr (.inl hc)) hn
    · rfl

end StreamTable

namespace Connection

def phase? (c : Connection) (id : UInt32) : Option Phase :=
  (c.table.find? id).map StreamState.phase

/-- Each stream is in the phase that the record tells. -/
structure Told (c : Connection) : Prop where
  introduced : c.Introduced
  phase : ∀ id, c.phase? id = Occurrence.phase id c.past

theorem told_fresh (channel : Channel) (info : DeviceInfo) (settings : HostSettings) :
    (Client.fresh channel info settings).connection.Told where
  introduced := introduced_fresh channel info settings
  phase := fun _ => rfl

theorem phase?_setStream {c : Connection} {k : UInt32} {s : StreamState}
    (hs : c.table.find? k = some s) (s' : StreamState) (hp : s'.phase = s.phase) (id : UInt32) :
    (c.setStream k s').phase? id = c.phase? id := by
  rw [phase?, setStream, StreamTable.find?_set, phase?]
  by_cases hk : id = k
  · rw [if_pos hk, hk, hs, Option.map_some, Option.map_some, Option.map_some, hp]
  · rw [if_neg hk]

theorem phase?_enter (c : Connection) (k id : UInt32) :
    (c.enter k).phase? id = if k = id then some .pending else c.phase? id := by
  rw [phase?, enter, note, StreamTable.find?_insert, phase?]
  by_cases hk : id = k
  · rw [if_pos hk, if_pos hk.symm]
    rfl
  · rw [if_neg hk, if_neg (Ne.symm hk)]

theorem phase?_remove (c : Connection) (k id : UInt32) :
    (c.remove k).phase? id = if k = id then none else c.phase? id := by
  rw [phase?, remove, note, StreamTable.find?_erase, phase?]
  by_cases hk : id = k
  · rw [if_pos hk, if_pos hk.symm, Option.map_none]
  · rw [if_neg hk, if_neg (Ne.symm hk)]

theorem phase?_route {c : Connection} (h : c.Introduced) {m : Message} {table : StreamTable}
    {ack : Option Message} (hr : c.table.route m = .ok (table, ack)) (id : UInt32) :
    (table.find? id).map StreamState.phase =
      if m.arg1 = id then (c.phase? id).map (Phase.next m.command) else c.phase? id := by
  unfold StreamTable.route at hr
  split at hr
  · split at hr
    · next s hs =>
      cases hr
      rw [StreamTable.find?_set, phase?]
      by_cases hid : id = m.arg1
      · rw [if_pos hid, if_pos hid.symm, hid, hs]
        simp only [Option.map_some, StreamState.phase_apply (h.unanswered m.arg1 s hs)]
      · rw [if_neg hid, if_neg (Ne.symm hid)]
    · next hs =>
      cases hr
      rw [phase?]
      split
      · next hid => rw [← hid, hs, Option.map_none, Option.map_none]
      · rfl
  · cases hr

theorem Told.step {c after : Connection} (hstep : c.Step after) (h : c.Told) : after.Told where
  introduced := h.introduced.step hstep
  phase := by
    intro id
    cases hstep with
    | channel ch => exact h.phase id
    | searched ha =>
      rw [phase?, StreamTable.find?_of_allocate ha]
      exact h.phase id
    | @entered k table ha =>
      rw [phase?_enter, phase?, StreamTable.find?_of_allocate ha, ← phase?, h.phase]
      rfl
    | asked payload hs => exact h.phase id
    | unsent m begun => exact h.phase id
    | @routed m table ack hr =>
      calc (table.find? id).map StreamState.phase
        _ = if m.arg1 = id then (c.phase? id).map (Phase.next m.command) else c.phase? id :=
          phase?_route h.introduced hr id
        _ = Occurrence.phase id (.arrived m (c.phase? m.arg1) :: c.past) := by
          rw [h.phase, Occurrence.phase_cons, Occurrence.leads]
    | @strayed m e hr =>
      change c.phase? id =
        Occurrence.leads id (.arrived m (c.phase? m.arg1)) (Occurrence.phase id c.past)
      have hsame : Phase.next m.command = fun phase => phase :=
        funext (StreamTable.next_of_route_error hr)
      rw [Occurrence.leads, hsame, Option.map_id', ite_self, h.phase]
    | acknowledged k peer => exact h.phase id
    | spoilt k fault =>
      unfold spoil
      split
      · next s hs =>
        have hsame := phase?_setStream hs { s with fault := some fault } rfl id
        exact hsame.trans (h.phase id)
      · exact h.phase id
    | @wrote k peer s piece hs hp =>
      have hsame := phase?_setStream hs { s with awaiting := true } rfl id
      exact hsame.trans (h.phase id)
    | @took k length bytes s s' hs hr =>
      obtain ⟨_, he, _, _⟩ := StreamState.supplying_ready hr
      have hsame := phase?_setStream hs s' (by rw [he]) id
      exact hsame.trans (h.phase id)
    | removed k =>
      rw [phase?_remove, h.phase]
      rfl
    | parted k peer => exact h.phase id

theorem Told.move {c after : Connection} (hm : c.Move after) (h : c.Told) : after.Told :=
  hm.steps.kept (fun _ _ => Told.step) h

theorem release_cases {c : Connection} (h : c.Introduced) {id : UInt32} {s : StreamState}
    (hs : c.table.find? id = some s) :
    (s.phase ≠ .opened ∧ c.release id = c.remove id) ∨
    (s.phase = .opened ∧ ∃ whom, s.peer = some whom ∧
      c.release id = (c.remove id).tell ⟨.close, id, whom, []⟩ c.settings.closeTimeout) := by
  rw [release, hs]
  cases hp : s.phase with
  | pending =>
    left
    refine ⟨by decide, ?_⟩
    simp only [StreamState.farewell, hp, (h.unanswered id s hs hp).1]
  | opened =>
    right
    obtain ⟨whom, hwhom⟩ := Option.isSome_iff_exists.mp (h.met id s hs hp)
    refine ⟨rfl, whom, hwhom, ?_⟩
    simp only [StreamState.farewell, hp, hwhom]
  | closed =>
    left
    refine ⟨by decide, ?_⟩
    simp only [StreamState.farewell, hp]

theorem past_send (m : Message) (deadline : Deadline) (c : Connection) :
    ∃ o : Occurrence, o.tried = some m ∧ (final (c.send m deadline)).past = o :: c.past := by
  rcases c.send_cases m deadline with ⟨ch, hs⟩ | ⟨f, ch, begun, hs⟩
  · rw [hs]
    exact ⟨.sent m, rfl, rfl⟩
  · rw [hs]
    exact ⟨.unsent m begun, rfl, rfl⟩

theorem proper_release {c : Connection} (ht : c.Told) (h : Occurrence.Proper c.past)
    (id : UInt32) : Occurrence.Proper (c.release id).past := by
  cases hs : c.table.find? id with
  | none =>
    rw [release, hs]
    exact h
  | some s =>
    have hphase : Occurrence.phase id c.past = some s.phase := by
      rw [← ht.phase, phase?, hs, Option.map_some]
    rcases release_cases ht.introduced hs with ⟨hp, hr⟩ | ⟨hp, whom, hwhom, hr⟩
    · rw [hr]
      refine h.dropped ?_
      rw [hphase]
      exact fun he => hp (Option.some.inj he)
    · obtain ⟨o, ho, hpast⟩ := past_send ⟨.close, id, whom, []⟩
        ((c.remove id).deadline c.settings.closeTimeout) (c.remove id)
      have hrecorded : Occurrence.peer id c.past = some whom := by
        rw [← ht.introduced.recorded id s hs (by rw [hp]; decide), hwhom]
      rw [hr, tell, hpast]
      exact h.parted (by rw [hphase, hp]) hrecorded ho

theorem proper_ask {c : Connection} (ht : c.Told) (h : Occurrence.Proper c.past)
    (destination : String) (deadline : Deadline) :
    Occurrence.Proper (final (c.ask destination deadline)).past := by
  unfold ask
  split
  · exact h
  · next id table ha =>
    let entered : Connection := { c with table := table }.enter id
    let request : Message := ⟨.start, id, 0, Text.Utf8.encode destination ++ [0]⟩
    have hfree : Occurrence.phase id c.past = none := by
      rw [← ht.phase, phase?, StreamTable.find?_probe ha, Option.map_none]
    obtain ⟨o, ho, hpast⟩ := past_send request deadline entered
    have hasked : Occurrence.Proper (final (entered.send request deadline)).past := by
      rw [hpast]
      exact h.asked hfree ho
    have htold : (final (entered.send request deadline)).Told := by
      have hin : entered.Told := ht.step (.entered ha)
      have hfound : entered.table.find? id = some .fresh := by
        simp only [entered, enter, note, StreamTable.find?_insert, if_true]
      exact (steps_send (c := entered) (fun _ => .asked _ hfound) deadline).kept
        (fun _ _ => Told.step) hin
    split
    · next hr =>
      rw [hr] at hasked htold
      exact proper_release htold hasked id
    · next hr =>
      rw [hr] at hasked
      exact hasked

theorem proper_heard {c : Connection} (h : Occurrence.Proper c.past) (m : Message) (ch : Channel) :
    Occurrence.Proper (c.hear m ch).past :=
  h.aside rfl (fun _ => ⟨nofun, nofun⟩)

theorem proper_takeIn {c : Connection} (ht : c.Told) (h : Occurrence.Proper c.past)
    (deadline : Deadline) : Occurrence.Proper (final (c.takeIn deadline)).past := by
  unfold takeIn
  split
  · split
    · exact h
    · exact h
  · next m ch _ =>
    split
    · exact proper_heard h m ch
    · exact proper_heard h m ch
    · next table ack hr =>
      obtain ⟨s, peer, hs, hopen, hw, _, rfl⟩ :=
        StreamTable.due_of_route (ht.introduced.met m.arg1) hr
      obtain ⟨o, ho, hpast⟩ :=
        past_acknowledge ⟨.okay, m.arg1, peer, []⟩ deadline { c.hear m ch with table := table }
      have hstill : Occurrence.phase m.arg1 (c.hear m ch).past = some .opened := by
        change Occurrence.leads m.arg1 (.arrived m (c.phase? m.arg1))
          (Occurrence.phase m.arg1 c.past) = _
        rw [Occurrence.leads, if_pos rfl, ← ht.phase, phase?, hs, Option.map_some, Option.map_some,
          hopen, hw]
        rfl
      rw [final_ok, hpast]
      exact (proper_heard h m ch).used hstill ho (.inr rfl)

theorem proper_sendPiece {c : Connection} (ht : c.Told) (h : Occurrence.Proper c.past)
    (id : UInt32) (deadline : Deadline) (piece : Bytes) :
    Occurrence.Proper (final (c.sendPiece id deadline piece)).past := by
  unfold sendPiece
  split
  · exact h
  · next s hs =>
    split
    · exact h
    · next peer hw =>
      have hopen : Occurrence.phase id c.past = some .opened := by
        rw [← ht.phase, phase?, hs, Option.map_some, (StreamState.of_writable hw).1]
      obtain ⟨o, ho, hpast⟩ := past_send ⟨.write, id, peer, piece⟩ deadline c
      have hused : Occurrence.Proper (o :: c.past) := h.used hopen ho (.inl rfl)
      rw [← hpast] at hused
      split
      · next hr =>
        rw [hr] at hused
        exact hused
      · next hr =>
        rw [hr] at hused
        exact hused

/-- What every move keeps. -/
structure Living (c : Connection) : Prop where
  told : c.Told
  proper : Occurrence.Proper c.past

theorem Living.move {c after : Connection} (hm : c.Move after) (h : c.Living) : after.Living where
  told := h.told.move hm
  proper := by
    have hc := h.proper
    cases hm with
    | outside link hp => exact hc
    | ask destination deadline => exact proper_ask h.told hc destination deadline
    | takeIn deadline => exact proper_takeIn h.told hc deadline
    | sendPiece id deadline piece => exact proper_sendPiece h.told hc id deadline piece
    | take id length bytes hi =>
      obtain ⟨s, s', _, _, rfl⟩ := inspect_ok hi
      exact hc.aside (o := .taken id bytes) rfl (fun _ => ⟨nofun, nofun⟩)
    | release id => exact proper_release h.told hc id

end Connection

/-- After every run: between two entries of an id, what is tried on its stream is the request, then
data and acknowledgements, then at most one close. A close stands directly behind the removal of an
open stream, always and nowhere else, and nothing is tried behind a close by the device. -/
theorem stream_lifetimes (channel : Channel) (info : DeviceInfo) (settings : HostSettings)
    (events : List Event) :
    let c := ((Client.fresh channel info settings).after events).connection
    c.wire = channel.link.wire ++ Part.join c.writes ∧
    (∀ id, c.phase? id = Occurrence.phase id c.past) ∧
    (∀ id later life earlier, c.past = later ++ (life ++ .entered id :: earlier) →
      .entered id ∉ life → (later = [] ∨ ∃ more, later = more ++ [.entered id]) →
      Occurrence.IsLife id (life.filterMap (Occurrence.triedOn id)).reverse) ∧
    (∀ later o earlier w, c.past = later ++ o :: earlier → o.tried = some w → w.command = .close →
      ∃ before, earlier = .removed w.arg0 :: before ∧
        Occurrence.phase w.arg0 before = some .opened ∧
        Occurrence.peer w.arg0 before = some w.arg1) ∧
    (∀ later id earlier, c.past = later ++ .removed id :: earlier →
      Occurrence.phase id earlier = some .opened → ∃ between o whom, later = between ++ [o] ∧
        Occurrence.peer id earlier = some whom ∧ o.tried = some ⟨.close, id, whom, []⟩) ∧
    (∀ later m heard earlier, c.past = later ++ .arrived m heard :: earlier →
      m.command = .close → .entered m.arg1 ∉ later →
      ∀ o ∈ later, ∀ w, o.tried = some w → w.arg0 ≠ m.arg1) ∧
    ∀ handle s, handle.released = false → c.table.find? handle.localId = some s →
      let after := (c.closeStream handle).2
      after.table.find? handle.localId = none ∧
      if s.phase = .opened then ∃ o whom, s.peer = some whom ∧
        o.tried = some ⟨.close, handle.localId, whom, []⟩ ∧
        after.past = o :: .removed handle.localId :: c.past
      else after.past = .removed handle.localId :: c.past ∧ after.channel = c.channel := by
  intro c
  have hc : c.Living := Client.connection_after (fun _ _ => Connection.Living.move)
    ⟨Connection.told_fresh channel info settings, .nil⟩ events
  refine ⟨?_, hc.told.phase, ?_, ?_, ?_, ?_, ?_⟩
  · obtain ⟨lately, hpast, hwire, _⟩ :=
      ((Client.fresh channel info settings).after_moves events).wrote
    have hall : c.past = lately := hpast.trans (List.append_nil _)
    rw [Connection.writes, hall]
    exact hwire
  · intro id later life earlier hpast hnew hlast
    -- Cut off in front of the next entry, the record is still a proper history.
    have hproper : Occurrence.Proper (life ++ .entered id :: earlier) := by
      rcases hlast with rfl | ⟨more, rfl⟩
      · rw [← List.nil_append (life ++ _), ← hpast]
        exact hc.proper
      · rw [List.append_assoc] at hpast
        exact hc.proper.of_entered hpast
    have hsaid : Occurrence.said id (life ++ .entered id :: earlier) =
        (life.filterMap (Occurrence.triedOn id)).reverse := by
      rw [Occurrence.said, Occurrence.since_append hnew, Occurrence.since_cons, if_pos rfl,
        List.append_nil]
    rw [← hsaid]
    exact (hproper.life (List.mem_append_right life (List.mem_cons_self ..))).1
  · intro later o earlier w hpast ho hw
    cases hc.proper.turn hpast ho with
    | asks hstart =>
      rw [hstart] at hw
      cases hw
    | uses hother _ =>
      rw [hw] at hother
      rcases hother with hwrite | hokay
      · cases hwrite
      · cases hokay
    | parts _ hp hwhom => exact ⟨_, rfl, hp, hwhom⟩
  · intro later id earlier hpast hopen
    exact hc.proper.farewell hpast hopen
  · intro later m heard earlier hpast hm hnew o ho w hw
    exact hc.proper.silent hpast hm hnew ho hw
  · intro handle s hlive hs after
    have hafter : after = c.release handle.localId := by
      simp only [after, Connection.closeStream, hlive, Bool.false_eq_true, if_false]
    have hgone : (c.remove handle.localId).table.find? handle.localId = none := by
      rw [Connection.remove, Connection.note, StreamTable.find?_erase, if_pos rfl]
    rw [hafter]
    rcases Connection.release_cases hc.told.introduced hs with ⟨hp, hr⟩ | ⟨hp, whom, hwhom, hr⟩
    · rw [hr, if_neg hp]
      exact ⟨hgone, rfl, rfl⟩
    · obtain ⟨o, ho, hpast⟩ := Connection.past_send ⟨.close, handle.localId, whom, []⟩
        ((c.remove handle.localId).deadline c.settings.closeTimeout) (c.remove handle.localId)
      rw [hr, if_pos hp]
      refine ⟨?_, o, whom, hwhom, ho, hpast⟩
      rw [(Connection.tell_weight _ _ _).2.1]
      exact hgone

/-- Two streams, the first of which the device closes while the second is read. Closing it says
nothing; dropping the second says so. -/
theorem stream_lifetimes_two :
    let link : Link := { inbound := [.chunk (Message.encode ⟨.okay, 101, 1, []⟩),
      .chunk (Message.encode ⟨.okay, 102, 2, []⟩), .chunk (Message.encode ⟨.close, 101, 1, []⟩),
      .chunk (Message.encode ⟨.write, 102, 2, [97]⟩)] }
    let start := Client.fresh { link := link } ⟨"device", "S", "", 0, 4096⟩ {}
    let reading : List Event := [.call (.openStream "a" 10), .call (.openStream "b" 10),
      .call (.read 1 1 10)]
    let c := (start.after (reading ++ [.call (.close 0), .call (.drop 1)])).connection
    let before := (start.after reading).connection
    let life := c.past.take 9
    let late := c.past.take 6
    Occurrence.IsLife 2 (life.filterMap (Occurrence.triedOn 2)).reverse ∧
    (∃ between o, [Occurrence.sent ⟨.close, 2, 102, []⟩] = between ++ [o] ∧
      o.tried = some ⟨.close, 2, 102, []⟩) ∧
    (∃ rest, c.past.drop 1 = .removed 2 :: rest) ∧
    (∀ o ∈ late, ∀ w, o.tried = some w → w.arg0 ≠ 1) ∧
    (before.closeStream ⟨"a", 1, false⟩).2.channel = before.channel ∧
    ∃ o, o.tried = some ⟨.close, 2, 102, []⟩ ∧
      (before.closeStream ⟨"b", 2, false⟩).2.past = o :: .removed 2 :: before.past := by
  intro link start reading c before life late
  obtain ⟨_, _, hlife, hclose, hremoved, hsilent, _⟩ :=
    stream_lifetimes { link := link } ⟨"device", "S", "", 0, 4096⟩ {}
      (reading ++ [.call (.close 0), .call (.drop 1)])
  obtain ⟨_, _, _, _, _, _, hrelease⟩ :=
    stream_lifetimes { link := link } ⟨"device", "S", "", 0, 4096⟩ {} reading
  refine ⟨?_, ?_, ?_, ?_, ?_, ?_⟩
  · exact hlife 2 [] life (c.past.drop 10) (by decide +kernel) (by decide +kernel) (.inl rfl)
  · obtain ⟨between, o, whom, hlast, hwhom, ho⟩ :=
      hremoved [.sent ⟨.close, 2, 102, []⟩] 2 (c.past.drop 2) (by decide +kernel) (by decide +kernel)
    have hpeer : Occurrence.peer 2 (c.past.drop 2) = some 102 := by decide +kernel
    cases hwhom.symm.trans hpeer
    exact ⟨between, o, hlast, ho⟩
  · obtain ⟨rest, hrest, _⟩ := hclose [] (.sent ⟨.close, 2, 102, []⟩) (c.past.drop 1) _
      (by decide +kernel) rfl rfl
    exact ⟨rest, hrest⟩
  · exact hsilent late ⟨.close, 101, 1, []⟩ (some .opened) (c.past.drop 7) (by decide +kernel) rfl
      (by decide +kernel)
  · have hs : before.table.find? 1 = some ⟨some 101, .closed, false, [], none⟩ := by
      decide +kernel
    exact (hrelease ⟨"a", 1, false⟩ _ rfl hs).2.2
  · have hs : before.table.find? 2 = some ⟨some 102, .opened, false, [], none⟩ := by
      decide +kernel
    obtain ⟨o, whom, hwhom, ho, hpast⟩ := (hrelease ⟨"b", 2, false⟩ _ rfl hs).2
    cases hwhom
    exact ⟨o, ho, hpast⟩

end DroidHost
