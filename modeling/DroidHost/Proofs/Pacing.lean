import DroidHost.Proofs.Delivery
import DroidHost.Proofs.Steps

/-! One write at a time. The flag of an open stream says what the record says: whether the device
owes an answer. -/
namespace DroidHost

namespace Occurrence

/-- The request to open the stream, or data, went out whole. -/
def asks (id : UInt32) : Occurrence → Bool
  | sent m => (m.command = .start ∨ m.command = .write) ∧ m.arg0 = id
  | _ => false

/-- An acknowledgement came from the peer. -/
def answers (id peer : UInt32) : Occurrence → Bool
  | arrived m (some _) => m.command = .okay ∧ m.arg0 = peer ∧ m.arg1 = id
  | _ => false

/-- Of what happened, latest first, the last thing that was asked has not been answered. -/
def owed (id peer : UInt32) (past : List Occurrence) : Bool :=
  (past.find? fun o => o.asks id || o.answers id peer).any (asks id)

theorem owed_cons_of_asks {id peer : UInt32} {o : Occurrence} (h : o.asks id = true)
    (past : List Occurrence) : owed id peer (o :: past) = true := by
  rw [owed, List.find?_cons_of_pos (by rw [h, Bool.true_or]), Option.any_some, h]

theorem owed_cons_of_answers {id peer : UInt32} {o : Occurrence} (ha : o.asks id = false)
    (h : o.answers id peer = true) (past : List Occurrence) :
    owed id peer (o :: past) = false := by
  rw [owed, List.find?_cons_of_pos (by rw [h, Bool.or_true]), Option.any_some, ha]

theorem owed_cons_of_neither {id peer : UInt32} {o : Occurrence} (ha : o.asks id = false)
    (h : o.answers id peer = false) (past : List Occurrence) :
    owed id peer (o :: past) = owed id peer past := by
  rw [owed, List.find?_cons_of_neg (by rw [ha, h]; exact Bool.false_ne_true), owed]

theorem answer_of_not_owed {id peer : UInt32} {o : Occurrence} (ho : o.asks id = true)
    {between rest : List Occurrence} (h : owed id peer (between ++ o :: rest) = false) :
    ∃ a ∈ between, a.answers id peer = true := by
  induction between with
  | nil =>
    rw [List.nil_append, owed_cons_of_asks ho] at h
    cases h
  | cons b between ih =>
    rw [List.cons_append] at h
    by_cases ha : b.answers id peer = true
    · exact ⟨b, List.mem_cons_self .., ha⟩
    · have hb : b.asks id = false := by
        rw [Bool.eq_false_iff]
        intro hb
        rw [owed_cons_of_asks hb] at h
        cases h
      rw [owed_cons_of_neither hb (Bool.eq_false_iff.mpr ha)] at h
      obtain ⟨a, hmem, hans⟩ := ih h
      exact ⟨a, List.mem_cons_of_mem _ hmem, hans⟩

theorem since_cons (id : UInt32) (o : Occurrence) (past : List Occurrence) :
    since id (o :: past) = if o = entered id then [] else o :: since id past := by
  unfold since
  by_cases h : o = entered id
  · rw [if_pos h, List.takeWhile_cons_of_neg (by simpa using h)]
  · rw [if_neg h, List.takeWhile_cons_of_pos (by simpa using h)]

theorem since_append {id : UInt32} {between : List Occurrence} (h : entered id ∉ between)
    (rest : List Occurrence) : since id (between ++ rest) = between ++ since id rest := by
  apply List.takeWhile_append_of_pos
  intro o ho
  apply decide_eq_true
  rintro rfl
  exact h ho

/-- Between any two pieces of data to the same peer there is an answer from it. The list is latest
first. -/
def Alternates (past : List Occurrence) : Prop :=
  ∀ later m' between m earlier, past = later ++ sent m' :: (between ++ sent m :: earlier) →
    m.command = .write → m'.command = .write → m'.arg0 = m.arg0 →
    entered m.arg0 ∉ between →
    m'.arg1 = m.arg1 ∧ ∃ a ∈ between, a.answers m.arg0 m.arg1 = true

theorem Alternates.cons {past : List Occurrence} (h : Alternates past) {o : Occurrence}
    (ho : ∀ m', o = sent m' → m'.command = .write →
      ∀ between m earlier, past = between ++ sent m :: earlier → m.command = .write →
      m'.arg0 = m.arg0 → entered m.arg0 ∉ between →
      m'.arg1 = m.arg1 ∧ ∃ a ∈ between, a.answers m.arg0 m.arg1 = true) :
    Alternates (o :: past) := by
  intro later m' between m earlier hpast hm hm' hid hnew
  cases later with
  | nil =>
    obtain ⟨rfl, hrest⟩ := List.cons.inj hpast
    exact ho m' rfl hm' between m earlier hrest hm hid hnew
  | cons l later =>
    obtain ⟨_, hrest⟩ := List.cons.inj hpast
    exact h later m' between m earlier hrest hm hm' hid hnew

end Occurrence

namespace StreamState

theorem of_writable {id peer : UInt32} {s : StreamState} (h : s.writable id = .ok peer) :
    s.phase = .opened ∧ s.peer = some peer ∧ s.awaiting = false := by
  unfold writable at h
  split at h
  · cases h
  · split at h
    · cases h
    · next hphase hpeer =>
      split at h
      · cases h
      · next ha =>
        cases h
        exact ⟨hphase, hpeer, Bool.eq_false_iff.mpr ha⟩
    · cases h

theorem supplied_kept (s : StreamState) (id : UInt32) (bytes : Bytes) :
    (s.supplied id bytes).1.peer = s.peer ∧ (s.supplied id bytes).1.phase = s.phase ∧
      (s.supplied id bytes).1.awaiting = s.awaiting := by
  unfold supplied
  split
  · exact ⟨rfl, rfl, rfl⟩
  · exact ⟨rfl, rfl, rfl⟩
  · exact ⟨rfl, rfl, rfl⟩

theorem peer_apply {s : StreamState} {peer : UInt32} (h : s.peer = some peer) (id : UInt32)
    (m : Message) : (s.apply id m).1.peer = some peer := by
  unfold apply
  split
  · unfold acknowledged
    split
    · exact h
    · next hany =>
      have hsender : m.arg0 = peer := by
        rw [h, Option.any_some, decide_eq_true_eq, ne_eq, Decidable.not_not] at hany
        exact hany.symm
      split
      · exact congrArg some hsender
      · exact congrArg some hsender
  · change some (s.peer.getD m.arg0) = some peer
    rw [h, Option.getD_some]
  · exact (s.supplied_kept id m.payload).1.trans h
  · exact h

theorem awaiting_apply {s : StreamState} {id peer : UInt32} {m : Message}
    (hphase : (s.apply id m).1.phase = .opened) (hpeer : (s.apply id m).1.peer = some peer) :
    if m.command = .okay ∧ m.arg0 = peer then (s.apply id m).1.awaiting = false
    else s.phase = .opened ∧ s.peer = some peer ∧ (s.apply id m).1.awaiting = s.awaiting := by
  unfold apply at hphase hpeer ⊢
  cases hc : m.command with
  | okay =>
    rw [hc] at hphase hpeer
    change (s.acknowledged m.arg0).phase = .opened at hphase
    change (s.acknowledged m.arg0).peer = some peer at hpeer
    change if Command.okay = .okay ∧ m.arg0 = peer then (s.acknowledged m.arg0).awaiting = false
      else s.phase = .opened ∧ s.peer = some peer ∧
        (s.acknowledged m.arg0).awaiting = s.awaiting
    unfold acknowledged at hphase hpeer ⊢
    by_cases hother : s.peer.any (· ≠ m.arg0) = true
    · rw [if_pos hother] at hphase hpeer ⊢
      have hp : s.peer = some peer := hpeer
      have hne : m.arg0 ≠ peer := by
        rw [hp, Option.any_some, decide_eq_true_eq] at hother
        exact hother.symm
      rw [if_neg (fun h => hne h.2)]
      exact ⟨hphase, hp, rfl⟩
    · rw [if_neg hother] at hpeer ⊢
      by_cases ha : s.awaiting = true
      · rw [if_pos ha] at hpeer ⊢
        rw [if_pos ⟨rfl, Option.some.inj hpeer⟩]
      · rw [if_neg ha] at hpeer ⊢
        rw [if_pos ⟨rfl, Option.some.inj hpeer⟩]
        exact Bool.eq_false_iff.mpr ha
  | close =>
    rw [hc] at hphase
    cases hphase
  | write =>
    rw [hc] at hphase hpeer
    rw [if_neg (by simp only [reduceCtorEq, false_and, not_false_eq_true])]
    change (s.supplied id m.payload).1.phase = .opened at hphase
    change (s.supplied id m.payload).1.peer = some peer at hpeer
    obtain ⟨hp, hq, ha⟩ := s.supplied_kept id m.payload
    rw [hp] at hpeer
    rw [hq] at hphase
    exact ⟨hphase, hpeer, ha⟩
  | sync | connect | auth | start =>
    rw [hc] at hphase hpeer
    rw [if_neg (by simp only [reduceCtorEq, false_and, not_false_eq_true])]
    exact ⟨hphase, hpeer, rfl⟩

end StreamState

namespace Connection

def owed (c : Connection) (id peer : UInt32) : Bool :=
  Occurrence.owed id peer (Occurrence.since id c.past)

/-- Every open stream waits for an answer exactly if one is owed, and none has sent data while it
waited. -/
structure Paced (c : Connection) : Prop where
  met : ∀ id s, c.table.find? id = some s → s.Met
  addressed : ∀ id s, c.table.find? id = some s → ∀ m, .sent m ∈ Occurrence.since id c.past →
    m.command = .write → m.arg0 = id → s.peer = some m.arg1
  awaited : ∀ id s peer, c.table.find? id = some s → s.phase = .opened → s.peer = some peer →
    s.awaiting = c.owed id peer
  alternates : Occurrence.Alternates c.past

theorem paced_fresh (channel : Channel) (info : DeviceInfo) (settings : HostSettings) :
    (Client.fresh channel info settings).connection.Paced where
  met := by
    intro id s h
    cases h
  addressed := by
    intro id s h
    cases h
  awaited := by
    intro id s peer h
    cases h
  alternates := by
    intro later m' between m earlier h
    cases later <;> cases h

theorem Paced.of_table {c after : Connection} (h : c.Paced) (hp : after.past = c.past)
    (ht : ∀ id s', after.table.find? id = some s' → ∃ s, c.table.find? id = some s ∧
      s'.peer = s.peer ∧ s'.phase = s.phase ∧ s'.awaiting = s.awaiting) : after.Paced where
  met := by
    intro id s' hs'
    obtain ⟨s, hs, hpeer, hphase, _⟩ := ht id s' hs'
    intro hopen
    rw [hpeer]
    exact h.met id s hs (hphase ▸ hopen)
  addressed := by
    intro id s' hs' m hm
    obtain ⟨s, hs, hpeer, _, _⟩ := ht id s' hs'
    rw [hp] at hm
    rw [hpeer]
    exact h.addressed id s hs m hm
  awaited := by
    intro id s' peer hs' hopen hknown
    obtain ⟨s, hs, hpeer, hphase, hawaiting⟩ := ht id s' hs'
    rw [hawaiting, owed, hp]
    exact h.awaited id s peer hs (hphase ▸ hopen) (hpeer ▸ hknown)
  alternates := by
    rw [hp]
    exact h.alternates

theorem Paced.setStream {c : Connection} (h : c.Paced) {id : UInt32} {s s' : StreamState}
    (hs : c.table.find? id = some s) (hpeer : s'.peer = s.peer) (hphase : s'.phase = s.phase)
    (hawaiting : s'.awaiting = s.awaiting) : (c.setStream id s').Paced := by
  refine Paced.of_table h rfl ?_
  intro k t ht
  rw [Connection.setStream, StreamTable.find?_set] at ht
  split at ht
  · next hk =>
    rw [hs, Option.map_some, Option.some.injEq] at ht
    exact ⟨s, hk ▸ hs, ht ▸ hpeer, ht ▸ hphase, ht ▸ hawaiting⟩
  · exact ⟨t, ht, rfl, rfl, rfl⟩

theorem Paced.searched {c : Connection} (h : c.Paced) {found : Option UInt32} {table : StreamTable}
    (ha : c.table.allocate c.settings.streamIdLimit = (found, table)) :
    Paced { c with table := table } := by
  refine Paced.of_table h rfl ?_
  intro id s hs
  rw [StreamTable.find?_of_allocate ha] at hs
  exact ⟨s, hs, rfl, rfl, rfl⟩

theorem Paced.note {c : Connection} (h : c.Paced) {o : Occurrence}
    (hentered : ∀ id, o ≠ .entered id) (hdata : ∀ m, o = .sent m → m.command ≠ .write)
    (hquiet : ∀ id s peer, c.table.find? id = some s → s.phase = .opened → s.peer = some peer →
      o.asks id = false ∧ o.answers id peer = false) : (c.note o).Paced where
  met := h.met
  addressed := by
    intro id s hs m hm hw hid
    change .sent m ∈ Occurrence.since id (o :: c.past) at hm
    rw [Occurrence.since_cons, if_neg (hentered id), List.mem_cons] at hm
    rcases hm with hm | hm
    · exact absurd hw (hdata m hm.symm)
    · exact h.addressed id s hs m hm hw hid
  awaited := by
    intro id s peer hs hopen hknown
    obtain ⟨hasks, hanswers⟩ := hquiet id s peer hs hopen hknown
    change s.awaiting = Occurrence.owed id peer (Occurrence.since id (o :: c.past))
    rw [Occurrence.since_cons, if_neg (hentered id),
      Occurrence.owed_cons_of_neither hasks hanswers]
    exact h.awaited id s peer hs hopen hknown
  alternates := by
    apply h.alternates.cons
    intro m' hm' hw
    exact absurd hw (hdata m' hm')

theorem Paced.note_sent {c : Connection} (h : c.Paced) {m : Message}
    (hm : ∀ id s, c.table.find? id = some s → s.phase = .opened → m.arg0 = id →
      m.command ≠ .start) (hdata : m.command ≠ .write) : (c.note (.sent m)).Paced := by
  refine h.note nofun ?_ ?_
  · intro m' hm'
    rw [← Occurrence.sent.inj hm']
    exact hdata
  · intro id s peer hs hopen _
    refine ⟨?_, rfl⟩
    apply decide_eq_false
    rintro ⟨hstart | hwrite, hid⟩
    · exact hm id s hs hopen hid hstart
    · exact hdata hwrite

theorem Paced.enter {c : Connection} (h : c.Paced) (id : UInt32) : (c.enter id).Paced where
  met := by
    intro k s hs
    rw [Connection.enter, Connection.note, StreamTable.find?_insert] at hs
    split at hs
    · cases hs
      exact StreamState.met_fresh
    · exact h.met k s hs
  addressed := by
    intro k s hs m hm hw hid
    change .sent m ∈ Occurrence.since k (.entered id :: c.past) at hm
    rw [Occurrence.since_cons] at hm
    rw [Connection.enter, Connection.note, StreamTable.find?_insert] at hs
    split at hm
    · cases hm
    · next hne =>
      have hk : ¬ k = id := fun hk => hne (congrArg Occurrence.entered hk.symm)
      rw [if_neg hk] at hs
      rcases List.mem_cons.mp hm with hm | hm
      · cases hm
      · exact h.addressed k s hs m hm hw hid
  awaited := by
    intro k s peer hs hopen hknown
    change s.awaiting = Occurrence.owed k peer (Occurrence.since k (.entered id :: c.past))
    rw [Connection.enter, Connection.note, StreamTable.find?_insert] at hs
    by_cases hk : k = id
    · rw [if_pos hk] at hs
      cases hs
      cases hopen
    · have hne : Occurrence.entered id ≠ .entered k :=
        fun he => hk (Occurrence.entered.inj he).symm
      rw [if_neg hk] at hs
      rw [Occurrence.since_cons, if_neg hne, Occurrence.owed_cons_of_neither rfl rfl]
      exact h.awaited k s peer hs hopen hknown
  alternates := by
    apply h.alternates.cons
    intro m' hm'
    cases hm'

/-- The heart of the matter: an acknowledgement clears the flag if and only if it counts as an
answer on record. -/
theorem Paced.route {c : Connection} (h : c.Paced) {m : Message} {table : StreamTable}
    {ack : Option Message} (hr : c.table.route m = .ok (table, ack)) :
    Paced { c.hear m c.channel with table := table } := by
  unfold StreamTable.route at hr
  split at hr
  · split at hr
    · next s hs =>
      cases hr
      have halternates : Occurrence.Alternates
          (.arrived m ((c.table.find? m.arg1).map StreamState.phase) :: c.past) := by
        apply h.alternates.cons
        intro m' hm'
        cases hm'
      constructor
      · intro k t ht
        rw [StreamTable.find?_set] at ht
        split at ht
        · rw [hs, Option.map_some, Option.some.injEq] at ht
          exact ht ▸ StreamState.met_apply (h.met m.arg1 s hs) m.arg1 m
        · exact h.met k t ht
      · intro k t ht w hw hwrite hid
        change .sent w ∈ Occurrence.since k (.arrived m _ :: c.past) at hw
        rw [Occurrence.since_cons, if_neg nofun] at hw
        have hw' : .sent w ∈ Occurrence.since k c.past := by
          rcases List.mem_cons.mp hw with hw | hw
          · cases hw
          · exact hw
        rw [StreamTable.find?_set] at ht
        split at ht
        · next hk =>
          rw [hs, Option.map_some, Option.some.injEq] at ht
          rw [← ht]
          exact StreamState.peer_apply (h.addressed k s (hk ▸ hs) w hw' hwrite hid) m.arg1 m
        · exact h.addressed k t ht w hw' hwrite hid
      · intro k t peer ht hopen hknown
        change t.awaiting = Occurrence.owed k peer (Occurrence.since k
          (.arrived m ((c.table.find? m.arg1).map StreamState.phase) :: c.past))
        rw [Occurrence.since_cons, if_neg nofun, hs, Option.map_some]
        rw [StreamTable.find?_set] at ht
        split at ht
        · next hk =>
          subst hk
          rw [hs, Option.map_some, Option.some.injEq] at ht
          subst ht
          have hflag := StreamState.awaiting_apply hopen hknown
          split at hflag
          · next hokay =>
            rw [hflag, Occurrence.owed_cons_of_answers rfl]
            exact decide_eq_true ⟨hokay.1, hokay.2, rfl⟩
          · next hother =>
            obtain ⟨hwas, hpeer, hsame⟩ := hflag
            rw [hsame, Occurrence.owed_cons_of_neither rfl]
            · exact h.awaited m.arg1 s peer hs hwas hpeer
            · exact decide_eq_false (fun ha => hother ⟨ha.1, ha.2.1⟩)
        · next hk =>
          rw [Occurrence.owed_cons_of_neither rfl]
          · exact h.awaited k t peer ht hopen hknown
          · exact decide_eq_false (fun ha => hk ha.2.2.symm)
      · exact halternates
    · next hs =>
      cases hr
      have hnote : (c.note (.arrived m none)).Paced :=
        h.note nofun nofun (fun _ _ _ _ _ _ => ⟨rfl, rfl⟩)
      rw [hear, hs]
      exact hnote
  · cases hr

/-- Data go out on a stream that waits for nothing, so all that went out before is answered. -/
theorem Paced.write {c : Connection} (h : c.Paced) {id peer : UInt32} {s : StreamState}
    (piece : Bytes) (hs : c.table.find? id = some s) (hw : s.writable id = .ok peer) :
    ((c.setStream id { s with awaiting := true }).note
      (.sent ⟨.write, id, peer, piece⟩)).Paced := by
  obtain ⟨hopen, hpeer, hidle⟩ := StreamState.of_writable hw
  have hquit : c.owed id peer = false := by rw [← h.awaited id s peer hs hopen hpeer, hidle]
  constructor
  · intro k t ht
    rw [Connection.note, Connection.setStream, StreamTable.find?_set] at ht
    split at ht
    · rw [hs, Option.map_some, Option.some.injEq] at ht
      exact ht ▸ h.met id s hs
    · exact h.met k t ht
  · intro k t ht m hm hwrite hid
    change .sent m ∈ Occurrence.since k (.sent ⟨.write, id, peer, piece⟩ :: c.past) at hm
    rw [Occurrence.since_cons, if_neg (by rintro ⟨⟩)] at hm
    rw [Connection.note, Connection.setStream, StreamTable.find?_set] at ht
    split at ht
    · next hk =>
      rw [hs, Option.map_some, Option.some.injEq] at ht
      subst ht
      rcases List.mem_cons.mp hm with hm | hm
      · cases hm
        exact hpeer
      · exact h.addressed k s (hk ▸ hs) m hm hwrite hid
    · next hk =>
      rcases List.mem_cons.mp hm with hm | hm
      · cases hm
        exact absurd hid.symm hk
      · exact h.addressed k t ht m hm hwrite hid
  · intro k t peer' ht hopen' hknown
    change t.awaiting = Occurrence.owed k peer'
      (Occurrence.since k (.sent ⟨.write, id, peer, piece⟩ :: c.past))
    rw [Occurrence.since_cons, if_neg (by rintro ⟨⟩)]
    rw [Connection.note, Connection.setStream, StreamTable.find?_set] at ht
    split at ht
    · next hk =>
      rw [hs, Option.map_some, Option.some.injEq] at ht
      rw [← ht, Occurrence.owed_cons_of_asks]
      exact decide_eq_true ⟨.inr rfl, hk.symm⟩
    · next hk =>
      rw [Occurrence.owed_cons_of_neither _ rfl]
      · exact h.awaited k t peer' ht hopen' hknown
      · exact decide_eq_false (fun ha => hk ha.2.symm)
  · apply h.alternates.cons
    rintro m' hm' _ between m earlier hpast hwrite hid hnew
    cases hm'
    change id = m.arg0 at hid
    subst hid
    -- The earlier data belong to the same stream, and nothing is owed for them.
    have hsince : Occurrence.since m.arg0 c.past =
        between ++ .sent m :: Occurrence.since m.arg0 earlier := by
      rw [hpast, Occurrence.since_append hnew, Occurrence.since_cons, if_neg (by rintro ⟨⟩)]
    have hmem : .sent m ∈ Occurrence.since m.arg0 c.past := by
      rw [hsince]
      exact List.mem_append_right _ (List.mem_cons_self ..)
    have hsame : s.peer = some m.arg1 := h.addressed m.arg0 s hs m hmem hwrite rfl
    have hto : peer = m.arg1 := Option.some.inj (hpeer.symm.trans hsame)
    have hasks : Occurrence.asks m.arg0 (.sent m) = true := decide_eq_true ⟨.inr hwrite, rfl⟩
    rw [owed, hsince, hto] at hquit
    exact ⟨hto, Occurrence.answer_of_not_owed hasks hquit⟩

theorem Paced.step {c after : Connection} (hm : c.Step after) (h : c.Paced) : after.Paced := by
  cases hm with
  | channel ch => exact h.of_table rfl (fun id s hs => ⟨s, hs, rfl, rfl, rfl⟩)
  | searched ha => exact h.searched ha
  | @entered id table ha => exact (h.searched ha).enter id
  | @asked id payload hs =>
    refine h.note_sent ?_ nofun
    intro k s hk hopen hid
    change id = k at hid
    rw [← hid, hs] at hk
    cases hk
    cases hopen
  | unsent m begun => exact h.note nofun nofun (fun _ _ _ _ _ _ => ⟨rfl, rfl⟩)
  | routed hr => exact h.route hr
  | @strayed m e hr =>
    refine h.note nofun nofun ?_
    intro id s peer _ _ _
    refine ⟨rfl, ?_⟩
    cases hf : c.table.find? m.arg1 with
    | none => rfl
    | some t =>
      apply decide_eq_false
      rintro ⟨hc, _⟩
      rw [StreamTable.route, if_pos (.inl hc), hf] at hr
      cases hr
  | acknowledged id peer => exact h.note_sent (fun _ _ _ _ _ => nofun) nofun
  | spoilt id fault =>
    unfold spoil
    split
    · next s hs => exact h.setStream hs rfl rfl rfl
    · exact h
  | wrote piece hs hp => exact h.write piece hs hp
  | @took id length bytes s s' hs hr =>
    obtain ⟨_, he, _, _⟩ := StreamState.supplying_ready hr
    have hset : (c.setStream id s').Paced :=
      h.setStream hs (by rw [he]) (by rw [he]) (by rw [he])
    exact hset.note nofun nofun (fun _ _ _ _ _ _ => ⟨rfl, rfl⟩)
  | removed id =>
    have ht : Paced { c with table := c.table.erase id } := by
      refine Paced.of_table h rfl ?_
      intro k s hs
      rw [StreamTable.find?_erase] at hs
      split at hs
      · cases hs
      · exact ⟨s, hs, rfl, rfl, rfl⟩
    exact ht.note nofun nofun (fun _ _ _ _ _ _ => ⟨rfl, rfl⟩)
  | parted id peer => exact h.note_sent (fun _ _ _ _ _ => nofun) nofun

theorem writePiece_of_awaiting {c : Connection} {id peer : UInt32} {s : StreamState}
    (hs : c.table.find? id = some s) (hopen : s.phase = .opened) (hpeer : s.peer = some peer)
    (hwaits : s.awaiting = true) (deadline : Deadline) (piece : Bytes) :
    c.writePiece id deadline piece =
      .error (.protocol (s.fault.elim (.writeUnresolved id) (.stream id))) c := by
  have hrefused : s.writable id =
      .error (.protocol (s.fault.elim (.writeUnresolved id) (.stream id))) := by
    rw [StreamState.writable]
    cases s.fault with
    | some fault => rfl
    | none =>
      simp only [hopen, hpeer, hwaits, if_true]
      rfl
  have hsend : c.sendPiece id deadline piece =
      .error (.protocol (s.fault.elim (.writeUnresolved id) (.stream id))) c := by
    simp only [sendPiece, hs, hrefused]
  rw [writePiece, hsend]

theorem write_of_writePiece {c : Connection} {id : UInt32} {e : BridgeError}
    (h : ∀ deadline piece, c.writePiece id deadline piece = .error e c) {bytes : Bytes}
    (hb : bytes ≠ []) (budget : Nat) : c.write id bytes budget = .error e c := by
  cases bytes with
  | nil => exact absurd rfl hb
  | cons b rest => rw [write, Bytes.pieces, writePieces, h]

end Connection

/-- After every run, an open stream waits for an acknowledgement exactly if its peer owes one. While
it does every write fails and nothing is written; so between two pieces of data there is an
acknowledgement. -/
theorem one_write_outstanding (channel : Channel) (info : DeviceInfo) (settings : HostSettings)
    (events : List Event) :
    let c := ((Client.fresh channel info settings).after events).connection
    (∀ id s, c.table.find? id = some s → s.phase = .opened →
      ∃ peer, s.peer = some peer ∧ s.awaiting = c.owed id peer ∧
        (c.owed id peer = true →
          (∀ deadline piece, c.writePiece id deadline piece =
            .error (.protocol (s.fault.elim (.writeUnresolved id) (.stream id))) c) ∧
          ∀ bytes budget, bytes ≠ [] → c.write id bytes budget =
            .error (.protocol (s.fault.elim (.writeUnresolved id) (.stream id))) c)) ∧
    ∀ later m' between m earlier,
      c.past = later ++ .sent m' :: (between ++ .sent m :: earlier) →
      m.command = .write → m'.command = .write → m'.arg0 = m.arg0 →
      .entered m.arg0 ∉ between →
      m'.arg1 = m.arg1 ∧ ∃ a ∈ between, a.answers m.arg0 m.arg1 = true := by
  intro c
  have hc : c.Paced := Client.connection_after_steps (fun _ _ => Connection.Paced.step)
    (Connection.paced_fresh channel info settings) events
  refine ⟨?_, hc.alternates⟩
  intro id s hs hopen
  obtain ⟨peer, hpeer⟩ := Option.isSome_iff_exists.mp (hc.met id s hs hopen)
  have hflag : s.awaiting = c.owed id peer := hc.awaited id s peer hs hopen hpeer
  refine ⟨peer, hpeer, hflag, ?_⟩
  intro howed
  have hpiece (deadline : Deadline) (piece : Bytes) := Connection.writePiece_of_awaiting hs hopen
    hpeer (hflag.trans howed) deadline piece
  exact ⟨hpiece, fun bytes budget hb => Connection.write_of_writePiece hpiece hb budget⟩

/-- A write on one stream runs out of time, and its acknowledgement comes while another is read
from. -/
theorem one_write_outstanding_late_answer :
    let message (m : Message) : Arrival := .chunk m.encode
    let link : Link := { inbound := [message ⟨.okay, 101, 1, []⟩, message ⟨.okay, 102, 2, []⟩] }
    let start := Client.fresh { link := link } ⟨"device", "S", "", 0, 4096⟩ {}
    let tried : List Event := [.call (.openStream "a" 10), .call (.openStream "b" 10),
      .call (.write 0 [7] 10)]
    let c := (start.after tried).connection
    let done : List Event := tried ++ [.supply [message ⟨.okay, 101, 1, []⟩],
      .call (.read 1 1 10), .supply [message ⟨.okay, 101, 1, []⟩], .call (.write 0 [8] 10)]
    let last := (start.after done).connection
    c.owed 1 101 = true ∧ c.write 1 [8] 10 = .error (.protocol (.writeUnresolved 1)) c ∧
      last.owed 1 101 = false ∧
      ∃ a ∈ ([.arrived ⟨.okay, 101, 1, []⟩ (some .opened)] : List Occurrence),
        a.answers 1 101 = true := by
  intro message link start tried c done last
  have hs : c.table.find? 1 = some ⟨some 101, .opened, true, [], none⟩ := by decide +kernel
  have howed : c.owed 1 101 = true := by decide +kernel
  obtain ⟨peer, hpeer, _, hrefused⟩ := (one_write_outstanding { link := link }
    ⟨"device", "S", "", 0, 4096⟩ {} tried).1 1 _ hs rfl
  cases hpeer
  have hpast : last.past = [.arrived ⟨.okay, 101, 1, []⟩ (some .opened)] ++
      .sent ⟨.write, 1, 101, [8]⟩ :: ([.arrived ⟨.okay, 101, 1, []⟩ (some .opened)] ++
        .sent ⟨.write, 1, 101, [7]⟩ :: c.past.tail) := by decide +kernel
  have hbetween := (one_write_outstanding { link := link } ⟨"device", "S", "", 0, 4096⟩ {} done).2
    _ _ _ _ _ hpast rfl rfl rfl (by decide)
  exact ⟨howed, (hrefused howed).2 [8] 10 (List.cons_ne_nil _ _), by decide +kernel, hbetween.2⟩

end DroidHost
