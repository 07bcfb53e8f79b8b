import DroidHost.Proofs.Pacing
import DroidHost.Proofs.Wire

/-! One acknowledgement for each piece of data, and none besides: data for an open stream stand in
the record nowhere but directly before the attempt to acknowledge them. -/
namespace DroidHost

namespace Occurrence

/-- Data came for a stream that was open. -/
def isDue : Occurrence → Bool
  | arrived m (some .opened) => m.command = .write
  | _ => false

def tried : Occurrence → Option Message
  | sent m => some m
  | unsent m _ => some m
  | _ => none

def isOkay (o : Occurrence) : Bool := o.tried.any (·.command = .okay)

/-- The sender of the answer that opens the stream with an id. -/
def opener (id : UInt32) : Occurrence → Option UInt32
  | arrived m (some .pending) => if m.command = .okay ∧ m.arg1 = id then some m.arg0 else none
  | _ => none

def peer (id : UInt32) (past : List Occurrence) : Option UInt32 :=
  (since id past).findSome? (opener id)

theorem peer_cons (id : UInt32) (o : Occurrence) (past : List Occurrence) :
    peer id (o :: past) = if o = entered id then none else (opener id o).or (peer id past) := by
  rw [peer, since_cons]
  split
  · rfl
  · rw [List.findSome?_cons, peer]
    cases opener id o <;> rfl

theorem peer_cons_same {id : UInt32} {o : Occurrence} (he : o ≠ entered id)
    (ho : opener id o = none) (past : List Occurrence) : peer id (o :: past) = peer id past := by
  rw [peer_cons, if_neg he, ho, Option.none_or]

theorem opener_arrived {id : UInt32} {m : Message} (h : m.command = .okay → m.arg1 ≠ id)
    (phase : Option Phase) : opener id (arrived m phase) = none := by
  rcases phase with _ | _ | _ | _
  · rfl
  · exact if_neg (fun hn => h hn.1 hn.2)
  · rfl
  · rfl

/-- A history, latest first, in which data for open streams and the attempts to acknowledge them
always come together. -/
inductive Acknowledged : List Occurrence → Prop
  | nil : Acknowledged []
  | aside {o : Occurrence} {past : List Occurrence} (h : Acknowledged past) (hd : o.isDue = false)
      (ho : o.isOkay = false) : Acknowledged (o :: past)
  | answered {m : Message} {id : UInt32} {o : Occurrence} {past : List Occurrence}
      (h : Acknowledged past) (hm : m.command = .write) (hp : peer m.arg1 past = some id)
      (ho : o.tried = some ⟨.okay, m.arg1, id, []⟩) :
      Acknowledged (o :: arrived m (some .opened) :: past)

namespace Acknowledged

theorem append {past lately : List Occurrence} (h : Acknowledged past)
    (hl : ∀ o ∈ lately, o.isDue = false ∧ o.isOkay = false) : Acknowledged (lately ++ past) := by
  induction lately with
  | nil => exact h
  | cons o lately ih =>
    have ho := hl o (List.mem_cons_self ..)
    have hrest := ih (fun p hp => hl p (List.mem_cons_of_mem _ hp))
    exact hrest.aside ho.1 ho.2

theorem answer_of_due {past : List Occurrence} (h : Acknowledged past) {later earlier} {m : Message}
    (hpast : past = later ++ arrived m (some .opened) :: earlier) (hm : m.command = .write) :
    ∃ between o id, later = between ++ [o] ∧ peer m.arg1 earlier = some id ∧
      o.tried = some ⟨.okay, m.arg1, id, []⟩ := by
  have hdue : isDue (arrived m (some .opened)) = true := decide_eq_true hm
  induction h generalizing later with
  | nil => cases later <;> cases hpast
  | @aside o past h hd ho ih =>
    cases later with
    | nil =>
      obtain ⟨rfl, _⟩ := List.cons.inj hpast
      rw [hdue] at hd
      cases hd
    | cons l later =>
      obtain ⟨between, a, id, rfl, ha⟩ := ih (List.cons.inj hpast).2
      exact ⟨l :: between, a, id, rfl, ha⟩
  | @answered w id o past h hw hp ho ih =>
    rcases later with _ | ⟨l, _ | ⟨l', later⟩⟩
    · obtain ⟨rfl, _⟩ := List.cons.inj hpast
      cases ho
    · obtain ⟨rfl, hrest⟩ := List.cons.inj hpast
      obtain ⟨harrived, rfl⟩ := List.cons.inj hrest
      cases harrived
      exact ⟨[], o, id, rfl, hp, ho⟩
    · obtain ⟨rfl, htail⟩ := List.cons.inj hpast
      obtain ⟨rfl, hback⟩ := List.cons.inj htail
      obtain ⟨between, a, peer, hbetween, ha⟩ := ih hback
      rw [hbetween]
      exact ⟨o :: arrived w (some .opened) :: between, a, peer, rfl, ha⟩

theorem due_of_okay {past : List Occurrence} (h : Acknowledged past) {later earlier}
    {o : Occurrence} {ack : Message} (hpast : past = later ++ o :: earlier)
    (ho : o.tried = some ack) (hack : ack.command = .okay) :
    ∃ m id before, earlier = arrived m (some .opened) :: before ∧ m.command = .write ∧
      peer m.arg1 before = some id ∧ ack = ⟨.okay, m.arg1, id, []⟩ := by
  have hokay : o.isOkay = true := by
    rw [isOkay, ho]
    exact decide_eq_true hack
  induction h generalizing later with
  | nil => cases later <;> cases hpast
  | @aside a past h hd ha ih =>
    cases later with
    | nil =>
      obtain ⟨rfl, _⟩ := List.cons.inj hpast
      rw [hokay] at ha
      cases ha
    | cons l later => exact ih (List.cons.inj hpast).2
  | @answered m id a past h hm hp ha ih =>
    rcases later with _ | ⟨l, _ | ⟨l', later⟩⟩
    · obtain ⟨rfl, rfl⟩ := List.cons.inj hpast
      rw [ha] at ho
      exact ⟨m, id, past, rfl, hm, hp, (Option.some.inj ho).symm⟩
    · obtain ⟨_, hrest⟩ := List.cons.inj hpast
      obtain ⟨rfl, _⟩ := List.cons.inj hrest
      cases ho
    · obtain ⟨_, hrest⟩ := List.cons.inj hpast
      exact ih (List.cons.inj hrest).2

end Acknowledged

end Occurrence

namespace StreamState

def Unanswered (s : StreamState) : Prop :=
  s.phase = .pending → s.peer = none ∧ s.awaiting = true

theorem peer_acknowledged {s : StreamState} (hm : s.Met) (hu : s.Unanswered) (sender : UInt32) :
    (s.acknowledged sender).Unanswered ∧ ((s.acknowledged sender).phase ≠ .closed →
      s.phase ≠ .closed ∧
        (s.acknowledged sender).peer = if s.phase = .pending then some sender else s.peer) := by
  unfold acknowledged
  by_cases hany : s.peer.any (· ≠ sender) = true
  · rw [if_pos hany]
    have hnot : s.phase ≠ .pending := by
      intro hp
      rw [(hu hp).1] at hany
      cases hany
    refine ⟨hu, fun hopen => ⟨hopen, ?_⟩⟩
    rw [if_neg hnot]
  · have hsame (hopen : s.phase = .opened) : some sender = s.peer := by
      obtain ⟨peer, hpeer⟩ := Option.isSome_iff_exists.mp (hm hopen)
      rw [hpeer, Option.any_some, decide_eq_true_eq, ne_eq, Decidable.not_not] at hany
      rw [hpeer, hany]
    rw [if_neg hany]
    by_cases ha : s.awaiting = true
    · rw [if_pos ha]
      cases hp : s.phase with
      | pending => exact ⟨nofun, fun _ => ⟨nofun, rfl⟩⟩
      | opened => exact ⟨nofun, fun _ => ⟨nofun, hsame hp⟩⟩
      | closed => exact ⟨nofun, fun hopen => absurd rfl hopen⟩
    · rw [if_neg ha]
      have hnot : s.phase ≠ .pending := fun hp => ha (hu hp).2
      refine ⟨fun hp => absurd hp hnot, fun hopen => ⟨hopen, ?_⟩⟩
      rw [if_neg hnot]
      cases hp : s.phase with
      | pending => exact absurd hp hnot
      | opened => exact hsame hp
      | closed => exact absurd hp hopen

theorem peer_apply_of_open {s : StreamState} (hm : s.Met) (hu : s.Unanswered) (m : Message) :
    (s.apply m.arg1 m).1.Unanswered ∧
      ((s.apply m.arg1 m).1.phase ≠ .closed → s.phase ≠ .closed ∧ (s.apply m.arg1 m).1.peer =
        (Occurrence.opener m.arg1 (.arrived m (some s.phase))).or s.peer) := by
  have hother (hc : m.command ≠ .okay) :
      (Occurrence.opener m.arg1 (.arrived m (some s.phase))).or s.peer = s.peer := by
    rw [Occurrence.opener_arrived (fun h => absurd h hc), Option.none_or]
  unfold apply
  split
  · next hc =>
    obtain ⟨hunanswered, hpeer⟩ := peer_acknowledged hm hu m.arg0
    refine ⟨hunanswered, ?_⟩
    intro hopen
    obtain ⟨hwas, hnow⟩ := hpeer hopen
    refine ⟨hwas, ?_⟩
    dsimp only
    rw [hnow]
    cases hp : s.phase with
    | pending =>
      rw [if_pos rfl, Occurrence.opener, if_pos ⟨hc, rfl⟩]
      rfl
    | opened => rfl
    | closed => rfl
  · exact ⟨nofun, fun h => absurd rfl h⟩
  · next hc =>
    obtain ⟨hpeer, hphase, hawaiting⟩ := s.supplied_kept m.arg1 m.payload
    rw [Unanswered, hpeer, hphase, hawaiting, hother (by rw [hc]; nofun)]
    exact ⟨hu, fun hopen => ⟨hopen, rfl⟩⟩
  · next hc _ _ => exact ⟨hu, fun hopen => ⟨hopen, (hother hc).symm⟩⟩

theorem ack_apply {s : StreamState} (hm : s.Met) (id : UInt32) (m : Message) :
    (s.apply id m).2 = if s.phase = .opened ∧ m.command = .write
      then s.peer.map fun peer => ⟨.okay, id, peer, []⟩ else none := by
  have hother (hc : m.command ≠ .write) : ¬ (s.phase = .opened ∧ m.command = .write) :=
    fun h => hc h.2
  unfold apply
  split
  · next hc => rw [if_neg (hother (by rw [hc]; nofun))]
  · next hc => rw [if_neg (hother (by rw [hc]; nofun))]
  · next hc =>
    unfold supplied
    split
    · next hp hpeer => rw [if_pos ⟨hp, hc⟩, hpeer, Option.map_some]
    · next hp => rw [if_neg (fun h => by rw [hp] at h; cases h.1)]
    · next hclosed hopen =>
      rw [if_neg]
      rintro ⟨hp, _⟩
      obtain ⟨peer, hpeer⟩ := Option.isSome_iff_exists.mp (hm hp)
      exact hopen peer hp hpeer
  · next hc => rw [if_neg (hother hc)]

end StreamState

namespace StreamTable

theorem route_eq_ok {t table : StreamTable} {m : Message} {ack : Option Message}
    (h : t.route m = .ok (table, ack)) :
    (∃ s, t.find? m.arg1 = some s ∧ (s.apply m.arg1 m).2 = ack) ∨
      t.find? m.arg1 = none ∧ ack = none := by
  unfold route at h
  split at h
  · split at h
    · next s hs =>
      cases h
      exact .inl ⟨s, hs, rfl⟩
    · next hs =>
      cases h
      exact .inr ⟨hs, rfl⟩
  · cases h

theorem due_of_route {t table : StreamTable} {m ack : Message}
    (hmet : ∀ s, t.find? m.arg1 = some s → s.Met) (h : t.route m = .ok (table, some ack)) :
    ∃ s peer, t.find? m.arg1 = some s ∧ s.phase = .opened ∧ m.command = .write ∧
      s.peer = some peer ∧ ack = ⟨.okay, m.arg1, peer, []⟩ := by
  obtain ⟨s, hs, hack⟩ | ⟨_, hnone⟩ := route_eq_ok h
  · rw [StreamState.ack_apply (hmet s hs)] at hack
    split at hack
    · next hdue =>
      obtain ⟨peer, hpeer, rfl⟩ := Option.map_eq_some_iff.mp hack
      exact ⟨s, peer, hs, hdue.1, hdue.2, hpeer, rfl⟩
    · cases hack
  · cases hnone

theorem not_due_of_route {t table : StreamTable} {m : Message} {s : StreamState}
    (hmet : s.Met) (h : t.route m = .ok (table, none)) (hs : t.find? m.arg1 = some s)
    (hopen : s.phase = .opened) : m.command ≠ .write := by
  intro hw
  obtain ⟨s', hs', hack⟩ | ⟨hnone, _⟩ := route_eq_ok h
  · obtain rfl : s = s' := Option.some.inj (hs.symm.trans hs')
    obtain ⟨peer, hpeer⟩ := Option.isSome_iff_exists.mp (hmet hopen)
    rw [StreamState.ack_apply hmet, if_pos ⟨hopen, hw⟩, hpeer] at hack
    cases hack
  · rw [hs] at hnone
    cases hnone

theorem command_of_route_error {t : StreamTable} {m : Message} {e : BridgeError}
    (h : t.route m = .error e) : m.command ≠ .okay ∧ m.command ≠ .write := by
  unfold route at h
  split at h
  · split at h <;> cases h
  · next hn => exact ⟨fun hc => hn (.inl hc), fun hc => hn (.inr (.inr hc))⟩

end StreamTable

namespace Connection

/-- The peer of every stream that is not closed is the one on record. -/
structure Introduced (c : Connection) : Prop where
  met : ∀ id s, c.table.find? id = some s → s.Met
  unanswered : ∀ id s, c.table.find? id = some s → s.Unanswered
  recorded : ∀ id s, c.table.find? id = some s → s.phase ≠ .closed →
    s.peer = Occurrence.peer id c.past

theorem introduced_fresh (channel : Channel) (info : DeviceInfo) (settings : HostSettings) :
    (Client.fresh channel info settings).connection.Introduced where
  met := by
    intro id s h
    cases h
  unanswered := by
    intro id s h
    cases h
  recorded := by
    intro id s h
    cases h

theorem Introduced.of_table {c after : Connection} (h : c.Introduced) (hp : after.past = c.past)
    (ht : ∀ id s', after.table.find? id = some s' → ∃ s, c.table.find? id = some s ∧
      s'.peer = s.peer ∧ s'.phase = s.phase ∧ (s.awaiting = true → s'.awaiting = true)) :
    after.Introduced where
  met := by
    intro id s' hs' hopen
    obtain ⟨s, hs, hpeer, hphase, _⟩ := ht id s' hs'
    rw [hpeer]
    exact h.met id s hs (hphase ▸ hopen)
  unanswered := by
    intro id s' hs' hpending
    obtain ⟨s, hs, hpeer, hphase, hawaiting⟩ := ht id s' hs'
    obtain ⟨hnone, hwaits⟩ := h.unanswered id s hs (hphase ▸ hpending)
    exact ⟨hpeer.trans hnone, hawaiting hwaits⟩
  recorded := by
    intro id s' hs' hopen
    obtain ⟨s, hs, hpeer, hphase, _⟩ := ht id s' hs'
    rw [hpeer, hp]
    exact h.recorded id s hs (hphase ▸ hopen)

theorem Introduced.setStream {c : Connection} (h : c.Introduced) {id : UInt32} {s s' : StreamState}
    (hs : c.table.find? id = some s) (hpeer : s'.peer = s.peer) (hphase : s'.phase = s.phase)
    (hawaiting : s.awaiting = true → s'.awaiting = true) : (c.setStream id s').Introduced := by
  refine Introduced.of_table h rfl ?_
  intro k t ht
  rw [Connection.setStream, StreamTable.find?_set] at ht
  split at ht
  · next hk =>
    rw [hs, Option.map_some, Option.some.injEq] at ht
    subst ht
    exact ⟨s, hk ▸ hs, hpeer, hphase, hawaiting⟩
  · exact ⟨t, ht, rfl, rfl, fun h => h⟩

theorem Introduced.note {c : Connection} (h : c.Introduced) {o : Occurrence}
    (ho : ∀ id, o ≠ .entered id ∧ Occurrence.opener id o = none) : (c.note o).Introduced where
  met := h.met
  unanswered := h.unanswered
  recorded := by
    intro id s hs hopen
    change s.peer = Occurrence.peer id (o :: c.past)
    rw [Occurrence.peer_cons_same (ho id).1 (ho id).2]
    exact h.recorded id s hs hopen

theorem Introduced.searched {c : Connection} (h : c.Introduced) {found : Option UInt32}
    {table : StreamTable} (ha : c.table.allocate c.settings.streamIdLimit = (found, table)) :
    Introduced { c with table := table } := by
  refine Introduced.of_table h rfl ?_
  intro id s hs
  rw [StreamTable.find?_of_allocate ha] at hs
  exact ⟨s, hs, rfl, rfl, fun h => h⟩

theorem Introduced.enter {c : Connection} (h : c.Introduced) (id : UInt32) :
    (c.enter id).Introduced := by
  have hcases (k : UInt32) (s : StreamState) (hs : (c.enter id).table.find? k = some s) :
      k = id ∧ s = .fresh ∨ k ≠ id ∧ c.table.find? k = some s := by
    rw [Connection.enter, Connection.note, StreamTable.find?_insert] at hs
    split at hs
    · next hk => exact .inl ⟨hk, (Option.some.inj hs).symm⟩
    · next hk => exact .inr ⟨hk, hs⟩
  constructor
  · intro k s hs
    rcases hcases k s hs with ⟨_, rfl⟩ | ⟨_, hs⟩
    · exact StreamState.met_fresh
    · exact h.met k s hs
  · intro k s hs
    rcases hcases k s hs with ⟨_, rfl⟩ | ⟨_, hs⟩
    · exact fun _ => ⟨rfl, rfl⟩
    · exact h.unanswered k s hs
  · intro k s hs hopen
    change s.peer = Occurrence.peer k (.entered id :: c.past)
    rcases hcases k s hs with ⟨rfl, rfl⟩ | ⟨hk, hs⟩
    · rw [Occurrence.peer_cons, if_pos rfl]
      rfl
    · have hne : Occurrence.entered id ≠ .entered k :=
        fun he => hk (Occurrence.entered.inj he).symm
      rw [Occurrence.peer_cons_same hne rfl]
      exact h.recorded k s hs hopen

theorem Introduced.route {c : Connection} (h : c.Introduced) {m : Message} {table : StreamTable}
    {ack : Option Message} (hr : c.table.route m = .ok (table, ack)) :
    Introduced { c.hear m c.channel with table := table } := by
  unfold StreamTable.route at hr
  split at hr
  · split at hr
    · next s hs =>
      cases hr
      obtain ⟨hunanswered, hpeer⟩ :=
        StreamState.peer_apply_of_open (h.met m.arg1 s hs) (h.unanswered m.arg1 s hs) m
      have hcases (k : UInt32) (t : StreamState)
          (ht : (c.table.set m.arg1 (s.apply m.arg1 m).1).find? k = some t) :
          k = m.arg1 ∧ t = (s.apply m.arg1 m).1 ∨ k ≠ m.arg1 ∧ c.table.find? k = some t := by
        rw [StreamTable.find?_set] at ht
        split at ht
        · next hk =>
          rw [hs, Option.map_some, Option.some.injEq] at ht
          exact .inl ⟨hk, ht.symm⟩
        · next hk => exact .inr ⟨hk, ht⟩
      constructor
      · intro k t ht
        rcases hcases k t ht with ⟨_, rfl⟩ | ⟨_, ht⟩
        · exact StreamState.met_apply (h.met m.arg1 s hs) m.arg1 m
        · exact h.met k t ht
      · intro k t ht
        rcases hcases k t ht with ⟨_, rfl⟩ | ⟨_, ht⟩
        · exact hunanswered
        · exact h.unanswered k t ht
      · intro k t ht hopen
        change t.peer = Occurrence.peer k
          (.arrived m ((c.table.find? m.arg1).map StreamState.phase) :: c.past)
        rcases hcases k t ht with ⟨rfl, rfl⟩ | ⟨hk, ht⟩
        · obtain ⟨hwas, hnow⟩ := hpeer hopen
          rw [hs, Option.map_some, Occurrence.peer_cons, if_neg nofun, hnow,
            h.recorded m.arg1 s hs hwas]
        · have hother := Occurrence.opener_arrived (fun _ : m.command = .okay => Ne.symm hk)
            ((c.table.find? m.arg1).map StreamState.phase)
          have hsame := Occurrence.peer_cons_same (by nofun) hother c.past
          exact (h.recorded k t ht hopen).trans hsame.symm
    · next hs =>
      cases hr
      have hnote : (c.note (.arrived m none)).Introduced := h.note (fun _ => ⟨nofun, rfl⟩)
      rw [hear, hs]
      exact hnote
  · cases hr

theorem Introduced.step {c after : Connection} (hm : c.Step after) (h : c.Introduced) :
    after.Introduced := by
  cases hm with
  | channel ch => exact h.of_table rfl (fun id s hs => ⟨s, hs, rfl, rfl, fun h => h⟩)
  | searched ha => exact h.searched ha
  | @entered id table ha => exact (h.searched ha).enter id
  | asked payload hs => exact h.note (fun _ => ⟨nofun, rfl⟩)
  | unsent m begun => exact h.note (fun _ => ⟨nofun, rfl⟩)
  | routed hr => exact h.route hr
  | @strayed m e hr =>
    have hnot := (StreamTable.command_of_route_error hr).1
    exact h.note (fun _ => ⟨nofun, Occurrence.opener_arrived (fun hc => absurd hc hnot) _⟩)
  | acknowledged id peer => exact h.note (fun _ => ⟨nofun, rfl⟩)
  | spoilt id fault =>
    unfold spoil
    split
    · next s hs => exact h.setStream hs rfl rfl (fun h => h)
    · exact h
  | @wrote id peer s piece hs hp =>
    have hset : (c.setStream id { s with awaiting := true }).Introduced :=
      h.setStream hs rfl rfl (fun _ => rfl)
    exact hset.note (fun _ => ⟨nofun, rfl⟩)
  | @took id length bytes s s' hs hr =>
    obtain ⟨_, he, _, _⟩ := StreamState.supplying_ready hr
    have hset : (c.setStream id s').Introduced :=
      h.setStream hs (by rw [he]) (by rw [he]) (by rw [he]; exact fun h => h)
    exact hset.note (fun _ => ⟨nofun, rfl⟩)
  | removed id =>
    have ht : Introduced { c with table := c.table.erase id } := by
      refine Introduced.of_table h rfl ?_
      intro k s hs
      rw [StreamTable.find?_erase] at hs
      split at hs
      · cases hs
      · exact ⟨s, hs, rfl, rfl, fun h => h⟩
    exact ht.note (fun _ => ⟨nofun, rfl⟩)
  | parted id peer => exact h.note (fun _ => ⟨nofun, rfl⟩)

theorem Introduced.move {c after : Connection} (hm : c.Move after) (h : c.Introduced) :
    after.Introduced := hm.steps.kept (fun _ _ => Introduced.step) h

/-- In between no data came for an open stream, and no acknowledgement was tried. -/
def Aside (c after : Connection) : Prop :=
  ∃ lately : List Occurrence, after.past = lately ++ c.past ∧
    ∀ o ∈ lately, o.isDue = false ∧ o.isOkay = false

theorem Aside.of_eq {c after : Connection} (h : after.past = c.past) : Aside c after :=
  ⟨[], h, nofun⟩

theorem Aside.trans {c mid after : Connection} (h : Aside c mid) (h' : Aside mid after) :
    Aside c after := by
  obtain ⟨first, hp, hf⟩ := h
  obtain ⟨second, hp', hs⟩ := h'
  refine ⟨second ++ first, by rw [hp', hp, List.append_assoc], ?_⟩
  intro o ho
  rcases List.mem_append.mp ho with ho | ho
  · exact hs o ho
  · exact hf o ho

theorem aside_of_cons {c after : Connection} {o : Occurrence} (h : after.past = o :: c.past)
    (hd : o.isDue = false) (ho : o.isOkay = false) : Aside c after := by
  refine ⟨[o], h, ?_⟩
  intro p hp
  rw [List.mem_singleton.mp hp]
  exact ⟨hd, ho⟩

theorem aside_send {m : Message} (hm : m.command ≠ .okay) (deadline : Deadline) (c : Connection) :
    Aside c (final (c.send m deadline)) := by
  rcases c.send_cases m deadline with ⟨ch, hs⟩ | ⟨f, ch, begun, hs⟩
  · rw [hs]
    exact aside_of_cons (o := .sent m) rfl rfl (decide_eq_false hm)
  · rw [hs]
    exact aside_of_cons (o := .unsent m begun) rfl rfl (decide_eq_false hm)

theorem aside_release (id : UInt32) (c : Connection) : Aside c (c.release id) := by
  have hr : Aside c (c.remove id) := aside_of_cons (o := .removed id) rfl rfl rfl
  unfold release
  split
  · exact .of_eq rfl
  · split
    · exact hr
    · next hm =>
      obtain ⟨peer, rfl⟩ := message_of_farewell hm
      exact hr.trans (aside_send (m := ⟨.close, id, peer, []⟩) nofun _ _)

theorem aside_ask (destination : String) (deadline : Deadline) (c : Connection) :
    Aside c (final (c.ask destination deadline)) := by
  unfold ask
  split
  · exact .of_eq rfl
  · next id table _ =>
    have he : Aside c ({ c with table := table }.enter id) :=
      aside_of_cons (o := .entered id) rfl rfl rfl
    have hs := he.trans (aside_send (m := ⟨.start, id, 0, Text.Utf8.encode destination ++ [0]⟩)
      nofun deadline _)
    split
    · next hr =>
      rw [hr] at hs
      exact hs.trans (aside_release _ _)
    · next hr =>
      rw [hr] at hs
      exact hs

theorem aside_sendPiece (id : UInt32) (deadline : Deadline) (piece : Bytes) (c : Connection) :
    Aside c (final (c.sendPiece id deadline piece)) := by
  unfold sendPiece
  split
  · exact .of_eq rfl
  · split
    · exact .of_eq rfl
    · next peer _ =>
      have hs := aside_send (m := ⟨.write, id, peer, piece⟩) nofun deadline c
      split
      · next hr =>
        rw [hr] at hs
        exact hs
      · next hr =>
        rw [hr] at hs
        exact hs.trans (.of_eq rfl)

theorem past_acknowledge (ack : Message) (deadline : Deadline) (c : Connection) :
    ∃ o : Occurrence, o.tried = some ack ∧ (c.acknowledge ack deadline).past = o :: c.past := by
  unfold acknowledge
  rcases c.send_cases ack (c.deadline (deadline.remainingOrFloor Deadline.transferFloor c.now))
    with ⟨ch, hs⟩ | ⟨f, ch, begun, hs⟩
  · rw [hs]
    exact ⟨.sent ack, rfl, rfl⟩
  · rw [hs]
    refine ⟨.unsent ack begun, rfl, ?_⟩
    dsimp only
    unfold spoil
    split <;> rfl

theorem acknowledged_takeIn {c : Connection} (hc : c.Introduced)
    (h : Occurrence.Acknowledged c.past) (deadline : Deadline) :
    Occurrence.Acknowledged (final (c.takeIn deadline)).past := by
  unfold takeIn
  split
  · split
    · exact h
    · exact h
  · next m ch _ =>
    split
    · next e hr =>
      have hnot := (StreamTable.command_of_route_error hr).2
      refine h.aside (o := .arrived m ((c.table.find? m.arg1).map StreamState.phase)) ?_ rfl
      rcases (c.table.find? m.arg1).map StreamState.phase with _ | _ | _ | _
      · rfl
      · rfl
      · exact decide_eq_false hnot
      · rfl
    · next table hr =>
      refine h.aside (o := .arrived m ((c.table.find? m.arg1).map StreamState.phase)) ?_ rfl
      cases hf : c.table.find? m.arg1 with
      | none => rfl
      | some s =>
        rw [Option.map_some]
        cases hp : s.phase with
        | pending => rfl
        | opened =>
          exact decide_eq_false (StreamTable.not_due_of_route (hc.met m.arg1 s hf) hr hf hp)
        | closed => rfl
    · next table ack hr =>
      -- Data for an open stream: what is tried next is put on record directly behind them.
      obtain ⟨s, peer, hs, hopen, hw, hpeer, rfl⟩ :=
        StreamTable.due_of_route (hc.met m.arg1) hr
      have hrecorded : Occurrence.peer m.arg1 c.past = some peer := by
        rw [← hc.recorded m.arg1 s hs (by rw [hopen]; nofun)]
        exact hpeer
      obtain ⟨o, ho, hpast⟩ :=
        past_acknowledge ⟨.okay, m.arg1, peer, []⟩ deadline { c.hear m ch with table := table }
      have hheard : (c.hear m ch).past = .arrived m (some .opened) :: c.past := by
        rw [hear, hs, Option.map_some, hopen]
        rfl
      rw [final_ok, hpast]
      change Occurrence.Acknowledged (o :: (c.hear m ch).past)
      rw [hheard]
      exact h.answered hw hrecorded ho

/-- What every move keeps. -/
structure Acknowledging (c : Connection) : Prop where
  introduced : c.Introduced
  acknowledged : Occurrence.Acknowledged c.past

theorem Aside.acknowledged {c after : Connection} (h : Aside c after)
    (hc : Occurrence.Acknowledged c.past) : Occurrence.Acknowledged after.past := by
  obtain ⟨lately, hp, hl⟩ := h
  rw [hp]
  exact hc.append hl

theorem Acknowledging.move {c after : Connection} (hm : c.Move after) (h : c.Acknowledging) :
    after.Acknowledging where
  introduced := h.introduced.move hm
  acknowledged := by
    have hc := h.acknowledged
    cases hm with
    | outside link hp => exact hc
    | ask destination deadline => exact (aside_ask destination deadline c).acknowledged hc
    | takeIn deadline => exact acknowledged_takeIn h.introduced hc deadline
    | sendPiece id deadline piece => exact (aside_sendPiece id deadline piece c).acknowledged hc
    | take id length bytes hi =>
      obtain ⟨s, s', _, _, rfl⟩ := inspect_ok hi
      exact hc.aside (o := .taken id bytes) rfl rfl
    | release id => exact (aside_release id c).acknowledged hc

theorem acknowledge_eq (id peer : UInt32) (deadline : Deadline) (c : Connection) :
    c.acknowledge ⟨.okay, id, peer, []⟩ deadline =
      match c.channel.put (Message.header ⟨.okay, id, peer, []⟩)
        (deadline.remainingOrFloor Deadline.transferFloor c.now) with
      | .ok _ ch => { c with channel := ch }.note (.sent ⟨.okay, id, peer, []⟩)
      | .error f ch => ({ c with channel := ch }.note (.unsent ⟨.okay, id, peer, []⟩ false)).spoil id
          (.unacknowledged f) := by
  have hbudget : (c.deadline (deadline.remainingOrFloor Deadline.transferFloor c.now)).remaining
      c.channel.now = deadline.remainingOrFloor Deadline.transferFloor c.now := by
    simp only [Connection.deadline, Deadline.remaining, now]
    omega
  rw [acknowledge, send, Channel.sendHeader, hbudget]
  cases c.channel.put (Message.header ⟨.okay, id, peer, []⟩)
    (deadline.remainingOrFloor Deadline.transferFloor c.now) with
  | ok u ch => rfl
  | error f ch => rfl

def replied (s : StreamState) (payload : Bytes) (tried : Except LinkFault Unit) : StreamState :=
  { s with
    buffer := s.buffer ++ payload
    fault := match tried with
      | .ok _ => s.fault
      | .error f => some (.unacknowledged f) }

/-- Data for an open stream are kept, and one write follows, which is their acknowledgement. If it
fails, their stream is spoilt and no other, and nothing fails for whoever waits. -/
theorem takeIn_due {c : Connection} {deadline : Deadline} {m : Message} {ch : Channel}
    {s : StreamState} {peer : UInt32} (hr : c.channel.receive deadline = .ok m ch)
    (hs : c.table.find? m.arg1 = some s) (hopen : s.phase = .opened) (hw : m.command = .write)
    (hpeer : s.peer = some peer) :
    let tried := ch.put (Message.header ⟨.okay, m.arg1, peer, []⟩)
      (deadline.remainingOrFloor Deadline.transferFloor ch.now)
    ∃ after, c.takeIn deadline = .ok () after ∧ after.channel = final tried ∧
      ∀ k, after.table.find? k =
        if k = m.arg1 then some (replied s m.payload (outcome tried)) else c.table.find? k := by
  intro tried
  let heard : Connection :=
    { c.hear m ch with table := c.table.set m.arg1 { s with buffer := s.buffer ++ m.payload } }
  have happly : s.apply m.arg1 m =
      ({ s with buffer := s.buffer ++ m.payload }, some ⟨.okay, m.arg1, peer, []⟩) := by
    simp only [StreamState.apply, hw, StreamState.supplied, hopen, hpeer]
  have hroute : c.table.route m = .ok (heard.table, some ⟨.okay, m.arg1, peer, []⟩) := by
    rw [StreamTable.route, if_pos (.inr (.inr hw)), hs]
    simp only [happly, heard]
  have hin : c.takeIn deadline =
      .ok () (heard.acknowledge ⟨.okay, m.arg1, peer, []⟩ deadline) := by
    rw [takeIn, hr]
    simp only [hroute, heard]
  have hfound (k : UInt32) : heard.table.find? k =
      if k = m.arg1 then some { s with buffer := s.buffer ++ m.payload } else c.table.find? k := by
    simp only [heard, StreamTable.find?_set, hs, Option.map_some]
  have hput : heard.channel.put (Message.header ⟨.okay, m.arg1, peer, []⟩)
      (deadline.remainingOrFloor Deadline.transferFloor heard.now) = tried := rfl
  refine ⟨_, hin, ?_⟩
  rw [acknowledge_eq, hput]
  cases tried with
  | ok u last => exact ⟨rfl, hfound⟩
  | error f last =>
    refine ⟨channel_spoil _ _ _, ?_⟩
    intro k
    have hspoilt : heard.table.find? m.arg1 =
        some { s with buffer := s.buffer ++ m.payload } := by rw [hfound, if_pos rfl]
    simp only [spoil, note, hspoilt, setStream, StreamTable.find?_set, Option.map_some]
    split
    · rfl
    · next hk =>
      rw [hfound, if_neg hk]

theorem waitFor_of_takeIn {c after : Connection} {id : UInt32} {deadline : Deadline}
    {look : StreamState → Look α} (hnothing : c.inspect id look = none)
    (htime : deadline.hasExpired c.now = false) (hin : c.takeIn deadline = .ok () after)
    (awaited : Awaited) :
    c.waitFor id deadline awaited look = after.waitFor id deadline awaited look := by
  rw [waitFor, hnothing]
  dsimp only
  rw [if_neg (by rw [htime]; exact Bool.false_ne_true)]
  split
  · next u mid hmid =>
    rw [hin] at hmid
    cases hmid
    rfl
  · next e mid hmid =>
    rw [hin] at hmid
    cases hmid

end Connection

/-- After every run, directly behind data that came for an open stream the sending of one
acknowledgement was tried, addressed to the peer on record, and nowhere else. Whoever waits there,
the data are kept, a write that fails spoils their stream and no other, and the wait goes on. -/
theorem acknowledged_once (channel : Channel) (info : DeviceInfo) (settings : HostSettings)
    (events : List Event) :
    let c := ((Client.fresh channel info settings).after events).connection
    (∀ later m earlier, c.past = later ++ .arrived m (some .opened) :: earlier →
      m.command = .write → ∃ between o id, later = between ++ [o] ∧
        Occurrence.peer m.arg1 earlier = some id ∧ o.tried = some ⟨.okay, m.arg1, id, []⟩) ∧
    (∀ later o earlier ack, c.past = later ++ o :: earlier → o.tried = some ack →
      ack.command = .okay → ∃ m id before, earlier = .arrived m (some .opened) :: before ∧
        m.command = .write ∧ Occurrence.peer m.arg1 before = some id ∧
        ack = ⟨.okay, m.arg1, id, []⟩) ∧
    c.wire = channel.link.wire ++ Part.join c.writes ∧
    ∀ mid, c.Moves mid → ∀ deadline m ch s, mid.channel.receive deadline = .ok m ch →
      mid.table.find? m.arg1 = some s → s.phase = .opened → m.command = .write →
      ∃ id after, s.peer = some id ∧ Occurrence.peer m.arg1 mid.past = some id ∧
        mid.takeIn deadline = .ok () after ∧
        let tried := ch.put (Message.header ⟨.okay, m.arg1, id, []⟩)
          (deadline.remainingOrFloor Deadline.transferFloor ch.now)
        after.channel = final tried ∧
        (∀ k, after.table.find? k = if k = m.arg1
          then some (Connection.replied s m.payload (outcome tried)) else mid.table.find? k) ∧
        ∀ (α : Type) k awaited (look : StreamState → Look α), mid.inspect k look = none →
          deadline.hasExpired mid.now = false →
          mid.waitFor k deadline awaited look = after.waitFor k deadline awaited look := by
  intro c
  have hc : c.Acknowledging := Client.connection_after
    (fun _ _ => Connection.Acknowledging.move)
    ⟨Connection.introduced_fresh channel info settings, .nil⟩ events
  refine ⟨?_, ?_, ?_, ?_⟩
  · intro later m earlier hpast hw
    exact hc.acknowledged.answer_of_due hpast hw
  · intro later o earlier ack hpast ho hack
    exact hc.acknowledged.due_of_okay hpast ho hack
  · obtain ⟨lately, hpast, hwire, _⟩ :=
      ((Client.fresh channel info settings).after_moves events).wrote
    have hall : c.past = lately := hpast.trans (List.append_nil _)
    rw [Connection.writes, hall]
    exact hwire
  · intro mid hmoves deadline m ch s hr hs hopen hw
    have hmid : mid.Acknowledging := hmoves.kept (fun _ _ => Connection.Acknowledging.move) hc
    obtain ⟨id, hpeer⟩ := Option.isSome_iff_exists.mp (hmid.introduced.met m.arg1 s hs hopen)
    obtain ⟨after, hin, hch, htable⟩ := Connection.takeIn_due hr hs hopen hw hpeer
    have hrecorded := hmid.introduced.recorded m.arg1 s hs (by rw [hopen]; nofun)
    refine ⟨id, after, hpeer, hrecorded.symm.trans hpeer, hin, hch, htable, ?_⟩
    intro α k awaited look hnothing htime
    exact Connection.waitFor_of_takeIn hnothing htime hin awaited

/-- A read on the second stream takes in data for the first, whose acknowledgement cannot be sent,
and goes on to its own. -/
theorem acknowledged_once_refused :
    let message (m : Message) : Arrival := .chunk m.encode
    let first : Message := ⟨.write, 101, 1, [97]⟩
    let second : Message := ⟨.write, 102, 2, [98]⟩
    let link : Link := {
      inbound := [message ⟨.okay, 101, 1, []⟩, message ⟨.okay, 102, 2, []⟩, message first,
        message second]
      plan := [.taken 0, .taken 0, .taken 0, .taken 0, .refused (.writeFailed "gone")] }
    let start := Client.fresh { link := link } ⟨"device", "S", "", 0, 4096⟩ {}
    let opened : List Event := [.call (.openStream "a" 10), .call (.openStream "b" 10)]
    let c := (start.after opened).connection
    let last := (start.after (opened ++ [.call (.read 1 1 10)])).connection
    let look := StreamState.supplying 2 1
    let lately : List Occurrence := [.taken 2 [98], .sent ⟨.okay, 2, 102, []⟩,
      .arrived second (some .opened), .unsent ⟨.okay, 1, 101, []⟩ false]
    (∃ after, c.takeIn ⟨0, 10⟩ = .ok () after ∧
      after.table.find? 1 = some ⟨some 101, .opened, false, [97],
        some (.unacknowledged (.writeFailed "gone"))⟩ ∧
      after.table.find? 2 = c.table.find? 2 ∧
      c.waitFor 2 ⟨0, 10⟩ (.data 2) look = after.waitFor 2 ⟨0, 10⟩ (.data 2) look) ∧
    (∃ between o, lately = between ++ [o] ∧ o.tried = some ⟨.okay, 1, 101, []⟩) ∧
    ∃ m before, last.past.drop 2 = .arrived m (some .opened) :: before ∧ m.arg1 = 2 := by
  intro message first second link start opened c last look lately
  obtain ⟨_, _, _, htake⟩ :=
    acknowledged_once { link := link } ⟨"device", "S", "", 0, 4096⟩ {} opened
  obtain ⟨hdue, hokay, _, _⟩ := acknowledged_once { link := link } ⟨"device", "S", "", 0, 4096⟩ {}
    (opened ++ [.call (.read 1 1 10)])
  refine ⟨?_, ?_, ?_⟩
  · have hr : c.channel.receive ⟨0, 10⟩ = .ok first (final (c.channel.receive ⟨0, 10⟩)) :=
      eq_ok_of_outcome (by decide +kernel)
    have hs : c.table.find? 1 = some ⟨some 101, .opened, false, [], none⟩ := by decide +kernel
    obtain ⟨id, after, hpeer, _, hin, _, htable, hwait⟩ := htake c .refl ⟨0, 10⟩ first _ _ hr hs rfl rfl
    cases hpeer
    refine ⟨after, hin, ?_, ?_, hwait Bytes 2 (.data 2) look ?_ (by decide +kernel)⟩
    · rw [htable 1]
      decide +kernel
    · exact htable 2
    · have hwaits : c.table.find? 2 = some ⟨some 102, .opened, false, [], none⟩ := by
        decide +kernel
      rw [Connection.inspect, hwaits]
      rfl
  · have hpast : last.past = lately ++ .arrived first (some .opened) :: last.past.drop 5 := by
      decide +kernel
    obtain ⟨between, o, id, hbetween, hid, ho⟩ := hdue _ _ _ hpast rfl
    have hpeer : Occurrence.peer 1 (last.past.drop 5) = some 101 := by decide +kernel
    cases hpeer.symm.trans hid
    exact ⟨between, o, hbetween, ho⟩
  · have hpast : last.past = [.taken 2 [98]] ++ .sent ⟨.okay, 2, 102, []⟩ :: last.past.drop 2 := by
      decide +kernel
    obtain ⟨m, id, before, hbefore, _, _, hack⟩ := hokay _ _ _ ⟨.okay, 2, 102, []⟩ hpast rfl rfl
    exact ⟨m, before, hbefore, (congrArg Message.arg0 hack).symm⟩

end DroidHost
