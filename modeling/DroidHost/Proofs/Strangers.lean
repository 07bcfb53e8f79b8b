import DroidHost.Proofs.Acknowledgement

/-! Messages from another stream of the device than the peer. An acknowledgement is held against the
peer; data and closes are not. -/
namespace DroidHost

namespace StreamState

theorem acknowledged_wrong {s : StreamState} {peer sender : UInt32} (hpeer : s.peer = some peer)
    (hne : sender ≠ peer) :
    s.acknowledged sender = { s with fault := some (.wrongPeer sender peer) } := by
  have hany : s.peer.any (· ≠ sender) = true := by
    rw [hpeer, Option.any_some]
    exact decide_eq_true hne.symm
  rw [acknowledged, if_pos hany, hpeer, Option.getD_some]

theorem closedBy_known {s : StreamState} {peer : UInt32} (hpeer : s.peer = some peer)
    (sender : UInt32) : s.closedBy sender = { s with phase := .closed } := by
  rw [closedBy, hpeer, Option.getD_some]

theorem apply_of_closed {s : StreamState} {peer : UInt32} (hpeer : s.peer = some peer)
    (hclosed : s.phase = .closed) {m : Message} (hm : m.command ≠ .okay) (id : UInt32) :
    s.apply id m = (s, none) := by
  unfold apply
  split
  · contradiction
  · have hsame : { s with phase := .closed } = s := by rw [← hclosed]
    rw [closedBy_known hpeer, hsame]
  · simp only [supplied, hclosed]
  · rfl

end StreamState

namespace Connection

/-- Nothing is added to what can be read, the stream is not closed, and nothing is sent in
answer. -/
def LeftAlone (c : Connection) (m : Message) (after : Connection) : Prop :=
  ∃ s s', c.table.find? m.arg1 = some s ∧ after.table.find? m.arg1 = some s' ∧
    s'.buffer = s.buffer ∧ (s'.phase = .closed → s.phase = .closed) ∧
    after.past = .arrived m (some s.phase) :: c.past

theorem leftAlone_iff {m : Message} {c after : Connection} {s s' : StreamState}
    (hs : c.table.find? m.arg1 = some s) (hs' : after.table.find? m.arg1 = some s')
    (hpast : after.past = .arrived m (some s.phase) :: c.past) : c.LeftAlone m after ↔
      s'.buffer = s.buffer ∧ (s'.phase = .closed → s.phase = .closed) := by
  constructor
  · rintro ⟨old, new, hold, hnew, hbuffer, hphase, _⟩
    cases hold.symm.trans hs
    cases hnew.symm.trans hs'
    exact ⟨hbuffer, hphase⟩
  · rintro ⟨hbuffer, hphase⟩
    exact ⟨s, s', hs, hs', hbuffer, hphase, hpast⟩

theorem not_leftAlone {m w : Message} {c after : Connection} {o : Occurrence}
    {rest : List Occurrence} (ho : o.tried = some w) (hpast : after.past = o :: rest) :
    ¬ c.LeftAlone m after := by
  rintro ⟨_, _, _, _, _, _, halone⟩
  obtain ⟨rfl, _⟩ := List.cons.inj (hpast.symm.trans halone)
  cases ho

theorem takeIn_unanswered {c : Connection} {deadline : Deadline} {m : Message} {ch : Channel}
    {s : StreamState} (hr : c.channel.receive deadline = .ok m ch)
    (hm : m.command = .okay ∨ m.command = .close ∨ m.command = .write)
    (hs : c.table.find? m.arg1 = some s) {s' : StreamState} (ha : s.apply m.arg1 m = (s', none)) :
    ∃ after, c.takeIn deadline = .ok () after ∧ after.channel = ch ∧
      after.past = .arrived m (some s.phase) :: c.past ∧
      ∀ k, after.table.find? k = if k = m.arg1 then some s' else c.table.find? k := by
  have hroute : c.table.route m = .ok (c.table.set m.arg1 s', none) := by
    rw [StreamTable.route, if_pos hm, hs]
    simp only [ha]
  refine ⟨{ c.hear m ch with table := c.table.set m.arg1 s' }, ?_, rfl, ?_, ?_⟩
  · rw [takeIn, hr]
    simp only [hroute]
  · rw [hear, hs]
    rfl
  · intro k
    rw [StreamTable.find?_set, hs, Option.map_some]

theorem past_takeIn_due {c : Connection} {deadline : Deadline} {m : Message} {ch : Channel}
    {s : StreamState} {peer : UInt32} (hr : c.channel.receive deadline = .ok m ch)
    (hs : c.table.find? m.arg1 = some s) (hopen : s.phase = .opened) (hw : m.command = .write)
    (hpeer : s.peer = some peer) {after : Connection} (hin : c.takeIn deadline = .ok () after) :
    ∃ o : Occurrence, o.tried = some ⟨.okay, m.arg1, peer, []⟩ ∧
      after.past = o :: .arrived m (some .opened) :: c.past := by
  have hroute : c.table.route m = .ok (c.table.set m.arg1 (s.apply m.arg1 m).1,
      some ⟨.okay, m.arg1, peer, []⟩) := by
    rw [StreamTable.route, if_pos (.inr (.inr hw)), hs]
    simp only [StreamState.apply, hw, StreamState.supplied, hopen, hpeer]
  rw [takeIn, hr] at hin
  simp only [hroute] at hin
  cases hin
  obtain ⟨o, ho, hpast⟩ := past_acknowledge ⟨.okay, m.arg1, peer, []⟩ deadline
    { c.hear m ch with table := c.table.set m.arg1 (s.apply m.arg1 m).1 }
  refine ⟨o, ho, ?_⟩
  rw [hpast, hear, hs, Option.map_some, hopen]
  rfl

end Connection

/-- After every run: an acknowledgement by a stranger spoils the stream, and a closed stream drops
everything else; but an open one takes a stranger's data and close for its own, and acknowledges the
data to its peer. -/
theorem stranger_isolation (channel : Channel) (info : DeviceInfo) (settings : HostSettings)
    (events : List Event) :
    let c := ((Client.fresh channel info settings).after events).connection
    ∀ mid, c.Moves mid → ∀ deadline m ch s peer, mid.channel.receive deadline = .ok m ch →
      (m.command = .okay ∨ m.command = .close ∨ m.command = .write) →
      mid.table.find? m.arg1 = some s → s.peer = some peer → m.arg0 ≠ peer →
      ∃ after, mid.takeIn deadline = .ok () after ∧
        (∀ k, k ≠ m.arg1 → after.table.find? k = mid.table.find? k) ∧
        (mid.LeftAlone m after ↔ m.command = .okay ∨ s.phase = .closed) ∧
        (m.command = .okay → after.channel = ch ∧ after.table.find? m.arg1 =
          some { s with fault := some (.wrongPeer m.arg0 peer) }) ∧
        (m.command ≠ .okay → s.phase = .closed →
          after.channel = ch ∧ after.table.find? m.arg1 = some s) ∧
        (m.command = .close → s.phase ≠ .closed →
          after.channel = ch ∧ after.table.find? m.arg1 = some { s with phase := .closed }) ∧
        (m.command = .write → s.phase ≠ .closed →
          let tried := ch.put (Message.header ⟨.okay, m.arg1, peer, []⟩)
            (deadline.remainingOrFloor Deadline.transferFloor ch.now)
          after.channel = final tried ∧ after.table.find? m.arg1 =
            some (Connection.replied s m.payload (outcome tried))) := by
  intro c mid hmoves deadline m ch s peer hr hm hs hpeer hne
  have hmid : mid.Introduced := hmoves.kept (fun _ _ => Connection.Introduced.move)
    (Client.connection_after (fun _ _ => Connection.Introduced.move)
      (Connection.introduced_fresh channel info settings) events)
  have hanswered : s.phase ≠ .pending := by
    intro hp
    rw [(hmid.unanswered m.arg1 s hs hp).1] at hpeer
    cases hpeer
  have hunanswered (s' : StreamState) (ha : s.apply m.arg1 m = (s', none)) :
      ∃ after, mid.takeIn deadline = .ok () after ∧
        (∀ k, k ≠ m.arg1 → after.table.find? k = mid.table.find? k) ∧
        (mid.LeftAlone m after ↔
          s'.buffer = s.buffer ∧ (s'.phase = .closed → s.phase = .closed)) ∧
        after.channel = ch ∧ after.table.find? m.arg1 = some s' := by
    obtain ⟨after, hin, hch, hpast, htable⟩ := Connection.takeIn_unanswered hr hm hs ha
    have hfound : after.table.find? m.arg1 = some s' := by rw [htable, if_pos rfl]
    exact ⟨after, hin, fun k hk => by rw [htable, if_neg hk],
      Connection.leftAlone_iff hs hfound hpast, hch, hfound⟩
  by_cases hokay : m.command = .okay
  · obtain ⟨after, hin, hothers, halone, hkept⟩ :=
      hunanswered { s with fault := some (.wrongPeer m.arg0 peer) }
        (by simp only [StreamState.apply, hokay, StreamState.acknowledged_wrong hpeer hne])
    refine ⟨after, hin, hothers, ?_, fun _ => hkept, fun h => absurd hokay h,
      fun h => absurd (hokay.symm.trans h) (by decide),
      fun h => absurd (hokay.symm.trans h) (by decide)⟩
    exact halone.trans (iff_of_true ⟨rfl, fun h => h⟩ (.inl hokay))
  by_cases hclosed : s.phase = .closed
  · obtain ⟨after, hin, hothers, halone, hkept⟩ :=
      hunanswered s (StreamState.apply_of_closed hpeer hclosed hokay m.arg1)
    refine ⟨after, hin, hothers, ?_, fun h => absurd h hokay, fun _ _ => hkept,
      fun _ h => absurd hclosed h, fun _ h => absurd hclosed h⟩
    exact halone.trans (iff_of_true ⟨rfl, fun h => h⟩ (.inr hclosed))
  -- From here on the stream is open, and nothing in its state speaks against the sender.
  have hnot : ¬ (m.command = .okay ∨ s.phase = .closed) := not_or_intro hokay hclosed
  rcases hm.resolve_left hokay with hclose | hwrite
  · obtain ⟨after, hin, hothers, halone, hkept⟩ :=
      hunanswered { s with phase := .closed }
        (by simp only [StreamState.apply, hclose, StreamState.closedBy_known hpeer])
    refine ⟨after, hin, hothers, ?_, fun h => absurd h hokay, fun _ h => absurd h hclosed,
      fun _ _ => hkept, fun h => absurd (hclose.symm.trans h) (by decide)⟩
    exact halone.trans (iff_of_false (fun h => hclosed (h.2 rfl)) hnot)
  · have hopen : s.phase = .opened := by
      cases hp : s.phase with
      | pending => exact absurd hp hanswered
      | opened => rfl
      | closed => exact absurd hp hclosed
    obtain ⟨after, hin, hch, htable⟩ := Connection.takeIn_due hr hs hopen hwrite hpeer
    obtain ⟨o, ho, hpast⟩ := Connection.past_takeIn_due hr hs hopen hwrite hpeer hin
    refine ⟨after, hin, fun k hk => by rw [htable, if_neg hk], ?_, fun h => absurd h hokay,
      fun _ h => absurd h hclosed, fun h => absurd (hwrite.symm.trans h) (by decide),
      fun _ _ => ⟨hch, by rw [htable, if_pos rfl]⟩⟩
    exact iff_of_false (Connection.not_leftAlone ho hpast) hnot

/-- A device that answers two requests, from its streams 100 and 101. -/
def answeredTwice (late : List Message) : Link :=
  { inbound := (⟨.okay, 100, 1, []⟩ :: ⟨.okay, 101, 1, []⟩ :: late).map fun m => .chunk m.encode }

/-- Two streams one after the other under the only id there is, the first of which is closed. -/
def handedOn : List Event :=
  [.call (.openStream "a" 10), .call (.close 0), .call (.openStream "b" 10)]

/-- Data and a close that are late by one stream: the next one takes them in and is closed. -/
theorem stranger_heard_by_successor :
    let secret : Message := ⟨.write, 100, 1, [108, 97, 116, 101]⟩
    let client := (Client.fresh { link := answeredTwice [secret, ⟨.close, 100, 1, []⟩] }
      ⟨"device", "S", "", 0, 4096⟩ { streamIdLimit := 2 }).after handedOn
    let c := client.connection
    let first := final (c.takeIn ⟨0, 10⟩)
    let second := final (first.takeIn ⟨0, 10⟩)
    c.table.find? 1 = some ⟨some 101, .opened, false, [], none⟩ ∧
    first.table.find? 1 = some ⟨some 101, .opened, false, secret.payload, none⟩ ∧
    first.past = .sent ⟨.okay, 1, 101, []⟩ :: .arrived secret (some .opened) :: c.past ∧
    ¬ c.LeftAlone secret first ∧
    second.table.find? 1 = some ⟨some 101, .closed, false, secret.payload, none⟩ ∧
    (client.perform (.read 1 4 10)).1 = .data secret.payload := by
  intro secret client c first second
  have hbefore : c.table.find? 1 = some ⟨some 101, .opened, false, [], none⟩ := by decide +kernel
  have hafter : first.table.find? 1 = some ⟨some 101, .opened, false, secret.payload, none⟩ := by
    decide +kernel
  refine ⟨hbefore, hafter, by decide +kernel, ?_, by decide +kernel, by decide +kernel⟩
  rintro ⟨s, s', hs, hs', hbuffer, _⟩
  cases hbefore.symm.trans hs
  cases hafter.symm.trans hs'
  cases hbuffer

/-- Late data reach the next stream, and a late acknowledgement does not. -/
theorem stranger_isolation_late :
    let client (late : Message) : Client := (Client.fresh { link := answeredTwice [late] }
      ⟨"device", "S", "", 0, 4096⟩ { streamIdLimit := 2 }).after handedOn
    let data : Message := ⟨.write, 100, 1, [108, 97, 116, 101]⟩
    let answer : Message := ⟨.okay, 100, 1, []⟩
    (∃ after, (client data).connection.takeIn ⟨0, 10⟩ = .ok () after ∧
      ¬ (client data).connection.LeftAlone data after ∧
      (after.table.find? 1).map StreamState.buffer = some data.payload) ∧
    ∃ after, (client answer).connection.takeIn ⟨0, 10⟩ = .ok () after ∧
      (client answer).connection.LeftAlone answer after ∧
      after.table.find? 1 = some ⟨some 101, .opened, false, [], some (.wrongPeer 100 101)⟩ := by
  intro client data answer
  have hfound (late : Message) (h : (client late).connection.table.find? 1 =
      some ⟨some 101, .opened, false, [], none⟩) (hr : outcome
        ((client late).connection.channel.receive ⟨0, 10⟩) = .ok late) (hid : late.arg1 = 1)
      (hm : late.command = .okay ∨ late.command = .close ∨ late.command = .write)
      (hne : late.arg0 ≠ 101) :=
    stranger_isolation { link := answeredTwice [late] } ⟨"device", "S", "", 0, 4096⟩
      { streamIdLimit := 2 } handedOn (client late).connection .refl ⟨0, 10⟩ late _ _ 101
      (eq_ok_of_outcome hr) hm (hid ▸ h) rfl hne
  refine ⟨?_, ?_⟩
  · obtain ⟨after, hin, _, halone, _, _, _, hdata⟩ := hfound data (by decide +kernel)
      (by decide +kernel) rfl (.inr (.inr rfl)) (by decide)
    obtain ⟨_, hs⟩ := hdata rfl nofun
    refine ⟨after, hin, ?_, ?_⟩
    · rw [halone]
      exact not_or_intro nofun nofun
    · rw [hs]
      rfl
  · obtain ⟨after, hin, _, halone, hokay, _, _, _⟩ := hfound answer (by decide +kernel)
      (by decide +kernel) rfl (.inl rfl) (by decide)
    exact ⟨after, hin, halone.mpr (.inl rfl), (hokay rfl).2⟩

end DroidHost
