import DroidHost.Bridge.Handshake
import DroidHost.Proofs.Run

/-! What the host puts on the wire, told from the record of which writes got through. -/
namespace DroidHost

def Transfer.put : Transfer → Bytes
  | sent bytes _ => bytes
  | _ => []

namespace Link

/-- All bytes that were written, in order. -/
def wire (link : Link) : Bytes := link.past.reverse.flatMap Transfer.put

theorem wire_of_past {link after : Link} {t : Transfer} (h : after.past = t :: link.past) :
    after.wire = link.wire ++ t.put := by
  rw [wire, h, List.reverse_cons, List.flatMap_append, List.flatMap_singleton, wire]

theorem wire_read (wanted budget : Nat) (link : Link) :
    (final (link.read wanted budget)).wire = link.wire := by
  have h := link.read_record wanted budget
  cases hr : link.read wanted budget with
  | ok bytes after =>
    rw [hr] at h
    exact (wire_of_past h).trans (List.append_nil _)
  | error f after =>
    rw [hr] at h
    exact (wire_of_past h).trans (List.append_nil _)

end Link

namespace Channel

theorem wire_fill (target : Nat) (deadline : Deadline) (ch : Channel) :
    (final (ch.fill target deadline)).link.wire = ch.link.wire := by
  fun_induction fill target deadline ch with
  | case1 => rfl
  | case2 ch hlt f link hr =>
    have hl := Link.wire_read (target - ch.fragment.length) (ch.allowance deadline) ch.link
    rw [hr] at hl
    exact hl
  | case3 ch hlt link hr =>
    have hl := Link.wire_read (target - ch.fragment.length) (ch.allowance deadline) ch.link
    rw [hr] at hl
    exact hl
  | case4 ch hlt b bytes link hr ih =>
    have hl := Link.wire_read (target - ch.fragment.length) (ch.allowance deadline) ch.link
    rw [hr] at hl
    exact ih.trans hl

theorem wire_gather (deadline : Deadline) (ch : Channel) :
    (final (ch.gather deadline)).link.wire = ch.link.wire := by
  have h₁ := wire_fill Header.size deadline ch
  unfold gather
  split
  · next hf =>
    rw [hf] at h₁
    exact h₁
  · next mid hf =>
    rw [hf] at h₁
    split
    · exact h₁
    · next header _ =>
      have h₂ := wire_fill (Header.size + header.length.toNat) deadline mid
      split
      · next hg =>
        rw [hg] at h₂
        exact h₂.trans h₁
      · next hg =>
        rw [hg] at h₂
        split
        · exact h₂.trans h₁
        · exact h₂.trans h₁

theorem wire_receive (deadline : Deadline) (ch : Channel) :
    (final (ch.receive deadline)).link.wire = ch.link.wire := by
  rw [link_receive]
  exact wire_gather deadline ch

theorem wire_put (bytes : Bytes) (budget : Nat) (ch : Channel) :
    match ch.put bytes budget with
    | .ok _ after => after.link.wire = ch.link.wire ++ bytes
    | .error _ after => after.link.wire = ch.link.wire := by
  have h := put_record bytes budget ch
  cases hp : ch.put bytes budget with
  | ok u after =>
    rw [hp] at h
    exact Link.wire_of_past h.1
  | error f after =>
    rw [hp] at h
    exact (Link.wire_of_past h).trans (List.append_nil _)

theorem wire_sendHeader (m : Message) (deadline : Deadline) (ch : Channel) :
    match ch.sendHeader m deadline with
    | .ok _ after => after.link.wire = ch.link.wire ++ m.header
    | .error _ after => after.link.wire = ch.link.wire := ch.wire_put _ _

theorem wire_sendPayload (m : Message) (deadline : Deadline) (ch : Channel) :
    match ch.sendPayload m deadline with
    | .ok _ after => after.link.wire = ch.link.wire ++ m.payload
    | .error _ after => after.link.wire = ch.link.wire ∧ m.payload ≠ [] := by
  have h := ch.wire_put m.payload (deadline.remainingOrFloor Deadline.transferFloor ch.now)
  unfold sendPayload
  by_cases he : m.payload.isEmpty = true
  · rw [if_pos he, List.isEmpty_iff.mp he]
    exact (List.append_nil _).symm
  · rw [if_neg he]
    split
    · next hp =>
      rw [hp] at h
      exact h
    · next hp =>
      rw [hp] at h
      refine ⟨h, ?_⟩
      intro hn
      exact he (List.isEmpty_iff.mpr hn)

theorem wire_receiveOneOf (expected : List Command) (deadline : Deadline) (ch : Channel) :
    (final (ch.receiveOneOf expected deadline)).link.wire = ch.link.wire := by
  fun_induction receiveOneOf expected deadline ch with
  | case1 => rfl
  | case2 ch _ m after hr _ =>
    have h := wire_receive deadline ch
    rw [hr] at h
    exact h
  | case3 ch _ m after hr _ ih =>
    have h := wire_receive deadline ch
    rw [hr] at h
    exact ih.trans h
  | case4 ch _ e after hr _ =>
    have h := wire_receive deadline ch
    rw [hr] at h
    exact h
  | case5 ch _ e after hr _ =>
    have h := wire_receive deadline ch
    rw [hr] at h
    exact h

/-- Whole messages were written in between, and nothing else. -/
def Posted (ch after : Channel) : Prop :=
  ∃ ms : List Message, after.link.wire = ch.link.wire ++ ms.flatMap Message.encode

theorem Posted.of_eq {ch after : Channel} (h : after.link.wire = ch.link.wire) :
    Posted ch after := ⟨[], h.trans (List.append_nil _).symm⟩

theorem Posted.trans {ch mid after : Channel} (h : Posted ch mid) (h' : Posted mid after) :
    Posted ch after := by
  obtain ⟨first, hw⟩ := h
  obtain ⟨second, hw'⟩ := h'
  refine ⟨first ++ second, ?_⟩
  rw [hw', hw, List.flatMap_append, List.append_assoc]

theorem posted_post {m : Message} {deadline : Deadline} {ch after : Channel} {u : Unit}
    (h : post m deadline ch = .ok u after) : Posted ch after := by
  have h₁ := ch.wire_sendHeader m deadline
  unfold post send at h
  split at h
  · next hs =>
    cases h
    split at hs
    · cases hs
    · next mid hh =>
      have h₂ := mid.wire_sendPayload m deadline
      rw [hh] at h₁
      rw [hs] at h₂
      refine ⟨[m], ?_⟩
      rw [h₂, h₁, List.flatMap_singleton, Message.encode, List.append_assoc]
  · cases h

theorem posted_receiveOneOf {expected : List Command} {deadline : Deadline} {ch after : Channel}
    {m : Message} (h : ch.receiveOneOf expected deadline = .ok m after) : Posted ch after := by
  have hw := wire_receiveOneOf expected deadline ch
  rw [h] at hw
  exact .of_eq hw

theorem posted_tryKeys {deadline : Deadline} {signers : List Signer} {challenge : Message}
    {ch after : Channel} {reply : Option Message}
    (h : tryKeys deadline signers challenge ch = .ok reply after) : Posted ch after := by
  induction signers generalizing challenge ch with
  | nil =>
    cases h
    exact .of_eq rfl
  | cons key rest ih =>
    unfold tryKeys at h
    dsimp only at h
    split at h
    · cases h
    · obtain ⟨_, posted, hp, h⟩ := bind_ok h
      obtain ⟨answer, heard, hr, h⟩ := bind_ok h
      have hh : Posted ch heard := (posted_post hp).trans (posted_receiveOneOf hr)
      split at h
      · cases h
        exact hh
      · exact hh.trans (ih h)

theorem posted_offerKey {key : Signer} {settings : HostSettings} {deadline : Deadline}
    {ch after : Channel} {reply : Message}
    (h : offerKey key settings deadline ch = .ok reply after) : Posted ch after := by
  unfold offerKey at h
  obtain ⟨_, posted, hp, h⟩ := bind_ok h
  obtain ⟨state, same, hg, h⟩ := bind_ok h
  cases hg
  apply (posted_post hp).trans
  rcases tryCatch_ok h with hr | ⟨e, mid, _, he⟩
  · exact posted_receiveOneOf hr
  · split at he <;> cases he

theorem posted_authenticate {signers : List Signer} {settings : HostSettings}
    {deadline : Deadline} {challenge : Message} {ch after : Channel} {reply : Message}
    (h : authenticate signers settings deadline challenge ch = .ok reply after) :
    Posted ch after := by
  unfold authenticate at h
  split at h
  · cases h
  · obtain ⟨found, tried, ht, h⟩ := bind_ok h
    have hh := posted_tryKeys ht
    split at h
    · cases h
      exact hh
    · exact hh.trans (posted_offerKey h)

theorem posted_connect {signers : List Signer} {settings : HostSettings} {ch after : Channel}
    {info : DeviceInfo} (h : connect signers settings ch = .ok info after) : Posted ch after := by
  unfold connect at h
  obtain ⟨state, same, hg, h⟩ := bind_ok h
  cases hg
  obtain ⟨_, posted, hp, h⟩ := bind_ok h
  obtain ⟨answer, heard, hr, h⟩ := bind_ok h
  have hh : Posted ch heard := (posted_post hp).trans (posted_receiveOneOf hr)
  dsimp only at h
  split at h
  · obtain ⟨accepted, agreed, ha, h⟩ := bind_ok h
    have hagreed := hh.trans (posted_authenticate ha)
    generalize DeviceInfo.parse _ _ _ = parsed at h
    cases parsed <;> cases h
    exact hagreed
  · generalize DeviceInfo.parse _ _ _ = parsed at h
    cases parsed <;> cases h
    exact hh

end Channel

/-- The two halves of a message on the wire. -/
inductive Part
  | header
  | payload
  deriving DecidableEq, Repr

def Part.of (m : Message) : Part → Bytes
  | header => m.header
  | payload => m.payload

def Part.join (writes : List (Message × Part)) : Bytes := writes.flatMap fun w => w.2.of w.1

/-- An empty payload is not written. -/
def Message.writes (m : Message) : List (Message × Part) :=
  (m, .header) :: if m.payload = [] then [] else [(m, .payload)]

def Occurrence.writes : Occurrence → List (Message × Part)
  | sent m => m.writes
  | unsent m true => [(m, .header)]
  | _ => []

theorem join_append (xs ys : List (Message × Part)) :
    Part.join (xs ++ ys) = Part.join xs ++ Part.join ys := List.flatMap_append

theorem join_writes (m : Message) : Part.join m.writes = m.encode := by
  unfold Part.join Message.writes Message.encode
  by_cases h : m.payload = []
  · rw [if_pos h, List.flatMap_singleton, h, List.append_nil]
    rfl
  · rw [if_neg h, List.flatMap_cons, List.flatMap_singleton]
    rfl

namespace Connection

def wire (c : Connection) : Bytes := c.channel.link.wire

/-- The writes that got through, in order. -/
def writes (c : Connection) : List (Message × Part) := c.past.reverse.flatMap Occurrence.writes

/-- What happened in between accounts for all that was written in between. -/
def Wrote (c after : Connection) : Prop :=
  ∃ lately : List Occurrence, after.past = lately ++ c.past ∧
    after.wire = c.wire ++ Part.join (lately.reverse.flatMap Occurrence.writes) ∧
    ∀ m, .unsent m true ∈ lately → m.payload ≠ []

theorem Wrote.of_eq {c after : Connection} (hp : after.past = c.past) (hw : after.wire = c.wire) :
    Wrote c after := by
  refine ⟨[], hp, ?_, nofun⟩
  rw [hw]
  exact (List.append_nil _).symm

theorem Wrote.refl (c : Connection) : Wrote c c := .of_eq rfl rfl

theorem Wrote.trans {c mid after : Connection} (h : Wrote c mid) (h' : Wrote mid after) :
    Wrote c after := by
  obtain ⟨first, hp, hw, ht⟩ := h
  obtain ⟨second, hp', hw', ht'⟩ := h'
  refine ⟨second ++ first, ?_, ?_, ?_⟩
  · rw [hp', hp, List.append_assoc]
  · rw [hw', hw, List.append_assoc, List.reverse_append, List.flatMap_append, join_append]
  · intro m hm
    rcases List.mem_append.mp hm with hm | hm
    · exact ht' m hm
    · exact ht m hm

theorem wrote_note (c : Connection) {o : Occurrence} (ho : o.writes = [])
    (hn : ∀ m, o ≠ .unsent m true) : Wrote c (c.note o) := by
  refine ⟨[o], rfl, ?_, ?_⟩
  · rw [List.reverse_singleton, List.flatMap_singleton, ho]
    exact (List.append_nil _).symm
  · intro m hm
    exact absurd (List.mem_singleton.mp hm).symm (hn m)

theorem send_record (m : Message) (deadline : Deadline) (c : Connection) :
    match c.send m deadline with
    | .ok _ after => after.past = .sent m :: c.past ∧ after.wire = c.wire ++ m.encode
    | .error _ after => ∃ begun, after.past = .unsent m begun :: c.past ∧
        after.wire = c.wire ++ (if begun then m.header else []) ∧
        (begun = true → m.payload ≠ []) := by
  have h₁ := c.channel.wire_sendHeader m deadline
  unfold send
  cases hs : c.channel.sendHeader m deadline with
  | error f ch =>
    rw [hs] at h₁
    exact ⟨false, rfl, h₁.trans (List.append_nil _).symm, nofun⟩
  | ok u ch =>
    rw [hs] at h₁
    have h₂ := ch.wire_sendPayload m deadline
    dsimp only
    cases hp : ch.sendPayload m deadline with
    | error f last =>
      rw [hp] at h₂
      exact ⟨true, rfl, h₂.1.trans h₁, fun _ => h₂.2⟩
    | ok u last =>
      rw [hp] at h₂
      refine ⟨rfl, ?_⟩
      calc last.link.wire = ch.link.wire ++ m.payload := h₂
        _ = c.wire ++ m.header ++ m.payload := congrArg (· ++ m.payload) h₁
        _ = c.wire ++ m.encode := List.append_assoc ..

theorem wrote_send (m : Message) (deadline : Deadline) (c : Connection) :
    Wrote c (final (c.send m deadline)) := by
  have h := c.send_record m deadline
  cases hs : c.send m deadline with
  | ok u after =>
    rw [hs] at h
    refine ⟨[.sent m], h.1, ?_, nofun⟩
    rw [List.reverse_singleton, List.flatMap_singleton, Occurrence.writes, join_writes]
    exact h.2
  | error f after =>
    rw [hs] at h
    obtain ⟨begun, hp, hw, ht⟩ := h
    refine ⟨[.unsent m begun], hp, ?_, ?_⟩
    · rw [final_error, hw]
      cases begun with
      | true => exact congrArg (c.wire ++ ·) (List.append_nil _).symm
      | false => rfl
    · intro m' hm
      cases List.mem_singleton.mp hm
      exact ht rfl

theorem wrote_release (id : UInt32) (c : Connection) : Wrote c (c.release id) := by
  unfold release
  split
  · exact .refl c
  · have hr : Wrote c (c.remove id) := (Wrote.of_eq rfl rfl).trans (wrote_note _ rfl nofun)
    split
    · exact hr
    · exact hr.trans (wrote_send _ _ _)

theorem wrote_spoil (id : UInt32) (fault : StreamFault) (c : Connection) :
    Wrote c (c.spoil id fault) := by
  unfold spoil
  split
  · exact .of_eq rfl rfl
  · exact .refl c

theorem wrote_acknowledge (ack : Message) (deadline : Deadline) (c : Connection) :
    Wrote c (c.acknowledge ack deadline) := by
  have h := wrote_send ack (c.deadline (deadline.remainingOrFloor Deadline.transferFloor c.now)) c
  unfold acknowledge
  split
  · next hs =>
    rw [hs] at h
    exact h
  · next hs =>
    rw [hs] at h
    exact h.trans (wrote_spoil _ _ _)

theorem wrote_takeIn (deadline : Deadline) (c : Connection) :
    Wrote c (final (c.takeIn deadline)) := by
  have hch := c.channel.wire_receive deadline
  unfold takeIn
  split
  · next hr =>
    rw [hr] at hch
    split
    · exact .of_eq rfl hch
    · exact .of_eq rfl hch
  · next m ch hr =>
    rw [hr] at hch
    have hc : Wrote c { c with channel := ch } := .of_eq rfl hch
    have hh : Wrote c (c.hear m ch) := hc.trans (wrote_note _ rfl nofun)
    split
    · exact hh
    · exact hh.trans (.of_eq rfl rfl)
    · exact (hh.trans (.of_eq rfl rfl)).trans (wrote_acknowledge _ _ _)

theorem wrote_ask (destination : String) (deadline : Deadline) (c : Connection) :
    Wrote c (final (c.ask destination deadline)) := by
  unfold ask
  split
  · exact .of_eq rfl rfl
  · next id table _ =>
    have he : Wrote c ({ c with table := table }.enter id) :=
      (Wrote.of_eq rfl rfl).trans (wrote_note { c with table := table.insert id .fresh } rfl nofun)
    have hs := wrote_send ⟨.start, id, 0, Text.Utf8.encode destination ++ [0]⟩ deadline
      ({ c with table := table }.enter id)
    split
    · next hr =>
      rw [hr] at hs
      exact (he.trans hs).trans (wrote_release _ _)
    · next hr =>
      rw [hr] at hs
      exact he.trans hs

theorem wrote_sendPiece (id : UInt32) (deadline : Deadline) (piece : Bytes) (c : Connection) :
    Wrote c (final (c.sendPiece id deadline piece)) := by
  unfold sendPiece
  split
  · exact .refl c
  · split
    · exact .refl c
    · next peer _ =>
      have hs := wrote_send ⟨.write, id, peer, piece⟩ deadline c
      split
      · next hr =>
        rw [hr] at hs
        exact hs
      · next hr =>
        rw [hr] at hs
        exact hs.trans (.of_eq rfl rfl)

theorem Move.wrote {c after : Connection} (h : Move c after) : Wrote c after := by
  cases h with
  | outside link hp =>
    have hw : link.wire = c.channel.link.wire := by rw [Link.wire, hp, Link.wire]
    exact .of_eq rfl hw
  | ask destination deadline => exact wrote_ask destination deadline c
  | takeIn deadline => exact wrote_takeIn deadline c
  | sendPiece id deadline piece => exact wrote_sendPiece id deadline piece c
  | take id length bytes hi =>
    obtain ⟨s, s', _, _, rfl⟩ := inspect_ok hi
    have hs : Wrote c (c.setStream id s') := .of_eq rfl rfl
    exact hs.trans (wrote_note _ rfl nofun)
  | release id => exact wrote_release id c

theorem Moves.wrote {c after : Connection} (h : Moves c after) : Wrote c after := by
  induction h with
  | refl => exact .refl c
  | tail _ hm ih => exact ih.trans hm.wrote

theorem Wrote.wire_prefix {c after : Connection} (h : Wrote c after) : c.wire <+: after.wire := by
  obtain ⟨lately, _, hw, _⟩ := h
  exact ⟨_, hw.symm⟩

end Connection

end DroidHost
