import DroidHost.Proofs.Service

/-! Nobody waits for longer than the bytes take that he needs. Only pauses and writes delay them. -/
namespace DroidHost

def Delivery.time : Delivery → Nat
  | taken nanos => nanos
  | refused _ => 0

namespace Arrival

/-- The time that the entries have to be waited for, one after another. -/
def delay : List Arrival → Nat
  | [] => 0
  | pause nanos :: rest => nanos + delay rest
  | _ :: rest => delay rest

theorem take_front {front : List Arrival} (hmore : front.flatMap bytes ≠ []) (back : List Arrival)
    (wanted budget left : Nat) :
    let found := take wanted budget left (front ++ back)
    ∃ rest, found.rest = rest ++ back ∧ found.waited + delay rest = delay front ∧
      match found.outcome with
      | .ok got => front.flatMap bytes = got ++ rest.flatMap bytes
      | .error _ => front.flatMap bytes = rest.flatMap bytes := by
  induction front generalizing left with
  | nil => exact absurd rfl hmore
  | cons a front ih =>
    rw [List.cons_append]
    cases a with
    | pause nanos =>
      unfold take
      by_cases hshort : nanos ≤ left
      · obtain ⟨rest, hrest, hwaited, hbytes⟩ := ih hmore (left - nanos)
        rw [if_pos hshort]
        refine ⟨rest, hrest, ?_, hbytes⟩
        simp only [Found.after, delay]
        omega
      · rw [if_neg hshort]
        refine ⟨pause (nanos - left) :: front, rfl, ?_, rfl⟩
        simp only [delay]
        omega
    | fault f => exact ⟨front, rfl, Nat.zero_add _, rfl⟩
    | chunk got =>
      unfold take
      by_cases hfits : got.length ≤ wanted
      · rw [if_pos hfits]
        exact ⟨front, rfl, Nat.zero_add _, rfl⟩
      · rw [if_neg hfits]
        refine ⟨chunk (got.drop wanted) :: front, rfl, Nat.zero_add _, ?_⟩
        dsimp only
        rw [List.flatMap_cons, List.flatMap_cons, ← List.append_assoc]
        exact congrArg (· ++ _) (List.take_append_drop wanted got).symm

end Arrival

namespace Link

/-- The time that the next writes take together. -/
def due (count : Nat) (link : Link) : Nat :=
  (link.plan.take count).foldr (fun d total => d.time + total) 0

theorem due_mono {n k : Nat} (h : n ≤ k) (link : Link) : link.due n ≤ link.due k := by
  unfold due
  generalize link.plan = plan
  induction plan generalizing n k with
  | nil => simp only [List.take_nil, Nat.le_refl]
  | cons d rest ih =>
    cases n with
    | zero => exact Nat.zero_le _
    | succ n =>
      obtain ⟨k, rfl⟩ := Nat.exists_eq_succ_of_ne_zero (Nat.ne_zero_of_lt h)
      exact Nat.add_le_add_left (ih (Nat.le_of_succ_le_succ h)) _

end Link

namespace Channel

/-- What is still to come ends with `back`. The bytes in front, with those kept of a message, are
`held`, and will have come by `limit`. -/
def Before (back : List Arrival) (held : Bytes) (limit : Nat) (ch : Channel) : Prop :=
  ∃ front, ch.link.inbound = front ++ back ∧ ch.fragment ++ front.flatMap Arrival.bytes = held ∧
    ch.now + Arrival.delay front = limit

variable {back : List Arrival} {held : Bytes} {limit : Nat}

/-- One read that needs only bytes in front: what it gets goes to the fragment. -/
theorem Before.read {ch : Channel} (h : ch.Before back held limit)
    (hmore : ch.fragment.length < held.length) (wanted budget : Nat) :
    match ch.link.read wanted budget with
    | .ok got link => Before back held limit { link := link, fragment := ch.fragment ++ got }
    | .error _ link => Before back held limit { ch with link := link } := by
  obtain ⟨front, hinbound, hheld, htime⟩ := h
  have hsome : front.flatMap Arrival.bytes ≠ [] := by
    intro hnone
    rw [hnone, List.append_nil] at hheld
    rw [hheld] at hmore
    exact Nat.lt_irrefl _ hmore
  unfold Link.read
  by_cases hclosed : ch.link.isClosed = true
  · rw [if_pos hclosed]
    exact ⟨front, hinbound, hheld, htime⟩
  · rw [if_neg hclosed, hinbound]
    obtain ⟨rest, hrest, hwaited, hbytes⟩ := Arrival.take_front hsome back wanted budget budget
    have hnow : ch.link.now + (Arrival.take wanted budget budget (front ++ back)).waited +
        Arrival.delay rest = limit := by
      rw [← htime, ← hwaited, ← Nat.add_assoc]
      rfl
    dsimp only
    cases hfound : (Arrival.take wanted budget budget (front ++ back)).outcome with
    | ok got =>
      rw [hfound] at hbytes
      refine ⟨rest, hrest, ?_, hnow⟩
      rw [← hheld, hbytes, List.append_assoc]
    | error f =>
      rw [hfound] at hbytes
      exact ⟨rest, hrest, hbytes ▸ hheld, hnow⟩

theorem Before.fill {ch : Channel} (h : ch.Before back held limit) {target : Nat}
    (henough : target ≤ held.length) (deadline : Deadline) :
    (final (ch.fill target deadline)).Before back held limit := by
  fun_induction Channel.fill target deadline ch with
  | case1 ch hle => exact h
  | case2 ch hlt f link hr =>
    have hread := h.read (Nat.lt_of_lt_of_le (Nat.lt_of_not_le hlt) henough)
      (target - ch.fragment.length) (ch.allowance deadline)
    rw [hr] at hread
    exact hread
  | case3 ch hlt link hr =>
    have hread := h.read (Nat.lt_of_lt_of_le (Nat.lt_of_not_le hlt) henough)
      (target - ch.fragment.length) (ch.allowance deadline)
    rw [hr] at hread
    dsimp only at hread
    rw [List.append_nil] at hread
    exact hread
  | case4 ch hlt b got link hr ih =>
    have hread := h.read (Nat.lt_of_lt_of_le (Nat.lt_of_not_le hlt) henough)
      (target - ch.fragment.length) (ch.allowance deadline)
    rw [hr] at hread
    exact ih hread

theorem Before.gather {ch : Channel} (h : ch.Before back held limit)
    (hwhole : Message.parse held ≠ []) (deadline : Deadline) :
    (final (ch.gather deadline)).Before back held limit := by
  have hlong : Header.size ≤ held.length := by
    apply Nat.le_of_not_lt
    intro hshort
    exact hwhole (Message.parse_of_short hshort)
  have hfill := h.fill hlong deadline
  unfold Channel.gather
  cases hr : ch.fill Header.size deadline with
  | error e mid =>
    rw [hr] at hfill
    exact hfill
  | ok u mid =>
    rw [hr] at hfill
    have hhere := (fill_ok hr).2.2
    dsimp only
    cases hd : Header.decode (mid.fragment.take Header.size) with
    | error e => exact hfill
    | ok header =>
      -- The header in the fragment is the one in front of all these bytes.
      have hsame : Header.decode (held.take Header.size) = .ok header := by
        obtain ⟨front, _, hheld, _⟩ := hfill
        rw [← hheld, final_ok, List.take_append_of_le_length hhere]
        exact hd
      have hpayload : Header.size + header.length.toNat ≤ held.length := by
        apply Nat.le_of_not_lt
        intro hcut
        exact hwhole (Message.parse_of_cut hsame hcut)
      have hmore := Before.fill hfill hpayload deadline
      dsimp only
      rw [final_ok] at hmore
      cases hr' : mid.fill (Header.size + header.length.toNat) deadline with
      | error e after =>
        rw [hr'] at hmore
        exact hmore
      | ok u after =>
        rw [hr'] at hmore
        dsimp only
        cases header.finish (after.fragment.drop Header.size) with
        | error e => exact hmore
        | ok m => exact hmore

theorem Before.receive {ch : Channel} (h : ch.Before back held limit) (hframed : ch.Framed)
    (hwhole : Message.parse held ≠ []) (deadline : Deadline) :
    match ch.receive deadline with
    | .ok m after => ∃ rest, after.Before back rest limit ∧
        Message.parse held = .ok m :: Message.parse rest
    | .error e after => e.isTimeout = true → after.Before back held limit := by
  have hgather := h.gather hwhole deadline
  have hparsed := gather_framed hframed deadline
  unfold Channel.receive
  cases hr : ch.gather deadline with
  | ok m mid =>
    rw [hr] at hgather hparsed
    obtain ⟨front, hinbound, hheld, htime⟩ := hgather
    refine ⟨front.flatMap Arrival.bytes, ⟨front, hinbound, rfl, htime⟩, ?_⟩
    rw [← hheld, final_ok]
    exact hparsed.2.2 _
  | error e mid =>
    rw [hr] at hgather
    intro htimeout
    rw [if_pos htimeout]
    exact hgather

/-- So many writes were tried in between and nothing else, in the time that is planned for them. -/
structure Paid (writes : Nat) (ch after : Channel) : Prop where
  isOpen : after.link.isClosed = false
  inbound : after.link.inbound = ch.link.inbound
  fragment : after.fragment = ch.fragment
  time : ∀ count, after.now + after.link.due count = ch.now + ch.link.due (count + writes)

theorem Paid.refl {ch : Channel} (hopen : ch.link.isClosed = false) : Paid 0 ch ch where
  isOpen := hopen
  inbound := rfl
  fragment := rfl
  time := fun _ => rfl

theorem put_paid {ch : Channel} (hopen : ch.link.isClosed = false) (bytes : Bytes) (budget : Nat) :
    Paid 1 ch (final (ch.put bytes budget)) := by
  unfold put Link.write
  rw [if_neg (by rw [hopen]; exact Bool.false_ne_true)]
  cases hplan : ch.link.plan with
  | nil =>
    refine ⟨hopen, rfl, rfl, fun count => ?_⟩
    simp only [Link.due, Link.record, hplan, List.take_nil, final_ok, now]
  | cons d rest =>
    cases d with
    | taken nanos =>
      refine ⟨hopen, rfl, rfl, fun count => ?_⟩
      simp only [Link.due, Link.record, hplan, List.take_succ_cons, List.foldr_cons, final_ok, now,
        Delivery.time, Nat.add_assoc]
    | refused f =>
      refine ⟨hopen, rfl, rfl, fun count => ?_⟩
      simp only [Link.due, Link.record, hplan, List.take_succ_cons, List.foldr_cons, final_error,
        now, Delivery.time, Nat.zero_add]

theorem Paid.framed {writes : Nat} {ch after : Channel} (h : Paid writes ch after)
    (hframed : ch.Framed) : after.Framed ∧ after.stream = ch.stream := by
  refine ⟨⟨⟨h.isOpen, ?_⟩, ?_⟩, ?_⟩
  · rw [h.inbound]
    exact hframed.steady.harmless
  · rw [h.fragment]
    exact hframed.cut
  · rw [stream, stream, Link.coming, Link.coming, h.inbound, h.fragment]

/-- In between these messages were heard and so many writes were tried. As long as what was heard is
from the front, the writes alone put off the time by which the rest will have come. -/
def Spent (heard : List Message) (writes : Nat) (ch after : Channel) : Prop :=
  ∀ back held limit, ch.Before back held limit → heard.length < (Message.parse held).length →
    ∃ rest later, after.Before back rest later ∧
      Message.parse held = heard.map .ok ++ Message.parse rest ∧
      ∀ count, later + after.link.due count = limit + ch.link.due (count + writes)

theorem Spent.refl (ch : Channel) : Spent [] 0 ch ch :=
  fun _ held limit hbefore _ => ⟨held, limit, hbefore, rfl, fun _ => rfl⟩

theorem Spent.trans {heard more : List Message} {writes further : Nat} {ch mid after : Channel}
    (h : Spent heard writes ch mid) (h' : Spent more further mid after) :
    Spent (heard ++ more) (further + writes) ch after := by
  intro back held limit hbefore hlonger
  -- What the first part leaves in front is still more than the second part hears.
  rw [List.length_append] at hlonger
  obtain ⟨rest, later, hmid, hparse, htime⟩ := h back held limit hbefore (by omega)
  have hrest : more.length < (Message.parse rest).length := by
    rw [hparse, List.length_append, List.length_map] at hlonger
    omega
  obtain ⟨last, latest, hafter, hparse', htime'⟩ := h' back rest later hmid hrest
  refine ⟨last, latest, hafter, ?_, fun count => ?_⟩
  · rw [hparse, hparse', List.map_append, List.append_assoc]
  · rw [htime', htime, Nat.add_assoc]

/-- Whoever has heard less than there is in front has not waited for longer than all of that takes,
but for the time that the writes took. -/
theorem Spent.now_le {heard : List Message} {writes : Nat} {ch after : Channel}
    (h : Spent heard writes ch after) {front back : List Arrival}
    (hinbound : ch.link.inbound = front ++ back)
    (hmore : heard.length <
      (Message.parse (ch.fragment ++ front.flatMap Arrival.bytes)).length) :
    after.now ≤ ch.now + Arrival.delay front + ch.link.due writes := by
  obtain ⟨rest, later, ⟨front', _, _, hlater⟩, _, htime⟩ :=
    h back _ _ ⟨front, hinbound, rfl, rfl⟩ hmore
  have hnone : after.link.due 0 = 0 := rfl
  have htotal := htime 0
  rw [hnone, Nat.zero_add, Nat.add_zero, ← hlater] at htotal
  calc after.now ≤ after.now + Arrival.delay front' := Nat.le_add_right _ _
    _ = ch.now + Arrival.delay front + ch.link.due writes := htotal

theorem Paid.spent {writes : Nat} {ch after : Channel} (h : Paid writes ch after) :
    Spent [] writes ch after := by
  rintro back held limit ⟨front, hinbound, hheld, htime⟩ _
  refine ⟨held, after.now + Arrival.delay front, ⟨front, ?_, ?_, rfl⟩, rfl, fun count => ?_⟩
  · rw [h.inbound, hinbound]
  · rw [h.fragment, hheld]
  · have hpaid := h.time count
    omega

theorem spent_receive {ch : Channel} (hframed : ch.Framed) (deadline : Deadline) :
    match ch.receive deadline with
    | .ok m after => Spent [m] 0 ch after
    | .error e after => e.isTimeout = true → Spent [] 0 ch after := by
  have hplan := plan_receive deadline ch
  have hread {back : List Arrival} {held : Bytes} {limit : Nat} (h : ch.Before back held limit)
      {heard : Nat} (hmore : heard < (Message.parse held).length) := by
    apply h.receive hframed _ deadline
    intro hnone
    rw [hnone] at hmore
    exact Nat.not_lt_zero _ hmore
  cases hr : ch.receive deadline with
  | ok m after =>
    intro back held limit hbefore hmore
    have hheld := hread hbefore hmore
    rw [hr] at hheld hplan
    obtain ⟨rest, hrest, hparse⟩ := hheld
    refine ⟨rest, limit, hrest, hparse, fun count => ?_⟩
    rw [Link.due, Link.due, ← hplan]
    rfl
  | error e after =>
    intro htimeout back held limit hbefore hmore
    have hheld := hread hbefore hmore
    rw [hr] at hheld hplan
    refine ⟨held, limit, hheld htimeout, rfl, fun count => ?_⟩
    rw [Link.due, Link.due, ← hplan]
    rfl

end Channel
end DroidHost
