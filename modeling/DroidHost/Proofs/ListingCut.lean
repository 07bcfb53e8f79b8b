import DroidHost.Proofs.Replies

/-! Listings that are given up before their end. What is left of one is read all the same. -/
namespace DroidHost

/-- The answer of a listing that is given up after so many items. -/
def SyncAnswer.upTo (limit : Option Nat) : SyncAnswer → SyncAnswer
  | list (.ok items) => list (.ok (limit.elim items items.take))
  | answer => answer

namespace SyncSession

theorem drain_eq (s : SyncSession) (c : Connection) : s.drain c = (s.entries c).2 := by
  fun_induction drain s c with
  | case1 c entry after hnext ih =>
    rw [entries, hnext]
    exact ih
  | case2 c after hnext => rw [entries, hnext]
  | case3 c e after hnext => rw [entries, hnext]

theorem firstEntries_eq (s : SyncSession) (count : Nat) (c : Connection) :
    s.firstEntries count c = ((s.entries c).1.take count, (s.entries c).2) := by
  induction count generalizing c with
  | zero => rw [firstEntries, drain_eq, List.take_zero]
  | succ count ih =>
    rw [firstEntries, entries]
    cases s.nextEntry c with
    | error e after => rw [List.take_succ_cons, List.take_nil]
    | ok found after =>
      cases found with
      | none => rw [List.take_nil]
      | some entry =>
        dsimp only
        rw [ih, List.take_succ_cons]

theorem list_upTo (s : SyncSession) (path : String) (limit : Option Nat) (c : Connection) :
    outcome (s.list path limit c) =
        (outcome (s.list path none c)).map (fun items => limit.elim items items.take) ∧
      final (s.list path limit c) = final (s.list path none c) := by
  unfold list
  cases s.request .list (Text.Utf8.encode path) c with
  | error e mid => exact ⟨rfl, rfl⟩
  | ok u mid =>
    cases limit with
    | none => exact ⟨rfl, rfl⟩
    | some count =>
      dsimp only
      rw [firstEntries_eq]
      exact ⟨rfl, rfl⟩

end SyncSession

def SyncRequest.performUpTo (s : SyncSession) (limit : Option Nat) :
    SyncRequest → Connection → SyncAnswer × Connection
  | list path, c => (.list (outcome (s.list path limit c)), final (s.list path limit c))
  | request, c => request.perform s c

theorem SyncRequest.performUpTo_eq (s : SyncSession) (limit : Option Nat) (request : SyncRequest)
    (c : Connection) :
    request.performUpTo s limit c =
      ((request.perform s c).1.upTo limit, (request.perform s c).2) := by
  cases request with
  | list path =>
    obtain ⟨hanswer, hfinal⟩ := s.list_upTo path limit c
    rw [performUpTo, hanswer, hfinal, perform]
    cases outcome (s.list path none c) <;> rfl
  | stat path => rfl
  | recv path sink => rfl

namespace SyncSession
open Connection

/-- Requests one after another, each with what arrives after it and the number of items after which
a listing is given up. -/
def converseUpTo (s : SyncSession) :
    List (SyncTurn × Option Nat) → Connection → List SyncAnswer × Connection
  | [], c => ([], c)
  | (turn, limit) :: rest, c =>
    let done := turn.request.performUpTo s limit (c.supply turn.arrivals)
    let last := converseUpTo s rest done.2
    (done.1 :: last.1, last.2)

theorem converseUpTo_eq (s : SyncSession) (turns : List (SyncTurn × Option Nat)) (c : Connection) :
    let full := s.converse (turns.map (·.1)) c
    s.converseUpTo turns c =
      (List.zipWith (fun turn answer => answer.upTo turn.2) turns full.1, full.2) := by
  induction turns generalizing c with
  | nil => rfl
  | cons turn rest ih =>
    obtain ⟨turn, limit⟩ := turn
    dsimp only at ih ⊢
    rw [converseUpTo, SyncRequest.performUpTo_eq, ih, List.map_cons, converse, List.zipWith_cons_cons]
    rfl

end SyncSession

/-- A listing that is given up gives the first items of the full one and leaves the connection that
the full one leaves, on every connection. If the device serves it and nothing is overdue, the
answers that follow are those of the parser behind the listing. -/
theorem listing_given_up (s : SyncSession) (path : String) :
    (∀ count c,
      let full := s.list path none c
      let cut := s.list path (some count) c
      outcome cut = (outcome full).map (·.take count) ∧ final cut = final full ∧
        ∀ later : List (SyncTurn × Option Nat),
          let rest := s.converse (later.map (·.1)) (final full)
          s.converseUpTo later (final cut) =
            (List.zipWith (fun turn answer => answer.upTo turn.2) later rest.1, rest.2)) ∧
    ∀ (peer : UInt32) (arrivals : List Arrival) (later : List (SyncTurn × Option Nat))
      (c : Connection) (said rest : Bytes) (items : List (Except BridgeError FileStat)),
      s.Served peer (⟨arrivals, .list path⟩ :: later.map (·.1)) c →
      s.Timely (⟨arrivals, .list path⟩ :: later.map (·.1)) c →
      (Text.Utf8.encode path).length ≤ maxPathLength →
      Said (.list path) said (.list (.ok items)) →
      c.toRead s.stream.localId (arrivals.flatMap Arrival.bytes ++
        (later.map (·.1)).flatMap SyncTurn.bytes) = said ++ rest →
      let id := s.stream.localId
      let full := s.list path none (c.supply arrivals)
      outcome full = .ok items ∧ ∀ count,
        let cut := s.list path (some count) (c.supply arrivals)
        outcome cut = .ok (items.take count) ∧ final cut = final full ∧
          (final cut).taken id = c.taken id ++ said ∧
          (final cut).toRead id ((later.map (·.1)).flatMap SyncTurn.bytes) = rest ∧
          ∃ answers left,
            SyncRequest.parseAll (later.map (·.1.request)) rest = some (answers, left) ∧
            (s.converseUpTo later (final cut)).1 =
              List.zipWith (fun turn answer => answer.upTo turn.2) later answers ∧
            (s.converseUpTo later (final cut)).2.toRead id [] = left := by
  refine ⟨fun count c => ?_, ?_⟩
  · obtain ⟨hanswer, hfinal⟩ := s.list_upTo path (some count) c
    refine ⟨hanswer, hfinal, fun later => ?_⟩
    rw [hfinal]
    exact s.converseUpTo_eq later _
  · intro peer arrivals later c said rest items hserved htimely hshort hsaid hbytes id full
    obtain ⟨hanswered, hlater⟩ := htimely.settled hserved
    obtain ⟨hsame, htaken, hrest⟩ := hanswered.said hsaid hshort hbytes
    change SyncAnswer.list (outcome full) = _ at hsame
    change (final full).taken id = _ at htaken
    change (final full).toRead id _ = rest at hrest
    have hfull : outcome full = .ok items := SyncAnswer.list.inj hsame
    have hparsed := hlater.parsed []
    change SyncRequest.parseAll _ ((final full).toRead id _) =
      some ((s.converse _ (final full)).1, (s.converse _ (final full)).2.toRead id []) at hparsed
    rw [List.append_nil, hrest, List.map_map] at hparsed
    refine ⟨hfull, fun count => ?_⟩
    intro cut
    obtain ⟨hanswer, hfinal⟩ := s.list_upTo path (some count) (c.supply arrivals)
    change outcome cut = (outcome full).map _ at hanswer
    change final cut = final full at hfinal
    rw [hfull] at hanswer
    have hconverse := s.converseUpTo_eq later (final full)
    rw [hfinal]
    refine ⟨hanswer, rfl, htaken, hrest, _, _, hparsed, ?_, ?_⟩
    · rw [hconverse]
    · rw [hconverse]

/-- Two entries and their end in messages cut elsewhere; the last of them brings the first bytes of
the next reply. One item is read of the listing, or none, or more than there are. -/
theorem listing_given_up_cut :
    let message (m : Message) : Arrival := .chunk m.encode
    let okay : Message := ⟨.okay, 101, 1, []⟩
    let data (bytes : Bytes) : Message := ⟨.write, 101, 1, bytes⟩
    let device : DeviceInfo := ⟨"device", "S", "", 0, 8⟩
    let c := ((Client.fresh { link := { inbound := [message okay] } } device {}).after
      [.call (.openStream "sync:" 10)]).connection
    let s : SyncSession := ⟨⟨"sync:", 1, false⟩, 10⟩
    let entries : List EntrySaid := [⟨16877, 0, 7, [97], by decide⟩, ⟨33188, 5, 9, [98], by decide⟩]
    let said : Bytes := entries.flatMap EntrySaid.wire ++
      (SyncId.done.bytes ++ [0, 0, 0, 0].flatMap Bytes.ofWord)
    let items : List (Except BridgeError FileStat) := entries.map fun e => .ok e.stat
    let stat : Bytes := SyncId.stat.bytes ++ [33188, 5, 9].flatMap Bytes.ofWord
    let first : List Message :=
      [data (said.take 3), okay, data [], okay, data (said.drop 3 ++ stat.take 2)]
    let second : List Message := [okay, okay, data (stat.drop 2)]
    let later : List (SyncTurn × Option Nat) := [(⟨second.map message, .stat "/b"⟩, none)]
    let asked := c.supply (first.map message)
    let turns := ⟨first.map message, .list "/a"⟩ :: later.map (·.1)
    (s.Served 101 turns c ∧ s.Timely turns c ∧ Said (.list "/a") said (.list (.ok items))) ∧
      outcome (s.list "/a" none asked) = .ok items ∧ ∀ count ∈ [0, 1, 5],
        let cut := s.list "/a" (some count) asked
        outcome cut = .ok (items.take count) ∧ final cut = final (s.list "/a" none asked) ∧
          (s.converseUpTo later (final cut)).1 = [.stat (.ok ⟨"/b", 33188, 5, 9⟩)] := by
  intro message okay data device c s entries said items stat first second later asked turns
  have hall : ∀ m ∈ first ++ second, m.Serves 1 101 := by
    unfold Message.Serves
    decide
  have hcoming : c.coming (turns.flatMap SyncTurn.bytes) = (first ++ second).map .ok := by
    decide +kernel
  have hbytes : c.toRead 1 (turns.flatMap SyncTurn.bytes) = said ++ stat := by decide +kernel
  have hserved : s.Served 101 turns c := by
    refine SyncSession.served_of_messages ⟨⟨⟨?_, ?_⟩, ?_⟩, ?_⟩ ⟨⟨some 101, .opened, false, [], none⟩,
      ?_, rfl, rfl, rfl⟩ hcoming hall ?_ ?_ ?_ <;> decide +kernel
  have htimely : s.Timely turns c := SyncSession.timely_of_fulfilled (by decide +kernel)
  have hsaid : Said (.list "/a") said (.list (.ok items)) := .list "/a" entries 0 0 0 0
  have hparse : SyncRequest.parseAll [.stat "/b"] stat =
      some ([.stat (.ok ⟨"/b", 33188, 5, 9⟩)], []) := by decide +kernel
  obtain ⟨hfull, hcut⟩ := (listing_given_up s "/a").2 101 (first.map message) later c said stat items
    hserved htimely (by decide) hsaid hbytes
  refine ⟨⟨hserved, htimely, hsaid⟩, hfull, fun count _ => ?_⟩
  obtain ⟨hitems, hfinal, _, _, answers, left, hanswers, hconverse, _⟩ := hcut count
  change SyncRequest.parseAll [.stat "/b"] stat = _ at hanswers
  rw [hparse] at hanswers
  cases hanswers
  exact ⟨hitems, hfinal, hconverse⟩

end DroidHost
