import DroidHost.Bridge.DeviceInfo
import DroidHost.Proofs.Decoding
import DroidHost.Proofs.Numerals

/-! What a device announces is read as it was meant. -/
namespace DroidHost.DeviceInfo

def text (info : DeviceInfo) : String := info.systemType ++ ":" ++ info.serial ++ ":" ++ info.banner

/-- Zero bytes may stand behind it as padding. -/
def announcement (info : DeviceInfo) (padding : Nat) : Bytes :=
  Text.Utf8.encode info.text ++ List.replicate padding 0

theorem toList_text (info : DeviceInfo) :
    info.text.toList =
      info.systemType.toList ++ ':' :: (info.serial.toList ++ ':' :: info.banner.toList) := by
  simp only [text, String.toList_append, List.append_assoc]
  rfl

theorem getLast?_text (info : DeviceInfo) :
    info.text.toList.getLast? = some (info.banner.toList.getLast?.getD ':') := by
  simp only [toList_text, List.getLast?_append, List.getLast?_cons, Option.some_or,
    Option.getD_some]

theorem dropEnd_announcement (info : DeviceInfo) (padding : Nat) :
    Text.dropEnd (· = '\x00') (Text.Utf8.chars (info.announcement padding)) = info.text.toList ↔
      info.banner.toList.getLast? ≠ some '\x00' := by
  have hpadding : ∀ c ∈ List.replicate padding '\x00', decide (c = '\x00') = true := fun c hc =>
    decide_eq_true (List.eq_of_mem_replicate hc)
  rw [announcement, Text.Utf8.chars_encode_padded, Text.dropEnd_append _ hpadding,
    Text.dropEnd_eq_self, getLast?_text]
  -- What counts is the end of the banner, or the colon before it if there is none.
  simp only [Option.mem_some_iff, forall_eq', decide_eq_false_iff_not]
  cases info.banner.toList.getLast? with
  | none => decide
  | some c => rw [Option.getD_some, ne_eq, Option.some.injEq]

theorem parse_announcement {info : DeviceInfo} {padding : Nat} :
    parse (info.announcement padding) info.version info.maxData = some info ↔
      info.banner.toList.getLast? ≠ some '\x00' ∧
        ':' ∉ info.systemType.toList ∧ ':' ∉ info.serial.toList := by
  rw [parse_eq_some, ← toList_text, dropEnd_announcement]
  simp only [and_true]

/-- A pair that keeps its shape in a banner. -/
structure IsProperty (pair : String × String) : Prop where
  key_ne : pair.1 ≠ ""
  key_whole : '=' ∉ pair.1.toList ∧ ';' ∉ pair.1.toList
  value_whole : ';' ∉ pair.2.toList
  key_trimmed : Text.IsTrimmed pair.1.toList
  value_trimmed : Text.IsTrimmed pair.2.toList

def spelled (pair : String × String) : String := pair.1 ++ "=" ++ pair.2

def terminated (pairs : List (String × String)) : String :=
  String.join (pairs.map fun pair => spelled pair ++ ";")

def separated (pairs : List (String × String)) : String :=
  ";".intercalate (pairs.map spelled)

theorem toList_spelled (pair : String × String) :
    (spelled pair).toList = pair.1.toList ++ '=' :: pair.2.toList := by
  rw [spelled, String.toList_append, String.toList_append, List.append_assoc]
  rfl

theorem IsProperty.whole {pair : String × String} (h : IsProperty pair) :
    ';' ∉ (spelled pair).toList := by
  rw [toList_spelled, List.mem_append, List.mem_cons]
  rintro (hkey | heq | hvalue)
  · exact h.key_whole.2 hkey
  · cases heq
  · exact h.value_whole hvalue

theorem IsProperty.read {pair : String × String} (h : IsProperty pair) :
    property (spelled pair).toList = some pair := by
  have hne : pair.1.toList.isEmpty = false := by
    rw [List.isEmpty_eq_false_iff, ne_eq, String.toList_eq_nil_iff]
    exact h.key_ne
  simp only [property, toList_spelled, Text.cut_append h.key_whole.1, Option.bind_eq_bind,
    Option.bind_some, Text.trimBlank_of_isTrimmed h.key_trimmed,
    Text.trimBlank_of_isTrimmed h.value_trimmed, hne, String.ofList_toList]
  rfl

theorem toList_terminated_cons (pair : String × String) (pairs : List (String × String)) :
    (terminated (pair :: pairs)).toList =
      (spelled pair).toList ++ ';' :: (terminated pairs).toList := by
  simp only [terminated, String.toList_join, List.map_cons, List.flatMap_cons,
    String.toList_append, List.append_assoc]
  rfl

theorem getLast?_terminated (pairs : List (String × String)) :
    ∀ c ∈ (terminated pairs).toList.getLast?, c = ';' := by
  induction pairs with
  | nil => rintro c ⟨⟩
  | cons pair pairs ih =>
    rw [toList_terminated_cons, List.getLast?_append, List.getLast?_cons, Option.some_or]
    rintro c ⟨⟩
    cases hlast : (terminated pairs).toList.getLast? with
    | none => rfl
    | some c => exact ih c hlast

section Listing

variable {pairs : List (String × String)} (h : ∀ pair ∈ pairs, IsProperty pair)
include h

theorem filterMap_spelled :
    (pairs.map fun pair => (spelled pair).toList).filterMap property = pairs := by
  induction pairs with
  | nil => rfl
  | cons pair pairs ih =>
    obtain ⟨hpair, hrest⟩ := List.forall_mem_cons.mp h
    rw [List.map_cons, List.filterMap_cons, hpair.read, ih hrest]

theorem splitOn_terminated : (terminated pairs).toList.splitOn ';' =
    (pairs.map fun pair => (spelled pair).toList) ++ [[]] := by
  induction pairs with
  | nil => rfl
  | cons pair pairs ih =>
    obtain ⟨hpair, hrest⟩ := List.forall_mem_cons.mp h
    rw [toList_terminated_cons, List.splitOn_append_cons_self_of_not_mem hpair.whole, ih hrest,
      List.map_cons, List.cons_append]

theorem splitOn_separated (hne : pairs ≠ []) : (separated pairs).toList.splitOn ';' =
    pairs.map fun pair => (spelled pair).toList := by
  have hlist : (separated pairs).toList =
      [';'].intercalate (pairs.map fun pair => (spelled pair).toList) := by
    rw [separated, String.toList_intercalate, List.map_map]
    rfl
  rw [hlist]
  apply List.splitOn_intercalate
  · intro part hpart
    obtain ⟨pair, hpair, rfl⟩ := List.mem_map.mp hpart
    exact (h pair hpair).whole
  · rwa [ne_eq, List.map_eq_nil_iff]

end Listing

/-- The keys ascend, so there is one value for each. -/
def Ascending (found : List (String × String)) : Prop := found.Pairwise fun p q => p.1 < q.1

/-- A pair of the list whose key no later pair has. -/
def Latest (pairs : List (String × String)) (pair : String × String) : Prop :=
  ∃ front rest, pairs = front ++ pair :: rest ∧ ∀ later ∈ rest, later.1 ≠ pair.1

theorem latest_nil (pair : String × String) : ¬ Latest [] pair := by
  rintro ⟨front, rest, hnil, -⟩
  exact List.append_ne_nil_of_right_ne_nil front (List.cons_ne_nil pair rest) hnil.symm

theorem latest_cons {pairs : List (String × String)} {first pair : String × String} :
    Latest (first :: pairs) pair ↔
      Latest pairs pair ∨ (pair = first ∧ ∀ later ∈ pairs, later.1 ≠ pair.1) := by
  constructor
  · rintro ⟨front, rest, hpairs, hrest⟩
    rcases List.cons_eq_append_iff.mp hpairs with ⟨rfl, heq⟩ | ⟨front', rfl, heq⟩
    · cases heq
      exact .inr ⟨rfl, hrest⟩
    · exact .inl ⟨front', rest, heq, hrest⟩
  · rintro (⟨front, rest, rfl, hrest⟩ | ⟨rfl, hrest⟩)
    · exact ⟨first :: front, rest, rfl, hrest⟩
    · exact ⟨[], pairs, rfl, hrest⟩

instance decidableLatest (pairs : List (String × String)) (pair : String × String) :
    Decidable (Latest pairs pair) :=
  match pairs with
  | [] => .isFalse (latest_nil pair)
  | _ :: pairs =>
    have := decidableLatest pairs pair
    decidable_of_iff _ latest_cons.symm

section Insertion

variable {key value : String} {found : List (String × String)}

theorem ne_of_below {pair : String × String} (h : key < pair.1) : pair.1 ≠ key := fun heq =>
  String.lt_irrefl key (heq ▸ h)

theorem Ascending.below {k v : String} (h : Ascending ((k, v) :: found)) (hlt : key < k) :
    ∀ pair ∈ (k, v) :: found, key < pair.1 := by
  intro pair hmem
  rcases List.mem_cons.mp hmem with rfl | hmem
  · exact hlt
  · exact String.lt_trans hlt (List.rel_of_pairwise_cons h hmem)

theorem mem_insertProperty (h : Ascending found) {pair : String × String} :
    pair ∈ insertProperty key value found ↔
      pair = (key, value) ∨ (pair.1 ≠ key ∧ pair ∈ found) := by
  fun_induction insertProperty key value found with
  | case1 => simp only [List.mem_singleton, List.not_mem_nil, and_false, or_false]
  | case2 k v rest hlt =>
    have hother : pair ∈ (k, v) :: rest → pair.1 ≠ key := fun hmem =>
      ne_of_below (h.below hlt pair hmem)
    rw [List.mem_cons, and_iff_right_of_imp hother]
  | case3 v rest hlt =>
    have hother : pair ∈ rest → pair.1 ≠ key := fun hmem =>
      ne_of_below (List.rel_of_pairwise_cons h hmem)
    rw [List.mem_cons, List.mem_cons]
    constructor
    · rintro (rfl | hmem)
      · exact .inl rfl
      · exact .inr ⟨hother hmem, .inr hmem⟩
    · rintro (rfl | ⟨hne, rfl | hmem⟩)
      · exact .inl rfl
      · exact absurd rfl hne
      · exact .inr hmem
  | case4 k v rest hlt hne ih =>
    rw [List.mem_cons, ih h.of_cons, List.mem_cons]
    constructor
    · rintro (rfl | rfl | ⟨hpair, hmem⟩)
      · exact .inr ⟨Ne.symm hne, .inl rfl⟩
      · exact .inl rfl
      · exact .inr ⟨hpair, .inr hmem⟩
    · rintro (rfl | ⟨hpair, rfl | hmem⟩)
      · exact .inr (.inl rfl)
      · exact .inl rfl
      · exact .inr (.inr ⟨hpair, hmem⟩)

theorem ascending_insertProperty (key value : String) (h : Ascending found) :
    Ascending (insertProperty key value found) := by
  fun_induction insertProperty key value found with
  | case1 => exact List.pairwise_singleton _ _
  | case2 k v rest hlt => exact List.Pairwise.cons (h.below hlt) h
  | case3 v rest hlt =>
    exact List.Pairwise.cons (fun pair hmem => List.rel_of_pairwise_cons h hmem) h.of_cons
  | case4 k v rest hlt hne ih =>
    have hbelow : k < key := by
      apply String.not_le.mp
      intro hle
      exact hne (String.le_antisymm hle (String.not_lt.mp hlt))
    refine List.Pairwise.cons (fun pair hmem => ?_) (ih h.of_cons)
    rcases (mem_insertProperty h.of_cons).mp hmem with rfl | ⟨-, hmem⟩
    · exact hbelow
    · exact List.rel_of_pairwise_cons h hmem

end Insertion

/-- Of the pairs that are put into a map one after another the latest stay. -/
theorem mem_foldl_insertProperty (pairs : List (String × String)) {found : List (String × String)}
    (h : Ascending found) :
    let all := pairs.foldl (fun found pair => insertProperty pair.1 pair.2 found) found
    Ascending all ∧ ∀ pair, pair ∈ all ↔
      Latest pairs pair ∨ (pair ∈ found ∧ ∀ later ∈ pairs, later.1 ≠ pair.1) := by
  induction pairs generalizing found with
  | nil =>
    refine ⟨h, fun pair => ?_⟩
    simp only [List.foldl_nil, latest_nil, false_or, List.not_mem_nil, false_implies, implies_true,
      and_true]
  | cons first pairs ih =>
    obtain ⟨hascending, hmem⟩ := ih (ascending_insertProperty first.1 first.2 h)
    refine ⟨hascending, fun pair => (hmem pair).trans ?_⟩
    rw [mem_insertProperty h, latest_cons, List.forall_mem_cons]
    constructor
    · rintro (hlatest | ⟨rfl | ⟨hne, hfound⟩, hlater⟩)
      · exact .inl (.inl hlatest)
      · exact .inl (.inr ⟨rfl, hlater⟩)
      · exact .inr ⟨hfound, Ne.symm hne, hlater⟩
    · rintro ((hlatest | ⟨rfl, hlater⟩) | ⟨hfound, hne, hlater⟩)
      · exact .inl hlatest
      · exact .inr ⟨.inl rfl, hlater⟩
      · exact .inr ⟨.inr ⟨Ne.symm hne, hfound⟩, hlater⟩

theorem properties_latest (info : DeviceInfo) :
    Ascending info.properties ∧ ∀ pair, pair ∈ info.properties ↔
      Latest ((info.banner.toList.splitOn ';').filterMap property) pair := by
  obtain ⟨hascending, hmem⟩ :=
    mem_foldl_insertProperty ((info.banner.toList.splitOn ';').filterMap property) List.Pairwise.nil
  refine ⟨hascending, fun pair => (hmem pair).trans ?_⟩
  simp only [List.not_mem_nil, false_and, or_false]

example : properties ⟨"device", "", "k=1; a = b=c ;=x;no;k=2", 1, 1⟩ =
    [("a", "b=c"), ("k", "2")] := by
  decide +kernel

/-- A device is read from its announcement, whatever the padding, and its properties are the pairs
that are the last with their key. -/
structure Understood (info : DeviceInfo) (pairs : List (String × String)) : Prop where
  parsed : ∀ padding, parse (info.announcement padding) info.version info.maxData = some info
  ascending : Ascending info.properties
  latest : ∀ pair, pair ∈ info.properties ↔ Latest pairs pair

theorem understood_iff (info : DeviceInfo) (hsystemType : ':' ∉ info.systemType.toList)
    (hserial : ':' ∉ info.serial.toList) {pairs : List (String × String)}
    (hpairs : (info.banner.toList.splitOn ';').filterMap property = pairs) :
    info.Understood pairs ↔ info.banner.toList.getLast? ≠ some '\x00' := by
  obtain ⟨hascending, hlatest⟩ := properties_latest info
  rw [hpairs] at hlatest
  constructor
  · intro h
    exact (parse_announcement.mp (h.parsed 0)).1
  · intro hlast
    exact ⟨fun _ => parse_announcement.mpr ⟨hlast, hsystemType, hserial⟩, hascending, hlatest⟩

/-- With a semicolon behind each pair a device is read as it was meant, however it is padded;
without the last one exactly if the last value does not end in a zero. A payload is refused exactly
if it has fewer than two colons. -/
theorem banner_round_trip {systemType serial : String} (hsystemType : ':' ∉ systemType.toList)
    (hserial : ':' ∉ serial.toList) {pairs : List (String × String)}
    (hpairs : ∀ pair ∈ pairs, IsProperty pair) (version maxData : UInt32) :
    Understood ⟨systemType, serial, terminated pairs, version, maxData⟩ pairs ∧
    (Understood ⟨systemType, serial, separated pairs, version, maxData⟩ pairs ↔
      (separated pairs).toList.getLast? ≠ some '\x00') ∧
    ∀ payload, parse payload version maxData = none ↔ (Text.Utf8.chars payload).count ':' < 2 := by
  have hterminated : ((terminated pairs).toList.splitOn ';').filterMap property = pairs :=
    calc ((terminated pairs).toList.splitOn ';').filterMap property
        = ((pairs.map fun pair => (spelled pair).toList) ++ [[]]).filterMap property := by
          rw [splitOn_terminated hpairs]
      _ = pairs ++ [[]].filterMap property := by
          rw [List.filterMap_append, filterMap_spelled hpairs]
      _ = pairs := List.append_nil pairs
  have hseparated : ((separated pairs).toList.splitOn ';').filterMap property = pairs := by
    by_cases hne : pairs = []
    · subst hne
      rfl
    · rw [splitOn_separated hpairs hne, filterMap_spelled hpairs]
  have hlast : (terminated pairs).toList.getLast? ≠ some '\x00' := by
    intro hzero
    cases getLast?_terminated pairs _ hzero
  refine ⟨?_, ?_, fun _ => parse_eq_none⟩
  · exact (understood_iff ⟨_, _, terminated pairs, _, _⟩ hsystemType hserial hterminated).mpr hlast
  · exact understood_iff ⟨_, _, separated pairs, _, _⟩ hsystemType hserial hseparated

/-- The later value of a key takes the place of an earlier one. The zero at the end is kept by the
semicolon behind it and lost without one. -/
theorem banner_round_trip_zero :
    let pairs := [("k", "a:b=c"), ("k", "ü 1"), ("z", "\x00")]
    let info (banner : String) : DeviceInfo := ⟨"device", "", banner, 1, 4096⟩
    (':' ∉ "device".toList ∧ ':' ∉ "".toList ∧ ∀ pair ∈ pairs, IsProperty pair) ∧
      ("k", "ü 1") ∈ (info (terminated pairs)).properties ∧
      ("k", "a:b=c") ∉ (info (terminated pairs)).properties ∧
      parse ((info (terminated pairs)).announcement 3) 1 4096 = some (info (terminated pairs)) ∧
      ¬ (info (separated pairs)).Understood pairs ∧
      parse [0x61, 0x3A, 0xFF, 0] 1 4096 = none := by
  intro pairs info
  have hfew : (Text.Utf8.chars [0x61, 0x3A, 0xFF, 0]).count ':' < 2 := by decide +kernel
  have hsystemType : ':' ∉ "device".toList := by decide
  have hserial : ':' ∉ "".toList := by decide
  have hpairs : ∀ pair ∈ pairs, IsProperty pair := by
    intro pair hmem
    simp only [pairs, List.mem_cons, List.not_mem_nil, or_false] at hmem
    rcases hmem with rfl | rfl | rfl <;>
      exact ⟨by decide, by decide, by decide, by decide, by decide⟩
  obtain ⟨h, hseparated, hrefused⟩ := banner_round_trip hsystemType hserial hpairs 1 4096
  refine ⟨⟨hsystemType, hserial, hpairs⟩, ?_, ?_, h.parsed 3, ?_, ?_⟩
  · exact (h.latest _).mpr (by decide)
  · exact mt (h.latest _).mp (by decide)
  · exact mt hseparated.mp (by decide)
  · exact (hrefused _).mpr hfew

end DroidHost.DeviceInfo
