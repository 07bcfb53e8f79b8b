import DroidHost.Text.Blank
import DroidHost.Text.Quoted
import DroidHost.Text.Utf8

/-! What a device says about itself: three parts with colons between them, the last of which holds
`key=value` pairs. -/
namespace DroidHost

namespace Text

/-- Cuts at the first separator, which belongs to neither side. -/
def cut (separator : Char) : List Char → Option (List Char × List Char)
  | [] => none
  | c :: rest =>
    if c = separator then some ([], rest)
    else (cut separator rest).map fun parts => (c :: parts.1, parts.2)

variable {separator : Char}

theorem cut_append {front : List Char} (h : separator ∉ front) (back : List Char) :
    cut separator (front ++ separator :: back) = some (front, back) := by
  induction front with
  | nil => exact if_pos rfl
  | cons c front ih =>
    have hne : c ≠ separator := (List.ne_of_not_mem_cons h).symm
    rw [List.cons_append, cut, if_neg hne, ih (List.not_mem_of_not_mem_cons h)]
    rfl

theorem cut_eq_none {cs : List Char} : cut separator cs = none ↔ separator ∉ cs := by
  induction cs with
  | nil => exact ⟨fun _ => List.not_mem_nil, fun _ => rfl⟩
  | cons c rest ih =>
    rw [cut, List.mem_cons, not_or]
    split
    · next hc => exact ⟨fun h => (by cases h), fun h => absurd hc.symm h.1⟩
    · next hc =>
      rw [Option.map_eq_none_iff, ih]
      exact ⟨fun h => ⟨Ne.symm hc, h⟩, And.right⟩

theorem cut_eq_some {cs front back : List Char} :
    cut separator cs = some (front, back) ↔
      cs = front ++ separator :: back ∧ separator ∉ front := by
  constructor
  · intro h
    by_cases hmem : separator ∈ cs
    · obtain ⟨before, after, rfl, hbefore⟩ := List.eq_append_cons_of_mem hmem
      rw [cut_append hbefore, Option.some.injEq, Prod.mk.injEq] at h
      obtain ⟨rfl, rfl⟩ := h
      exact ⟨rfl, hbefore⟩
    · rw [cut_eq_none.mpr hmem] at h
      cases h
  · rintro ⟨rfl, hfront⟩
    exact cut_append hfront back

theorem count_of_cut {cs front back : List Char} (h : cut separator cs = some (front, back)) :
    cs.count separator = back.count separator + 1 := by
  obtain ⟨rfl, hfront⟩ := cut_eq_some.mp h
  rw [List.count_append, List.count_eq_zero.mpr hfront, Nat.zero_add, List.count_cons_self]

end Text

structure DeviceInfo where
  systemType : String
  serial : String
  banner : String
  version : UInt32
  maxData : UInt32
  deriving DecidableEq, Repr

namespace DeviceInfo

/-- The banner may contain colons itself, and zero bytes at the end are padding. -/
def parse (payload : Bytes) (version maxData : UInt32) : Option DeviceInfo := do
  let (systemType, rest) ← Text.cut ':' (Text.dropEnd (· = '\x00') (Text.Utf8.chars payload))
  let (serial, banner) ← Text.cut ':' rest
  return ⟨String.ofList systemType, String.ofList serial, String.ofList banner, version, maxData⟩

variable {payload : Bytes} {version maxData : UInt32}

theorem parse_eq_some {info : DeviceInfo} :
    parse payload version maxData = some info ↔
      Text.dropEnd (· = '\x00') (Text.Utf8.chars payload) =
          info.systemType.toList ++ ':' :: (info.serial.toList ++ ':' :: info.banner.toList) ∧
        (':' ∉ info.systemType.toList ∧ ':' ∉ info.serial.toList) ∧
        info.version = version ∧ info.maxData = maxData := by
  constructor
  · intro h
    simp only [parse, Option.bind_eq_bind, Option.bind_eq_some_iff, Prod.exists, Option.pure_def,
      Option.some.injEq] at h
    obtain ⟨systemType, rest, hfirst, serial, banner, hsecond, rfl⟩ := h
    obtain ⟨htext, hsystemType⟩ := Text.cut_eq_some.mp hfirst
    obtain ⟨rfl, hserial⟩ := Text.cut_eq_some.mp hsecond
    simp only [String.toList_ofList]
    exact ⟨htext, ⟨hsystemType, hserial⟩, trivial, trivial⟩
  · rintro ⟨htext, ⟨hsystemType, hserial⟩, rfl, rfl⟩
    simp only [parse, htext, Option.bind_eq_bind, Option.bind_some, Text.cut_append hsystemType,
      Text.cut_append hserial, String.ofList_toList, Option.pure_def]

theorem parse_eq_none :
    parse payload version maxData = none ↔ (Text.Utf8.chars payload).count ':' < 2 := by
  have hpadding : decide (':' = '\x00') = false := by decide
  rw [← Text.count_dropEnd (p := (· = '\x00')) hpadding, parse]
  generalize Text.dropEnd (· = '\x00') (Text.Utf8.chars payload) = text
  cases hfirst : Text.cut ':' text with
  | none =>
    have hcount : text.count ':' = 0 := List.count_eq_zero.mpr (Text.cut_eq_none.mp hfirst)
    exact ⟨fun _ => by omega, fun _ => rfl⟩
  | some parts =>
    obtain ⟨systemType, rest⟩ := parts
    have hcount := Text.count_of_cut hfirst
    rw [Option.bind_eq_bind, Option.bind_some]
    dsimp only
    cases hsecond : Text.cut ':' rest with
    | none =>
      have hrest : rest.count ':' = 0 := List.count_eq_zero.mpr (Text.cut_eq_none.mp hsecond)
      exact ⟨fun _ => by omega, fun _ => rfl⟩
    | some more =>
      have hrest := Text.count_of_cut hsecond
      refine ⟨fun h => ?_, fun h => by omega⟩
      cases h

/-- A pair without a key is none. -/
def property (pair : List Char) : Option (String × String) := do
  let (key, value) ← Text.cut '=' pair
  let key := Text.trimBlank key
  if key.isEmpty then none
  else return (String.ofList key, String.ofList (Text.trimBlank value))

/-- Puts a pair into a list that ascends by key, in place of an earlier one with its key. -/
def insertProperty (key value : String) : List (String × String) → List (String × String)
  | [] => [(key, value)]
  | (k, v) :: rest =>
    if key < k then (key, value) :: (k, v) :: rest
    else if key = k then (key, value) :: rest
    else (k, v) :: insertProperty key value rest

/-- The pairs of the banner in ascending order of their keys; of equal keys the last counts. -/
def properties (info : DeviceInfo) : List (String × String) :=
  ((info.banner.toList.splitOn ';').filterMap property).foldl
    (fun found pair => insertProperty pair.1 pair.2 found) []

def describe (info : DeviceInfo) : String :=
  "ConnectionInfo \x7b systemtype: " ++ Text.quoted info.systemType ++ ", serial: " ++
    Text.quoted info.serial ++ ", banner: " ++ Text.quoted info.banner ++ ", version: " ++
    Text.decimal info.version.toNat ++ ", max_data: " ++ Text.decimal info.maxData.toNat ++ " \x7d"

end DeviceInfo
end DroidHost
