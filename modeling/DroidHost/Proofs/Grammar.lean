import DroidHost.CommandLine.Request
import DroidHost.Proofs.Numerals
import Mathlib.Data.List.Forall2
import Mathlib.Data.List.Induction

/-! The grammar of the command line, without regard to how arguments are read. -/
namespace DroidHost

namespace Text

theorem isPrefixOf?_append (start value : String) :
    start.toList.isPrefixOf? (start ++ value).toList = some value.toList :=
  List.isPrefixOf?_eq_some_iff_append_eq.mpr String.toList_append.symm

theorem eq_append_of_isPrefixOf? {start text : String} {value : List Char}
    (h : start.toList.isPrefixOf? text.toList = some value) :
    text = start ++ String.ofList value := by
  rw [← String.toList_inj, String.toList_append, String.toList_ofList]
  exact (List.isPrefixOf?_eq_some_iff_append_eq.mp h).symm

theorem isPrefixOf?_eq_none {start text : String} (h : ∀ value, text ≠ start ++ value) :
    start.toList.isPrefixOf? text.toList = none := by
  cases hrest : start.toList.isPrefixOf? text.toList with
  | none => rfl
  | some value => exact absurd (eq_append_of_isPrefixOf? hrest) (h _)

end Text

inductive Flag : String → Choice → Prop
  | json : Flag "--json" .json
  | debug : Flag "--debug" .debug
  | connect {address : String} (h : address ≠ "") :
    Flag ("--connect=" ++ address) (.address address)
  | timeout {value : String} {seconds : Nat} (h : Text.IsDecimal value.toList seconds)
      (hlt : seconds < UInt64.size) :
    Flag ("--timeout=" ++ value) (.timeout (Duration.ofSeconds seconds))

def plainOptions : List String := ["--help", "-h", "--version", "-v", "--json", "--debug"]

inductive Offence : String → UsageError → Prop
  | address : Offence "--connect=" .emptyAddress
  | timeout {value : String}
      (h : ∀ seconds, seconds < UInt64.size → ¬Text.IsDecimal value.toList seconds) :
    Offence ("--timeout=" ++ value) (.badTimeout value)
  | option {argument : String} (hdash : argument.toList.head? = some '-')
      (hplain : argument ∉ plainOptions) (hconnect : ∀ value, argument ≠ "--connect=" ++ value)
      (htimeout : ∀ value, argument ≠ "--timeout=" ++ value) :
    Offence argument (.unknownOption argument)

def IsWord (argument : String) : Prop := argument.toList.head? ≠ some '-'

instance decidableIsWord (argument : String) : Decidable (IsWord argument) :=
  inferInstanceAs (Decidable (_ ≠ _))

namespace Argument

theorem not_mem_plainOptions {start value : String}
    (h : ∀ option ∈ plainOptions, start.toList.isPrefixOf? option.toList = none) :
    start ++ value ∉ plainOptions := by
  intro hmem
  have hnone := h _ hmem
  rw [Text.isPrefixOf?_append] at hnone
  cases hnone

/-- In front of a command word. -/
inductive Says : String → Except UsageError Argument → Prop
  | help {argument : String} (h : argument = "--help" ∨ argument = "-h") : Says argument (.ok .help)
  | version {argument : String} (h : argument = "--version" ∨ argument = "-v") :
    Says argument (.ok .version)
  | flag {argument : String} {choice : Choice} (h : Flag argument choice) :
    Says argument (.ok (.choice choice))
  | word {argument : String} (h : IsWord argument) : Says argument (.ok .word)
  | offence {argument : String} {e : UsageError} (h : Offence argument e) :
    Says argument (.error e)

theorem says_readAddress (value : List Char) :
    Says ("--connect=" ++ String.ofList value) (readAddress value) := by
  cases value with
  | nil => exact .offence .address
  | cons c rest =>
    refine .flag (.connect fun hempty => ?_)
    rw [← String.toList_inj, String.toList_ofList] at hempty
    cases hempty

theorem says_readTimeout (value : List Char) :
    Says ("--timeout=" ++ String.ofList value) (readTimeout value) := by
  unfold readTimeout
  cases hn : Text.readNumber 10 UInt64.size value with
  | some seconds =>
    obtain ⟨hdecimal, hlt⟩ := Text.readNumber_ten.mp hn
    rw [← String.toList_ofList (l := value)] at hdecimal
    exact .flag (.timeout hdecimal hlt)
  | none =>
    refine .offence (.timeout fun seconds hlt hdecimal => ?_)
    rw [String.toList_ofList] at hdecimal
    rw [Text.readNumber_ten.mpr ⟨hdecimal, hlt⟩] at hn
    cases hn

theorem says_readValued {argument : String} (hplain : argument ∉ plainOptions) :
    Says argument (readValued argument) := by
  unfold readValued
  cases hc : "--connect=".toList.isPrefixOf? argument.toList with
  | some value =>
    rw [Text.eq_append_of_isPrefixOf? hc]
    exact says_readAddress value
  | none =>
    dsimp only
    cases ht : "--timeout=".toList.isPrefixOf? argument.toList with
    | some value =>
      rw [Text.eq_append_of_isPrefixOf? ht]
      exact says_readTimeout value
    | none =>
      dsimp only
      by_cases hdash : argument.toList.head? = some '-'
      · rw [if_pos hdash]
        refine .offence (.option hdash hplain ?_ ?_)
        · rintro value rfl
          rw [Text.isPrefixOf?_append] at hc
          cases hc
        · rintro value rfl
          rw [Text.isPrefixOf?_append] at ht
          cases ht
      · rw [if_neg hdash]
        exact .word hdash

theorem read_of_not_plain {argument : String} (hplain : argument ∉ plainOptions) :
    read argument = readValued argument := by
  simp only [plainOptions, List.mem_cons, List.not_mem_nil, or_false, not_or] at hplain
  obtain ⟨hhelp, hh, hversion, hv, hjson, hdebug⟩ := hplain
  simp only [read, hhelp, hh, hversion, hv, hjson, hdebug, decide_false, Bool.or_false,
    Bool.false_eq_true, if_false]

theorem says_read (argument : String) : Says argument (read argument) := by
  by_cases hplain : argument ∈ plainOptions
  · simp only [plainOptions, List.mem_cons, List.not_mem_nil, or_false] at hplain
    rcases hplain with rfl | rfl | rfl | rfl | rfl | rfl
    · exact .help (.inl rfl)
    · exact .help (.inr rfl)
    · exact .version (.inl rfl)
    · exact .version (.inr rfl)
    · exact .flag .json
    · exact .flag .debug
  · rw [read_of_not_plain hplain]
    exact says_readValued hplain

theorem read_address (value : String) :
    read ("--connect=" ++ value) = readAddress value.toList := by
  rw [read_of_not_plain (not_mem_plainOptions (by decide)), readValued, Text.isPrefixOf?_append]

theorem read_timeout (value : String) :
    read ("--timeout=" ++ value) = readTimeout value.toList := by
  have hnone : "--connect=".toList.isPrefixOf? ("--timeout=" ++ value).toList = none := by
    rw [String.toList_append]
    rfl
  rw [read_of_not_plain (not_mem_plainOptions (by decide)), readValued, hnone, Text.isPrefixOf?_append]

theorem read_of_isWord {argument : String} (h : IsWord argument) : read argument = .ok .word := by
  have hdash : ∀ option ∈ plainOptions, option.toList.head? = some '-' := by decide
  have hplain : argument ∉ plainOptions := fun hmem => h (hdash _ hmem)
  have hconnect : ∀ value, argument ≠ "--connect=" ++ value := by
    rintro value rfl
    exact h (by rw [String.toList_append]; rfl)
  have htimeout : ∀ value, argument ≠ "--timeout=" ++ value := by
    rintro value rfl
    exact h (by rw [String.toList_append]; rfl)
  rw [read_of_not_plain hplain, readValued, Text.isPrefixOf?_eq_none hconnect,
    Text.isPrefixOf?_eq_none htimeout]
  exact if_neg h

theorem read_of_flag {argument : String} {made : Choice} (h : Flag argument made) :
    read argument = .ok (.choice made) := by
  cases h with
  | json => rfl
  | debug => rfl
  | @connect address h =>
    have hne : address.toList.isEmpty = false := by
      rw [List.isEmpty_eq_false_iff]
      exact fun hnil => h (String.toList_inj.mp hnil)
    rw [read_address, readAddress, hne, String.ofList_toList]
    rfl
  | @timeout value seconds h hlt =>
    rw [read_timeout, readTimeout, Text.readNumber_ten.mpr ⟨h, hlt⟩]

theorem read_of_offence {argument : String} {e : UsageError} (h : Offence argument e) :
    read argument = .error e := by
  cases h with
  | address => rfl
  | @timeout value h =>
    rw [read_timeout, readTimeout]
    cases hn : Text.readNumber 10 UInt64.size value.toList with
    | some seconds =>
      obtain ⟨hdecimal, hlt⟩ := Text.readNumber_ten.mp hn
      exact absurd hdecimal (h seconds hlt)
    | none =>
      dsimp only
      rw [String.ofList_toList]
  | option hdash hplain hconnect htimeout =>
    rw [read_of_not_plain hplain, readValued, Text.isPrefixOf?_eq_none hconnect,
      Text.isPrefixOf?_eq_none htimeout]
    exact if_pos hdash

theorem read_eq_iff {argument : String} {said : Except UsageError Argument} :
    read argument = said ↔ Says argument said := by
  constructor
  · rintro rfl
    exact says_read argument
  · intro h
    cases h with
    | help h => rcases h with rfl | rfl <;> rfl
    | version h => rcases h with rfl | rfl <;> rfl
    | flag h => exact read_of_flag h
    | word h => exact read_of_isWord h
    | offence h => exact read_of_offence h

end Argument

def Choice.address? : Choice → Option String
  | .address named => some named
  | _ => none

def Choice.timeout? : Choice → Option Nat
  | .timeout budget => some budget
  | _ => none

namespace Choices

/-- The last address and the last time. -/
def ofChosen (chosen : List Choice) : Choices where
  address := (chosen.filterMap Choice.address?).getLast?.getD defaultAddress
  timeout := (chosen.filterMap Choice.timeout?).getLast?
  json := chosen.contains .json
  debug := chosen.contains .debug

theorem ofChosen_append (chosen : List Choice) (last : Choice) :
    ofChosen (chosen ++ [last]) = (ofChosen chosen).add last := by
  cases last <;> simp [ofChosen, add, Choice.address?, Choice.timeout?]

theorem foldl_add (chosen : List Choice) : chosen.foldl add {} = ofChosen chosen := by
  induction chosen using List.reverseRecOn with
  | nil => rfl
  | append_singleton front last ih =>
    rw [List.foldl_append, ih, ofChosen_append]
    rfl

end Choices

namespace Verb

def arity? : Verb → Option Nat
  | info => some 0
  | list | stat => some 1
  | push | pull => some 2
  | shell | reboot => none

inductive Takes : Verb → List String → Job → Prop
  | info : Takes info [] .info
  | shell {words : List String} (h : words ≠ []) : Takes shell words (.shell (" ".intercalate words))
  | list {path : String} : Takes list [path] (.list path)
  | stat {path : String} : Takes stat [path] (.stat path)
  | push {file path : String} : Takes push [file, path] (.push file path)
  | pull {path file : String} : Takes pull [path, file] (.pull path file)
  | reboot : Takes reboot [] (.reboot "")
  | rebootInto {target : String} : Takes reboot [target] (.reboot target)

inductive Declines : Verb → List String → UsageError → Prop
  | count {verb : Verb} {wanted : Nat} {operands : List String} (h : verb.arity? = some wanted)
      (hne : operands.length ≠ wanted) :
    Declines verb operands (.operandCount verb wanted operands.length)
  | shell : Declines shell [] .noShellCommand
  | reboot {operands : List String} (h : 1 < operands.length) : Declines reboot operands .manyTargets

theorem job_cases (verb : Verb) (operands : List String) :
    match verb.job operands with
    | .ok job => Takes verb operands job
    | .error e => Declines verb operands e := by
  cases verb with
  | info =>
    cases operands with
    | nil => exact .info
    | cons o rest => exact .count rfl (by simp)
  | shell =>
    cases operands with
    | nil => exact .shell
    | cons word words => exact .shell (List.cons_ne_nil _ _)
  | list =>
    rcases operands with _ | ⟨path, _ | ⟨o, rest⟩⟩
    · exact .count rfl (by simp)
    · exact .list
    · exact .count rfl (by simp)
  | stat =>
    rcases operands with _ | ⟨path, _ | ⟨o, rest⟩⟩
    · exact .count rfl (by simp)
    · exact .stat
    · exact .count rfl (by simp)
  | push =>
    rcases operands with _ | ⟨file, _ | ⟨path, _ | ⟨o, rest⟩⟩⟩
    · exact .count rfl (by simp)
    · exact .count rfl (by simp)
    · exact .push
    · exact .count rfl (by simp)
  | pull =>
    rcases operands with _ | ⟨path, _ | ⟨file, _ | ⟨o, rest⟩⟩⟩
    · exact .count rfl (by simp)
    · exact .count rfl (by simp)
    · exact .pull
    · exact .count rfl (by simp)
  | reboot =>
    rcases operands with _ | ⟨target, _ | ⟨o, rest⟩⟩
    · exact .reboot
    · exact .rebootInto
    · exact .reboot (by simp)

theorem job_of_takes {verb : Verb} {operands : List String} {job : Job}
    (h : Takes verb operands job) : verb.job operands = .ok job := by
  cases h with
  | shell hne =>
    cases operands with
    | nil => exact absurd rfl hne
    | cons word words => rfl
  | _ => rfl

theorem job_of_count {verb : Verb} {operands : List String} {wanted : Nat}
    (h : verb.arity? = some wanted) (hne : operands.length ≠ wanted) :
    verb.job operands = .error (.operandCount verb wanted operands.length) := by
  cases verb with
  | info =>
    cases h
    rw [job]
    rintro rfl
    exact hne rfl
  | list =>
    cases h
    rw [job]
    rintro path rfl
    exact hne rfl
  | stat =>
    cases h
    rw [job]
    rintro path rfl
    exact hne rfl
  | push =>
    cases h
    rw [job]
    rintro file path rfl
    exact hne rfl
  | pull =>
    cases h
    rw [job]
    rintro path file rfl
    exact hne rfl
  | shell => cases h
  | reboot => cases h

theorem job_eq_error {verb : Verb} {operands : List String} {e : UsageError} :
    verb.job operands = .error e ↔ Declines verb operands e := by
  constructor
  · intro h
    have hcases := verb.job_cases operands
    rw [h] at hcases
    exact hcases
  · intro h
    cases h with
    | count h hne => exact job_of_count h hne
    | shell => rfl
    | reboot hlt =>
      rcases operands with _ | ⟨target, _ | ⟨o, rest⟩⟩
      · exact absurd hlt (by simp)
      · exact absurd hlt (by simp)
      · rfl

theorem isWord_name (verb : Verb) : IsWord verb.name := by
  cases verb <;> decide

theorem eq_name {word : String} {verb : Verb} (h : ofName? word = some verb) : word = verb.name :=
  (of_decide_eq_true (List.find?_some (p := fun verb : Verb => verb.name = word) h)).symm

theorem ne_name {word : String} {verb : Verb} (h : ofName? word = none) : word ≠ verb.name := by
  rintro rfl
  rw [ofName?_name] at h
  cases h

theorem ofName?_eq_none {word : String} (h : ∀ verb : Verb, word ≠ verb.name) :
    ofName? word = none := by
  cases hverb : ofName? word with
  | none => rfl
  | some verb => exact absurd (eq_name hverb) (h verb)

end Verb

namespace Request

/-- Flags in front, and then help, the version, or a command with its operands. -/
inductive Asks : List String → Request → Prop
  | help {flags : List String} {chosen : List Choice} {argument : String} {rest : List String}
      (hflags : List.Forall₂ Flag flags chosen) (h : argument = "--help" ∨ argument = "-h") :
    Asks (flags ++ argument :: rest) .help
  | version {flags : List String} {chosen : List Choice} {argument : String} {rest : List String}
      (hflags : List.Forall₂ Flag flags chosen) (h : argument = "--version" ∨ argument = "-v") :
    Asks (flags ++ argument :: rest) .version
  | command {flags : List String} {chosen : List Choice} {verb : Verb} {operands : List String}
      {job : Job} (hflags : List.Forall₂ Flag flags chosen) (h : verb.Takes operands job) :
    Asks (flags ++ verb.name :: operands) (.run (.ofChosen chosen) job)

/-- The first argument that is no flag is wrong, or the operands behind it. -/
inductive Mistakes : List String → UsageError → Prop
  | nothing {flags : List String} {chosen : List Choice}
      (hflags : List.Forall₂ Flag flags chosen) : Mistakes flags .noCommand
  | offence {flags : List String} {chosen : List Choice} {argument : String} {rest : List String}
      {e : UsageError} (hflags : List.Forall₂ Flag flags chosen) (h : Offence argument e) :
    Mistakes (flags ++ argument :: rest) e
  | unknown {flags : List String} {chosen : List Choice} {word : String} {rest : List String}
      (hflags : List.Forall₂ Flag flags chosen) (hword : IsWord word)
      (h : ∀ verb : Verb, word ≠ verb.name) :
    Mistakes (flags ++ word :: rest) (.unknownCommand word)
  | operands {flags : List String} {chosen : List Choice} {verb : Verb} {operands : List String}
      {e : UsageError} (hflags : List.Forall₂ Flag flags chosen) (h : verb.Declines operands e) :
    Mistakes (flags ++ verb.name :: operands) e

theorem readOnto_flags {flags : List String} {chosen : List Choice}
    (h : List.Forall₂ Flag flags chosen) (choices : Choices) (rest : List String) :
    readOnto choices (flags ++ rest) = readOnto (chosen.foldl Choices.add choices) rest := by
  induction h generalizing choices with
  | nil => rfl
  | cons hflag _ ih =>
    rw [List.cons_append, readOnto, Argument.read_of_flag hflag]
    exact ih _

theorem read_flags {flags : List String} {chosen : List Choice}
    (h : List.Forall₂ Flag flags chosen) (rest : List String) :
    read (flags ++ rest) = readOnto (.ofChosen chosen) rest := by
  rw [read, readOnto_flags h, Choices.foldl_add]

theorem exists_flags (arguments : List String) :
    ∃ flags chosen rest, arguments = flags ++ rest ∧ List.Forall₂ Flag flags chosen ∧
      ∀ argument choice, rest.head? = some argument → ¬Flag argument choice := by
  induction arguments with
  | nil => exact ⟨[], [], [], rfl, .nil, nofun⟩
  | cons argument arguments ih =>
    by_cases hflag : ∃ choice, Flag argument choice
    · obtain ⟨choice, hflag⟩ := hflag
      obtain ⟨flags, chosen, rest, rfl, hflags, hrest⟩ := ih
      exact ⟨argument :: flags, choice :: chosen, rest, rfl, .cons hflag hflags, hrest⟩
    · refine ⟨[], [], argument :: arguments, rfl, .nil, ?_⟩
      rintro _ choice ⟨⟩ h
      exact hflag ⟨choice, h⟩

theorem read_cases (arguments : List String) :
    match read arguments with
    | .ok request => Asks arguments request
    | .error e => Mistakes arguments e := by
  obtain ⟨flags, chosen, rest, rfl, hflags, hrest⟩ := exists_flags arguments
  rw [read_flags hflags]
  cases rest with
  | nil =>
    rw [List.append_nil]
    exact .nothing hflags
  | cons argument rest =>
    have hsays := Argument.says_read argument
    rw [readOnto]
    generalize hread : Argument.read argument = said at hsays
    cases hsays with
    | help h => exact .help hflags h
    | version h => exact .version hflags h
    | flag h => exact absurd h (hrest _ _ rfl)
    | offence h => exact .offence hflags h
    | word h =>
      dsimp only
      rw [ofCommand]
      cases hverb : Verb.ofName? argument with
      | none => exact .unknown hflags h fun verb => Verb.ne_name hverb
      | some verb =>
        obtain rfl := Verb.eq_name hverb
        have hjob := verb.job_cases rest
        dsimp only
        cases hcases : verb.job rest with
        | ok job =>
          rw [hcases] at hjob
          exact .command hflags hjob
        | error e =>
          rw [hcases] at hjob
          exact .operands hflags hjob

theorem read_command {flags : List String} {chosen : List Choice}
    (hflags : List.Forall₂ Flag flags chosen) {word : String} (hword : IsWord word)
    (operands : List String) :
    read (flags ++ word :: operands) = ofCommand (.ofChosen chosen) word operands := by
  rw [read_flags hflags, readOnto, Argument.read_of_isWord hword]

theorem read_verb {flags : List String} {chosen : List Choice}
    (hflags : List.Forall₂ Flag flags chosen) (verb : Verb) (operands : List String) :
    read (flags ++ verb.name :: operands) = (verb.job operands).map (run (.ofChosen chosen)) := by
  rw [read_command hflags verb.isWord_name, ofCommand, Verb.ofName?_name]

theorem read_eq_ok {arguments : List String} {request : Request} :
    read arguments = .ok request ↔ Asks arguments request := by
  constructor
  · intro h
    have hcases := read_cases arguments
    rw [h] at hcases
    exact hcases
  · intro h
    cases h with
    | help hflags h =>
      rw [read_flags hflags, readOnto, Argument.read_eq_iff.mpr (.help h)]
    | version hflags h =>
      rw [read_flags hflags, readOnto, Argument.read_eq_iff.mpr (.version h)]
    | command hflags h =>
      rw [read_verb hflags, Verb.job_of_takes h]
      rfl

theorem read_eq_error {arguments : List String} {e : UsageError} :
    read arguments = .error e ↔ Mistakes arguments e := by
  constructor
  · intro h
    have hcases := read_cases arguments
    rw [h] at hcases
    exact hcases
  · intro h
    cases h with
    | nothing hflags =>
      rw [← List.append_nil arguments, read_flags hflags, readOnto]
    | offence hflags h =>
      rw [read_flags hflags, readOnto, Argument.read_of_offence h]
    | unknown hflags hword h =>
      rw [read_command hflags hword, ofCommand, Verb.ofName?_eq_none h]
    | operands hflags h =>
      rw [read_verb hflags, Verb.job_eq_error.mpr h]
      rfl

end Request

def Choice.flag : Choice → String
  | .json => "--json"
  | .debug => "--debug"
  | .address named => "--connect=" ++ named
  | .timeout budget => "--timeout=" ++ Text.decimal (budget / 1000000000)

/-- The address is not empty, and the time is in whole seconds whose number fits 64 bits. -/
def Choice.Writable : Choice → Prop
  | .address named => named ≠ ""
  | .timeout budget => ∃ seconds < UInt64.size, budget = Duration.ofSeconds seconds
  | _ => True

theorem Choice.flag_of_writable {choice : Choice} (h : choice.Writable) : Flag choice.flag choice := by
  cases choice with
  | json => exact .json
  | debug => exact .debug
  | address named => exact .connect h
  | timeout budget =>
    obtain ⟨seconds, hlt, rfl⟩ := h
    have hdigits := Text.readNumber_digits (by decide : 1 < 10) (by decide) hlt
    rw [flag, Duration.ofSeconds, Nat.mul_div_cancel _ (by decide)]
    exact .timeout (Text.readNumber_ten.mp hdigits).1 hlt

namespace Choices

def toList (choices : Choices) : List Choice :=
  (if choices.json then [.json] else []) ++ (if choices.debug then [.debug] else []) ++
    .address choices.address :: choices.timeout.toList.map .timeout

def Writable (choices : Choices) : Prop := ∀ choice ∈ choices.toList, choice.Writable

theorem ofChosen_toList (choices : Choices) : ofChosen choices.toList = choices := by
  obtain ⟨address, timeout, json, debug⟩ := choices
  cases timeout <;> cases json <;> cases debug <;> rfl

theorem writable_of {choices : Choices} (haddress : choices.address ≠ "")
    (htimeout : ∀ budget, choices.timeout = some budget →
      ∃ seconds < UInt64.size, budget = Duration.ofSeconds seconds) : choices.Writable := by
  intro choice hmem
  simp only [toList, List.mem_append, List.mem_cons, List.mem_map, Option.mem_toList] at hmem
  rcases hmem with (hjson | hdebug) | rfl | ⟨budget, hbudget, rfl⟩
  · obtain rfl := List.mem_singleton.mp (List.mem_ite_nil_right.mp hjson).2
    exact True.intro
  · obtain rfl := List.mem_singleton.mp (List.mem_ite_nil_right.mp hdebug).2
    exact True.intro
  · exact haddress
  · exact htimeout budget hbudget

theorem flags_toList {choices : Choices} (h : choices.Writable) :
    List.Forall₂ Flag (choices.toList.map Choice.flag) choices.toList := by
  rw [List.forall₂_map_left_iff, List.forall₂_same]
  exact fun choice hmem => Choice.flag_of_writable (h choice hmem)

end Choices

def Job.verb : Job → Verb
  | .info => .info
  | .shell _ => .shell
  | .list _ => .list
  | .stat _ => .stat
  | .push .. => .push
  | .pull .. => .pull
  | .reboot _ => .reboot

/-- A shell command is one operand. -/
def Job.operands : Job → List String
  | .info => []
  | .shell command => [command]
  | .list path => [path]
  | .stat path => [path]
  | .push file path => [file, path]
  | .pull path file => [path, file]
  | .reboot target => [target]

theorem Job.takes_operands (job : Job) : job.verb.Takes job.operands job := by
  cases job with
  | info => exact .info
  | shell command => exact .shell (List.cons_ne_nil _ _)
  | list path => exact .list
  | stat path => exact .stat
  | push file path => exact .push
  | pull path file => exact .pull
  | reboot target => exact .rebootInto

def Request.write (choices : Choices) (job : Job) : List String :=
  choices.toList.map Choice.flag ++ job.verb.name :: job.operands

theorem Request.read_write {choices : Choices} (h : choices.Writable) (job : Job) :
    read (write choices job) = .ok (.run choices job) := by
  have hasks : Asks (write choices job) (.run (.ofChosen choices.toList) job) :=
    .command (Choices.flags_toList h) job.takes_operands
  rw [Choices.ofChosen_toList] at hasks
  exact read_eq_ok.mpr hasks

/-- A list of arguments is taken for a request exactly if it is flags and what they stand in front
of, and every other list is refused for the first thing in it that is wrong. Behind a command word
there are no flags, and every request with a writable choice can be written. -/
theorem command_line_grammar :
    (∀ arguments request, Request.read arguments = .ok request ↔ Request.Asks arguments request) ∧
    (∀ arguments e, Request.read arguments = .error e ↔ Request.Mistakes arguments e) ∧
    (∀ flags chosen word operands request, List.Forall₂ Flag flags chosen → IsWord word →
      Request.read (flags ++ word :: operands) = .ok request →
      ∃ job, request = .run (.ofChosen chosen) job) ∧
    ∀ (choices : Choices) (job : Job), choices.address ≠ "" →
      (∀ budget, choices.timeout = some budget →
        ∃ seconds < UInt64.size, budget = Duration.ofSeconds seconds) →
      Request.read (Request.write choices job) = .ok (.run choices job) := by
  refine ⟨fun _ _ => Request.read_eq_ok, fun _ _ => Request.read_eq_error, ?_, ?_⟩
  · intro flags chosen word operands request hflags hword h
    rw [Request.read_command hflags hword, Request.ofCommand] at h
    cases hverb : Verb.ofName? word with
    | none =>
      rw [hverb] at h
      cases h
    | some verb =>
      rw [hverb] at h
      dsimp only at h
      cases hjob : verb.job operands with
      | error e =>
        rw [hjob] at h
        cases h
      | ok job =>
        rw [hjob] at h
        cases h
        exact ⟨job, rfl⟩
  · intro choices job haddress htimeout
    exact Request.read_write (Choices.writable_of haddress htimeout) job

/-- Of two addresses the last one counts, and what looks like a flag behind the command word belongs
to the shell command. -/
theorem command_line_grammar_shell :
    (∃ job, Request.run ⟨"b:1", none, false, false⟩ (.shell "ls --json") =
      .run (.ofChosen [.address "a:1", .address "b:1"]) job) ∧
    Request.read ["--connect=b:1", "--timeout=3", "shell", "ls --json"] =
      .ok (.run ⟨"b:1", some 3000000000, false, false⟩ (.shell "ls --json")) := by
  have hflags : List.Forall₂ Flag ["--connect=a:1", "--connect=b:1"]
      [.address "a:1", .address "b:1"] :=
    .cons (@Flag.connect "a:1" (by decide)) (.cons (@Flag.connect "b:1" (by decide)) .nil)
  refine ⟨command_line_grammar.2.2.1 _ _ "shell" ["ls", "--json"] _ hflags (by decide) rfl,
    command_line_grammar.2.2.2 ⟨"b:1", some 3000000000, false, false⟩ (.shell "ls --json")
      (by decide) ?_⟩
  rintro _ ⟨⟩
  exact ⟨3, by decide, rfl⟩

end DroidHost
