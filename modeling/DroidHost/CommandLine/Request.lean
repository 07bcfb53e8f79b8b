import DroidHost.Text.Numeral
import DroidHost.Time.Duration

/-! The arguments of the command line: options, then a command word, then its operands. -/
namespace DroidHost

inductive Verb
  | info
  | shell
  | list
  | stat
  | push
  | pull
  | reboot
  deriving DecidableEq, Repr

namespace Verb

def all : List Verb := [info, shell, list, stat, push, pull, reboot]

def name : Verb → String
  | info => "info"
  | shell => "shell"
  | list => "ls"
  | stat => "stat"
  | push => "push"
  | pull => "pull"
  | reboot => "reboot"

def ofName? (word : String) : Option Verb := all.find? (·.name = word)

theorem ofName?_name (v : Verb) : ofName? v.name = some v := by
  cases v <;> decide

end Verb

inductive Job
  | info
  | shell (command : String)
  | list (path : String)
  | stat (path : String)
  | push (file path : String)
  | pull (path file : String)
  /-- Restarts into a target, or as usual when that is empty. -/
  | reboot (target : String)
  deriving DecidableEq, Repr

inductive UsageError
  | emptyAddress
  | badTimeout (value : String)
  | unknownOption (argument : String)
  | noCommand
  | unknownCommand (word : String)
  | operandCount (verb : Verb) (wanted given : Nat)
  | noShellCommand
  | manyTargets
  deriving DecidableEq, Repr

def UsageError.message : UsageError → String
  | emptyAddress => "--connect needs HOST:PORT"
  | badTimeout value => s!"Invalid timeout value: {value}"
  | unknownOption argument => s!"Unknown argument: {argument}"
  | noCommand => "No command given"
  | unknownCommand word => s!"Unknown command: {word}"
  | operandCount verb wanted given =>
    let name := verb.name
    s!"'{name}' takes {wanted} argument(s), got {given}"
  | noShellCommand => "'shell' needs a command"
  | manyTargets => "'reboot' takes at most one target"

/-- The operands of a shell command are its words. -/
def Verb.job : Verb → (operands : List String) → Except UsageError Job
  | .info, [] => .ok .info
  | .info, operands => .error (.operandCount .info 0 operands.length)
  | .shell, [] => .error .noShellCommand
  | .shell, word :: words => .ok (.shell (" ".intercalate (word :: words)))
  | .list, [path] => .ok (.list path)
  | .list, operands => .error (.operandCount .list 1 operands.length)
  | .stat, [path] => .ok (.stat path)
  | .stat, operands => .error (.operandCount .stat 1 operands.length)
  | .push, [file, path] => .ok (.push file path)
  | .push, operands => .error (.operandCount .push 2 operands.length)
  | .pull, [path, file] => .ok (.pull path file)
  | .pull, operands => .error (.operandCount .pull 2 operands.length)
  | .reboot, [] => .ok (.reboot "")
  | .reboot, [target] => .ok (.reboot target)
  | .reboot, _ :: _ :: _ => .error .manyTargets

inductive Choice
  | json
  | debug
  | address (address : String)
  /-- In nanoseconds. -/
  | timeout (budget : Nat)
  deriving DecidableEq, Repr

def defaultAddress : String := "127.0.0.1:5555"

structure Choices where
  address : String := defaultAddress
  timeout : Option Nat := none
  json : Bool := false
  debug : Bool := false
  deriving DecidableEq, Repr

/-- A later choice of the same kind wins. -/
def Choices.add (choices : Choices) : Choice → Choices
  | .json => { choices with json := true }
  | .debug => { choices with debug := true }
  | .address address => { choices with address := address }
  | .timeout budget => { choices with timeout := some budget }

/-- The command word ends the arguments that are no operands. -/
inductive Argument
  | help
  | version
  | choice (choice : Choice)
  | word
  deriving DecidableEq, Repr

namespace Argument

def readAddress (value : List Char) : Except UsageError Argument :=
  if value.isEmpty then .error .emptyAddress
  else .ok (.choice (.address (String.ofList value)))

def readTimeout (value : List Char) : Except UsageError Argument :=
  match Text.readNumber 10 UInt64.size value with
  | some seconds => .ok (.choice (.timeout (Duration.ofSeconds seconds)))
  | none => .error (.badTimeout (String.ofList value))

/-- A command word does not start with a dash. -/
def readValued (argument : String) : Except UsageError Argument :=
  match "--connect=".toList.isPrefixOf? argument.toList with
  | some value => readAddress value
  | none =>
    match "--timeout=".toList.isPrefixOf? argument.toList with
    | some value => readTimeout value
    | none => if argument.toList.head? = some '-' then .error (.unknownOption argument) else .ok .word

def read (argument : String) : Except UsageError Argument :=
  if argument = "--help" || argument = "-h" then .ok .help
  else if argument = "--version" || argument = "-v" then .ok .version
  else if argument = "--json" then .ok (.choice .json)
  else if argument = "--debug" then .ok (.choice .debug)
  else readValued argument

end Argument

inductive Request
  | help
  | version
  | run (choices : Choices) (job : Job)
  deriving DecidableEq, Repr

namespace Request

def ofCommand (choices : Choices) (word : String) (operands : List String) :
    Except UsageError Request :=
  match Verb.ofName? word with
  | some verb => (verb.job operands).map (run choices)
  | none => .error (.unknownCommand word)

/-- The first argument that is wrong decides the error, and the first that asks for help or the
version ends the reading. -/
def readOnto (choices : Choices) : List String → Except UsageError Request
  | [] => .error .noCommand
  | argument :: rest =>
    match Argument.read argument with
    | .ok .help => .ok .help
    | .ok .version => .ok .version
    | .ok (.choice choice) => readOnto (choices.add choice) rest
    | .ok .word => ofCommand choices argument rest
    | .error e => .error e

def read (arguments : List String) : Except UsageError Request := readOnto {} arguments

end Request
end DroidHost
