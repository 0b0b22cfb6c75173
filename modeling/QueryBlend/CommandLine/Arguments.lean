import QueryBlend.Dict
import QueryBlend.Text.Basic
/-!
# Arguments

The arguments of a program are switches and operands. A switch is written `--name` or, if it has a
letter, `-n`; letters may stand together, as in `-nm`. A switch that takes a value has it behind an
equals sign, in the next argument or, if it is written as a letter, right behind the letter. Behind `--`
everything is an operand. A switch stands only once.
-/
namespace QueryBlend.CommandLine

/-- What the value of a switch has to be. -/
inductive ValueKind where
  | text
  /-- A text that is not empty. -/
  | path
  deriving DecidableEq, Repr

structure Switch where
  name : String
  letter : Option Char := none
  /-- What its value has to be, if it takes one. -/
  value : Option ValueKind := none
  purpose : String := ""
  deriving DecidableEq, Repr

inductive Misuse where
  | unknownSwitch (argument : String)
  | missingValue (switch : String)
  | unneededValue (switch : String)
  | emptyValue (switch : String)
  | repeatedSwitch (switch : String)
  | unexpectedOperand (operand : String)
  | missingFile
  | emptyFile
  | missingCommand
  | unknownCommand (name : String)
  deriving DecidableEq, Repr

def Misuse.message : Misuse → String
  | unknownSwitch argument => "unexpected argument '" ++ argument ++ "' found"
  | missingValue switch => "a value is required for '--" ++ switch ++ "' but none was supplied"
  | unneededValue switch => "no value is expected for '--" ++ switch ++ "'"
  | emptyValue switch => "the value of '--" ++ switch ++ "' must not be empty"
  | repeatedSwitch switch => "the argument '--" ++ switch ++ "' cannot be used multiple times"
  | unexpectedOperand operand => "unexpected argument '" ++ operand ++ "' found"
  | missingFile => "a file is required"
  | emptyFile => "the path of the file must not be empty"
  | missingCommand => "a command is required"
  | unknownCommand name => "unrecognized command '" ++ name ++ "'"

/-- What arguments say, one after the other. -/
inductive Event where
  | operand (text : String)
  | flag (switch : String)
  | value (switch value : String)
  | misuse (m : Misuse)
  deriving DecidableEq, Repr

/-! ## Reading -/

def Switch.withValue (s : Switch) (value : String) : Event :=
  if s.value = some .path ∧ value = "" then .misuse (.emptyValue s.name) else .value s.name value

/-- What the letters of one argument say, and the switch that waits for a value behind them. -/
def readLetters (table : List Switch) : List Char → List Event × Option Switch
  | [] => ([], none)
  | c :: cs =>
    match table.find? fun s => s.letter == some c with
    | none => ([.misuse (.unknownSwitch (String.ofList ['-', c]))], none)
    | some s =>
      if s.value.isNone then
        (.flag s.name :: (readLetters table cs).1, (readLetters table cs).2)
      else if cs.isEmpty then ([], some s)
      else
        ([s.withValue (String.ofList (if cs.head? = some '=' then cs.tail else cs))], none)

/-- What a named switch says, and the switch if it waits for a value. -/
def readNamed (table : List Switch) (named : List Char) : List Event × Option Switch :=
  let name := String.ofList (named.takeWhile (· != '='))
  let attached := named.dropWhile (· != '=')
  match table.find? fun s => s.name == name with
  | none => ([.misuse (.unknownSwitch ("--" ++ name))], none)
  | some s =>
    if attached.isEmpty then
      if s.value.isNone then ([.flag s.name], none) else ([], some s)
    else if s.value.isNone then ([.misuse (.unneededValue s.name)], none)
    else ([s.withValue (String.ofList attached.tail)], none)

def isOperand (argument : String) : Bool :=
  !"-".toList.isPrefixOf argument.toList || argument == "-"

/-- What one argument says, and the switch that waits for a value behind it. -/
def readArgument (table : List Switch) (argument : String) : List Event × Option Switch :=
  if isOperand argument then ([.operand argument], none)
  else match argument.toList with
    | '-' :: '-' :: named => readNamed table named
    | letters => readLetters table letters.tail

def events (table : List Switch) : List String → List Event
  | [] => []
  | a :: rest =>
    if a = "--" then rest.map .operand
    else (readArgument table a).1 ++
      match (readArgument table a).2, rest with
      | none, rest => events table rest
      | some s, [] => [.misuse (.missingValue s.name)]
      | some s, v :: rest =>
        if isOperand v then s.withValue v :: events table rest
        else [.misuse (.missingValue s.name)]

/-! ## Collecting -/

structure Given where
  file : Option String := none
  flags : List String := []
  values : Dict String := {}
  deriving DecidableEq

/-- Why arguments ask for nothing to be done. -/
inductive Stop where
  | help
  | version
  | misuse (m : Misuse)
  deriving DecidableEq, Repr

def helpSwitch : Switch := { name := "help", letter := some 'h', purpose := "Print help" }

def versionSwitch : Switch := { name := "version", letter := some 'V', purpose := "Print version" }

/-- What has been given, with one event more. -/
def Given.add (g : Given) : Event → Except Stop Given
  | .operand text =>
    if g.file.isSome then .error (.misuse (.unexpectedOperand text))
    else if text = "" then .error (.misuse .emptyFile)
    else .ok { g with file := some text }
  | .flag switch =>
    if switch = helpSwitch.name then .error .help
    else if switch = versionSwitch.name then .error .version
    else if switch ∈ g.flags then .error (.misuse (.repeatedSwitch switch))
    else .ok { g with flags := switch :: g.flags }
  | .value switch value =>
    if g.values.has switch then .error (.misuse (.repeatedSwitch switch))
    else .ok { g with values := g.values.insert switch value }
  | .misuse m => .error (.misuse m)

/-- What is given by events, one after the other. -/
def Given.collect (g : Given) (es : List Event) : Except Stop Given := es.foldlM Given.add g

def Given.hasFlag (g : Given) (switch : String) : Bool := switch ∈ g.flags

end QueryBlend.CommandLine
