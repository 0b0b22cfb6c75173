import QueryBlend.CommandLine.Arguments
/-!
# Commands

The program has four commands, each of which works on one file. A command line names one of them, with
switches in front of and behind its name; help is asked for by a switch or by the word `help` in place of
a command.

Results:
* `ofName?_name`: the names of commands are read back.
* `parse_command`: behind the name of a command stand the arguments of the command.
-/
namespace QueryBlend.CommandLine

inductive Command where
  | compile
  | segments
  | derivedTables
  | validate
  deriving DecidableEq, Repr

namespace Command

def name : Command → String
  | compile => "compile"
  | segments => "segments"
  | derivedTables => "pdt-meta"
  | validate => "validate"

def all : List Command := [compile, segments, derivedTables, validate]

def ofName? (name : String) : Option Command := all.find? fun c => c.name == name

def purpose : Command → String
  | compile => "Compile a blend definition to SQL"
  | segments => "Split one query's SQL into segments (JSON)"
  | derivedTables => "Extract derived-table metadata from one query's SQL (JSON)"
  | validate => "Validate a blend definition without generating SQL"

def filePurpose : Command → String
  | compile | validate => "Path to the blend JSON file"
  | segments | derivedTables => "Path to the .sql file"

end Command

/-! ## Switches -/

/-- Accepted everywhere; nothing is logged, so there is nothing more to show. -/
def verboseSwitch : Switch :=
  { name := "verbose", letter := some 'v', purpose := "Log debug output to stderr" }

/-- The switch for aliases made of the characters of aliases. -/
def sanitizeSwitch : Switch :=
  { name := "sanitize-aliases"
    purpose := "Lowercase aliases and replace invalid characters before validating" }

def commonSwitches : List Switch := [verboseSwitch, helpSwitch, versionSwitch]

def Command.ownSwitches : Command → List Switch
  | compile => [
      { name := "connection", letter := some 'c', value := some .text
        purpose := "Connection whose dialect drives field naming" },
      { name := "dialect", letter := some 'd', value := some .text
        purpose := "Dialect override, e.g. bigquery_standard_sql or snowflake" },
      { name := "stable-views"
        purpose := "Rewrite ephemeral derived tables to their stable views" },
      { name := "token", value := some .text
        purpose := "Round-trip token prepended as `-- b=<token>`" },
      { name := "no-pretty", purpose := "Skip pretty-printing" },
      { name := "sql-dir", value := some .path
        purpose := "Directory holding <query_id>.sql files" },
      { name := "config", value := some .path, purpose := "Path to sqlblend.toml" },
      sanitizeSwitch]
  | segments | derivedTables => []
  | validate => [sanitizeSwitch]

def Command.switches (c : Command) : List Switch := c.ownSwitches ++ [verboseSwitch, helpSwitch]

/-! ## Actions -/

structure CompileOptions where
  connection : Option String := none
  dialect : Option String := none
  stableViews : Bool := false
  token : Option String := none
  noPretty : Bool := false
  sqlDir : Option String := none
  config : Option String := none
  sanitizeAliases : Bool := false
  deriving DecidableEq, Repr

/-- What a command line asks for. -/
inductive Action where
  | compile (file : String) (options : CompileOptions)
  | segments (file : String)
  | derivedTables (file : String)
  | validate (file : String) (sanitizeAliases : Bool)
  deriving DecidableEq, Repr

/-- What a command is asked to do with a file. -/
def Command.action (c : Command) (file : String) (g : Given) : Action :=
  match c with
  | compile => .compile file {
      connection := g.values.get? "connection"
      dialect := g.values.get? "dialect"
      stableViews := g.hasFlag "stable-views"
      token := g.values.get? "token"
      noPretty := g.hasFlag "no-pretty"
      sqlDir := g.values.get? "sql-dir"
      config := g.values.get? "config"
      sanitizeAliases := g.hasFlag sanitizeSwitch.name }
  | segments => .segments file
  | derivedTables => .derivedTables file
  | validate => .validate file (g.hasFlag sanitizeSwitch.name)

/-- Why nothing is to be done, and behind which command it is said. -/
structure Refusal where
  command : Option Command
  reason : Stop
  deriving DecidableEq, Repr

def Command.parse (c : Command) (args : List String) : Except Refusal Action :=
  match Given.collect {} (events c.switches args) with
  | .error reason => .error ⟨some c, reason⟩
  | .ok g =>
    match g.file with
    | some file => .ok (c.action file g)
    | none => .error ⟨some c, .misuse .missingFile⟩

def helpName : String := "help"

/-- The words behind `help`: nothing, `help` itself or the name of a command. -/
def parseHelp : List String → Refusal
  | [] => ⟨none, .help⟩
  | [name] =>
    if name = helpName then ⟨none, .help⟩
    else match Command.ofName? name with
      | some c => ⟨some c, .help⟩
      | none => ⟨none, .misuse (.unknownCommand name)⟩
  | _ :: name :: _ => ⟨none, .misuse (.unknownCommand name)⟩

/-- A command line, where `g` has been given in front of it. -/
def parseFrom (g : Given) : List String → Except Refusal Action
  | [] => .error ⟨none, .misuse .missingCommand⟩
  | a :: rest =>
    match Command.ofName? a with
    | some c => c.parse rest
    | none =>
      if a = helpName then .error (parseHelp rest)
      else if isOperand a then .error ⟨none, .misuse (.unknownCommand a)⟩
      else match g.collect (events commonSwitches [a]) with
        | .error reason => .error ⟨none, reason⟩
        | .ok g =>
          if a = "--" then .error ⟨none, .misuse .missingCommand⟩ else parseFrom g rest

/-- What a command line asks for. -/
def parse (args : List String) : Except Refusal Action := parseFrom {} args

/-! ## Help -/

/-- A text with blanks behind it, up to a width. -/
def padded (width : Nat) (s : String) : String := s ++ "".pushn ' ' (width - s.length)

def rows (es : List (String × String)) : List String :=
  let width := (es.map fun e => e.1.length).foldl max 0
  es.map fun e => "  " ++ padded width e.1 ++ "  " ++ e.2

def Switch.valueName (s : Switch) : String :=
  s.name.map fun c => if c = '-' then '_' else c.toUpper

def Switch.usage (s : Switch) : String :=
  (match s.letter with
    | some c => "-" ++ String.ofList [c] ++ ", "
    | none => "    ") ++ "--" ++ s.name ++
    (if s.value.isSome then " <" ++ s.valueName ++ ">" else "")

def switchRows (table : List Switch) : List String := rows (table.map fun s => (s.usage, s.purpose))

/-- How the program, or a command of it, is called. -/
def usage : Option Command → String
  | none => "Usage: sqlblend [OPTIONS] <COMMAND>"
  | some c => "Usage: sqlblend " ++ c.name ++ " [OPTIONS] <FILE>"

def programPurpose : String := "sqlblend - Blend BI query SQL into one CTE-based statement"

def help : Option Command → List String
  | none =>
    [programPurpose, "", usage none, "", "Commands:"] ++
      rows ((Command.all.map fun c => (c.name, c.purpose)) ++
        [(helpName, "Print this message or the help of the given subcommand(s)")]) ++
      ["", "Options:"] ++ switchRows commonSwitches
  | some c =>
    [c.purpose, "", usage (some c), "", "Arguments:"] ++ rows [("<FILE>", c.filePurpose)] ++
      ["", "Options:"] ++ switchRows c.switches

def version : String := "sqlblend 0.1.0"

namespace Command

theorem ofName?_name (c : Command) : ofName? c.name = some c := by cases c <;> decide

end Command

theorem parse_command (c : Command) (args : List String) : parse (c.name :: args) = c.parse args := by
  rw [parse, parseFrom, Command.ofName?_name]

end QueryBlend.CommandLine
