import QueryBlend.Files
import QueryBlend.Template
import QueryBlend.Toml.Reader
/-!
# Settings

Settings say how queries are composed, where their SQL is kept, and which dialects the connections
speak. They are kept in a TOML file. What a file does not say has its usual value; what nobody asks for
is passed over, though a number in it that cannot be held is refused. The SQL directory and the dialects
may name environment variables.
-/
namespace QueryBlend

/-- The settings of the program, variables still named in them. -/
structure Settings where
  /-- Whether queries are put on the stable views of derived tables. -/
  stableViews : Bool := false
  /-- Whether statements are laid out for people to read. -/
  pretty : Bool := true
  sqlDir : String := "."
  slugs : Dict String := {}
  /-- Names of dialects by their connections. -/
  connections : Dict String := {}
  deriving DecidableEq

/-- Why there are no settings, or not the one that is asked for. -/
inductive SettingsProblem where
  | fileNotFound (path : String)
  | unreadable (failure : ReadFailure)
  /-- The file is not TOML, or it is not settings. -/
  | notSettings
  | missingVariable (name : String)
  | connectionNotFound (name : String)
  deriving DecidableEq, Repr

def SettingsProblem.message : SettingsProblem → String
  | fileNotFound path => "Config file not found: " ++ path
  | unreadable failure => "Failed to read config file: " ++ failure.message
  | notSettings => "Failed to parse config file: not a TOML file of settings"
  | missingVariable name => "Missing environment variable: " ++ name
  | connectionNotFound name => "Connection not found: " ++ name

namespace Settings
open Toml

/-! ## From TOML -/

/-- A truth value, or `usual` if there is none. -/
def flagOr (usual : Bool) : Option Value → Option Bool
  | none => some usual
  | some (.bool b) => some b
  | some _ => none

def textOf? : Value → Option String
  | .text s => some s
  | _ => none

def textOr (usual : String) : Option Value → Option String
  | none => some usual
  | some v => textOf? v

/-- The key of a moment that stands where a table is wanted. -/
def momentKey : String := "$__toml_private_datetime"

/-- The table that a value is. A moment is the table of its text. -/
def entries? : Value → Option Entries
  | .table es _ => some es
  | .moment m => some [(momentKey, .text (String.ofList m.text))]
  | _ => none

/-- A dictionary of values that `read` reads, empty if there is none. -/
def dictOr (read : Value → Option String) : Option Value → Option (Dict String)
  | none => some {}
  | some v => do
    let pairs ← (← entries? v).mapM fun e => (read e.2).map fun s => (e.1, s)
    some (Dict.ofList pairs)

/-- The values of the fields of a record that is a table; what belongs to no field has to be held. -/
def ofTable? (names : List String) (es : Entries) : Option (List (Option Value)) :=
  if entriesHeld (es.filter fun e => !names.contains e.1) then
    some (names.map fun n => Dict.look n es)
  else none

/-- The values of the fields of a record, which is a table or a list of values in the order of the
fields. -/
def fields? (names : List String) : Value → Option (List (Option Value))
  | .array vs => some ((List.range names.length).map fun i => vs[i]?)
  | .tables ts => some ((List.range names.length).map fun i => ts[i]?.map fun es => .table es .opened)
  | v => (entries? v).bind (ofTable? names)

/-- The values of the fields of a record that may be left out. -/
def fieldsOr (names : List String) : Option Value → Option (List (Option Value))
  | none => some (names.map fun _ => none)
  | some v => fields? names v

def connectionOf? (v : Value) : Option String := do
  match ← fields? ["dialect"] v with
  | [some v] => textOf? v
  | _ => none

def ofEntries (es : Entries) : Option Settings := do
  let all ← ofTable? ["compile", "source", "connections"] es
  let compile ← fieldsOr ["stable_views", "pretty"] (all[0]?.join)
  let source ← fieldsOr ["sql_dir", "slugs"] (all[1]?.join)
  return {
    stableViews := ← flagOr false (compile[0]?.join)
    pretty := ← flagOr true (compile[1]?.join)
    sqlDir := ← textOr "." (source[0]?.join)
    slugs := ← dictOr textOf? (source[1]?.join)
    connections := ← dictOr connectionOf? (all[2]?.join) }

def ofText (s : String) : Except SettingsProblem Settings :=
  match (Toml.read s.toList).bind ofEntries with
  | some settings => .ok settings
  | none => .error .notSettings

/-! ## From files -/

/-- The variable that names the file of settings. -/
def fileVariable : String := "SQLBLEND_CONFIG"

/-- The file of settings next to the blend. -/
def localFile : String := "sqlblend.toml"

/-- The file of settings among the configurations of the user. -/
def userFile : String := "sqlblend/config.toml"

variable {m : Type → Type} [Monad m]

def ofFile (machine : Machine m) (path : String) : m (Except SettingsProblem Settings) := do
  if ← machine.isThere path then
    match ← machine.readText path with
    | .ok s => return ofText s
    | .error e => return .error (.unreadable e)
  else
    return .error (.fileNotFound path)

/-- The settings where nobody says which file they are in: the file that the environment names, or else
a file next to the blend, or else the file of the user, or else the usual settings. -/
def find (machine : Machine m) : m (Except SettingsProblem Settings) := do
  match ← machine.environment? fileVariable with
  | some path => ofFile machine path
  | none =>
    if ← machine.isThere localFile then ofFile machine localFile
    else
      match ← machine.configDirectory? with
      | none => return .ok {}
      | some dir =>
        let path := joinPath dir userFile
        if ← machine.isThere path then ofFile machine path else return .ok {}

/-- The settings of a file if it is given, and otherwise those that are found. -/
def load (machine : Machine m) : (path : Option String) → m (Except SettingsProblem Settings)
  | some path => ofFile machine path
  | none => find machine

/-- A text with the values of the variables that it names. -/
def expand (machine : Machine m) (s : String) : m (Except SettingsProblem String) := do
  let names := (Template.pieces s.toList).filterMap fun
    | .named name => some (String.ofList name)
    | .char _ => none
  let values ← names.mapM fun name => do return (name, ← machine.environment? name)
  let lookup := fun name => (Dict.look name values).join
  return (Template.expand lookup s).mapError .missingVariable

/-- The name of the dialect of a connection, variables still named in it. -/
def connection? (s : Settings) (name : String) : Except SettingsProblem String :=
  match s.connections.get? name with
  | some dialect => .ok dialect
  | none => .error (.connectionNotFound name)

end Settings
end QueryBlend
