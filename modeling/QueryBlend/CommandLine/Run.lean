import QueryBlend.CommandLine.Command
import QueryBlend.Request
import QueryBlend.Definition
import QueryBlend.Findings
/-!
# What the program does

An action reads its file, does its work and ends with a report or with a failure; a command line that
asks for no action ends with help, with the version or with what is wrong with it. An outcome is what is
seen of this from outside: the exit code, the output, and the lines that are written beside it.
-/
namespace QueryBlend.CommandLine

/-! ## Reports and failures -/

inductive Failure where
  | unreadable (file : String) (failure : ReadFailure)
  | notABlend (file : String) (problem : Json.Problem)
  | settings (e : SettingsProblem)
  | notValid (findings : List Finding)
  | notCompiled (e : RequestProblem)
  | unsupportedPivot (e : UnsupportedPivot)
  deriving DecidableEq, Repr

def Failure.lines : Failure → List String
  | unreadable file failure => ["Error reading file '" ++ file ++ "': " ++ failure.message]
  | notABlend file problem =>
    ["Invalid blend definition '" ++ file ++ "': " ++ String.ofList problem.message]
  | settings e => ["Configuration error: " ++ e.message]
  | notValid findings => "Validation errors:" :: findings.map fun f => "  " ++ f.message
  | notCompiled e => ["Compilation error: " ++ e.message]
  | unsupportedPivot e => ["Parse error: " ++ String.ofList e.message]

structure Report where
  output : List Char
  warnings : List String := []
  deriving DecidableEq, Repr

structure Outcome where
  exitCode : Nat
  output : List Char := []
  /-- The lines written beside the output. -/
  messages : List String := []
  deriving DecidableEq, Repr

def Outcome.ofResult : Except Failure Report → Outcome
  | .ok r => { exitCode := 0, output := r.output ++ ['\n'], messages := r.warnings }
  | .error f => { exitCode := 1, messages := f.lines }

def Outcome.ofRefusal (r : Refusal) : Outcome :=
  match r.reason with
  | .help => { exitCode := 0, output := Text.unlines ((help r.command).map String.toList) ++ ['\n'] }
  | .version => { exitCode := 0, output := version.toList ++ ['\n'] }
  | .misuse m =>
    { exitCode := 2
      messages := ["error: " ++ m.message, "", usage r.command, "", "For more information, try '--help'."] }

/-! ## JSON output -/

def segmentsValue (s : Segments) : Json.Value :=
  .object [("materialization_blocks".toList, .list (s.blocks.map .text)),
    ("select".toList, .text s.select), ("total".toList, .text s.total),
    ("row_totals".toList, .text s.rowTotals), ("grand_total".toList, .text s.grandTotal),
    ("pivot".toList, .text s.pivot)]

def derivedTableValue (t : DerivedTable) : Json.Value :=
  .object [("registration_key".toList, .text t.registrationKey), ("model".toList, .text t.model),
    ("view".toList, .text t.view), ("scratch_schema".toList, .text t.schema),
    ("ephemeral_name_variant_r".toList, .text t.nameR),
    ("ephemeral_name_variant_c".toList, .text t.nameC),
    ("stable_view_name".toList, .text t.stableName), ("project".toList, .text t.project),
    ("quote_char".toList, .text t.quoteMark)]

/-! ## Actions -/

def reportSegments (sql : String) : Except Failure Report :=
  match Segments.parse sql.toList with
  | .ok s => .ok { output := (segmentsValue s).renderLines 0 }
  | .error e => .error (.unsupportedPivot e)

/-- The derived tables of a file's text, printed; they do not depend on the pivot, so that one that
cannot be unwrapped is only worth a warning. -/
def reportDerivedTables (sql : String) : Report :=
  let found := (Segments.split sql.toList).blocks.map DerivedTable.ofBlock
  { output := (Json.Value.list (found.map derivedTableValue)).renderLines 0
    warnings := match Segments.parse sql.toList with
      | .ok _ => []
      | .error e => ["Warning: " ++ String.ofList e.message] }

/-- The blend in a file's text, with aliases made of the characters of aliases if that is wanted. -/
def parseBlend (file : String) (sanitizeAliases : Bool) (text : String) : Except Failure Blend :=
  match Blend.read text.toList with
  | .ok b => .ok (if sanitizeAliases then b.sanitize else b)
  | .error p => .error (.notABlend file p)

/-- The blend, if nothing stands against it. -/
def wellFormed (b : Blend) : Except Failure Blend :=
  match b.findings with
  | [] => .ok b
  | findings => .error (.notValid findings)

/-- The verdict on the blend in a file's text, printed. -/
def reportVerdict (file : String) (sanitizeAliases : Bool) (text : String) :
    Except Failure Report := do
  let _ ← wellFormed (← parseBlend file sanitizeAliases text)
  return { output := ("OK: " ++ file ++ " is valid").toList }

/-- The request for a blend, by the settings and then by the options of the command line. -/
def CompileOptions.request (o : CompileOptions) (settings : Settings) (b : Blend) : Request :=
  let r := Request.withDefaults { blend := b } settings
  { r with
    connection := o.connection
    dialect := o.dialect.map Dialect.ofName
    stableViews := r.stableViews || o.stableViews
    token := o.token
    pretty := r.pretty && !o.noPretty }

section
variable {m : Type → Type} [Monad m]

def textOfFile (machine : Machine m) (file : String) : ExceptT Failure m String := do
  match ← machine.readText file with
  | .ok s => return s
  | .error e => throw (.unreadable file e)

def configure (machine : Machine m) (o : CompileOptions) :
    ExceptT Failure m (Settings × QueryDirectory) := do
  match ← ExceptT.lift (Settings.load machine o.config) with
  | .error e => throw (.settings e)
  | .ok settings =>
    match ← ExceptT.lift (QueryDirectory.ofSettings machine settings) with
    | .error e => throw (.settings e)
    | .ok source => return (settings, { source with root := o.sqlDir.getD source.root })

def compileFile (format : Sql.Formatter) (machine : Machine m) (file : String) (o : CompileOptions) :
    ExceptT Failure m Report := do
  let text ← textOfFile machine file
  let b ← ExceptT.mk (pure (parseBlend file o.sanitizeAliases text))
  let (settings, source) ← configure machine o
  let b ← ExceptT.mk (pure (wellFormed b))
  match ← ExceptT.lift ((o.request settings b).compile format (source.source machine)) with
  | .ok c => return { output := c.sql }
  | .error e => throw (.notCompiled e)

def Action.perform (format : Sql.Formatter) (machine : Machine m) : Action → ExceptT Failure m Report
  | .compile file options => compileFile format machine file options
  | .segments file => do ExceptT.mk (pure (reportSegments (← textOfFile machine file)))
  | .derivedTables file => do return reportDerivedTables (← textOfFile machine file)
  | .validate file sanitizeAliases => do
    ExceptT.mk (pure (reportVerdict file sanitizeAliases (← textOfFile machine file)))

def run (format : Sql.Formatter) (machine : Machine m) (args : List String) : m Outcome :=
  match parse args with
  | .error r => return Outcome.ofRefusal r
  | .ok action => do return Outcome.ofResult (← (action.perform format machine).run)

end

end QueryBlend.CommandLine
