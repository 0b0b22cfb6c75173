import QueryBlend.Statement
import QueryBlend.DerivedTable
import QueryBlend.SqlSource
import QueryBlend.Sql.Layout
/-!
# From a request to a statement

A request names a blend and says how it is to be compiled. The SQL of its queries is fetched, put on
stable views if that is wanted, and composed into one statement. Only two things stop this: a blend
without queries, and a dialect that is not known. Whatever is wrong with a single query shows as a
comment where its SQL would be.
-/
namespace QueryBlend

structure Request where
  blend : Blend
  /-- The connection whose dialect is used, if no dialect is given. -/
  connection : Option String := none
  dialect : Option Dialect := none
  stableViews : Bool := false
  token : Option String := none
  /-- Whether the statement is laid out for people to read. -/
  pretty : Bool := true

inductive RequestProblem where
  | emptyBlend
  | unknownDialect (connection : String) (cause : SourceProblem)
  | missingDialect
  deriving DecidableEq, Repr

def RequestProblem.message : RequestProblem → String
  | emptyBlend => "Blend has no queries"
  | unknownDialect connection cause =>
    "Cannot resolve dialect for connection '" ++ connection ++ "': " ++ cause.message
  | missingDialect => "No connection or dialect given"

/-- A statement with the dialect it is written in. -/
structure Compiled where
  sql : List Char
  dialect : Dialect
  columns : List Column
  deriving DecidableEq, Repr

namespace Request

def withDefaults (r : Request) (s : Settings) : Request :=
  { r with stableViews := s.stableViews, pretty := s.pretty }

/-- What stands for the SQL of a query that cannot be put on stable views. -/
def refusal (e : UnsupportedPivot) : List Char := "-- Error: ".toList ++ e.message

/-- The SQL of a query as it goes into the statement. -/
def prepare (stableViews : Bool) (raw : String) : List Char :=
  if stableViews then
    match stableSelect raw.toList with
    | .ok sql => sql
    | .error e => refusal e
  else raw.toList

/-- The statement of a request whose dialect and SQL are known. -/
def finish (format : Sql.Formatter) (r : Request) (dialect : Dialect) (raws : List String) : Compiled :=
  let s := r.blend.statement dialect r.token (raws.map (prepare r.stableViews))
  { sql := if r.pretty then Sql.layOut format s.sql else s.sql
    dialect := dialect
    columns := s.columns }

variable {m : Type → Type} [Monad m]

/-- The dialect of a request: the one given, or that of its connection. -/
def dialectIn (source : SqlSource m) (r : Request) : m (Except RequestProblem Dialect) :=
  match r.dialect, r.connection with
  | some d, _ => return .ok d
  | none, none => return .error .missingDialect
  | none, some connection => do
    match ← source.dialectName connection with
    | .ok name => return .ok (Dialect.ofName name)
    | .error e => return .error (.unknownDialect connection e)

def compile (format : Sql.Formatter) (source : SqlSource m) (r : Request) :
    m (Except RequestProblem Compiled) :=
  if r.blend.queries.isEmpty then return .error .emptyBlend
  else do
    match ← r.dialectIn source with
    | .error e => return .error e
    | .ok dialect => return .ok (r.finish format dialect (← source.fetchEach r.blend.queries))

end Request
end QueryBlend
