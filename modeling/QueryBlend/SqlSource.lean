import QueryBlend.Blend
import QueryBlend.Settings
/-!
# Where the SQL of queries comes from

A source gives the SQL of a query by its id, the id of a query by its slug, and the name of the dialect
that a connection speaks. A query that a source does not know is not the end: its id is tried as a slug,
and if that fails too, a comment stands for its SQL, so that the blended statement shows which query is
wrong.

Results:
* `isFileId_iff`: which ids name files.
-/
namespace QueryBlend
open Text

inductive SourceProblem where
  | queryNotFound (id : String)
  | slugNotFound (slug : String)
  | connectionNotFound (name : String)
  | invalidId (id : String)
  /-- The service behind the source has failed. -/
  | service (message : String)
  | unreadable (failure : ReadFailure)
  deriving DecidableEq, Repr

def SourceProblem.message : SourceProblem → String
  | queryNotFound id => "Query not found: " ++ id
  | slugNotFound slug => "Slug not found: " ++ slug
  | connectionNotFound name => "Connection not found: " ++ name
  | invalidId id => "Invalid query id: " ++ id
  | service message => "Upstream error: " ++ message
  | unreadable failure => "Failed to read query SQL: " ++ failure.message

/-- What can be asked about queries and connections. -/
structure SqlSource (m : Type → Type) where
  sql : (id : String) → m (Except SourceProblem String)
  queryOfSlug : (slug : String) → m (Except SourceProblem String)
  dialectName : (connection : String) → m (Except SourceProblem String)

/-- Stands for the SQL of a query that cannot be found. -/
def missingSql (id : String) : String :=
  "-- INVALID_QUERY_ID: " ++ id ++
    ", couldn't generate SQL. Please contact your BI administrator."

namespace SqlSource

variable {m : Type → Type} [Monad m]

/-- The SQL of a query, by its id or by its slug, or what stands for it. -/
def fetch (source : SqlSource m) (id : String) : m String := do
  match ← source.sql id with
  | .ok sql => return sql
  | .error _ =>
    match ← source.queryOfSlug id with
    | .error _ => return missingSql id
    | .ok resolved =>
      match ← source.sql resolved with
      | .ok sql => return sql
      | .error _ => return missingSql id

/-- The SQL of queries, in their order. -/
def fetchEach (source : SqlSource m) (queries : List Query) : m (List String) :=
  queries.mapM fun q => source.fetch q.source

def failing (message : String) : SqlSource m where
  sql _ := return .error (.service message)
  queryOfSlug _ := return .error (.service message)
  dialectName _ := return .error (.service message)

end SqlSource

/-- The value under a text, or the error that there is none. -/
def Dict.getOr (d : Dict String) (k : String) (e : String → SourceProblem) : Except SourceProblem String :=
  match d.get? k with
  | some v => .ok v
  | none => .error (e k)

/-! ## Sources in memory -/

/-- Queries, slugs and connections that are all known. -/
structure KnownQueries where
  queries : Dict String := {}
  slugs : Dict String := {}
  connections : Dict String := {}
  deriving DecidableEq

def KnownQueries.source {m : Type → Type} [Monad m] (s : KnownQueries) : SqlSource m where
  sql id := return s.queries.getOr id .queryNotFound
  queryOfSlug slug := return s.slugs.getOr slug .slugNotFound
  dialectName name := return s.connections.getOr name .connectionNotFound

/-! ## Sources in directories -/

/-- A directory with a file for each query, named for the id of the query, and known slugs and
connections. -/
structure QueryDirectory where
  root : String
  slugs : Dict String := {}
  connections : Dict String := {}
  deriving DecidableEq

/-- A character of an id that names a file. -/
def isFileIdChar (c : Char) : Bool := isAsciiAlphanumeric c || c == '_' || c == '-'

/-- Whether an id names a file, and no place outside of the directory. -/
def isFileId (id : String) : Bool := !id.isEmpty && id.toList.all isFileIdChar

namespace QueryDirectory

variable {m : Type → Type} [Monad m]

def path? (s : QueryDirectory) (id : String) : Except SourceProblem String :=
  if isFileId id then .ok (joinPath s.root (id ++ ".sql")) else .error (.invalidId id)

def readSql (machine : Machine m) (s : QueryDirectory) (id : String) :
    m (Except SourceProblem String) :=
  match s.path? id with
  | .error e => return .error e
  | .ok path => do
    match ← machine.readText path with
    | .ok sql => return .ok sql
    | .error .notFound => return .error (.queryNotFound id)
    | .error e => return .error (.unreadable e)

def source (machine : Machine m) (s : QueryDirectory) : SqlSource m where
  sql := readSql machine s
  queryOfSlug slug := return s.slugs.getOr slug .slugNotFound
  dialectName name := return s.connections.getOr name .connectionNotFound

/-- The dialects of connections, with the values of the variables that they name. -/
def expandConnections (machine : Machine m) :
    List (String × String) → m (Except SettingsProblem (List (String × String)))
  | [] => return .ok []
  | (name, dialect) :: rest => do
    match ← Settings.expand machine dialect with
    | .error e => return .error e
    | .ok dialect =>
      match ← expandConnections machine rest with
      | .error e => return .error e
      | .ok rest => return .ok ((name, dialect) :: rest)

def ofSettings (machine : Machine m) (settings : Settings) :
    m (Except SettingsProblem QueryDirectory) := do
  match ← expandConnections machine settings.connections.entries with
  | .error e => return .error e
  | .ok connections =>
    match ← Settings.expand machine settings.sqlDir with
    | .error e => return .error e
    | .ok root =>
      return .ok { root := root, slugs := settings.slugs, connections := Dict.ofList connections }

end QueryDirectory

theorem isFileId_iff (id : String) :
    isFileId id = true ↔ id.toList ≠ [] ∧ ∀ c ∈ id.toList, isFileIdChar c = true := by
  simp [isFileId]

end QueryBlend
