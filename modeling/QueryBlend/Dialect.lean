import QueryBlend.Text.Basic
/-!
# Dialects and the names of columns

A warehouse speaks one of nine dialects. For a blend only one thing depends on it: how a column of a
query is read, and how it is named in the blended statement.

* *Flattened* names (BigQuery): `q1.orders_id AS q1_orders_id`. Dotted names are not allowed there, so
  the queries themselves show their columns with underscores.
* *Quoted* names (all others): `q1."orders.id" AS "q1.orders.id"`.

Results:
* `ofName_name`: a dialect is recognised by its own name.
* `quote_injective`: different texts have different quoted names.
-/
namespace QueryBlend
open Text

inductive Dialect where
  | ansi
  | bigQuery
  | databricks
  | duckDb
  | mySql
  | postgres
  | redshift
  | snowflake
  | tSql
  deriving DecidableEq, Repr, Inhabited

inductive Naming where
  | flattened
  | quoted
  deriving DecidableEq, Repr

namespace Dialect

def name : Dialect → String
  | ansi => "ansi"
  | bigQuery => "bigquery"
  | databricks => "databricks"
  | duckDb => "duckdb"
  | mySql => "mysql"
  | postgres => "postgres"
  | redshift => "redshift"
  | snowflake => "snowflake"
  | tSql => "tsql"

/-- Dialects told by the start of their names, so that versions may follow. -/
def byStart : List (String × Dialect) :=
  [("bigquery", bigQuery), ("databricks", databricks), ("spark", databricks), ("mysql", mySql),
    ("mariadb", mySql), ("mssql", tSql)]

/-- Dialects told by their whole names. -/
def byName : List (String × Dialect) :=
  [("duckdb", duckDb), ("motherduck", duckDb), ("postgres", postgres), ("postgresql", postgres),
    ("greenplum", postgres), ("redshift", redshift), ("snowflake", snowflake), ("tsql", tSql),
    ("sql_server", tSql), ("synapse", tSql)]

/-- The dialect with the given name, in any case and with blanks around it; what no other dialect
answers to is taken for ANSI. -/
def ofName (name : String) : Dialect :=
  let n := (trim name.toList).map lowerAscii
  match byStart.find? fun e => e.1.toList.isPrefixOf n with
  | some e => e.2
  | none =>
    match byName.find? fun e => e.1.toList == n with
    | some e => e.2
    | none => ansi

def naming : Dialect → Naming
  | bigQuery => .flattened
  | _ => .quoted

theorem ofName_name (d : Dialect) : ofName d.name = d := by
  cases d <;> decide +kernel

end Dialect

/-! ## Names -/

def doubleQuotes : List Char → List Char
  | [] => []
  | c :: cs => if c = '\x22' then c :: c :: doubleQuotes cs else c :: doubleQuotes cs

/-- The text as a quoted name: between double quotes, those inside doubled. -/
def quote (s : List Char) : List Char := '\x22' :: (doubleQuotes s ++ ['\x22'])

def flatten (s : List Char) : List Char := s.map fun c => if c = '.' then '_' else c

namespace Naming

/-- The expression that reads a field from the query of the given alias. -/
def getter (n : Naming) (query field : List Char) : List Char :=
  match n with
  | flattened => query ++ '.' :: flatten field
  | quoted => query ++ '.' :: quote field

/-- The name of that field among the columns of the blend. -/
def column (n : Naming) (query field : List Char) : List Char :=
  match n with
  | flattened => query ++ '_' :: flatten field
  | quoted => quote (query ++ '.' :: field)

end Naming

theorem doubleQuotes_injective {s t : List Char} (h : doubleQuotes s = doubleQuotes t) : s = t := by
  induction s generalizing t with
  | nil =>
    cases t with
    | nil => rfl
    | cons d ds => simp only [doubleQuotes] at h; split at h <;> simp at h
  | cons c cs ih =>
    cases t with
    | nil => simp only [doubleQuotes] at h; split at h <;> simp at h
    | cons d ds =>
      simp only [doubleQuotes] at h
      split at h <;> split at h
      · next hc hd => subst hc; subst hd; simp only [List.cons.injEq, true_and] at h; rw [ih h]
      · next hc hd => simp only [List.cons.injEq] at h; exact absurd (h.1 ▸ hc) hd
      · next hc hd => simp only [List.cons.injEq] at h; exact absurd (h.1 ▸ hd) hc
      · simp only [List.cons.injEq] at h; rw [h.1, ih h.2]

theorem quote_injective {s t : List Char} (h : quote s = quote t) : s = t := by
  simp only [quote, List.cons.injEq, List.append_cancel_right_eq, true_and] at h
  exact doubleQuotes_injective h

end QueryBlend
