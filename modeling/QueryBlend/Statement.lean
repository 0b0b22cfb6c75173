import QueryBlend.Blend
import QueryBlend.Dialect
import QueryBlend.Sql.Trailing
/-!
# Blended statements

A blend and the SQL of its queries make one statement: each query is a common table expression, the
fields of all queries are its columns, and the joins put the queries together in their order.

```text
WITH orders AS (
...
),
users AS (
...
)
SELECT orders."id" AS "orders.id", users."name" AS "users.name" FROM orders
LEFT JOIN users ON orders."user_id" = users."id"
```

Results:
* `columns_map_name`: the columns are named from the query's name and the id of the field.
* `expressions_length`: there is one common table expression for each query.
-/
namespace QueryBlend
open Text

structure Column where
  queryId : String
  queryName : String
  fieldId : String
  label : String
  role : FieldRole
  name : List Char
  deriving DecidableEq, Repr

structure Statement where
  sql : List Char
  columns : List Column
  deriving DecidableEq, Repr

namespace Blend

def columnOf (n : Naming) (q : Query) (f : Field) : Column where
  queryId := q.id
  queryName := q.name
  fieldId := f.id
  label := f.label
  role := f.role
  name := n.column q.name.toList f.id.toList

def columns (b : Blend) (n : Naming) : List Column :=
  b.queries.flatMap fun q => q.fields.map (columnOf n q)

def body (q : Query) (raw : List Char) : List Char :=
  Sql.orNotice (Sql.stripTrailing raw q.respectLimit)

/-- A common table expression: a name and, in parentheses on lines of its own, a body. -/
def expression (name body : List Char) : List Char :=
  name ++ " AS (\n".toList ++ body ++ "\n)".toList

/-- The common table expressions of queries with their SQL; where that is missing it is empty. -/
def expressions : (queries : List Query) → (raws : List (List Char)) → List (List Char)
  | [], _ => []
  | q :: qs, raws => expression q.name.toList (body q (raws.headD [])) :: expressions qs raws.tail

def commonTables (b : Blend) (raws : List (List Char)) : List Char :=
  "WITH ".toList ++ joinWith ",\n".toList (expressions b.queries raws)

def projection (n : Naming) (c : Column) : List Char :=
  n.getter c.queryName.toList c.fieldId.toList ++ " AS ".toList ++ c.name

/-- What is selected: all columns, or everything if no query shows a field. -/
def projections (n : Naming) (columns : List Column) : List Char :=
  if columns.isEmpty then ['*'] else joinWith ", ".toList (columns.map (projection n))

def rootName (b : Blend) : List Char := (b.root?.map fun q => q.name.toList).getD []

def selection (b : Blend) (n : Naming) : List Char :=
  "SELECT ".toList ++ projections n (b.columns n) ++ " FROM ".toList ++ b.rootName

/-- An equality between fields of two queries, by the names of the queries. -/
def equality (n : Naming) (source target : List Char) (p : Predicate) : List Char :=
  n.getter source p.fromField.toList ++ " = ".toList ++ n.getter target p.toField.toList

def joining (b : Blend) (n : Naming) (q : Query) (j : Join) : List Char :=
  let head := j.kind.keyword.toList ++ ' ' :: q.name.toList
  if j.isUnconditional then head
  else
    let equalities := j.predicates.map fun p =>
      equality n (b.nameOf p.fromQuery).toList q.name.toList p
    head ++ " ON ".toList ++ joinWith " AND ".toList equalities

/-- The lines that join the queries behind the root; a query without a join is left out. -/
def joinings (b : Blend) (n : Naming) : List (List Char) :=
  b.joined.map fun e => b.joining n e.1 e.2

/-- The comment that carries a token through the warehouse and back. -/
def tokenLine : Option String → List Char
  | some token => "-- b=".toList ++ token.toList ++ ['\n']
  | none => []

def statement (b : Blend) (dialect : Dialect) (token : Option String) (raws : List (List Char)) :
    Statement where
  sql := tokenLine token ++ b.commonTables raws ++ '\n' :: b.selection dialect.naming ++
    (b.joinings dialect.naming).flatMap ('\n' :: ·)
  columns := b.columns dialect.naming

theorem columns_map_name (b : Blend) (n : Naming) :
    (b.columns n).map Column.name =
      b.queries.flatMap fun q => q.fields.map fun f => n.column q.name.toList f.id.toList := by
  simp [columns, List.map_flatMap, columnOf, Function.comp_def]

theorem expressions_length (queries : List Query) (raws : List (List Char)) :
    (expressions queries raws).length = queries.length := by
  induction queries generalizing raws with
  | nil => rfl
  | cons q qs ih => simp [expressions, ih]

end Blend
end QueryBlend
