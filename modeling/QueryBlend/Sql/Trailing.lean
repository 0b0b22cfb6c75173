import QueryBlend.Sql.Clause
/-!
# Queries without their trailing clauses

A query that becomes the body of a common table expression loses what must not stand there: the totals
that its text goes on with, semicolons, a row cap and the order of its rows. Each cut is made only at
top level, so a clause inside a sub-select, a quote or a comment stays.

A query whose row limit is to be respected keeps a row cap, and then the order in front of it too. The
order is never taken away from in front of a row cap in whatever notation.

Results:
* `stripTrailing_isPrefix`: what is left is the start of the trimmed text.
-/
namespace QueryBlend.Sql
open Text

/-- Stands for a query of which nothing is left. -/
def emptyNotice : List Char := "-- Error: Processed SQL was empty".toList

/-- The text without the semicolons and blanks at its end. -/
def dropSemicolons (sql : List Char) : List Char := dropEnd (fun c => c == ';' || isBlank c) sql

/-- The text in front of the first comment that announces totals, if that stands at top level. -/
def dropTotal (sql : List Char) : List Char :=
  match totals.find? sql with
  | some f => if endsAtTop f.before then trimEnd f.before else sql
  | none => sql

/-- The query itself: the trimmed text without totals and final semicolons. -/
def queryBody (sql : List Char) : List Char := dropSemicolons (dropTotal (trim sql))

/-- The text in front of the last `ORDER BY` of top level, if a plain list of columns without a row cap
follows it. -/
def dropOrder (sql : List Char) : List Char :=
  match lastAtTop? orderBy sql with
  | some (first, behind) =>
    let tail := sql.drop behind
    if isOrderList tail && (lastAtTop? capWord tail).isNone then trimEnd (sql.take first) else sql
  | none => sql

/-- The query without what must not stand in a common table expression. -/
def stripTrailing (sql : List Char) (respectLimit : Bool) : List Char :=
  let body := queryBody sql
  match closingCap.find? body with
  | some f =>
    if endsAtTop f.before then
      if respectLimit then body else dropOrder (dropSemicolons (trimEnd f.before))
    else dropOrder body
  | none => dropOrder body

def orNotice (sql : List Char) : List Char := if isAllBlank sql then emptyNotice else sql

theorem dropSemicolons_isPrefix (sql : List Char) : dropSemicolons sql <+: sql := dropEnd_isPrefix _ _

theorem before_isPrefix {p : Pattern} {sql : List Char} {f : Found} (h : p.find? sql = some f) :
    f.before <+: sql :=
  ⟨f.here, (p.find?_eq_some h).1.symm⟩

theorem dropTotal_isPrefix (sql : List Char) : dropTotal sql <+: sql := by
  unfold dropTotal
  split
  · next f h =>
    split
    · exact (trimEnd_isPrefix _).trans (before_isPrefix h)
    · exact List.prefix_refl _
  · exact List.prefix_refl _

theorem queryBody_isPrefix (sql : List Char) : queryBody sql <+: trim sql :=
  (dropSemicolons_isPrefix _).trans (dropTotal_isPrefix _)

theorem dropOrder_isPrefix (sql : List Char) : dropOrder sql <+: sql := by
  unfold dropOrder
  split
  · simp only []
    split
    · exact (trimEnd_isPrefix _).trans (List.take_prefix _ _)
    · exact List.prefix_refl _
  · exact List.prefix_refl _

theorem stripTrailing_isPrefix (sql : List Char) (respectLimit : Bool) :
    stripTrailing sql respectLimit <+: trim sql := by
  refine List.IsPrefix.trans ?_ (queryBody_isPrefix sql)
  unfold stripTrailing
  simp only []
  split
  · next f h =>
    split
    · split
      · exact List.prefix_refl _
      · exact (dropOrder_isPrefix _).trans
          ((dropSemicolons_isPrefix _).trans ((trimEnd_isPrefix _).trans (before_isPrefix h)))
    · exact dropOrder_isPrefix _
  · exact dropOrder_isPrefix _

end QueryBlend.Sql
