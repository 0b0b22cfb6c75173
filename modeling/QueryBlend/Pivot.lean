import QueryBlend.Sql.Clause
/-!
# Selects inside pivots

A pivoted query wraps its plain select in several ranking selects:

```text
SELECT * FROM (
SELECT *, DENSE_RANK() OVER (ORDER BY z___min_rank) as z___pivot_row_rank, ... FROM (
SELECT *, MIN(z___rank) OVER (PARTITION BY "row.dim") as z___min_rank FROM (
SELECT *, RANK() OVER (ORDER BY "row.dim" ASC, z__pivot_col_rank) AS z___rank FROM (
SELECT *, DENSE_RANK() OVER (ORDER BY "col.dim") AS z__pivot_col_rank FROM (
SELECT ... ) ww
) bb WHERE z__pivot_col_rank <= 16384
) aa
) xx
) zz
 WHERE ... AND (z___pivot_row_rank <= 500) ORDER BY z___pivot_row_rank
```

A blend needs the rows that are not pivoted, so the plain select is taken out, its row dimension is
moved in front of its column dimension, and the order and the row cap of the wrapping are put behind
it. More than one row or column dimension cannot be told apart and is refused.

Results:
* `flatSelect_of_innermost_none`: a text without a plain select inside is left as it is.
-/
namespace QueryBlend
open Text Text.Form

/-- A pivot over several row or column dimensions, with their names in order. -/
structure UnsupportedPivot where
  rows : List (List Char)
  columns : List (List Char)
  deriving DecidableEq, Repr

def UnsupportedPivot.message (e : UnsupportedPivot) : List Char :=
  "Unsupported pivot: expected one row and one column dimension, found rows [".toList ++
    joinWith ", ".toList e.rows ++ "] and columns [".toList ++ joinWith ", ".toList e.columns ++
    "]".toList

namespace Pivot

/-- The rank that every pivot computes. -/
def rankColumn : List Char := "z__pivot_col_rank".toList

def isWrapped (select : List Char) : Bool := hasPart rankColumn select

/-! ## The plain select -/

/-- Closes the plain select. -/
def plainStop : Pattern := ⟨literal ")" >=> gap >=> literal "ww" >=> wordEnd, false⟩

/-- Opens a select inside another one. -/
def plainStart : Pattern := ⟨word "FROM" >=> gap >=> literal "(", true⟩

/-- The plain select: what stands between the first closing and the last opening in front of it. -/
def innermost? (wrapper : List Char) : Option (List Char) := do
  let close ← plainStop.find? wrapper
  let (_, start) ← (plainStart.spans close.before).getLast?
  return trim (close.before.drop start)

/-! ## Dimensions -/

/-- The text up to the first place of its line where `stop` can be read. -/
def upTo? (stop : Form) : List Char → Option (List Char)
  | [] => none
  | c :: cs =>
    if (stop (c :: cs)).isSome then some []
    else if c = '\n' then none
    else (upTo? stop cs).map (c :: ·)

/-- The first text of one line that stands between `start` and `stop`. -/
def between? (start stop : Form) : List Char → Option (List Char)
  | [] => none
  | c :: cs => ((start (c :: cs)).bind (upTo? stop)).or (between? start stop cs)

/-- The names among the pieces of a text that double quotes separate, from behind a quote on: a piece
that is not empty and not the last is a name, and the quote behind it is used up. -/
def namesOfPieces : List (List Char) → List (List Char)
  | p :: q :: rest => if p.isEmpty then namesOfPieces (q :: rest) else p :: namesOfPieces rest
  | _ => []

def quotedNames (s : List Char) : List (List Char) := namesOfPieces (s.splitOn '\x22').tail

/-- Texts without repeats, in the order of their code points. -/
def distinctSorted (names : List (List Char)) : List (List Char) :=
  names.eraseDups.mergeSort fun a b => decide (String.ofList a ≤ String.ofList b)

/-- Behind `MIN(z___rank) OVER (PARTITION BY`. -/
def rowListStart : Form :=
  word "MIN(" >=> gap >=> word "z___rank" >=> gap >=> literal ")" >=> blanks >=> word "OVER" >=>
    gap >=> literal "(" >=> gap >=> word "PARTITION" >=> blanks >=> word "BY" >=> blanks

/-- `) AS z___min_rank`. -/
def rowListStop : Form :=
  literal ")" >=> blanks >=> word "AS" >=> blanks >=> word "z___min_rank" >=> wordEnd

/-- Behind `DENSE_RANK() OVER (ORDER BY`. -/
def columnListStart : Form :=
  word "DENSE_RANK()" >=> blanks >=> word "OVER" >=> gap >=> literal "(" >=> gap >=>
    word "ORDER" >=> blanks >=> word "BY" >=> blanks

/-- `) AS z__pivot_col_rank`. -/
def columnListStop : Form :=
  literal ")" >=> blanks >=> word "AS" >=> blanks >=> word "z__pivot_col_rank" >=> wordEnd

/-- The names in the list between `start` and `stop`, without repeats and in order. -/
def listedNames (start stop : Form) (wrapper : List Char) : List (List Char) :=
  match between? start stop wrapper with
  | some list => distinctSorted (quotedNames list)
  | none => []

def rowNames (wrapper : List Char) : List (List Char) :=
  listedNames rowListStart rowListStop wrapper

def columnNames (wrapper : List Char) : List (List Char) :=
  listedNames columnListStart columnListStop wrapper

/-! ## The row dimension first -/

/-- Whether a line ends in `AS "name"`, with or without a comma behind it, in either case. -/
def projects (name line : List Char) : Bool :=
  let l := trimEnd line
  let l := trimEnd ((beforeLast? ',' l).getD l)
  let ending := "AS \"".toList ++ name ++ "\"".toList
  (ending.map lowerAscii).isSuffixOf (l.map lowerAscii)

/-- A line without blanks at its end, as its body and its comma or nothing. -/
def bodyAndComma (line : List Char) : List Char × List Char :=
  let l := trimEnd line
  match beforeLast? ',' l with
  | some body => (body, [','])
  | none => (l, [])

/-- The lines with the bodies of lines `i` and `j` exchanged; the commas stay where they are. -/
def swapBodies (ls : List (List Char)) (i j : Nat) : List (List Char) :=
  let (bodyI, commaI) := bodyAndComma (ls.getD i [])
  let (bodyJ, commaJ) := bodyAndComma (ls.getD j [])
  (ls.set i (bodyJ ++ commaI)).set j (bodyI ++ commaJ)

/-- The select with the line of the row dimension in front of the line of the column dimension. -/
def rowFirst (select row column : List Char) : List Char :=
  let ls := lines select
  match ls.findIdx? (projects row), ls.findIdx? (projects column) with
  | some r, some c => if c < r then unlines (swapBodies ls c r) else select
  | _, _ => select

/-! ## Order and row cap -/

def rankOrder : Pattern :=
  ⟨word "ORDER" >=> blanks >=> word "BY" >=> blanks >=> word "z___pivot_row_rank" >=> wordEnd, true⟩

/-- In front of the number that caps the rows. -/
def rowBoundStart : Form := literal "z___pivot_row_rank" >=> gap >=> literal "<=" >=> gap

def rowBound : Pattern := ⟨rowBoundStart >=> number, true⟩

/-- The number in the row cap of the wrapping, as it is written there. -/
def rowBound? (wrapper : List Char) : Option (List Char) := do
  let f ← rowBound.find? wrapper
  let digits ← rowBoundStart f.here
  return digits.takeWhile isDecimal

/-- What stands for the order of the wrapping. -/
def orderClause : List Char := "\nORDER BY\n    1".toList

/-- What stands for the row cap of the wrapping. -/
def capClause (n : List Char) : List Char := "\nFETCH NEXT ".toList ++ n ++ " ROWS ONLY".toList

/-- The select with the order of the wrapping, if it has no order of its own. -/
def withOrder (wrapper select : List Char) : List Char :=
  if rankOrder.occursIn wrapper && (Sql.lastAtTop? Sql.orderBy select).isNone then
    select ++ orderClause
  else select

/-- The select with the row cap of the wrapping, if it does not end in a row cap of its own. -/
def withCap (wrapper select : List Char) : List Char :=
  match rowBound? wrapper with
  | some n => if Sql.bareCap.occursIn select then select else select ++ capClause n
  | none => select

/-- The plain select of a pivot, with the order and the row cap of the wrapping; a text without a plain
select inside is left as it is. -/
def flatSelect (wrapper : List Char) : Except UnsupportedPivot (List Char) :=
  match innermost? wrapper with
  | none => .ok wrapper
  | some inner =>
    let rows := rowNames wrapper
    let columns := columnNames wrapper
    if 1 < rows.length ∨ 1 < columns.length then .error ⟨rows, columns⟩
    else
      let select := match rows, columns with
        | row :: _, column :: _ => rowFirst inner row column
        | _, _ => inner
      .ok (withCap wrapper (withOrder wrapper select))

theorem flatSelect_of_innermost_none {wrapper : List Char} (h : innermost? wrapper = none) :
    flatSelect wrapper = .ok wrapper := by
  simp [flatSelect, h]

end Pivot
end QueryBlend
