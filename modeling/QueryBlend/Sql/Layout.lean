import QueryBlend.Text.Basic
/-!
# Layout of statements

A statement for people to read is laid out by a formatter. Formatters are not part of this library, and
nothing is assumed of them: any function of texts is one. A formatter may well take an upstream name such
as `LR$ZK...` for a placeholder and change it, so its answer is judged before it is used, and a statement
that it has changed in more than its blanks stays as it was.

Results:
* `squeeze_layOut`: whatever the formatter, a statement keeps everything but blanks, in its order.
-/
namespace QueryBlend.Sql
open Text

/-- What answers with a statement laid out for people to read. -/
abbrev Formatter := List Char → List Char

/-- For a program without a formatter: statements stay as they are written. -/
def asWritten : Formatter := id

def squeeze (s : List Char) : List Char := s.filter fun c => !isBlank c

/-- The texts have the same characters in the same order, blanks aside. -/
def sameTokens (s t : List Char) : Bool := squeeze s == squeeze t

/-- The formatter's answer, if it has the tokens of the statement. -/
def layOut (format : Formatter) (sql : List Char) : List Char :=
  if sameTokens sql (format sql) then format sql else sql

theorem squeeze_append (s t : List Char) : squeeze (s ++ t) = squeeze s ++ squeeze t :=
  List.filter_append ..

theorem squeeze_layOut (format : Formatter) (sql : List Char) :
    squeeze (layOut format sql) = squeeze sql := by
  unfold layOut
  split
  · next h => exact (eq_of_beq h).symm
  · rfl

end QueryBlend.Sql
