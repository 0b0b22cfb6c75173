import QueryBlend.Sql.TopLevel
/-!
# The clauses at the end of a query

Patterns for the clauses that order and cap the rows of a query. Key words count in either case, and
only as whole words.
-/
namespace QueryBlend.Sql
open Text Text.Form

def orderBy : Pattern := ⟨word "ORDER" >=> blanks >=> word "BY" >=> wordEnd, true⟩

/-- A key word that starts or continues a row cap. -/
def capWord : Pattern :=
  ⟨either (word "LIMIT") (either (word "FETCH") (word "OFFSET")) >=> wordEnd, true⟩

/-- `LIMIT n`. -/
def limitForm : Form := word "LIMIT" >=> blanks >=> number

/-- `OFFSET n` with the blanks in front of it. -/
def offsetForm : Form := blanks >=> word "OFFSET" >=> blanks >=> number

/-- `FETCH NEXT n ROWS ONLY`, with `FIRST` for `NEXT` and `ROW` for `ROWS` as one likes. -/
def fetchForm : Form :=
  word "FETCH" >=> blanks >=> either (word "NEXT") (word "FIRST") >=> blanks >=> number >=>
    blanks >=> word "ROW" >=> maybe (word "S") >=> blanks >=> word "ONLY"

/-- A comment up to the end of its line. -/
def lineComment : Form := literal "--" >=> many (· != '\n')

/-- A row cap without its surroundings, `LIMIT n` with or without an `OFFSET`. -/
def capForm : Form := either (limitForm >=> maybe offsetForm) fetchForm

/-- A row cap at the end of a text, where a last line comment may follow it. -/
def closingCap : Pattern := ⟨capForm >=> gap >=> maybe lineComment >=> textEnd, true⟩

/-- A row cap that nothing but blanks follows, and that has no `OFFSET`. -/
def bareCap : Pattern := ⟨either limitForm fetchForm >=> gap >=> textEnd, true⟩

/-- The comment in front of a query's totals. -/
def totals : Pattern := ⟨literal "--" >=> gap >=> word "sql for creating the total", false⟩

/-- The characters an `ORDER BY` list is made of when it only names columns or their positions. -/
def isOrderListChar (c : Char) : Bool :=
  isAsciiAlphanumeric c || isBlank c || "_.,()'\"\x60[]-".toList.contains c

/-- Whether the text is a list of columns or positions to order by. -/
def isOrderList (s : List Char) : Bool := !s.isEmpty && s.all isOrderListChar

end QueryBlend.Sql
