import QueryBlend.Segments
/-!
# Derived tables and their stable views

The block that builds a derived table names the model and the view it is built for, and, where it
finishes, the table it has built. That table is ephemeral: its name changes with every build. Each
table also has a stable view, whose name depends only on the schema, the registration key of the
connection, the model and the view. A query that is to be kept refers to the stable views instead.

An ephemeral name is `LR` or `LC`, a separator, the two characters of the registration key and a
suffix. Both variants are redirected, whichever of them the block has built.

Results:
* `redirect_append`: tables that come later see what the tables before them have redirected.
-/
namespace QueryBlend
open Text Text.Form

/-- What the block of a derived table says about it; what it does not say is empty. -/
structure DerivedTable where
  registrationKey : List Char := []
  model : List Char := []
  view : List Char := []
  schema : List Char := []
  /-- The ephemeral name that starts with `LR`. -/
  nameR : List Char := []
  /-- The ephemeral name that starts with `LC`. -/
  nameC : List Char := []
  stableName : List Char := []
  project : List Char := []
  /-- The mark around references to the table, if there is one. -/
  quoteMark : List Char := []
  deriving DecidableEq, Repr

namespace DerivedTable

/-! ## The block -/

def isSolid (c : Char) : Bool := !isBlank c

/-- Announces the model and the view. -/
def buildingForm : Form := word "-- Building persistent derived table "

/-- Announces the table, behind the name of the view. -/
def finishedForm : Form := word "-- finished " >=> many1 isSolid >=> literal " => "

/-- A character of a reference between marks `q`. -/
def inReference (q c : Char) : Bool := c != q && isSolid c

/-- A character of a reference without marks. -/
def inBareReference (c : Char) : Bool := c != '\x60' && c != '\x22' && isSolid c

/-- A reference between marks `q`. -/
def quotedReference (q : Char) : Form :=
  literal q.toString >=> many1 (inReference q) >=> literal q.toString

/-- A reference to a table, between backticks, between double quotes or without marks. -/
def reference : Form :=
  either (quotedReference '\x60') (either (quotedReference '\x22') (many1 inBareReference))

/-- The line that names the model and the view. -/
def buildingLine : Pattern :=
  ⟨buildingForm >=> many1 (fun c => c != ':' && isSolid c) >=> literal "::" >=> many1 isSolid, false⟩

/-- The line that names the table. -/
def finishedLine : Pattern := ⟨finishedForm >=> reference, false⟩

/-- The model and the view that a block is built for. -/
def modelAndView? (block : List Char) : Option (List Char × List Char) := do
  let f ← buildingLine.find? block
  let named ← buildingForm f.here
  return (named.takeWhile (· != ':'), ((named.dropWhile (· != ':')).drop 2).takeWhile isSolid)

/-- The mark and the text of the reference that a text starts with. -/
def readReference : List Char → List Char × List Char
  | [] => ([], [])
  | c :: cs =>
    if c = '\x60' ∨ c = '\x22' then ([c], cs.takeWhile (inReference c))
    else ([], (c :: cs).takeWhile inBareReference)

/-- The mark and the text of the reference to the table that a block has built. -/
def builtReference? (block : List Char) : Option (List Char × List Char) := do
  let f ← finishedLine.find? block
  let named ← finishedForm f.here
  return readReference named

/-! ## Ephemeral names -/

/-- A character of a registration key, in either case. -/
def isKeyChar (c : Char) : Bool := isAsciiAlphanumeric (fold c)

/-- A character of the suffix of an ephemeral name, in either case. -/
def isSuffixChar (c : Char) : Bool := isKeyChar c || c == '_'

/-- The separator, the registration key and the suffix of an ephemeral name. -/
structure Ephemeral where
  separator : Char
  key : List Char
  suffix : List Char
  deriving DecidableEq, Repr

def Ephemeral.read? : List Char → Option Ephemeral
  | l :: v :: sep :: a :: b :: rest =>
    if fold l = 'l' ∧ (fold v = 'c' ∨ fold v = 'r') ∧ (sep = '_' ∨ sep = '$') ∧ isKeyChar a ∧
        isKeyChar b ∧ rest.head?.any isSuffixChar then
      some ⟨sep, [a, b], rest.takeWhile isSuffixChar⟩
    else none
  | _ => none

def Ephemeral.find? : List Char → Option Ephemeral
  | [] => none
  | c :: cs => (Ephemeral.read? (c :: cs)).or (Ephemeral.find? cs)

def Ephemeral.name (e : Ephemeral) (variant : String) : List Char :=
  variant.toList ++ e.separator :: (e.key ++ e.suffix)

/-- The project, the schema and the table that a reference names. -/
def splitReference (reference : List Char) : List Char × List Char × List Char :=
  match reference.splitOn '.' with
  | [project, schema, table] => (project, schema, table)
  | [schema, table] => ([], schema, table)
  | _ => ([], [], [])

def stableNameOf (schema key model view : List Char) : List Char :=
  schema ++ '.' :: (key ++ '_' :: (model ++ '_' :: view))

def ofBlock (block : List Char) : DerivedTable :=
  let (model, view) := (modelAndView? block).getD ([], [])
  let (mark, ref) := (builtReference? block).getD ([], [])
  let (project, schema, table) := splitReference ref
  let name := Ephemeral.find? table
  let key := (name.map Ephemeral.key).getD []
  let usable := if schema.isEmpty then none else name
  { registrationKey := key
    model := model
    view := view
    schema := schema
    nameR := (usable.map (·.name "LR")).getD []
    nameC := (usable.map (·.name "LC")).getD []
    stableName := stableNameOf schema key model view
    project := project
    quoteMark := mark }

/-! ## Redirection -/

/-- The ephemeral names that are known. -/
def names (t : DerivedTable) : List (List Char) :=
  [t.nameR, t.nameC].filter fun n => !n.isEmpty

/-- The way a query refers to the table by one of its ephemeral names. -/
def referenceTo (t : DerivedTable) (name : List Char) : List Char :=
  let project := if t.project.isEmpty then [] else t.project ++ ['.']
  t.quoteMark ++ project ++ t.schema ++ '.' :: name ++ t.quoteMark

/-- The query with the references to the table replaced by the name of its stable view. -/
def redirectOne (sql : List Char) (t : DerivedTable) : List Char :=
  t.names.foldl (fun sql name => replaceAll (t.referenceTo name) t.stableName sql) sql

/-- The query with the references to all tables, one after the other, replaced by the names of their
stable views. -/
def redirect (sql : List Char) (tables : List DerivedTable) : List Char :=
  tables.foldl redirectOne sql

theorem redirect_append (sql : List Char) (ts us : List DerivedTable) :
    redirect sql (ts ++ us) = redirect (redirect sql ts) us := by
  simp [redirect, List.foldl_append]

end DerivedTable

/-- The select of a generated query on the stable views of its derived tables. -/
def stableSelect (raw : List Char) : Except UnsupportedPivot (List Char) := do
  let s ← Segments.parse raw
  return DerivedTable.redirect s.select (s.blocks.map DerivedTable.ofBlock)

end QueryBlend
