import QueryBlend.Dict
import QueryBlend.Toml.Moment
/-!
# TOML documents

The values of a TOML document, and how its lines build up its tables. A table may be opened once by a
header; a table that a header only passes through may still be opened, and dotted keys may pass through
it as well; a table that dotted keys make may only be added to by dotted keys, or passed through by later
headers; and a table written in braces is closed.

Results:
* `assign_new`: a key without a value gets the value.
* `assign_twice`: a key gets a value only once.
* `entriesHeld_iff`: a table can be held if all its values can.
-/
namespace QueryBlend.Toml

inductive TableKind where
  | passed
  | dotted
  | opened
  | closed
  deriving DecidableEq, Repr

/-- A value. Of a number it is only known whether it can be held, because nobody here wants one. -/
inductive Value where
  | text (s : String)
  | bool (b : Bool)
  | number (held : Bool)
  | moment (m : Moment)
  | array (items : List Value)
  | table (entries : List (String × Value)) (kind : TableKind)
  /-- A list of tables made by headers, the last one last. -/
  | tables (items : List (List (String × Value)))

/-- The keys of a table with their values. -/
abbrev Entries := List (String × Value)

mutual

def Value.isHeld : Value → Bool
  | .number held => held
  | .array items => itemsHeld items
  | .table entries _ => entriesHeld entries
  | .tables items => tablesHeld items
  | _ => true

def itemsHeld : List Value → Bool
  | [] => true
  | v :: vs => v.isHeld && itemsHeld vs

def entriesHeld : List (String × Value) → Bool
  | [] => true
  | (_, v) :: es => v.isHeld && entriesHeld es

def tablesHeld : List (List (String × Value)) → Bool
  | [] => true
  | es :: ts => entriesHeld es && tablesHeld ts

end

/-- Whether a path leads through a table of a kind; `made` is the kind of the tables that the path makes
where there are none. Nothing leads into a table in braces, and dotted keys do not lead into one that a
header has opened. -/
def isEntered (made : TableKind) : TableKind → Bool
  | .closed => false
  | .opened => made != .dotted
  | .passed | .dotted => true

/-- The table with the table under a path changed by `f`, which is given the kind of that table. What is
not there is made, and what is there keeps its kind; of a list of tables the last one is meant. -/
def within (made : TableKind) (f : TableKind → Entries → Option Entries) (kind : TableKind) :
    (path : List String) → Entries → Option Entries
  | [], es => f kind es
  | k :: ks, es =>
    match Dict.look k es with
    | none => (within made f made ks []).map fun sub => Dict.put k (.table sub made) es
    | some (.table sub there) =>
      if isEntered made there then
        (within made f there ks sub).map fun sub => Dict.put k (.table sub there) es
      else none
    | some (.tables items) =>
      match items.getLast? with
      | none => none
      | some last =>
        (within made f .opened ks last).map fun sub =>
          Dict.put k (.tables (items.dropLast ++ [sub])) es
    | some _ => none

/-- The table with a value under a new key. -/
def addNew (v : Value) (k : String) (es : Entries) : Option Entries :=
  match Dict.look k es with
  | none => some (Dict.put k v es)
  | some _ => none

/-- The table with a value under a path of dotted keys. The last of them is new, and what it is put into
is this table or one that dotted keys have made. -/
def assign (v : Value) (path : List String) (es : Entries) : Option Entries := do
  let last ← path.getLast?
  within .dotted (fun kind es => if kind = .dotted then addNew v last es else none) .dotted
    path.dropLast es

/-- The table with a table opened under a key. -/
def openTable (k : String) (es : Entries) : Option Entries :=
  match Dict.look k es with
  | none => some (Dict.put k (.table [] .opened) es)
  | some (.table sub .passed) => some (Dict.put k (.table sub .opened) es)
  | some _ => none

/-- The table with one more table in the list of tables under a key. -/
def appendTable (k : String) (es : Entries) : Option Entries :=
  match Dict.look k es with
  | none => some (Dict.put k (.tables [[]]) es)
  | some (.tables items) => some (Dict.put k (.tables (items ++ [[]])) es)
  | some _ => none

theorem assign_new (v : Value) {k : String} {es : Entries} (h : Dict.look k es = none) :
    assign v [k] es = some (Dict.put k v es) := by
  simp [assign, within, addNew, h]

theorem assign_twice (v w : Value) (k : String) (es : Entries) :
    (assign v [k] es).bind (assign w [k]) = none := by
  cases h : Dict.look k es with
  | none => rw [assign_new v h]; simp [assign, within, addNew, Dict.look_put]
  | some u => simp [assign, within, addNew, h]

theorem entriesHeld_iff (es : Entries) : entriesHeld es = true ↔ ∀ e ∈ es, e.2.isHeld = true := by
  induction es with
  | nil => simp [entriesHeld]
  | cons e es ih => simp [entriesHeld, ih]

end QueryBlend.Toml
