import QueryBlend.Dict
import QueryBlend.Text.Basic
/-!
# Blends

A blend is a list of queries and the joins between them. The first query is the root of the join tree;
every other query is joined by one join, kept under the id of the query it joins. Nothing of this is
part of the type: a blend is what its definition says, and `QueryBlend.Findings` tells whether it is
well formed.

Results:
* `isAlias_iff`: an alias is a small letter and then small letters, digits and underscores.
-/
namespace QueryBlend
open Text

/-- Whether a field groups rows or is computed from them. -/
inductive FieldRole where
  | dimension
  | measure
  deriving DecidableEq, Repr, Inhabited

structure Field where
  id : String
  label : String := ""
  role : FieldRole := .dimension
  deriving DecidableEq, Repr

structure Query where
  id : String
  /-- Where its SQL is found, if not under its id. -/
  sourceId : Option String := none
  /-- What it is called in the blended statement, if not by its id. -/
  givenName : Option String := none
  fields : List Field := []
  /-- Whether its row cap is part of what it means. -/
  respectLimit : Bool := false
  deriving DecidableEq, Repr

inductive JoinKind where
  | inner
  | left
  | right
  | full
  | cross
  deriving DecidableEq, Repr, Inhabited

/-- The equality of a field of an earlier query and a field of the joined one. -/
structure Predicate where
  fromQuery : String
  fromField : String
  toField : String
  deriving DecidableEq, Repr

structure Join where
  /-- The id of the query that is joined. -/
  target : String
  kind : JoinKind := .inner
  predicates : List Predicate := []
  deriving DecidableEq, Repr

/-- Queries and the joins between them, each join under the id of the query it joins. -/
structure Blend where
  queries : List Query := []
  joins : Dict Join := {}
  deriving DecidableEq

namespace JoinKind

def keyword : JoinKind → String
  | inner => "INNER JOIN"
  | left => "LEFT JOIN"
  | right => "RIGHT JOIN"
  | full => "FULL JOIN"
  | cross => "CROSS JOIN"

/-- The name of a kind of join in blend definitions. -/
def name : JoinKind → String
  | inner => "inner"
  | left => "left"
  | right => "right"
  | full => "full"
  | cross => "cross"

def all : List JoinKind := [inner, left, right, full, cross]

def ofName? (name : String) : Option JoinKind := all.find? fun t => t.name == name

theorem ofName?_name (t : JoinKind) : ofName? t.name = some t := by cases t <;> decide

end JoinKind

namespace FieldRole

def name : FieldRole → String
  | dimension => "dimension"
  | measure => "measure"

def all : List FieldRole := [dimension, measure]

def ofName? (name : String) : Option FieldRole := all.find? fun k => k.name == name

theorem ofName?_name (k : FieldRole) : ofName? k.name = some k := by cases k <;> decide

end FieldRole

/-! ## Aliases -/

def isSmallLetter (c : Char) : Bool := 'a' ≤ c && c ≤ 'z'

def isAliasChar (c : Char) : Bool := isSmallLetter c || isAsciiDigit c || c == '_'

/-- Whether a name can stand in a statement as it is: a small letter, and then small letters, digits
and underscores. -/
def isAlias (name : String) : Bool :=
  match name.toList with
  | [] => false
  | c :: cs => isSmallLetter c && cs.all isAliasChar

/-- The characters that stand for `c` in an alias: its small letter if aliases may have that, and an
underscore for everything else. The capital I with a dot gives two characters, as its small form is
`i` with a dot put over it. -/
def aliasChars (c : Char) : List Char :=
  if isAliasChar c then [c]
  else if 'A' ≤ c ∧ c ≤ 'Z' then [lowerAscii c]
  else if c = '\u212a' then ['k']
  else if c = '\u0130' then ['i', '_']
  else ['_']

def toAlias (raw : String) : String := String.ofList (raw.toList.flatMap aliasChars)

namespace Query

def name (q : Query) : String :=
  match q.givenName with
  | some a => if a.isEmpty then q.id else a
  | none => q.id

def source (q : Query) : String :=
  match q.sourceId with
  | some s => if s.isEmpty then q.id else s
  | none => q.id

def sanitize (q : Query) : Query := { q with givenName := q.givenName.map toAlias }

end Query

namespace Join

def isUnconditional (j : Join) : Bool := j.kind == .cross || j.predicates.isEmpty

end Join

namespace Blend

instance : Inhabited Blend := ⟨{}⟩

def ids (b : Blend) : List String := b.queries.map Query.id

def root? (b : Blend) : Option Query := b.queries.head?

def query? (b : Blend) (id : String) : Option Query := b.queries.find? fun q => q.id == id

def position? (b : Blend) (id : String) : Option Nat := b.queries.findIdx? fun q => q.id == id

/-- The blend with a join, in the place of another one for the same query. -/
def insertJoin (b : Blend) (j : Join) : Blend := { b with joins := b.joins.insert j.target j }

def sanitize (b : Blend) : Blend := { b with queries := b.queries.map Query.sanitize }

/-- What the queries are called, by their ids; of several queries with one id the last one counts. -/
def names (b : Blend) : Dict String :=
  Dict.ofList (b.queries.map fun q => (q.id, q.name))

/-- What the query with an id is called; an id without a query is called by itself. -/
def nameOf (b : Blend) (id : String) : String := (b.names.get? id).getD id

def joinOf? (b : Blend) (q : Query) : Option Join := b.joins.get? q.id

/-- The queries behind the root, each with the join it has. -/
def joined (b : Blend) : List (Query × Join) :=
  b.queries.tail.filterMap fun q => (b.joinOf? q).map (q, ·)

end Blend

theorem isAlias_iff (name : String) :
    isAlias name = true ↔
      ∃ c cs, name.toList = c :: cs ∧ isSmallLetter c = true ∧ ∀ d ∈ cs, isAliasChar d = true := by
  unfold isAlias
  split
  · next h => simp [h]
  · next c cs h =>
    simp only [h, Bool.and_eq_true, List.all_eq_true, List.cons.injEq]
    constructor
    · intro hv
      exact ⟨c, cs, ⟨rfl, rfl⟩, hv⟩
    · intro hv
      obtain ⟨d, ds, ⟨hc, hcs⟩, hd, hds⟩ := hv
      subst hc hcs
      exact ⟨hd, hds⟩

end QueryBlend
