import QueryBlend.JoinGraph
/-!
# Well-formed blends

A blend can be composed into one statement when it is a join tree in the order of its queries: its
first query is the root, every other query has exactly one join, and every join reads only from queries
in front of the joined one. `findings` lists everything that stands against it, in a fixed order; a
blend without a finding is well formed.

Results:
* `repeated_nil_iff`: no text is repeated exactly in a list of distinct texts.
-/
namespace QueryBlend
open Text

/-- What stands against a blend. -/
inductive Finding where
  | emptyBlend
  | duplicateQueryId (id : String)
  | invalidAlias (id name : String)
  | duplicateAlias (name : String) (ids : List String)
  | rootHasJoin (id : String)
  | missingJoin (id : String)
  | invalidJoinTarget (key target : String)
  | undefinedReference (id reference : String)
  | forwardReference (id reference : String)
  | emptyPredicateField (id : String) (index : Nat)
  | missingPredicates (id : String) (kind : JoinKind)
  | crossJoinPredicates (id : String)
  | circularDependency (cycle : List String)
  | disconnected (id : String)
  deriving DecidableEq, Repr

namespace Finding

def message : Finding → String
  | emptyBlend => "Blend has no queries"
  | duplicateQueryId id => "Duplicate query id: '" ++ id ++ "'"
  | invalidAlias id name =>
    "Query '" ++ id ++ "' has invalid alias '" ++ name ++ "': must match ^[a-z][a-z0-9_]*$"
  | duplicateAlias name ids =>
    "Alias '" ++ name ++ "' is used by queries " ++ ", ".intercalate ids
  | rootHasJoin id => "Root query '" ++ id ++ "' cannot be joined"
  | missingJoin id => "Query '" ++ id ++ "' has no join"
  | invalidJoinTarget key target =>
    "Join '" ++ key ++ "' targets '" ++ target ++ "', which is not a query of this blend"
  | undefinedReference id reference =>
    "Join for '" ++ id ++ "' references undefined query '" ++ reference ++ "'"
  | forwardReference id reference =>
    "Join for '" ++ id ++ "' references '" ++ reference ++ "', which is not declared before it"
  | emptyPredicateField id index =>
    "Join for '" ++ id ++ "' has an empty field in predicate " ++ toString index
  | missingPredicates id kind => kind.keyword ++ " for '" ++ id ++ "' needs at least one predicate"
  | crossJoinPredicates id => "Cross join for '" ++ id ++ "' cannot have predicates"
  | circularDependency cycle => "Circular join dependency: " ++ " -> ".intercalate cycle
  | disconnected id => "Query '" ++ id ++ "' is not connected to the root query"

end Finding

namespace Blend

/-! ## Ids and aliases -/

/-- The texts of a list that stand in it before already, once for each time. -/
def repeated : (seen : List String) → List String → List String
  | _, [] => []
  | seen, x :: xs => if x ∈ seen then x :: repeated seen xs else repeated (x :: seen) xs

/-- Ids of more than one query. -/
def idFindings (b : Blend) : List Finding := (repeated [] b.ids).map .duplicateQueryId

/-- Names that cannot stand in a statement. -/
def invalidAliasFindings (b : Blend) : List Finding :=
  b.queries.filterMap fun q =>
    if isAlias q.name then none else some (.invalidAlias q.id q.name)

def idsNamed (b : Blend) (name : String) : List String :=
  (b.queries.filter fun q => q.name == name).map Query.id

/-- Names of more than one query, each once. -/
def sharedAliasFindings (b : Blend) : List Finding :=
  (b.queries.map Query.name).eraseDups.filterMap fun name =>
    let ids := b.idsNamed name
    if 1 < ids.length then some (.duplicateAlias name ids) else none

/-! ## Joins -/

def targetFinding? (b : Blend) (root : Query) (key : String) (j : Join) : Option Finding :=
  if j.target ≠ key ∨ (b.query? key).isNone then some (.invalidJoinTarget key j.target)
  else if key = root.id then some (.rootHasJoin key)
  else none

/-- Joins that do not join a query behind the root, in the order of their keys. -/
def targetFindings (b : Blend) (root : Query) : List Finding :=
  b.joins.sorted.filterMap fun e => b.targetFinding? root e.1 e.2

def missingJoinFindings (b : Blend) : List Finding :=
  b.queries.tail.filterMap fun q => if b.joins.has q.id then none else some (.missingJoin q.id)

def predicateFindings (b : Blend) (position : Nat) (id : String) (p : Predicate) (index : Nat) :
    List Finding :=
  (if isAllBlank p.fromField.toList || isAllBlank p.toField.toList then
      [.emptyPredicateField id index]
    else []) ++
  match b.position? p.fromQuery with
  | none => [.undefinedReference id p.fromQuery]
  | some source => if position ≤ source then [.forwardReference id p.fromQuery] else []

def joinFindings (b : Blend) (position : Nat) (id : String) (j : Join) : List Finding :=
  if j.kind = .cross then
    if j.predicates.isEmpty then [] else [.crossJoinPredicates id]
  else
    (if j.predicates.isEmpty then [.missingPredicates id j.kind] else []) ++
    j.predicates.zipIdx.flatMap fun e => b.predicateFindings position id e.1 e.2

def allPredicateFindings (b : Blend) : List Finding :=
  (b.queries.zipIdx.drop 1).flatMap fun e =>
    match b.joinOf? e.1 with
    | some j => b.joinFindings e.2 e.1.id j
    | none => []

/-! ## The join graph -/

/-- A cycle of the join graph, or else the joined queries that are not reached from the root. -/
def graphFindings (b : Blend) (root : Query) : List Finding :=
  let g := JoinGraph.ofBlend b
  match g.cycleNode? with
  | some v => [.circularDependency (g.cycleAt v)]
  | none =>
    b.joined.filterMap fun e => if g.reaches root.id e.1.id then none else some (.disconnected e.1.id)

def findings (b : Blend) : List Finding :=
  match b.root? with
  | none => [.emptyBlend]
  | some root =>
    b.idFindings ++ b.invalidAliasFindings ++ b.sharedAliasFindings ++ b.targetFindings root ++
      b.missingJoinFindings ++ b.allPredicateFindings ++ b.graphFindings root

def isValid (b : Blend) : Bool := b.findings.isEmpty

theorem repeated_nil_iff (seen xs : List String) :
    repeated seen xs = [] ↔ xs.Nodup ∧ ∀ x ∈ xs, x ∉ seen := by
  induction xs generalizing seen with
  | nil => simp [repeated]
  | cons x xs ih =>
    rw [repeated]
    split
    · next h =>
      simp only [reduceCtorEq, List.nodup_cons, List.mem_cons, forall_eq_or_imp, false_iff]
      exact fun h' => h'.2.1 h
    · next h =>
      rw [ih]
      simp only [List.mem_cons, not_or, List.nodup_cons, forall_eq_or_imp]
      constructor
      · intro ⟨h1, h2⟩
        exact ⟨⟨fun hx => (h2 x hx).1 rfl, h1⟩, h, fun y hy => (h2 y hy).2⟩
      · intro ⟨⟨h1, h2⟩, h3, h4⟩
        exact ⟨h2, fun y hy => ⟨fun e => h1 (e ▸ hy), h4 y hy⟩⟩

end Blend
end QueryBlend
