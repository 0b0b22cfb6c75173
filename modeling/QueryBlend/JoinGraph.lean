import QueryBlend.Blend
/-!
# The join graph of a blend

The nodes are the ids of the queries. For each join there is an edge to the joined query from every
query that the join reads from; a join that reads from none is joined to the root.

`JoinGraph.cycleNode?` looks for a cycle in two passes. A depth-first search puts the nodes into an
order in which each node stands in front of what is reached from it, if that can be; then the order is
checked: a node with a predecessor that does not stand in front of it lies behind a cycle.

Results:
* `addEdge_edges`: adding an edge adds that edge and no other.
* `mem_successors`, `mem_predecessors`: both are read off the edges.
* `mem_search_of_seen`: what a search has seen stays seen.
-/
namespace QueryBlend

/-- A directed graph over texts. -/
structure JoinGraph where
  nodes : List String := []
  /-- Each edge once, the one added last first. -/
  edges : List (String × String) := []
  deriving DecidableEq, Repr

namespace JoinGraph

def addEdge (g : JoinGraph) (source target : String) : JoinGraph :=
  if (source, target) ∈ g.edges then g else { g with edges := (source, target) :: g.edges }

/-- The targets of the edges from a node, that of the edge added last first. -/
def successors (g : JoinGraph) (v : String) : List String :=
  (g.edges.filter fun e => e.1 == v).map Prod.snd

/-- The sources of the edges to a node, that of the edge added last first. -/
def predecessors (g : JoinGraph) (v : String) : List String :=
  (g.edges.filter fun e => e.2 == v).map Prod.fst

/-- What is reached from the nodes of the stack through nodes not yet seen, together with what has been
seen; `unseen` are the nodes not yet seen. -/
def search (g : JoinGraph) : (stack unseen seen : List String) → List String
  | [], _, seen => seen
  | v :: stack, unseen, seen =>
    if v ∈ unseen then g.search (g.successors v ++ stack) (unseen.erase v) (v :: seen)
    else g.search stack unseen seen
termination_by stack unseen _ => (unseen.length, stack.length)
decreasing_by
  · next h =>
    have := List.length_erase_of_mem h
    have : 0 < unseen.length := List.length_pos_of_mem h
    exact Prod.Lex.left _ _ (by omega)
  · exact Prod.Lex.right _ (by simp)

/-- The nodes reached from `v`, itself included. -/
def reachable (g : JoinGraph) (v : String) : List String := g.search [v] g.nodes []

/-- Whether there is a way from `v` to `w`, perhaps of no step. -/
def reaches (g : JoinGraph) (v w : String) : Bool := (g.reachable v).contains w

/-- A depth-first search from the nodes of the stack: the nodes not yet seen, and the nodes that have
been left for good, the last one first. A node with an edge to itself ends it. -/
def leave (g : JoinGraph) : (stack unseen left : List String) →
    Except String (List String × List String)
  | [], unseen, left => .ok (unseen, left)
  | v :: stack, unseen, left =>
    if v ∈ unseen then
      let unseen' := unseen.erase v
      if v ∈ g.successors v then .error v
      else
        g.leave (((g.successors v).filter fun w => w ∈ unseen').reverse ++ v :: stack) unseen' left
    else g.leave stack unseen (if v ∈ left then left else v :: left)
termination_by stack unseen _ => (unseen.length, stack.length)
decreasing_by
  · next h _ =>
    have := List.length_erase_of_mem h
    have : 0 < unseen.length := List.length_pos_of_mem h
    exact Prod.Lex.left _ _ (by omega)
  · exact Prod.Lex.right _ (by simp)

/-- The depth-first searches from one node after the other. -/
def leaveAll (g : JoinGraph) : (starts unseen left : List String) → Except String (List String)
  | [], _, left => .ok left
  | v :: starts, unseen, left =>
    if v ∈ unseen then
      match g.leave [v] unseen left with
      | .ok (unseen, left) => g.leaveAll starts unseen left
      | .error w => .error w
    else g.leaveAll starts unseen left

/-- In a list of nodes that `before` stands in front of, a predecessor of the first node of which not
all predecessors stand in front of it. -/
def latePredecessor? (g : JoinGraph) (before : List String) : List String → Option String
  | [] => none
  | v :: vs =>
    match ((g.predecessors v).filter fun w => w ∉ v :: before).getLast? with
    | some w => some w
    | none => g.latePredecessor? (v :: before) vs

/-- A node that lies on a cycle or behind one, if there is a cycle. -/
def cycleNode? (g : JoinGraph) : Option String :=
  match g.leaveAll g.nodes g.nodes [] with
  | .error v => some v
  | .ok order => g.latePredecessor? [] order

/-- The nodes to show for a cycle found at `v`: `v`, the successor added last from which `v` is
reached again, and `v`. -/
def cycleAt (g : JoinGraph) (v : String) : List String :=
  if v ∈ g.successors v then [v, v]
  else match (g.successors v).find? fun w => g.reaches w v with
    | some w => [v, w, v]
    | none => [v, v]

/-- The edges that a join to `target` stands for. -/
def addJoin (root : String) (g : JoinGraph) (q : Query) (j : Join) : JoinGraph :=
  if j.isUnconditional then g.addEdge root q.id
  else j.predicates.foldl
    (fun g p => if p.fromQuery ∈ g.nodes then g.addEdge p.fromQuery q.id else g) g

def ofBlend (b : Blend) : JoinGraph :=
  match b.root? with
  | none => {}
  | some root =>
    b.joined.foldl (fun g e => addJoin root.id g e.1 e.2) { nodes := b.ids.eraseDups }

theorem addEdge_edges (g : JoinGraph) (source target : String) (e : String × String) :
    e ∈ (g.addEdge source target).edges ↔ e = (source, target) ∨ e ∈ g.edges := by
  unfold addEdge
  split
  · next h => exact ⟨.inr, fun h' => h'.elim (fun e => e ▸ h) id⟩
  · simp

theorem mem_successors (g : JoinGraph) (v w : String) : w ∈ g.successors v ↔ (v, w) ∈ g.edges := by
  simp only [successors, List.mem_map, List.mem_filter, beq_iff_eq]
  exact ⟨fun ⟨e, ⟨he, h1⟩, h2⟩ => by cases h1; cases h2; exact he, fun h => ⟨_, ⟨h, rfl⟩, rfl⟩⟩

theorem mem_predecessors (g : JoinGraph) (v w : String) :
    w ∈ g.predecessors v ↔ (w, v) ∈ g.edges := by
  simp only [predecessors, List.mem_map, List.mem_filter, beq_iff_eq]
  exact ⟨fun ⟨e, ⟨he, h1⟩, h2⟩ => by cases h1; cases h2; exact he, fun h => ⟨_, ⟨h, rfl⟩, rfl⟩⟩

theorem mem_search_of_seen (g : JoinGraph) (stack unseen seen : List String) {v : String}
    (h : v ∈ seen) : v ∈ g.search stack unseen seen := by
  fun_induction JoinGraph.search with
  | case1 => exact h
  | case2 _ _ _ _ _ ih => exact ih (List.mem_cons_of_mem _ h)
  | case3 _ _ _ _ _ ih => exact ih h

end JoinGraph
end QueryBlend
