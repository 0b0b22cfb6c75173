import QueryBlend.Findings
import QueryBlend.Proofs.JoinGraph.Order
import Mathlib.Logic.Relation
/-!
# What is reported of the join graph

The last pass over a blend reports a cycle of its join graph, or else the joined queries that the root
does not reach. Here both are said without a search: `Feeds` are the edges of the graph, a cycle is a way
of at least one edge from a query back to it (`Relation.TransGen`), and the root reaches what there is a
way to, perhaps of no edge (`FromRoot`). Nothing is asked of the blend. Ids may be shared, and joins may be
missing, lead to the root or read from nowhere.

**Cycles.** What `cycleNode?` finds lies on a cycle, and it finds nothing only if there is none; so one
cycle is reported or the queries out of reach are (`graph_reported`).

**What is shown of a cycle** is a node, one successor from which it is reached again, and the node. The
first arrow is an edge. The second one stands for a way, and what is shown is a cycle exactly if this way is
one edge (`shown_isChain_iff`); in a ring of three queries it is not (`shown_not_cycle`).
-/
namespace QueryBlend

/-- Whether a finding is about the join graph. -/
def Finding.isOfGraph : Finding → Bool
  | .circularDependency _ => true
  | .disconnected _ => true
  | _ => false

namespace Blend
open JoinGraph Relation

/-- There is an edge from `u` to `v`: the join of `v`, a query behind the root, has no condition and `u` is
the root, or one of its conditions reads the query `u` of the blend. -/
def Feeds (b : Blend) (u v : String) : Prop :=
  ∃ q ∈ b.queries.tail, q.id = v ∧ ∃ j, b.joinOf? q = some j ∧
    if j.isUnconditional then b.root?.map Query.id = some u
    else u ∈ b.ids ∧ ∃ p ∈ j.predicates, p.fromQuery = u

/-- The root reaches the query. -/
def FromRoot (b : Blend) (v : String) : Prop :=
  ∃ root, b.root? = some root ∧ ReflTransGen b.Feeds root.id v

variable {b : Blend} {root : Query}

/-! ## The join graph -/

theorem mem_edges_iff (hr : b.root? = some root) {u v : String} :
    (u, v) ∈ (ofBlend b).edges ↔ b.Feeds u v := by
  rw [mem_ofBlend_edges hr]
  constructor
  · rintro ⟨⟨q, j⟩, hj, rfl, hs⟩
    obtain ⟨hq, hjoin⟩ := mem_joined.mp hj
    refine ⟨q, hq, rfl, j, hjoin, ?_⟩
    rcases hs with ⟨hu, rfl⟩ | ⟨hu, p, hp, rfl, hid⟩
    · rw [if_pos hu, hr]
      rfl
    · rw [if_neg (by rw [hu]; exact Bool.false_ne_true)]
      exact ⟨hid, p, hp, rfl⟩
  · rintro ⟨q, hq, rfl, j, hjoin, hs⟩
    refine ⟨(q, j), mem_joined.mpr ⟨hq, hjoin⟩, rfl, ?_⟩
    split at hs
    · rename_i hu
      rw [hr] at hs
      exact .inl ⟨hu, (Option.some.inj hs).symm⟩
    · rename_i hu
      obtain ⟨hid, p, hp, he⟩ := hs
      exact .inr ⟨Bool.eq_false_iff.mpr hu, p, hp, he, hid⟩

theorem way_iff (hr : b.root? = some root) {u v : String} :
    Way (ofBlend b) u v ↔ ReflTransGen b.Feeds u v := by
  constructor
  · intro h
    induction h with
    | here => exact .refl
    | step he _ ih => exact .head ((mem_edges_iff hr).mp he) ih
  · intro h
    induction h using ReflTransGen.head_induction_on with
    | refl => exact .here v
    | head he _ ih => exact .step ((mem_edges_iff hr).mpr he) ih

theorem onCycle_iff (hr : b.root? = some root) {v : String} :
    (ofBlend b).OnCycle v ↔ TransGen b.Feeds v v := by
  rw [TransGen.head'_iff, OnCycle]
  simp only [mem_edges_iff hr, way_iff hr]

theorem cycleNode?_ofBlend_eq_none_iff (hr : b.root? = some root) :
    (ofBlend b).cycleNode? = none ↔ ¬ ∃ v, TransGen b.Feeds v v := by
  rw [cycleNode?_eq_none_iff (ofBlend_proper hr), not_exists]
  simp only [onCycle_iff hr]

theorem root_mem_nodes (hr : b.root? = some root) : root.id ∈ (ofBlend b).nodes := by
  rw [ofBlend_nodes hr, List.mem_eraseDups]
  exact List.mem_map_of_mem (List.mem_of_head? hr)

theorem reaches_root_iff (hr : b.root? = some root) (v : String) :
    (ofBlend b).reaches root.id v = true ↔ b.FromRoot v := by
  rw [reaches_iff (ofBlend_proper hr) (root_mem_nodes hr), way_iff hr, FromRoot]
  simp [hr]

instance (b : Blend) (v : String) : Decidable (b.FromRoot v) :=
  match hr : b.root? with
  | none => isFalse fun ⟨_, h, _⟩ => nomatch hr.symm.trans h
  | some _ => decidable_of_iff _ (reaches_root_iff hr v)

theorem not_feeds_of_no_root (hr : b.root? = none) (u v : String) : ¬ b.Feeds u v := by
  rintro ⟨q, hq, -⟩
  rw [List.head?_eq_none_iff.mp hr] at hq
  cases hq

instance (b : Blend) (u v : String) : Decidable (b.Feeds u v) :=
  match hr : b.root? with
  | none => isFalse (not_feeds_of_no_root hr u v)
  | some _ => decidable_of_iff (v ∈ (ofBlend b).successors u)
      ((mem_successors _ u v).trans (mem_edges_iff hr))

/-! ## The last pass -/

theorem not_isOfGraph_of_mem_filterMap {α : Type} {g : α → Option Finding} {xs : List α}
    (hg : ∀ x f, g x = some f → f.isOfGraph = false) : ∀ f ∈ xs.filterMap g, f.isOfGraph = false := by
  intro f hf
  obtain ⟨x, -, hx⟩ := List.mem_filterMap.mp hf
  exact hg x f hx

theorem not_isOfGraph_of_mem_predicateFindings (b : Blend) (position : Nat) (id : String) (p : Predicate)
    (index : Nat) : ∀ f ∈ b.predicateFindings position id p index, f.isOfGraph = false := by
  intro f hf
  rcases List.mem_append.mp hf with hf | hf
  · split at hf
    · cases List.mem_singleton.mp hf
      rfl
    · cases hf
  · split at hf
    · cases List.mem_singleton.mp hf
      rfl
    · split at hf
      · cases List.mem_singleton.mp hf
        rfl
      · cases hf

theorem not_isOfGraph_of_mem_joinFindings (b : Blend) (position : Nat) (id : String) (j : Join) :
    ∀ f ∈ b.joinFindings position id j, f.isOfGraph = false := by
  intro f hf
  unfold joinFindings at hf
  split at hf
  · split at hf
    · cases hf
    · cases List.mem_singleton.mp hf
      rfl
  · rcases List.mem_append.mp hf with hf | hf
    · split at hf
      · cases List.mem_singleton.mp hf
        rfl
      · cases hf
    · obtain ⟨e, -, he⟩ := List.mem_flatMap.mp hf
      exact not_isOfGraph_of_mem_predicateFindings b position id e.1 e.2 f he

/-- The passes in front of the last one do not look at the join graph. -/
theorem filter_isOfGraph (hr : b.root? = some root) :
    b.findings.filter Finding.isOfGraph = b.graphFindings root := by
  have hids : ∀ f ∈ b.idFindings, f.isOfGraph = false := by
    intro f hf
    obtain ⟨id, -, rfl⟩ := List.mem_map.mp hf
    rfl
  have hinvalid : ∀ f ∈ b.invalidAliasFindings, f.isOfGraph = false :=
    not_isOfGraph_of_mem_filterMap fun q f h => by
      split at h <;> cases h
      rfl
  have hshared : ∀ f ∈ b.sharedAliasFindings, f.isOfGraph = false :=
    not_isOfGraph_of_mem_filterMap fun name f h => by
      dsimp only at h
      split at h <;> cases h
      rfl
  have htarget : ∀ f ∈ b.targetFindings root, f.isOfGraph = false :=
    not_isOfGraph_of_mem_filterMap fun e f h => by
      unfold targetFinding? at h
      split at h
      · cases h
        rfl
      · split at h <;> cases h
        rfl
  have hmissing : ∀ f ∈ b.missingJoinFindings, f.isOfGraph = false :=
    not_isOfGraph_of_mem_filterMap fun q f h => by
      split at h <;> cases h
      rfl
  have hpredicates : ∀ f ∈ b.allPredicateFindings, f.isOfGraph = false := by
    intro f hf
    obtain ⟨e, -, he⟩ := List.mem_flatMap.mp hf
    split at he
    · exact not_isOfGraph_of_mem_joinFindings b _ _ _ f he
    · cases he
  have hgraph : ∀ f ∈ b.graphFindings root, f.isOfGraph = true := by
    intro f hf
    unfold graphFindings at hf
    dsimp only at hf
    split at hf
    · cases List.mem_singleton.mp hf
      rfl
    · obtain ⟨e, -, he⟩ := List.mem_filterMap.mp hf
      split at he <;> cases he
      rfl
  have hnil {fs : List Finding} (h : ∀ f ∈ fs, f.isOfGraph = false) :
      fs.filter Finding.isOfGraph = [] :=
    List.filter_eq_nil_iff.mpr fun f hf => by rw [h f hf]; exact Bool.false_ne_true
  unfold findings
  simp only [hr, List.filter_append, hnil hids, hnil hinvalid, hnil hshared, hnil htarget,
    hnil hmissing, hnil hpredicates, List.filter_eq_self.mpr hgraph, List.nil_append]

/-- The queries with a join that the root does not reach. -/
def strays (b : Blend) : List Query :=
  b.queries.tail.filter fun q => (b.joinOf? q).isSome ∧ ¬ b.FromRoot q.id

theorem graphFindings_of_cycle (hr : b.root? = some root) (h : ∃ v, TransGen b.Feeds v v) :
    ∃ c, b.graphFindings root = [.circularDependency c] := by
  unfold graphFindings
  dsimp only
  split
  · exact ⟨_, rfl⟩
  · rename_i hc
    exact absurd h ((cycleNode?_ofBlend_eq_none_iff hr).mp hc)

theorem graphFindings_of_no_cycle (hr : b.root? = some root) (h : ¬ ∃ v, TransGen b.Feeds v v) :
    b.graphFindings root = b.strays.map fun q => .disconnected q.id := by
  unfold graphFindings
  simp only [(cycleNode?_ofBlend_eq_none_iff hr).mpr h]
  unfold joined strays
  induction b.queries.tail with
  | nil => rfl
  | cons q qs ih =>
    rw [List.filterMap_cons, List.filter_cons]
    cases hj : b.joinOf? q with
    | none => simpa using ih
    | some j =>
      rw [Option.map_some, List.filterMap_cons]
      by_cases hq : b.FromRoot q.id
      · rw [if_pos ((reaches_root_iff hr _).mpr hq)]
        simpa [hq] using ih
      · rw [if_neg (fun hreach => hq ((reaches_root_iff hr _).mp hreach))]
        simpa [hq] using ih

theorem exists_root_of_ne_nil (hb : b.queries ≠ []) : ∃ root, b.root? = some root :=
  ⟨b.queries.head hb, List.head?_eq_some_head hb⟩

/-- **Reports.** For every blend with a query, exactly one cycle is reported, and no query as out of
reach, if and only if the join graph has a cycle. If it has none, then what is reported are the queries
with a join that the root does not reach, each once for each time it stands in the blend, in the order of
the blend. -/
theorem graph_reported (b : Blend) (hb : b.queries ≠ []) :
    ((∃ c, b.findings.filter Finding.isOfGraph = [.circularDependency c]) ↔
      ∃ v, TransGen b.Feeds v v) ∧
    ((¬ ∃ v, TransGen b.Feeds v v) →
      b.findings.filter Finding.isOfGraph = b.strays.map fun q => .disconnected q.id) := by
  obtain ⟨root, hr⟩ := exists_root_of_ne_nil hb
  rw [filter_isOfGraph hr]
  refine ⟨⟨fun ⟨c, hc⟩ => ?_, graphFindings_of_cycle hr⟩, graphFindings_of_no_cycle hr⟩
  by_contra h
  rw [graphFindings_of_no_cycle hr h] at hc
  have hmem : Finding.circularDependency c ∈ b.strays.map fun q => .disconnected q.id :=
    hc ▸ List.mem_cons_self
  obtain ⟨q, -, he⟩ := List.mem_map.mp hmem
  cases he

/-- Three queries that read from one another in turn, beside a root that none reads from. -/
def ring : Blend where
  queries := [{ id := "r" }, { id := "a" }, { id := "b" }, { id := "c" }]
  joins := Dict.ofList [
    ("a", { target := "a", predicates := [⟨"c", "x", "x"⟩] }),
    ("b", { target := "b", predicates := [⟨"a", "x", "x"⟩] }),
    ("c", { target := "c", predicates := [⟨"b", "x", "x"⟩] })]

/-- Queries out of reach, one of which stands in the blend twice; the last one is joined to the root. -/
def scattered : Blend where
  queries := [{ id := "r" }, { id := "a" }, { id := "b" }, { id := "a" }, { id := "c" }]
  joins := Dict.ofList [
    ("a", { target := "a", predicates := [⟨"b", "x", "x"⟩] }),
    ("b", { target := "b", predicates := [⟨"z", "x", "x"⟩] }),
    ("c", { target := "c", kind := .cross })]

theorem ofBlend_scattered : ofBlend scattered =
    { nodes := ["r", "a", "b", "c"], edges := [("r", "c"), ("b", "a")] } := by decide

theorem strays_scattered : scattered.strays = [{ id := "a" }, { id := "b" }, { id := "a" }] := by
  have hreached : (ofBlend scattered).reachable "r" = ["c", "r"] := by
    rw [ofBlend_scattered]
    simp [reachable, search, successors]
  have hroot : scattered.root? = some { id := "r" } := rfl
  simp only [strays, ← reaches_root_iff hroot, reaches, hreached]
  decide

theorem graph_reported_ring_scattered :
    (ring.queries ≠ [] ∧ ∃ c, ring.findings.filter Finding.isOfGraph = [.circularDependency c]) ∧
    (scattered.queries ≠ [] ∧ scattered.findings.filter Finding.isOfGraph =
      [.disconnected "a", .disconnected "b", .disconnected "a"]) := by
  have hring : ring.queries ≠ [] := List.cons_ne_nil _ _
  have hscattered : scattered.queries ≠ [] := List.cons_ne_nil _ _
  have hcycle : TransGen ring.Feeds "a" "a" :=
    .head (by decide : ring.Feeds "a" "b") <| .head (by decide : ring.Feeds "b" "c") <|
      .single (by decide : ring.Feeds "c" "a")
  have hroot : scattered.root? = some { id := "r" } := rfl
  have hrank : (ofBlend scattered).IsRank fun v => if v = "a" ∨ v = "c" then 1 else 0 := by
    rw [ofBlend_scattered, IsRank]
    decide
  have hnone := cycleNode?_eq_none (ofBlend_proper hroot) hrank
  refine ⟨⟨hring, (graph_reported ring hring).1.mpr ⟨"a", hcycle⟩⟩, hscattered, ?_⟩
  rw [(graph_reported scattered hscattered).2 ((cycleNode?_ofBlend_eq_none_iff hroot).mp hnone),
    strays_scattered]
  rfl

/-! ## What is shown of a cycle -/

/-- A node on a cycle is shown with a successor from which it is reached again; that successor is the node
itself if it has an edge to itself. -/
theorem cycleAt_of_onCycle {g : JoinGraph} (hg : g.Proper) {v : String} (h : g.OnCycle v) :
    ∃ w, (v, w) ∈ g.edges ∧ Way g w v ∧ g.cycleAt v = v :: if w = v then [v] else [w, v] := by
  unfold cycleAt
  by_cases hself : v ∈ g.successors v
  · refine ⟨v, (mem_successors g v v).mp hself, .here v, ?_⟩
    rw [if_pos hself, if_pos rfl]
  · have hreach {w : String} (hw : (v, w) ∈ g.edges) : g.reaches w v = true ↔ Way g w v :=
      reaches_iff hg (hg.target_mem _ hw)
    obtain ⟨u, hu, huv⟩ := h
    cases hf : (g.successors v).find? fun w => g.reaches w v with
    | none =>
      have hnot := List.find?_eq_none.mp hf u ((mem_successors g v u).mpr hu)
      exact absurd ((hreach hu).mpr huv) hnot
    | some w =>
      have hw := (mem_successors g v w).mp (List.mem_of_find?_eq_some hf)
      have hne : w ≠ v := by
        rintro rfl
        exact hself (List.mem_of_find?_eq_some hf)
      have hwv : g.reaches w v = true := by simpa using List.find?_some hf
      refine ⟨w, hw, (hreach hw).mp hwv, ?_⟩
      rw [if_neg hself, if_neg hne]

/-- **Cycles shown.** What is reported as a cycle is a query, one that it feeds, and the first one again;
or the query twice, if it feeds itself. There is a way back from the one to the other, but what is shown
has every arrow in the join graph exactly if this way is a single edge. -/
theorem shown_isChain_iff {b : Blend} {c : List String} (h : .circularDependency c ∈ b.findings) :
    ∃ v w, c = v :: (if w = v then [v] else [w, v]) ∧ b.Feeds v w ∧ ReflTransGen b.Feeds w v ∧
      (c.IsChain b.Feeds ↔ w = v ∨ b.Feeds w v) := by
  obtain ⟨root, hr⟩ : ∃ root, b.root? = some root := by
    cases hr : b.root? with
    | none =>
      rw [findings, hr] at h
      cases List.mem_singleton.mp h
    | some root => exact ⟨root, rfl⟩
  have hg := ofBlend_proper hr
  have hmem : .circularDependency c ∈ b.graphFindings root := by
    rw [← filter_isOfGraph hr]
    exact List.mem_filter.mpr ⟨h, rfl⟩
  unfold graphFindings at hmem
  dsimp only at hmem
  split at hmem
  · rename_i v hv
    cases List.mem_singleton.mp hmem
    obtain ⟨w, hvw, hwv, hc⟩ := cycleAt_of_onCycle hg (onCycle_of_cycleNode? hg hv)
    have hfeeds := (mem_edges_iff hr).mp hvw
    refine ⟨v, w, hc, hfeeds, (way_iff hr).mp hwv, ?_⟩
    rw [hc]
    by_cases hw : w = v
    · subst hw
      simp [hfeeds]
    · simp [hw, hfeeds]
  · obtain ⟨e, -, he⟩ := List.mem_filterMap.mp hmem
    split at he <;> cases he

/-- Two of the three queries of the ring are shown. -/
theorem mem_findings_ring : .circularDependency ["c", "a", "c"] ∈ ring.findings := by
  have hgraph : ofBlend ring =
      { nodes := ["r", "a", "b", "c"], edges := [("b", "c"), ("a", "b"), ("c", "a")] } := by decide
  have hnode : (ofBlend ring).cycleNode? = some "c" := by
    rw [hgraph]
    simp [cycleNode?, leaveAll, leave, latePredecessor?, successors, predecessors]
  have hshown : (ofBlend ring).cycleAt "c" = ["c", "a", "c"] := by
    rw [hgraph]
    simp [cycleAt, reaches, reachable, search, successors]
  have hroot : ring.root? = some { id := "r" } := rfl
  have hlast : .circularDependency ["c", "a", "c"] ∈ ring.findings.filter Finding.isOfGraph := by
    rw [filter_isOfGraph hroot]
    simp [graphFindings, hnode, hshown]
  exact List.mem_of_mem_filter hlast

theorem shown_isChain_iff_ring : .circularDependency ["c", "a", "c"] ∈ ring.findings ∧
    ring.Feeds "c" "a" ∧ ReflTransGen ring.Feeds "a" "c" := by
  obtain ⟨v, w, hc, hvw, hwv, -⟩ := shown_isChain_iff mem_findings_ring
  split at hc
  · simp at hc
  · cases hc
    exact ⟨mem_findings_ring, hvw, hwv⟩

/-- What is reported as a cycle need not be one. -/
theorem shown_not_cycle : ¬ ∀ (b : Blend) (c : List String), .circularDependency c ∈ b.findings →
    c.head? = c.getLast? ∧ 2 ≤ c.length ∧ c.IsChain b.Feeds := by
  intro h
  have hback : ¬ ring.Feeds "a" "c" := by decide
  have hchain := (h ring _ mem_findings_ring).2.2
  simp only [List.isChain_cons_cons] at hchain
  exact hback hchain.2.1

end Blend
end QueryBlend
