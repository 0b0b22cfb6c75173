import QueryBlend.JoinGraph
import QueryBlend.Proofs.ListFacts
/-!
# What a search reaches

`JoinGraph.search` is a stack machine. Two things are true of what it answers, by induction on its run:
nothing is in it but what was seen before or lies on a way from the stack (`search_sound`), and with
each node it holds all successors (`search_closed`).

* `reaches_iff`: between nodes of the graph, `reaches` tells whether there is a way.
* `mem_ofBlend_edges`: the edges of the join graph of a blend.
-/
namespace QueryBlend.JoinGraph

/-- There is a way along edges from one text to another, perhaps of no step. -/
inductive Way (g : JoinGraph) : String → String → Prop where
  | here (v : String) : Way g v v
  | step {u v w : String} : (u, v) ∈ g.edges → Way g v w → Way g u w

/-- The edges join nodes, and each node is listed once. -/
structure Proper (g : JoinGraph) : Prop where
  source_mem : ∀ e ∈ g.edges, e.1 ∈ g.nodes
  target_mem : ∀ e ∈ g.edges, e.2 ∈ g.nodes
  nodup : g.nodes.Nodup

theorem Way.snoc {g : JoinGraph} {u v w : String} (h : Way g u v) (he : (v, w) ∈ g.edges) :
    Way g u w := by
  induction h with
  | here v => exact .step he (.here w)
  | step huv _ ih => exact .step huv (ih he)

theorem search_sound (g : JoinGraph) (stack unseen seen : List String) {w : String}
    (h : w ∈ g.search stack unseen seen) : w ∈ seen ∨ ∃ v ∈ stack, Way g v w := by
  fun_induction JoinGraph.search g stack unseen seen with
  | case1 => exact .inl h
  | case2 v stack unseen seen hv ih =>
    rcases ih h with hs | ⟨u, hu, hw⟩
    · rcases List.mem_cons.mp hs with rfl | hs
      · exact .inr ⟨w, List.mem_cons_self, .here w⟩
      · exact .inl hs
    · rcases List.mem_append.mp hu with hu | hu
      · exact .inr ⟨v, List.mem_cons_self, .step ((mem_successors g v u).mp hu) hw⟩
      · exact .inr ⟨u, List.mem_cons_of_mem _ hu, hw⟩
  | case3 v stack unseen seen hv ih =>
    rcases ih h with hs | ⟨u, hu, hw⟩
    · exact .inl hs
    · exact .inr ⟨u, List.mem_cons_of_mem _ hu, hw⟩

/-- The invariant of a search: what follows a node that has been seen has been seen itself or waits on
the stack, and no node is forgotten. -/
structure SearchInv (g : JoinGraph) (stack unseen seen : List String) : Prop where
  follows : ∀ v ∈ seen, ∀ w ∈ g.successors v, w ∈ seen ∨ w ∈ stack
  known : ∀ v ∈ g.nodes, v ∈ unseen ∨ v ∈ seen

theorem searchInv_enter {g : JoinGraph} {v : String} {stack unseen seen : List String}
    (h : SearchInv g (v :: stack) unseen seen) :
    SearchInv g (g.successors v ++ stack) (unseen.erase v) (v :: seen) := by
  refine ⟨?_, ?_⟩
  · intro u hu w hw
    rcases List.mem_cons.mp hu with rfl | hu
    · exact .inr (List.mem_append_left _ hw)
    · rcases h.follows u hu w hw with hs | hs
      · exact .inl (List.mem_cons_of_mem _ hs)
      · rcases List.mem_cons.mp hs with rfl | hs
        · exact .inl List.mem_cons_self
        · exact .inr (List.mem_append_right _ hs)
  · intro u hu
    by_cases hv : u = v
    · exact .inr (hv ▸ List.mem_cons_self)
    · rcases h.known u hu with hu | hu
      · exact .inl ((List.mem_erase_of_ne hv).mpr hu)
      · exact .inr (List.mem_cons_of_mem _ hu)

theorem searchInv_skip {g : JoinGraph} (hg : g.Proper) {v : String} {stack unseen seen : List String}
    (hv : v ∉ unseen) (h : SearchInv g (v :: stack) unseen seen) : SearchInv g stack unseen seen := by
  refine ⟨?_, h.known⟩
  intro u hu w hw
  rcases h.follows u hu w hw with hs | hs
  · exact .inl hs
  · rcases List.mem_cons.mp hs with rfl | hs
    · -- a successor is a node, so it has been seen if it is not unseen
      have hn := hg.target_mem _ ((mem_successors g u w).mp hw)
      exact .inl ((h.known w hn).resolve_left hv)
    · exact .inr hs

theorem search_closed {g : JoinGraph} (hg : g.Proper) (stack unseen seen : List String)
    (h : SearchInv g stack unseen seen) :
    (∀ v ∈ g.search stack unseen seen, ∀ w ∈ g.successors v, w ∈ g.search stack unseen seen) ∧
    (∀ v ∈ stack, v ∈ g.nodes → v ∈ g.search stack unseen seen) := by
  fun_induction JoinGraph.search g stack unseen seen with
  | case1 unseen seen =>
    refine ⟨fun v hv w hw => ?_, by simp⟩
    exact (h.follows v hv w hw).resolve_right (by simp)
  | case2 v stack unseen seen hv ih =>
    obtain ⟨h1, h2⟩ := ih (searchInv_enter h)
    refine ⟨h1, ?_⟩
    intro u hu hn
    rcases List.mem_cons.mp hu with rfl | hu
    · exact mem_search_of_seen g _ _ _ List.mem_cons_self
    · exact h2 u (List.mem_append_right _ hu) hn
  | case3 v stack unseen seen hv ih =>
    obtain ⟨h1, h2⟩ := ih (searchInv_skip hg hv h)
    refine ⟨h1, ?_⟩
    intro u hu hn
    rcases List.mem_cons.mp hu with rfl | hu
    · exact mem_search_of_seen g _ _ _ ((h.known u hn).resolve_left hv)
    · exact h2 u hu hn

theorem mem_of_closed {g : JoinGraph} {l : List String}
    (hl : ∀ v ∈ l, ∀ w ∈ g.successors v, w ∈ l) {v w : String} (h : Way g v w) (hv : v ∈ l) :
    w ∈ l := by
  induction h with
  | here => exact hv
  | step he _ ih => exact ih (hl _ hv _ ((mem_successors g _ _).mpr he))

/-- **Reachability.** From a node of the graph exactly those texts are reached to which there is a
way. -/
theorem reaches_iff {g : JoinGraph} (hg : g.Proper) {v w : String} (hv : v ∈ g.nodes) :
    g.reaches v w = true ↔ Way g v w := by
  rw [reaches, List.contains_iff_mem]
  constructor
  · intro h
    rcases search_sound g _ _ _ h with hs | ⟨u, hu, hw⟩
    · simp at hs
    · rwa [List.mem_singleton.mp hu] at hw
  · intro h
    have hi : SearchInv g [v] g.nodes [] := ⟨by simp, fun u hu => .inl hu⟩
    obtain ⟨h1, h2⟩ := search_closed hg _ _ _ hi
    exact mem_of_closed h1 h (h2 v List.mem_cons_self hv)

/-! ## The edges of a blend -/

@[simp] theorem addEdge_nodes (g : JoinGraph) (source target : String) :
    (g.addEdge source target).nodes = g.nodes := by
  unfold addEdge; split <;> rfl

/-- The edge `e` stands for the join of a query: it comes from the root if the join has no condition,
and otherwise from a query that one of the conditions reads. -/
def Stands (root : String) (nodes : List String) (q : Query) (j : Join) (e : String × String) : Prop :=
  e.2 = q.id ∧
    ((j.isUnconditional = true ∧ e.1 = root) ∨
      (j.isUnconditional = false ∧ ∃ p ∈ j.predicates, p.fromQuery = e.1 ∧ e.1 ∈ nodes))

theorem foldl_predicates (target : String) (ps : List Predicate) (g : JoinGraph) :
    let g' := ps.foldl
      (fun g p => if p.fromQuery ∈ g.nodes then g.addEdge p.fromQuery target else g) g
    g'.nodes = g.nodes ∧ ∀ e, e ∈ g'.edges ↔
      (e.2 = target ∧ ∃ p ∈ ps, p.fromQuery = e.1 ∧ e.1 ∈ g.nodes) ∨ e ∈ g.edges := by
  induction ps generalizing g with
  | nil => simp
  | cons p ps ih =>
    simp only [List.foldl_cons]
    split
    · rename_i hp
      obtain ⟨h1, h2⟩ := ih (g.addEdge p.fromQuery target)
      refine ⟨by rw [h1, addEdge_nodes], ?_⟩
      intro e
      rw [h2, addEdge_edges, addEdge_nodes]
      constructor
      · rintro (⟨ht, q, hq, hqe, hn⟩ | rfl | he)
        · exact .inl ⟨ht, q, List.mem_cons_of_mem _ hq, hqe, hn⟩
        · exact .inl ⟨rfl, p, List.mem_cons_self, rfl, hp⟩
        · exact .inr he
      · rintro (⟨ht, q, hq, hqe, hn⟩ | he)
        · rcases List.mem_cons.mp hq with rfl | hq
          · exact .inr (.inl (Prod.ext hqe.symm ht))
          · exact .inl ⟨ht, q, hq, hqe, hn⟩
        · exact .inr (.inr he)
    · rename_i hp
      obtain ⟨h1, h2⟩ := ih g
      refine ⟨h1, ?_⟩
      intro e
      rw [h2]
      constructor
      · rintro (⟨ht, q, hq, hqe, hn⟩ | he)
        · exact .inl ⟨ht, q, List.mem_cons_of_mem _ hq, hqe, hn⟩
        · exact .inr he
      · rintro (⟨ht, q, hq, hqe, hn⟩ | he)
        · rcases List.mem_cons.mp hq with rfl | hq
          · exact absurd (hqe ▸ hn) hp
          · exact .inl ⟨ht, q, hq, hqe, hn⟩
        · exact .inr he

theorem addJoin_nodes_edges (root : String) (g : JoinGraph) (q : Query) (j : Join) :
    (addJoin root g q j).nodes = g.nodes ∧
      ∀ e, e ∈ (addJoin root g q j).edges ↔ Stands root g.nodes q j e ∨ e ∈ g.edges := by
  unfold addJoin Stands
  split
  · rename_i hu
    refine ⟨addEdge_nodes _ _ _, ?_⟩
    intro e
    rw [addEdge_edges]
    simp [hu, Prod.ext_iff, and_comm]
  · rename_i hu
    rw [Bool.not_eq_true] at hu
    obtain ⟨h1, h2⟩ := foldl_predicates q.id j.predicates g
    refine ⟨h1, ?_⟩
    intro e
    rw [h2]
    simp [hu]

theorem foldl_addJoin (root : String) (js : List (Query × Join)) (g : JoinGraph) :
    let g' := js.foldl (fun g e => addJoin root g e.1 e.2) g
    g'.nodes = g.nodes ∧ ∀ e, e ∈ g'.edges ↔
      (∃ j ∈ js, Stands root g.nodes j.1 j.2 e) ∨ e ∈ g.edges := by
  induction js generalizing g with
  | nil => simp
  | cons j js ih =>
    obtain ⟨h1, h2⟩ := ih (addJoin root g j.1 j.2)
    obtain ⟨h3, h4⟩ := addJoin_nodes_edges root g j.1 j.2
    refine ⟨by rw [List.foldl_cons, h1, h3], ?_⟩
    intro e
    rw [List.foldl_cons, h2, h3, h4]
    simp only [List.mem_cons, exists_eq_or_imp]
    rw [← or_assoc, or_comm (a := ∃ x ∈ js, _)]

theorem ofBlend_nodes {b : Blend} {root : Query} (hr : b.root? = some root) :
    (ofBlend b).nodes = b.ids.eraseDups := by
  unfold ofBlend
  rw [hr]
  exact (foldl_addJoin root.id b.joined _).1

/-- The edges of the join graph are those that the joins stand for. -/
theorem mem_ofBlend_edges {b : Blend} {root : Query} (hr : b.root? = some root)
    (e : String × String) :
    e ∈ (ofBlend b).edges ↔ ∃ j ∈ b.joined, Stands root.id b.ids j.1 j.2 e := by
  unfold ofBlend
  rw [hr]
  obtain ⟨-, h⟩ := foldl_addJoin root.id b.joined { nodes := b.ids.eraseDups }
  rw [h]
  simp [Stands]

theorem mem_joined {b : Blend} {q : Query} {j : Join} :
    (q, j) ∈ b.joined ↔ q ∈ b.queries.tail ∧ b.joinOf? q = some j := by
  simp only [Blend.joined, List.mem_filterMap, Option.map_eq_some_iff, Prod.mk.injEq]
  constructor
  · rintro ⟨a, ha, i, hi, rfl, rfl⟩
    exact ⟨ha, hi⟩
  · rintro ⟨hq, hj⟩
    exact ⟨q, hq, j, hj, rfl, rfl⟩

theorem ofBlend_proper {b : Blend} {root : Query} (hr : b.root? = some root) :
    (ofBlend b).Proper := by
  have hroot : root.id ∈ b.ids := List.mem_map_of_mem (List.mem_of_head? hr)
  refine ⟨?_, ?_, by rw [ofBlend_nodes hr]; exact nodup_eraseDups _⟩
  · intro e he
    obtain ⟨⟨q, j⟩, -, -, h⟩ := (mem_ofBlend_edges hr e).mp he
    rw [ofBlend_nodes hr, List.mem_eraseDups]
    rcases h with ⟨-, h⟩ | ⟨-, p, -, -, h⟩
    · rwa [h]
    · exact h
  · intro e he
    obtain ⟨⟨q, j⟩, hj, h, -⟩ := (mem_ofBlend_edges hr e).mp he
    rw [ofBlend_nodes hr, List.mem_eraseDups, h]
    exact List.mem_map_of_mem (List.mem_of_mem_tail (mem_joined.mp hj).1)

end QueryBlend.JoinGraph
