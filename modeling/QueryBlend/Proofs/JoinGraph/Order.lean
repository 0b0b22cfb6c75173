import QueryBlend.Proofs.JoinGraph.Reach
/-!
# The order in which nodes are left

`cycleNode?` makes two passes over a graph: a depth-first search, which leaves the nodes one after the
other, and a look at the predecessors of each node, the node that was left last first.

**The first pass.** `leave` keeps a stack on which the nodes that have been seen but not left are the
way to the present one. The invariant (`OnWay`) is about such a node: there is a way from it to
everything above it on the stack, and each of its successors has been seen or waits above it. So when it
is on top again, each of its successors has been left or is on the way, and from there the node itself
is reached (`leaveInv_leave`).

**The second pass.** The order has each node in front of its successors, apart from those that lead back
to it (`Ordered`). A predecessor that does not stand in front of its node stands behind it, so it is
reached from there, and both are on a cycle (`onCycle_of_latePredecessor?`). If no predecessor is late,
the places in the order are a rank (`isRank_idxOf`): a number that grows along every edge, so that there
is no cycle.

* `onCycle_of_cycleNode?`: a node that is found lies on a cycle.
* `cycleNode?_eq_none_iff`: no node is found exactly if none lies on a cycle.
-/
namespace QueryBlend.JoinGraph

/-- There is a way from the node back to itself, of at least one step. -/
def OnCycle (g : JoinGraph) (v : String) : Prop := ∃ w, (v, w) ∈ g.edges ∧ Way g w v

/-- A number for each node that grows along the edges. -/
def IsRank (g : JoinGraph) (rank : String → Nat) : Prop := ∀ e ∈ g.edges, rank e.1 < rank e.2

/-- Each node of a list stands in front of its successors, apart from those from which it is reached. -/
def Ordered (g : JoinGraph) : List String → Prop
  | [] => True
  | v :: vs => (∀ w ∈ g.successors v, w ∈ vs ∨ Way g w v) ∧ Ordered g vs

/-- What holds of the nodes of a stack that have been seen but not left, when `above` stands above the
stack. Of a node that is on the stack twice only the upper place counts. -/
def OnWay (g : JoinGraph) (unseen left : List String) : (above stack : List String) → Prop
  | _, [] => True
  | above, v :: stack =>
    (v ∉ above → v ∉ unseen → v ∉ left →
      (∀ w ∈ above, Way g v w) ∧ ∀ w ∈ g.successors v, w ∉ unseen ∨ w ∈ above) ∧
    OnWay g unseen left (v :: above) stack

variable {g : JoinGraph}

theorem Way.trans {u v w : String} (h : Way g u v) (h' : Way g v w) : Way g u w := by
  induction h with
  | here => exact h'
  | step he _ ih => exact .step he (ih h')

theorem onCycle_of_mem_successors {v : String} (h : v ∈ g.successors v) : g.OnCycle v :=
  ⟨v, (mem_successors g v v).mp h, .here v⟩

/-! ## The way -/

theorem OnWay.way {unseen left above stack : List String} (h : g.OnWay unseen left above stack)
    {v : String} (hv : v ∈ stack) (ha : v ∉ above) (hu : v ∉ unseen) (hl : v ∉ left) :
    ∀ w ∈ above, Way g v w := by
  induction stack generalizing above with
  | nil => simp at hv
  | cons u stack ih =>
    by_cases hvu : v = u
    · subst hvu
      exact (h.1 ha hu hl).1
    · have hs := (List.mem_cons.mp hv).resolve_left hvu
      have hn : v ∉ u :: above := by simp [hvu, ha]
      exact fun w hw => ih h.2 hs hn w (List.mem_cons_of_mem _ hw)

/-- The way is kept when nodes are seen or left, and when what is above it changes, as long as no node
of it is new and all that is above it now is reached from what was above it before. -/
theorem OnWay.mono {unseen left above unseen' left' above' : List String}
    (hnew : ∀ v, v ∉ above' → v ∉ unseen' → v ∉ left' → v ∉ above ∧ v ∉ unseen ∧ v ∉ left)
    (hway : ∀ w ∈ above', ∃ x ∈ above, Way g x w)
    (hkept : ∀ w, w ∉ unseen ∨ w ∈ above → w ∉ unseen' ∨ w ∈ above') {stack : List String}
    (h : g.OnWay unseen left above stack) : g.OnWay unseen' left' above' stack := by
  induction stack generalizing above above' with
  | nil => trivial
  | cons v stack ih =>
    refine ⟨?_, ih ?_ ?_ ?_ h.2⟩
    · intro ha hu hl
      obtain ⟨ha', hu', hl'⟩ := hnew v ha hu hl
      obtain ⟨h1, h2⟩ := h.1 ha' hu' hl'
      refine ⟨fun w hw => ?_, fun w hw => hkept w (h2 w hw)⟩
      obtain ⟨x, hx, hxw⟩ := hway w hw
      exact (h1 x hx).trans hxw
    · intro u ha hu hl
      simp only [List.mem_cons, not_or] at ha ⊢
      obtain ⟨ha', hu', hl'⟩ := hnew u ha.2 hu hl
      exact ⟨⟨ha.1, ha'⟩, hu', hl'⟩
    · intro w hw
      rcases List.mem_cons.mp hw with rfl | hw
      · exact ⟨w, List.mem_cons_self, .here w⟩
      · obtain ⟨x, hx, hxw⟩ := hway w hw
        exact ⟨x, List.mem_cons_of_mem _ hx, hxw⟩
    · intro w hw
      simp only [List.mem_cons] at hw ⊢
      rcases hw with hu | rfl | ha
      · exact (hkept w (.inl hu)).imp_right .inr
      · exact .inr (.inl rfl)
      · exact (hkept w (.inr ha)).imp_right .inr

/-- Unseen nodes can be put on the stack without regard to the way. -/
theorem OnWay.push {unseen left above pushed stack : List String} (hp : ∀ v ∈ pushed, v ∈ unseen)
    (h : g.OnWay unseen left (pushed.reverse ++ above) stack) :
    g.OnWay unseen left above (pushed ++ stack) := by
  induction pushed generalizing above with
  | nil => exact h
  | cons v pushed ih =>
    refine ⟨fun _ hu => absurd (hp v List.mem_cons_self) hu, ?_⟩
    refine ih (fun w hw => hp w (List.mem_cons_of_mem _ hw)) ?_
    rwa [List.reverse_cons, List.append_assoc] at h

/-! ## The first pass -/

/-- The invariant of a depth-first search. -/
structure LeaveInv (g : JoinGraph) (stack unseen left : List String) : Prop where
  ordered : g.Ordered left
  left_nodup : left.Nodup
  unseen_nodup : unseen.Nodup
  known : ∀ v ∈ g.nodes, v ∈ unseen ∨ v ∈ left ∨ v ∈ stack
  /-- A node with an edge to itself would have ended the search. -/
  no_loop : ∀ v ∈ g.nodes, v ∈ unseen ∨ v ∉ g.successors v
  way : g.OnWay unseen left [] stack

/-- A node that is on top for the first time gets its unseen successors above it. -/
theorem leaveInv_enter {v : String} {stack unseen left : List String}
    (h : LeaveInv g (v :: stack) unseen left) (hv : v ∈ unseen) (hself : v ∉ g.successors v) :
    LeaveInv g
      (((g.successors v).filter fun w => w ∈ unseen.erase v).reverse ++ v :: stack)
      (unseen.erase v) left := by
  have herase (w : String) : w ∈ unseen.erase v ↔ w ≠ v ∧ w ∈ unseen := h.unseen_nodup.mem_erase_iff
  have hpush (w : String) : w ∈ ((g.successors v).filter fun w => w ∈ unseen.erase v).reverse ↔
      w ∈ g.successors v ∧ w ∈ unseen.erase v := by simp
  have hstep {w : String} (hw : w ∈ g.successors v) : Way g v w :=
    .step ((mem_successors g v w).mp hw) (.here w)
  refine ⟨h.ordered, h.left_nodup, h.unseen_nodup.erase v, ?_, ?_, OnWay.push ?_ ⟨?_, ?_⟩⟩
  · intro w hw
    simp only [herase, List.mem_append, List.mem_cons]
    rcases h.known w hw with hu | hl | hs
    · by_cases hwv : w = v
      · exact .inr (.inr (.inr (.inl hwv)))
      · exact .inl ⟨hwv, hu⟩
    · exact .inr (.inl hl)
    · exact .inr (.inr (.inr (List.mem_cons.mp hs)))
  · intro w hw
    by_cases hwv : w = v
    · exact .inr (hwv ▸ hself)
    · exact (h.no_loop w hw).imp_left fun hu => (herase w).mpr ⟨hwv, hu⟩
  · exact fun w hw => ((hpush w).mp hw).2
  · intro _ _ _
    simp only [List.append_nil, List.mem_reverse, hpush]
    refine ⟨fun w hw => hstep hw.1, fun w hw => ?_⟩
    by_cases hwu : w ∈ unseen.erase v
    · exact .inr ⟨hw, hwu⟩
    · exact .inl hwu
  · refine h.way.2.mono ?_ ?_ ?_
    · intro u ha hu hl
      simp only [List.append_nil, List.mem_cons, List.mem_reverse, not_or] at ha
      exact ⟨by simpa using ha.1, fun hu' => hu ((herase u).mpr ⟨ha.1, hu'⟩), hl⟩
    · intro w hw
      refine ⟨v, List.mem_cons_self, ?_⟩
      simp only [List.append_nil, List.mem_cons, List.mem_reverse, hpush] at hw
      rcases hw with rfl | hw
      · exact .here w
      · exact hstep hw.1
    · intro w hw
      rcases hw with hu | ha
      · exact .inl fun hu' => hu ((herase w).mp hu').2
      · exact .inr (List.mem_singleton.mp ha ▸ List.mem_cons_self)

/-- A node that is on top again is left, if it has not been. -/
theorem leaveInv_leave (hg : g.Proper) {v : String} {stack unseen left : List String}
    (h : LeaveInv g (v :: stack) unseen left) (hv : v ∉ unseen) :
    LeaveInv g stack unseen (if v ∈ left then left else v :: left) := by
  have hmem (w : String) : w ∈ (if v ∈ left then left else v :: left) ↔ w = v ∨ w ∈ left := by
    split
    · rename_i hl
      exact ⟨.inr, fun hw => hw.elim (fun e => e ▸ hl) id⟩
    · exact List.mem_cons
  refine ⟨?_, ?_, h.unseen_nodup, ?_, h.no_loop, h.way.2.mono ?_ (by simp) ?_⟩
  · split
    · exact h.ordered
    · rename_i hl
      refine ⟨fun w hw => ?_, h.ordered⟩
      have hwu := ((h.way.1 (by simp) hv hl).2 w hw).resolve_right (by simp)
      by_cases hwl : w ∈ left
      · exact .inl hwl
      · -- a successor that has been seen but not left is on the way to `v`
        have hnode := hg.target_mem _ ((mem_successors g v w).mp hw)
        rcases List.mem_cons.mp (((h.known w hnode).resolve_left hwu).resolve_left hwl) with rfl | hs
        · exact .inr (.here w)
        · by_cases hwv : w = v
          · exact .inr (hwv ▸ .here w)
          · exact .inr (h.way.2.way hs (by simpa using hwv) hwu hwl v List.mem_cons_self)
  · split
    · exact h.left_nodup
    · rename_i hl
      exact List.nodup_cons.mpr ⟨hl, h.left_nodup⟩
  · intro w hw
    rw [hmem]
    rcases h.known w hw with hu | hl | hs
    · exact .inl hu
    · exact .inr (.inl (.inr hl))
    · rcases List.mem_cons.mp hs with rfl | hs
      · exact .inr (.inl (.inl rfl))
      · exact .inr (.inr hs)
  · intro u _ hu hl
    rw [hmem, not_or] at hl
    exact ⟨by simpa using hl.1, hu, hl.2⟩
  · intro w hw
    rcases hw with hu | ha
    · exact .inl hu
    · exact .inl (List.mem_singleton.mp ha ▸ hv)

/-- A search ends early only at a node with an edge to itself. -/
theorem leave_eq_error (stack unseen left : List String) {w : String} :
    g.leave stack unseen left = .error w → w ∈ g.successors w := by
  fun_induction JoinGraph.leave g stack unseen left with
  | case1 => exact nofun
  | case2 v stack unseen left hv hself =>
    intro h
    cases h
    exact hself
  | case3 _ _ _ _ _ _ _ ih => exact ih
  | case4 _ _ _ _ _ ih => exact ih

theorem leave_eq_ok (hg : g.Proper) (stack unseen left : List String) {unseen' left' : List String}
    (h : LeaveInv g stack unseen left) : g.leave stack unseen left = .ok (unseen', left') →
      LeaveInv g [] unseen' left' ∧ (∀ v ∈ unseen', v ∈ unseen) ∧ ∀ v ∈ stack, v ∉ unseen' := by
  fun_induction JoinGraph.leave g stack unseen left with
  | case1 unseen left =>
    intro he
    cases he
    exact ⟨h, fun _ hv => hv, by simp⟩
  | case2 => exact nofun
  | case3 v stack unseen left hv u hself ih =>
    intro he
    obtain ⟨hi, hsub, hdone⟩ := ih (leaveInv_enter h hv hself) he
    refine ⟨hi, fun w hw => List.mem_of_mem_erase (hsub w hw), fun w hw => ?_⟩
    exact hdone w (List.mem_append_right _ hw)
  | case4 v stack unseen left hv ih =>
    intro he
    obtain ⟨hi, hsub, hdone⟩ := ih (leaveInv_leave hg h hv) he
    refine ⟨hi, hsub, fun w hw => ?_⟩
    rcases List.mem_cons.mp hw with rfl | hw
    · exact fun hu => hv (hsub w hu)
    · exact hdone w hw

/-- A search can start at any node when the stack is empty. -/
theorem leaveInv_start {v : String} {unseen left : List String} (h : LeaveInv g [] unseen left)
    (hv : v ∈ unseen) : LeaveInv g [v] unseen left := by
  refine ⟨h.ordered, h.left_nodup, h.unseen_nodup, ?_, h.no_loop, fun _ hu => absurd hv hu, trivial⟩
  intro w hw
  exact (h.known w hw).imp_right fun hl => hl.imp_right (by simp)

theorem leaveAll_eq_error (starts unseen left : List String) {w : String}
    (h : g.leaveAll starts unseen left = .error w) : w ∈ g.successors w := by
  induction starts generalizing unseen left with
  | nil => cases h
  | cons v starts ih =>
    rw [leaveAll] at h
    split at h
    · split at h
      · exact ih _ _ h
      · rename_i he
        cases h
        exact leave_eq_error _ _ _ he
    · exact ih _ _ h

theorem leaveAll_eq_ok (hg : g.Proper) (starts unseen left : List String) {order : List String}
    (h : LeaveInv g [] unseen left) (he : g.leaveAll starts unseen left = .ok order) :
    ∃ unseen', LeaveInv g [] unseen' order ∧ (∀ v ∈ unseen', v ∈ unseen) ∧
      ∀ v ∈ starts, v ∉ unseen' := by
  induction starts generalizing unseen left with
  | nil =>
    cases he
    exact ⟨unseen, h, fun _ hv => hv, by simp⟩
  | cons v starts ih =>
    rw [leaveAll] at he
    split at he
    · rename_i hv
      split at he
      · rename_i u l hleave
        obtain ⟨hi, hsub, hdone⟩ := leave_eq_ok hg _ _ _ (leaveInv_start h hv) hleave
        obtain ⟨u', hi', hsub', hdone'⟩ := ih u l hi he
        refine ⟨u', hi', fun w hw => hsub w (hsub' w hw), fun w hw => ?_⟩
        rcases List.mem_cons.mp hw with rfl | hw
        · exact fun hu => hdone w List.mem_cons_self (hsub' w hu)
        · exact hdone' w hw
      · cases he
    · rename_i hv
      obtain ⟨u', hi, hsub, hdone⟩ := ih unseen left h he
      refine ⟨u', hi, hsub, fun w hw => ?_⟩
      rcases List.mem_cons.mp hw with rfl | hw
      · exact fun hu => hv (hsub w hu)
      · exact hdone w hw

/-- What the first pass answers. -/
structure IsOrder (g : JoinGraph) (order : List String) : Prop where
  ordered : g.Ordered order
  nodup : order.Nodup
  nodes_mem : ∀ v ∈ g.nodes, v ∈ order
  no_loop : ∀ v ∈ g.nodes, v ∉ g.successors v

/-- **The first pass.** All nodes are left, unless one has an edge to itself. -/
theorem leaveAll_isOrder (hg : g.Proper) {order : List String}
    (h : g.leaveAll g.nodes g.nodes [] = .ok order) : g.IsOrder order := by
  have hi : LeaveInv g [] g.nodes [] :=
    ⟨trivial, List.nodup_nil, hg.nodup, fun v hv => .inl hv, fun v hv => .inl hv, trivial⟩
  obtain ⟨unseen', hi', -, hdone⟩ := leaveAll_eq_ok hg g.nodes g.nodes [] hi h
  refine ⟨hi'.ordered, hi'.left_nodup, fun v hv => ?_, fun v hv => ?_⟩
  · exact ((hi'.known v hv).resolve_left (hdone v hv)).resolve_right (by simp)
  · exact (hi'.no_loop v hv).resolve_left (hdone v hv)

/-! ## The second pass -/

/-- A node is found behind or beside a node that it has an edge to, and not in front of it. -/
theorem latePredecessor?_eq_some {before vs : List String} {w : String}
    (h : g.latePredecessor? before vs = some w) :
    ∃ a v b, vs = a ++ v :: b ∧ (w, v) ∈ g.edges ∧ w ≠ v ∧ w ∉ a ∧ w ∉ before := by
  induction vs generalizing before with
  | nil => cases h
  | cons v vs ih =>
    rw [latePredecessor?] at h
    split at h
    · rename_i u hu
      cases h
      have hmem := List.mem_filter.mp (List.mem_of_getLast? hu)
      have hlate : w ≠ v ∧ w ∉ before := by simpa using hmem.2
      exact ⟨[], v, vs, rfl, (mem_predecessors g v w).mp hmem.1, hlate.1, by simp, hlate.2⟩
    · obtain ⟨a, u, b, rfl, he, hne, ha, hb⟩ := ih h
      rw [List.mem_cons, not_or] at hb
      exact ⟨v :: a, u, b, rfl, he, hne, by simp [ha, hb.1], hb.2⟩

theorem latePredecessor?_eq_none {before a b : List String} {v w : String}
    (h : g.latePredecessor? before (a ++ v :: b) = none) (he : (w, v) ∈ g.edges) :
    w = v ∨ w ∈ a ∨ w ∈ before := by
  induction a generalizing before with
  | nil =>
    rw [List.nil_append, latePredecessor?] at h
    split at h
    · cases h
    · rename_i hlast
      have hnone := List.filter_eq_nil_iff.mp (List.getLast?_eq_none_iff.mp hlast) w
        ((mem_predecessors g v w).mpr he)
      have hmem : w ∈ v :: before := by
        rw [decide_eq_true_eq, Decidable.not_not] at hnone
        exact hnone
      exact (List.mem_cons.mp hmem).imp_right .inr
  | cons u a ih =>
    rw [List.cons_append, latePredecessor?] at h
    split at h
    · cases h
    · rcases ih h with hv | ha | hb
      · exact .inl hv
      · exact .inr (.inl (List.mem_cons_of_mem _ ha))
      · rcases List.mem_cons.mp hb with rfl | hb
        · exact .inr (.inl List.mem_cons_self)
        · exact .inr (.inr hb)

theorem Ordered.of_append {a b : List String} (h : g.Ordered (a ++ b)) : g.Ordered b := by
  induction a with
  | nil => exact h
  | cons _ a ih => exact ih h.2

/-- A predecessor that stands behind its node in the order is reached from it. -/
theorem way_of_behind {a b : List String} {v w : String} (ho : g.Ordered (a ++ v :: b))
    (hn : (a ++ v :: b).Nodup) (he : (w, v) ∈ g.edges) (hw : w ∈ b) : Way g v w := by
  obtain ⟨b, c, rfl⟩ := List.append_of_mem hw
  have hsucc := (ho.of_append.2.of_append).1 v ((mem_successors g w v).mpr he)
  refine hsucc.resolve_left fun hc => ?_
  have hv := (List.nodup_cons.mp (List.nodup_append.mp hn).2.1).1
  exact hv (List.mem_append_right _ (List.mem_cons_of_mem _ hc))

/-- **The second pass.** A node that is found lies on a cycle. -/
theorem onCycle_of_latePredecessor? (hg : g.Proper) {order : List String} (ho : g.IsOrder order)
    {w : String} (h : g.latePredecessor? [] order = some w) : g.OnCycle w := by
  obtain ⟨a, v, b, rfl, he, hne, ha, -⟩ := latePredecessor?_eq_some h
  have hmem := List.mem_append.mp (ho.nodes_mem w (hg.source_mem _ he))
  have hb := (List.mem_cons.mp (hmem.resolve_left ha)).resolve_left hne
  exact ⟨v, he, way_of_behind ho.ordered ho.nodup he hb⟩

/-- If no node is found, the places in the order are a rank. -/
theorem isRank_idxOf (hg : g.Proper) {order : List String} (ho : g.IsOrder order)
    (h : g.latePredecessor? [] order = none) : g.IsRank order.idxOf := by
  rintro ⟨w, v⟩ he
  have hne : w ≠ v := by
    rintro rfl
    exact ho.no_loop w (hg.source_mem _ he) ((mem_successors g w w).mpr he)
  obtain ⟨a, b, rfl⟩ := List.append_of_mem (ho.nodes_mem v (hg.target_mem _ he))
  have hw := ((latePredecessor?_eq_none h he).resolve_left hne).resolve_right (by simp)
  have hv : v ∉ a := fun hv => (List.nodup_append.mp ho.nodup).2.2 v hv v List.mem_cons_self rfl
  have hplace : (a ++ v :: b).idxOf v = a.length := by
    rw [List.idxOf_append_of_notMem hv, List.idxOf_cons_self, Nat.add_zero]
  show (a ++ v :: b).idxOf w < (a ++ v :: b).idxOf v
  rw [hplace, List.idxOf_append_of_mem hw]
  exact List.idxOf_lt_length_of_mem hw

/-! ## Cycles -/

theorem IsRank.le_of_way {rank : String → Nat} (h : g.IsRank rank) {v w : String} (hw : Way g v w) :
    rank v ≤ rank w := by
  induction hw with
  | here => exact Nat.le_refl _
  | step he _ ih => exact Nat.le_trans (Nat.le_of_lt (h _ he)) ih

theorem IsRank.not_onCycle {rank : String → Nat} (h : g.IsRank rank) (v : String) :
    ¬ g.OnCycle v := by
  rintro ⟨w, he, hw⟩
  exact absurd (h _ he) (Nat.not_lt.mpr (h.le_of_way hw))

/-- **Cycles found.** A node that is found lies on a cycle. -/
theorem onCycle_of_cycleNode? (hg : g.Proper) {v : String} (h : g.cycleNode? = some v) :
    g.OnCycle v := by
  rw [cycleNode?] at h
  split at h
  · rename_i he
    cases h
    exact onCycle_of_mem_successors (leaveAll_eq_error _ _ _ he)
  · rename_i order he
    exact onCycle_of_latePredecessor? hg (leaveAll_isOrder hg he) h

/-- **No cycle.** No node is found exactly if none lies on a cycle. -/
theorem cycleNode?_eq_none_iff (hg : g.Proper) : g.cycleNode? = none ↔ ∀ v, ¬ g.OnCycle v := by
  constructor
  · intro h
    rw [cycleNode?] at h
    split at h
    · cases h
    · rename_i order he
      exact (isRank_idxOf hg (leaveAll_isOrder hg he) h).not_onCycle
  · intro h
    cases hc : g.cycleNode? with
    | none => rfl
    | some v => exact absurd (onCycle_of_cycleNode? hg hc) (h v)

/-- In a graph with a rank no cycle is found. -/
theorem cycleNode?_eq_none {rank : String → Nat} (hg : g.Proper) (hr : g.IsRank rank) :
    g.cycleNode? = none :=
  (cycleNode?_eq_none_iff hg).mpr hr.not_onCycle

end QueryBlend.JoinGraph
