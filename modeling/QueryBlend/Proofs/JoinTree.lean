import QueryBlend.Findings
import QueryBlend.Proofs.JoinGraph.Order
/-!
# Join trees

`Blend.findings` looks for what is wrong with a blend in seven passes. This module says what a blend is
that is right, without looking for anything (`Blend.IsJoinTree`), and that the passes find nothing in
exactly these blends.

**One pass, one condition.** Each pass but the last is silent exactly if its own condition holds
(`idFindings_eq_nil_iff`, …, `joinFindings_eq_nil_iff`). What a pass says of places in the list of
queries is turned into what `Precedes` says.

**The last pass.** It has no condition of its own: in a join tree the place of a query is a rank of the
join graph (`isRank_of_isJoinTree`), so there is no cycle, and every query is reached from the root by
induction on its place (`way_of_isJoinTree`).

* `isJoinTree_of_findings`, `findings_of_isJoinTree`: the two directions.
* `isValid_iff_isJoinTree`: a blend is valid if and only if it is a join tree.
-/
namespace QueryBlend
open Text

/-- A small letter, and then small letters, digits and underscores. -/
def IsAliasText (s : List Char) : Prop :=
  ∃ (c : Char) (cs : List Char), s = c :: cs ∧ ('a' ≤ c ∧ c ≤ 'z') ∧
    ∀ d ∈ cs, ('a' ≤ d ∧ d ≤ 'z') ∨ ('0' ≤ d ∧ d ≤ '9') ∨ d = '_'

theorem isAlias_iff_isAliasText (name : String) : isAlias name = true ↔ IsAliasText name.toList := by
  rw [isAlias_iff]
  simp [IsAliasText, isSmallLetter, isAliasChar, isAsciiDigit, or_assoc]

namespace Blend

/-- The query `first` stands in front of the query `second`. -/
def Precedes (b : Blend) (first second : String) : Prop :=
  ∃ i k : Nat, i < k ∧ b.ids[i]? = some first ∧ b.ids[k]? = some second

instance (b : Blend) (first second : String) : Decidable (b.Precedes first second) :=
  decidable_of_iff
    (∃ k < b.ids.length, ∃ i < k, b.ids[i]? = some first ∧ b.ids[k]? = some second) <| by
      constructor
      · rintro ⟨k, -, i, hlt, hi, hk⟩
        exact ⟨i, k, hlt, hi, hk⟩
      · rintro ⟨i, k, hlt, hi, hk⟩
        exact ⟨k, (List.getElem?_eq_some_iff.mp hk).1, i, hlt, hi, hk⟩

/-- A join tree in the order of the queries. -/
structure IsJoinTree (b : Blend) : Prop where
  queries_ne_nil : b.queries ≠ []
  ids_nodup : b.ids.Nodup
  names_alias : ∀ q ∈ b.queries, IsAliasText q.name.toList
  names_nodup : (b.queries.map Query.name).Nodup
  /-- The queries behind the root, and no others, have a join. -/
  keys_iff : ∀ id, id ∈ b.joins.keys ↔ id ∈ b.ids.tail
  target_eq : ∀ e ∈ b.joins.entries, e.2.target = e.1
  cross_bare : ∀ e ∈ b.joins.entries, e.2.kind = .cross → e.2.predicates = []
  conditions_ne_nil : ∀ e ∈ b.joins.entries, e.2.kind ≠ .cross → e.2.predicates ≠ []
  conditions : ∀ e ∈ b.joins.entries, e.2.kind ≠ .cross → ∀ p ∈ e.2.predicates,
    isAllBlank p.fromField.toList = false ∧ isAllBlank p.toField.toList = false ∧
      b.Precedes p.fromQuery e.1

variable {b : Blend}

/-! ## Places -/

theorem ids_getElem? (b : Blend) (i : Nat) : b.ids[i]? = b.queries[i]?.map Query.id :=
  List.getElem?_map

theorem ids_tail (b : Blend) : b.ids.tail = b.queries.tail.map Query.id := List.map_tail.symm

theorem position?_eq_some_iff (h : b.ids.Nodup) (id : String) (i : Nat) :
    b.position? id = some i ↔ b.ids[i]? = some id := by
  rw [position?, List.findIdx?_eq_some_iff_getElem]
  constructor
  · rintro ⟨hi, he, -⟩
    rw [ids_getElem?, List.getElem?_eq_getElem hi, Option.map_some, beq_iff_eq.mp he]
  · intro he
    rw [ids_getElem?, Option.map_eq_some_iff] at he
    obtain ⟨q, hq, rfl⟩ := he
    obtain ⟨hi, rfl⟩ := List.getElem?_eq_some_iff.mp hq
    refine ⟨hi, beq_self_eq_true _, fun j hj he => ?_⟩
    have hlt : j < b.queries.length := by omega
    have hidj : b.ids[j]? = some b.queries[j].id := by
      rw [ids_getElem?, List.getElem?_eq_getElem hlt, Option.map_some]
    have hidi : b.ids[i]? = some b.queries[j].id := by
      rw [ids_getElem?, List.getElem?_eq_getElem hi, Option.map_some, beq_iff_eq.mp he]
    have hlen : j < b.ids.length := by rw [ids, List.length_map]; exact hlt
    have : j = i := (List.getElem?_inj hlen h).mp (hidj.trans hidi.symm)
    omega

theorem precedes_iff_position? (h : b.ids.Nodup) {first second : String} {k : Nat}
    (hk : b.ids[k]? = some second) :
    b.Precedes first second ↔ ∃ i, b.position? first = some i ∧ i < k := by
  constructor
  · rintro ⟨i, k', hlt, hi, hk'⟩
    have : k' = k :=
      (List.getElem?_inj (List.getElem?_eq_some_iff.mp hk').1 h).mp (hk'.trans hk.symm)
    exact ⟨i, (position?_eq_some_iff h first i).mpr hi, this ▸ hlt⟩
  · rintro ⟨i, hi, hlt⟩
    exact ⟨i, k, hlt, (position?_eq_some_iff h first i).mp hi, hk⟩

/-- The query in front of the one with a place. -/
theorem exists_of_precedes (h : b.ids.Nodup) {id : String} {k : Nat} {q : Query}
    (hk : b.queries[k]? = some q) (hp : b.Precedes id q.id) :
    ∃ i s, i < k ∧ b.queries[i]? = some s ∧ s.id = id := by
  obtain ⟨i, k', hlt, hi, hk'⟩ := hp
  have hqk : b.ids[k]? = some q.id := by rw [ids_getElem?, hk, Option.map_some]
  have hkk : k' = k :=
    (List.getElem?_inj (List.getElem?_eq_some_iff.mp hk').1 h).mp (hk'.trans hqk.symm)
  rw [ids_getElem?, Option.map_eq_some_iff] at hi
  obtain ⟨s, hs, hid⟩ := hi
  exact ⟨i, s, hkk ▸ hlt, hs, hid⟩

/-! ## Ids and aliases -/

theorem idFindings_eq_nil_iff (b : Blend) : b.idFindings = [] ↔ b.ids.Nodup := by
  rw [idFindings, List.map_eq_nil_iff, repeated_nil_iff]
  simp

theorem invalidAliasFindings_eq_nil_iff (b : Blend) :
    b.invalidAliasFindings = [] ↔ ∀ q ∈ b.queries, IsAliasText q.name.toList := by
  rw [invalidAliasFindings, List.filterMap_eq_nil_iff]
  refine forall_congr' fun q => forall_congr' fun _ => ?_
  rw [← isAlias_iff_isAliasText]
  split <;> simp_all

theorem idsNamed_length (b : Blend) (name : String) :
    (b.idsNamed name).length = (b.queries.map Query.name).count name := by
  rw [idsNamed, List.length_map, List.count, List.countP_map, List.countP_eq_length_filter]
  rfl

theorem sharedAliasFindings_eq_nil_iff (b : Blend) :
    b.sharedAliasFindings = [] ↔ (b.queries.map Query.name).Nodup := by
  rw [sharedAliasFindings, List.filterMap_eq_nil_iff, List.nodup_iff_count]
  constructor
  · intro h name
    by_cases hn : name ∈ b.queries.map Query.name
    · have := h name (List.mem_eraseDups.mpr hn)
      simp only [idsNamed_length, ite_eq_right_iff, reduceCtorEq, imp_false, Nat.not_lt] at this
      exact this
    · rw [List.count_eq_zero_of_not_mem hn]
      exact Nat.zero_le 1
  · intro h name _
    have := h name
    simp only [idsNamed_length, ite_eq_right_iff, reduceCtorEq, imp_false, Nat.not_lt]
    exact this

/-! ## Joins -/

theorem query?_isSome_iff (b : Blend) (id : String) : (b.query? id).isSome = true ↔ id ∈ b.ids := by
  rw [query?, List.find?_isSome]
  simp [ids]

theorem targetFindings_eq_nil_iff (b : Blend) (root : Query) :
    b.targetFindings root = [] ↔
      ∀ e ∈ b.joins.entries, e.2.target = e.1 ∧ e.1 ∈ b.ids ∧ e.1 ≠ root.id := by
  rw [targetFindings, List.filterMap_eq_nil_iff]
  simp only [Dict.sorted, List.mem_mergeSort]
  refine forall_congr' fun e => forall_congr' fun _ => ?_
  have hq := b.query?_isSome_iff e.1
  unfold targetFinding?
  split
  · rename_i h
    simp only [reduceCtorEq, false_iff, not_and]
    rcases h with h | h
    · exact fun h' => absurd h' h
    · intro _ hm
      rw [← hq, Option.isSome_iff_ne_none] at hm
      exact absurd (Option.isNone_iff_eq_none.mp h) hm
  · rename_i h
    simp only [not_or, ne_eq, Decidable.not_not, Bool.not_eq_true, Option.isNone_eq_false_iff] at h
    split
    · rename_i hr
      simp [hr]
    · rename_i hr
      simp [h.1, hq.mp h.2, hr]

theorem missingJoinFindings_eq_nil_iff (b : Blend) :
    b.missingJoinFindings = [] ↔ ∀ id ∈ b.ids.tail, id ∈ b.joins.keys := by
  rw [missingJoinFindings, List.filterMap_eq_nil_iff, ids_tail]
  simp only [List.mem_map, forall_exists_index, and_imp, forall_apply_eq_imp_iff₂]
  refine forall_congr' fun q => forall_congr' fun _ => ?_
  rw [← Dict.has_iff]
  split <;> simp_all

theorem predicateFindings_eq_nil_iff (b : Blend) (position : Nat) (id : String) (p : Predicate)
    (index : Nat) :
    b.predicateFindings position id p index = [] ↔
      isAllBlank p.fromField.toList = false ∧ isAllBlank p.toField.toList = false ∧
        ∃ i, b.position? p.fromQuery = some i ∧ i < position := by
  rw [predicateFindings, List.append_eq_nil_iff, ← and_assoc]
  refine and_congr ?_ ?_
  · cases isAllBlank p.fromField.toList <;> cases isAllBlank p.toField.toList <;> simp
  · split
    · rename_i h; simp [h]
    · rename_i i h; simp [h]

/-- What a join must be like for the query at a position. -/
def JoinFits (b : Blend) (position : Nat) (j : Join) : Prop :=
  (j.kind = .cross → j.predicates = []) ∧ (j.kind ≠ .cross → j.predicates ≠ []) ∧
    (j.kind ≠ .cross → ∀ p ∈ j.predicates, isAllBlank p.fromField.toList = false ∧
      isAllBlank p.toField.toList = false ∧ ∃ i, b.position? p.fromQuery = some i ∧ i < position)

theorem joinFindings_eq_nil_iff (b : Blend) (position : Nat) (id : String) (j : Join) :
    b.joinFindings position id j = [] ↔ b.JoinFits position j := by
  unfold joinFindings JoinFits
  split
  · rename_i hc
    cases hp : j.predicates <;> simp [hc]
  · rename_i hc
    rw [List.append_eq_nil_iff, List.flatMap_eq_nil_iff]
    simp only [hc, false_implies, ne_eq, not_false_eq_true, forall_const, true_and]
    refine and_congr ?_ ?_
    · cases hp : j.predicates <;> simp
    · simp only [predicateFindings_eq_nil_iff]
      constructor
      · intro h p hp
        obtain ⟨i, hi⟩ := List.getElem?_of_mem hp
        exact h (p, i) (List.mem_zipIdx_iff_getElem?.mpr hi)
      · intro h e he
        exact h e.1 (List.mem_of_getElem? (List.mem_zipIdx_iff_getElem?.mp he))

theorem mem_drop_zipIdx {α : Type} {l : List α} {e : α × Nat} :
    e ∈ l.zipIdx.drop 1 ↔ l[e.2]? = some e.1 ∧ 0 < e.2 := by
  cases l with
  | nil => simp
  | cons a l =>
    rw [List.zipIdx_cons, List.drop_one, List.tail_cons, List.mem_zipIdx_iff_le_and_getElem?_sub]
    constructor
    · rintro ⟨h1, h2⟩
      refine ⟨?_, by omega⟩
      rwa [List.getElem?_cons, if_neg (by omega)]
    · rintro ⟨h1, h2⟩
      refine ⟨by omega, ?_⟩
      rwa [List.getElem?_cons, if_neg (by omega)] at h1

theorem allPredicateFindings_eq_nil_iff (b : Blend) :
    b.allPredicateFindings = [] ↔
      ∀ k q j, b.queries[k]? = some q → 0 < k → b.joinOf? q = some j → b.JoinFits k j := by
  rw [allPredicateFindings, List.flatMap_eq_nil_iff]
  constructor
  · intro h k q j hq hk hj
    have := h (q, k) (mem_drop_zipIdx.mpr ⟨hq, hk⟩)
    rw [hj] at this
    exact (joinFindings_eq_nil_iff b k q.id j).mp this
  · rintro h ⟨q, k⟩ he
    obtain ⟨hq, hk⟩ := mem_drop_zipIdx.mp he
    split
    · rename_i j hj
      exact (joinFindings_eq_nil_iff b k q.id j).mpr (h k q j hq hk hj)
    · rfl

/-! ## The join graph -/

theorem exists_root (h : b.IsJoinTree) : ∃ root, b.root? = some root := by
  cases hq : b.queries with
  | nil => exact absurd hq h.queries_ne_nil
  | cons root qs => exact ⟨root, by rw [root?, hq, List.head?_cons]⟩

theorem joinOf?_eq_some_iff {q : Query} {j : Join} :
    b.joinOf? q = some j ↔ (q.id, j) ∈ b.joins.entries := Dict.get?_eq_some_iff _ _ _

theorem exists_joinOf (h : b.IsJoinTree) {q : Query} (hq : q ∈ b.queries.tail) :
    ∃ j, b.joinOf? q = some j := by
  have hid : q.id ∈ b.ids.tail := by rw [ids_tail]; exact List.mem_map_of_mem hq
  obtain ⟨⟨id, j⟩, hm, he⟩ := List.mem_map.mp ((h.keys_iff q.id).mpr hid)
  simp only at he
  subst he
  exact ⟨j, joinOf?_eq_some_iff.mpr hm⟩

theorem isUnconditional_iff (h : b.IsJoinTree) {q : Query} {j : Join} (hj : b.joinOf? q = some j) :
    j.isUnconditional = true ↔ j.kind = .cross := by
  rw [Join.isUnconditional, Bool.or_eq_true, beq_iff_eq, List.isEmpty_iff]
  refine ⟨fun hu => ?_, .inl⟩
  rcases hu with hu | hu
  · exact hu
  · exact Decidable.byContradiction fun hc =>
      h.conditions_ne_nil _ (joinOf?_eq_some_iff.mp hj) hc hu

/-- In a join tree the place of a query is a rank of the join graph. -/
theorem isRank_of_isJoinTree (h : b.IsJoinTree) {root : Query} (hr : b.root? = some root) :
    (JoinGraph.ofBlend b).IsRank b.ids.idxOf := by
  have hidx {id : String} {i : Nat} (hi : b.ids[i]? = some id) : b.ids.idxOf id = i := by
    obtain ⟨hlt, rfl⟩ := List.getElem?_eq_some_iff.mp hi
    exact List.Nodup.idxOf_getElem h.ids_nodup i hlt
  have hroot : b.ids[0]? = some root.id := by
    rw [ids_getElem?, ← List.head?_eq_getElem?]
    simpa [root?] using congrArg (Option.map Query.id) hr
  intro e he
  show b.ids.idxOf e.1 < b.ids.idxOf e.2
  obtain ⟨⟨q, j⟩, hm, htarget, hsource⟩ := (JoinGraph.mem_ofBlend_edges hr e).mp he
  obtain ⟨hq, hj⟩ := JoinGraph.mem_joined.mp hm
  rw [htarget]
  rcases hsource with ⟨-, hsource⟩ | ⟨hu, p, hp, hsource, -⟩
  · obtain ⟨k, hk⟩ := List.getElem?_of_mem hq
    rw [List.getElem?_tail] at hk
    have hk' : b.ids[k + 1]? = some q.id := by rw [ids_getElem?, hk, Option.map_some]
    rw [hsource, hidx hroot, hidx hk']
    exact Nat.succ_pos k
  · have hc : j.kind ≠ .cross := fun hc => by
      rw [(isUnconditional_iff h hj).mpr hc] at hu
      exact absurd hu (by decide)
    obtain ⟨-, -, i, k, hlt, hi, hk⟩ := h.conditions _ (joinOf?_eq_some_iff.mp hj) hc p hp
    rw [← hsource, hidx hi, hidx hk]
    exact hlt

/-- In a join tree there is a way from the root to every query. -/
theorem way_of_isJoinTree (h : b.IsJoinTree) {root : Query} (hr : b.root? = some root) (k : Nat)
    {q : Query} (hq : b.queries[k]? = some q) : (JoinGraph.ofBlend b).Way root.id q.id := by
  induction k using Nat.strongRecOn generalizing q with
  | ind k ih =>
    cases k with
    | zero =>
      rw [root?, List.head?_eq_getElem?, hq] at hr
      cases hr
      exact .here _
    | succ k =>
      have hqt : q ∈ b.queries.tail := by
        rw [← List.getElem?_tail] at hq
        exact List.mem_of_getElem? hq
      obtain ⟨j, hj⟩ := exists_joinOf h hqt
      have hm : (q, j) ∈ b.joined := JoinGraph.mem_joined.mpr ⟨hqt, hj⟩
      by_cases hc : j.kind = .cross
      · refine .step ((JoinGraph.mem_ofBlend_edges hr _).mpr ⟨_, hm, rfl, .inl ⟨?_, rfl⟩⟩) (.here _)
        exact (isUnconditional_iff h hj).mpr hc
      · have he := joinOf?_eq_some_iff.mp hj
        obtain ⟨p, hp⟩ := List.exists_mem_of_ne_nil _ (h.conditions_ne_nil _ he hc)
        obtain ⟨-, -, hbefore⟩ := h.conditions _ he hc p hp
        obtain ⟨i, s, hlt, hs, hsid⟩ := exists_of_precedes h.ids_nodup hq hbefore
        have hway := ih i hlt hs
        rw [hsid] at hway
        have hsource : p.fromQuery ∈ b.ids := hsid ▸ List.mem_map_of_mem (List.mem_of_getElem? hs)
        refine hway.snoc ((JoinGraph.mem_ofBlend_edges hr _).mpr ⟨_, hm, rfl, .inr ⟨?_, p, hp, rfl, ?_⟩⟩)
        · exact Bool.eq_false_iff.mpr fun hu => hc ((isUnconditional_iff h hj).mp hu)
        · exact hsource

/-- The graph pass finds nothing in a join tree: neither a cycle nor a query out of reach. -/
theorem graphFindings_of_isJoinTree (h : b.IsJoinTree) {root : Query} (hr : b.root? = some root) :
    b.graphFindings root = [] := by
  have hp := JoinGraph.ofBlend_proper hr
  have hrank := isRank_of_isJoinTree h hr
  have hn : root.id ∈ (JoinGraph.ofBlend b).nodes := by
    rw [JoinGraph.ofBlend_nodes hr, List.mem_eraseDups]
    exact List.mem_map_of_mem (List.mem_of_head? hr)
  unfold graphFindings
  simp only [JoinGraph.cycleNode?_eq_none hp hrank, List.filterMap_eq_nil_iff]
  rintro ⟨q, j⟩ hm
  obtain ⟨k, hk⟩ := List.getElem?_of_mem (List.mem_of_mem_tail (JoinGraph.mem_joined.mp hm).1)
  rw [if_pos ((JoinGraph.reaches_iff hp hn).mpr (way_of_isJoinTree h hr k hk))]

/-! ## Both directions -/

theorem findings_eq_nil_iff {root : Query} (hr : b.root? = some root) :
    b.findings = [] ↔ b.idFindings = [] ∧ b.invalidAliasFindings = [] ∧
      b.sharedAliasFindings = [] ∧ b.targetFindings root = [] ∧ b.missingJoinFindings = [] ∧
      b.allPredicateFindings = [] ∧ b.graphFindings root = [] := by
  rw [findings, hr]
  simp only [List.append_eq_nil_iff, and_assoc]

/-- The place of a query behind the root is not the first. -/
theorem exists_place_of_mem_tail {id : String} (h : id ∈ b.ids.tail) :
    ∃ k q, b.queries[k + 1]? = some q ∧ q.id = id := by
  rw [ids_tail] at h
  obtain ⟨q, hq, rfl⟩ := List.mem_map.mp h
  obtain ⟨k, hk⟩ := List.getElem?_of_mem hq
  rw [List.getElem?_tail] at hk
  exact ⟨k, q, hk, rfl⟩

theorem isJoinTree_of_findings (h : b.findings = []) : b.IsJoinTree := by
  cases hr : b.root? with
  | none => simp [findings, hr] at h
  | some root =>
    obtain ⟨h1, h2, h3, h4, h5, h6, -⟩ := (findings_eq_nil_iff hr).mp h
    rw [idFindings_eq_nil_iff] at h1
    rw [invalidAliasFindings_eq_nil_iff] at h2
    rw [sharedAliasFindings_eq_nil_iff] at h3
    rw [targetFindings_eq_nil_iff] at h4
    rw [missingJoinFindings_eq_nil_iff] at h5
    rw [allPredicateFindings_eq_nil_iff] at h6
    have hids : b.ids = root.id :: b.ids.tail := by
      rw [ids, root?] at *
      cases hq : b.queries with
      | nil => rw [hq] at hr; cases hr
      | cons q qs => rw [hq] at hr; cases hr; rfl
    have hkeys (id : String) : id ∈ b.joins.keys ↔ id ∈ b.ids.tail := by
      refine ⟨fun hk => ?_, h5 id⟩
      obtain ⟨e, he, rfl⟩ := List.mem_map.mp hk
      obtain ⟨-, hm, hne⟩ := h4 e he
      rw [hids] at hm
      exact (List.mem_cons.mp hm).resolve_left hne
    have hfits (e : String × Join) (he : e ∈ b.joins.entries) :
        ∃ k, b.ids[k]? = some e.1 ∧ b.JoinFits k e.2 := by
      obtain ⟨k, q, hq, hid⟩ := exists_place_of_mem_tail ((hkeys e.1).mp (List.mem_map_of_mem he))
      refine ⟨k + 1, by rw [ids_getElem?, hq, Option.map_some, hid], ?_⟩
      exact h6 (k + 1) q e.2 hq (Nat.succ_pos k) (joinOf?_eq_some_iff.mpr (hid ▸ he))
    refine ⟨?_, h1, h2, h3, hkeys, fun e he => (h4 e he).1, ?_, ?_, ?_⟩
    · intro hq
      simp [root?, hq] at hr
    · intro e he
      obtain ⟨k, hk, hf⟩ := hfits e he
      exact hf.1
    · intro e he
      obtain ⟨k, hk, hf⟩ := hfits e he
      exact hf.2.1
    · intro e he hc p hp
      obtain ⟨k, hk, hf⟩ := hfits e he
      obtain ⟨g1, g2, g3⟩ := hf.2.2 hc p hp
      exact ⟨g1, g2, (precedes_iff_position? h1 hk).mpr g3⟩

theorem findings_of_isJoinTree (h : b.IsJoinTree) : b.findings = [] := by
  obtain ⟨root, hr⟩ := exists_root h
  have hids : b.ids = root.id :: b.ids.tail := by
    rw [ids]
    cases hq : b.queries with
    | nil => exact absurd hq h.queries_ne_nil
    | cons q qs => rw [root?, hq] at hr; cases hr; rfl
  have hroot : root.id ∉ b.ids.tail := by
    have := h.ids_nodup
    rw [hids, List.nodup_cons] at this
    exact this.1
  refine (findings_eq_nil_iff hr).mpr ⟨?_, ?_, ?_, ?_, ?_, ?_, graphFindings_of_isJoinTree h hr⟩
  · exact (idFindings_eq_nil_iff b).mpr h.ids_nodup
  · exact (invalidAliasFindings_eq_nil_iff b).mpr h.names_alias
  · exact (sharedAliasFindings_eq_nil_iff b).mpr h.names_nodup
  · refine (targetFindings_eq_nil_iff b root).mpr fun e he => ?_
    have ht := (h.keys_iff e.1).mp (List.mem_map_of_mem he)
    exact ⟨h.target_eq e he, List.mem_of_mem_tail ht, fun hr' => hroot (hr' ▸ ht)⟩
  · exact (missingJoinFindings_eq_nil_iff b).mpr fun id hid => (h.keys_iff id).mpr hid
  · refine (allPredicateFindings_eq_nil_iff b).mpr fun k q j hq _ hj => ?_
    have he := joinOf?_eq_some_iff.mp hj
    have hk : b.ids[k]? = some q.id := by rw [ids_getElem?, hq, Option.map_some]
    refine ⟨h.cross_bare _ he, h.conditions_ne_nil _ he, fun hc p hp => ?_⟩
    obtain ⟨g1, g2, g3⟩ := h.conditions _ he hc p hp
    exact ⟨g1, g2, (precedes_iff_position? h.ids_nodup hk).mp g3⟩

theorem isJoinTree_of_isValid (h : b.isValid = true) : b.IsJoinTree :=
  isJoinTree_of_findings (List.isEmpty_iff.mp h)

/-- **Validity.** A blend is valid if and only if it is a join tree in the order of its queries. The
cycles and the queries out of reach that the last pass looks for are not in any join tree. -/
theorem isValid_iff_isJoinTree (b : Blend) :
    (b.isValid = true ↔ b.IsJoinTree) ∧
      ∀ root, b.root? = some root → b.IsJoinTree → b.graphFindings root = [] := by
  refine ⟨⟨isJoinTree_of_isValid, fun h => ?_⟩, fun root hr h => graphFindings_of_isJoinTree h hr⟩
  exact List.isEmpty_iff.mpr (findings_of_isJoinTree h)

/-! ## What queries are called -/

/-- With distinct ids a query is called by its own name, whichever of the queries with its id counts. -/
theorem nameOf_eq (h : b.ids.Nodup) {q : Query} (hq : q ∈ b.queries) : b.nameOf q.id = q.name := by
  have hmap : (b.queries.map fun q => (q.id, q.name)).map Prod.fst = b.ids := by
    rw [ids, List.map_map]
    rfl
  have hget : b.names.get? q.id = some q.name := by
    rw [names, Dict.get?_ofList (hmap ▸ h), Dict.look_eq_some_iff (hmap ▸ h)]
    exact List.mem_map.mpr ⟨q, hq, rfl⟩
  rw [nameOf, hget, Option.getD_some]

/-! ## An example -/

/-- Three queries: the second stands beside the first, and the third is joined to both. -/
def trio : Blend where
  queries := [
    { id := "orders", fields := [{ id := "id" }] },
    { id := "days" },
    { id := "q3", givenName := some "users", fields := [{ id := "name" }] }]
  joins := Dict.ofList [
    ("q3", { target := "q3", predicates := [⟨"days", "day", "since"⟩, ⟨"orders", "user", "id"⟩] }),
    ("days", { target := "days", kind := .cross })]

theorem isJoinTree_trio : trio.IsJoinTree where
  queries_ne_nil := List.cons_ne_nil _ _
  ids_nodup := by decide
  names_alias q hq := (isAlias_iff_isAliasText q.name).mp (by revert q; decide)
  names_nodup := by decide
  keys_iff id := by
    have hkeys : trio.joins.keys = ["q3", "days"] := by decide
    have htail : trio.ids.tail = ["days", "q3"] := rfl
    simp [hkeys, htail, or_comm]
  target_eq := by decide
  cross_bare := by decide
  conditions_ne_nil := by decide
  conditions := by decide

theorem isValid_trio : trio.isValid = true :=
  List.isEmpty_iff.mpr (findings_of_isJoinTree isJoinTree_trio)

theorem isValid_iff_isJoinTree_trio :
    trio.isValid = true ∧ trio.graphFindings trio.queries[0] = [] :=
  ⟨(isValid_iff_isJoinTree trio).1.mpr isJoinTree_trio,
    (isValid_iff_isJoinTree trio).2 _ rfl isJoinTree_trio⟩

end Blend
end QueryBlend
