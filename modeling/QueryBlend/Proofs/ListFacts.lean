import Mathlib.Data.List.Infix
/-!
# Facts about lists

What the proofs use of lists of whatever kind: texts, lines, nodes, names, projections.

* **Cuts.** A list that is put together from two parts is cut somewhere else, too: one of the cuts comes
  first (`append_eq_append_cases`, `suffix_append_cases`, `exists_of_suffix_of_length_le`).
* **Places.** What is at a place has a front and a rest (`exists_cut`), and so has the first place of a kind
  (`findIdx?_first`, `exists_cut_of_findIdx?`).
* **Pieces.** What a list is split at is in none of the pieces, and nothing new is (`mem_of_mem_splitOn`).
* **Members.** What stays when members are dropped or exchanged (`nodup_eraseDups`, `perm_exchange`).
-/
namespace QueryBlend

variable {α : Type}

/-! ## Cuts -/

/-- A list that is cut at two places is cut at the one and then at the other. -/
theorem append_eq_append_cases {a b s t : List α} (h : a ++ b = s ++ t) :
    (∃ u, s = a ++ u ∧ b = u ++ t) ∨ ∃ u, a = s ++ u ∧ t = u ++ b ∧ u ≠ [] := by
  rcases List.append_eq_append_iff.mp h with h | ⟨u, ha, ht⟩
  · exact .inl h
  · by_cases hu : u = []
    · subst hu
      exact .inl ⟨[], by simpa using ha.symm, by simpa using ht.symm⟩
    · exact .inr ⟨u, ha, ht, hu⟩

/-- What ends a join ends its second part or reaches into the first. -/
theorem suffix_append_cases {x s t : List α} (h : x <:+ s ++ t) :
    x <:+ t ∨ ∃ y, x = y ++ t ∧ y ≠ [] ∧ y <:+ s := by
  obtain ⟨u, hu⟩ := h
  obtain ⟨y, hs, ht⟩ | ⟨y, -, ht, -⟩ := append_eq_append_cases hu
  · by_cases hy : y = []
    · subst hy
      exact .inl ⟨[], ht⟩
    · exact .inr ⟨y, ht, hy, ⟨u, hs.symm⟩⟩
  · exact .inl ⟨y, ht.symm⟩

/-- What is no shorter than the second part of a join and ends it ends with that part. -/
theorem exists_of_suffix_of_length_le {a b t : List α} (h : t <:+ a ++ b)
    (hl : b.length ≤ t.length) : ∃ u v, a = u ++ v ∧ t = v ++ b := by
  obtain ⟨u, hu⟩ := h
  obtain ⟨v, rfl, ht⟩ | ⟨v, -, hb, hv⟩ := append_eq_append_cases hu
  · exact ⟨u, v, rfl, ht⟩
  · have hpos := List.length_pos_of_ne_nil hv
    rw [hb, List.length_append] at hl
    omega

/-! ## Places -/

theorem exists_cut {l : List α} {i : Nat} (h : i < l.length) :
    ∃ a x b, l = a ++ x :: b ∧ i = a.length :=
  ⟨l.take i, l[i], l.drop (i + 1), by rw [← List.drop_eq_getElem_cons h, List.take_append_drop],
    (List.length_take_of_le (Nat.le_of_lt h)).symm⟩

theorem findIdx?_first {f : α → Bool} {a : List α} {x : α} (b : List α)
    (ha : ∀ y ∈ a, f y = false) (hx : f x = true) : (a ++ x :: b).findIdx? f = some a.length := by
  rw [List.findIdx?_append, List.findIdx?_eq_none_iff.mpr ha, Option.none_or, List.findIdx?_cons, hx]
  simp

theorem exists_cut_of_findIdx? {f : α → Bool} {l : List α} {i : Nat} (h : l.findIdx? f = some i) :
    ∃ a x b, l = a ++ x :: b ∧ i = a.length ∧ f x = true ∧ ∀ y ∈ a, f y = false := by
  obtain ⟨hlt, hx, hbefore⟩ := List.findIdx?_eq_some_iff_getElem.mp h
  obtain ⟨a, x, b, rfl, rfl⟩ := exists_cut hlt
  rw [List.getElem_append_right (Nat.le_refl _)] at hx
  refine ⟨a, x, b, rfl, rfl, by simpa using hx, fun y hy => ?_⟩
  obtain ⟨j, hj, rfl⟩ := List.getElem_of_mem hy
  have hfalse := hbefore j hj
  rwa [List.getElem_append_left hj, Bool.not_eq_true] at hfalse

/-! ## Pieces -/

theorem mem_of_mem_splitOn [BEq α] [LawfulBEq α] {a c : α} {l piece : List α} (h : piece ∈ l.splitOn a)
    (hc : c ∈ piece) : c ≠ a ∧ c ∈ l := by
  induction l generalizing piece with
  | nil =>
    rw [List.splitOn_nil, List.mem_singleton] at h
    rw [h] at hc
    cases hc
  | cons d l ih =>
    have htail (h : c ≠ a ∧ c ∈ l) : c ≠ a ∧ c ∈ d :: l := ⟨h.1, List.mem_cons_of_mem d h.2⟩
    rw [List.splitOn_cons_eq_if_modifyHead] at h
    split at h
    · rcases List.mem_cons.mp h with rfl | h
      · cases hc
      · exact htail (ih h hc)
    · next hd =>
      -- the first piece has one more member, and it is the first of the list
      obtain ⟨first, rest, hs⟩ := List.exists_cons_of_ne_nil (List.splitOn_ne_nil a l)
      rw [hs, List.modifyHead_cons] at h
      rw [hs] at ih
      rcases List.mem_cons.mp h with rfl | h
      · rcases List.mem_cons.mp hc with rfl | hc
        · exact ⟨fun he => hd (by simp [he]), List.mem_cons_self⟩
        · exact htail (ih List.mem_cons_self hc)
      · exact htail (ih (List.mem_cons_of_mem _ h) hc)

/-! ## Members -/

theorem nodup_eraseDups [BEq α] [LawfulBEq α] (l : List α) : l.eraseDups.Nodup := by
  match l with
  | [] => exact List.nodup_nil
  | a :: l =>
    rw [List.eraseDups_cons, List.nodup_cons]
    refine ⟨?_, nodup_eraseDups _⟩
    intro h
    have := (List.mem_filter.mp (List.mem_eraseDups.mp h)).2
    simp at this
termination_by l.length
decreasing_by exact Nat.lt_succ_of_le (List.length_filter_le _ _)

theorem perm_exchange (a b c : List α) (x y : α) :
    (a ++ x :: (b ++ y :: c)).Perm (a ++ y :: (b ++ x :: c)) := by
  have hfront : (x :: (b ++ y :: c)).Perm (x :: y :: (b ++ c)) := List.perm_middle.cons x
  have hback : (y :: x :: (b ++ c)).Perm (y :: (b ++ x :: c)) := List.perm_middle.symm.cons y
  exact List.Perm.append_left a (hfront.trans ((List.Perm.swap y x _).trans hback))

end QueryBlend
