import QueryBlend.Proofs.JoinTree
import QueryBlend.Proofs.Text.Forms
import QueryBlend.Statement
import Mathlib.Data.List.Nodup
import Mathlib.Data.List.Pairwise
/-!
# Whether the columns of a blend can be told apart

The name of a column is made of the name of its query and the id of its field. An alias has no dot, so
the first dot of a quoted name ends the alias, and the name says both (`column_quoted_inj`). A flattened
name has an underscore there, which both parts may have as well: `a` and `b_c` give the same name as
`a_b` and `c`, and `v.x` gives the same as `v_x`.

**Clashes.** `column_flattened_eq_iff` lists the ways in which two flattened names are equal, and
`FlattensApart` is what a blend has to be like so that none of them comes up.

* `columns_distinct_iff`: in a valid blend whose queries show no field twice, all columns have different
  names, unless names are flattened and the blend does not flatten apart.
* `columns_clash`: there is such a blend.
-/
namespace QueryBlend
open Text

/-! ## Names -/

theorem dot_not_mem_alias {s : List Char} (h : IsAliasText s) : '.' ∉ s := by
  obtain ⟨c, cs, rfl, hc, hcs⟩ := h
  intro hm
  rcases List.mem_cons.mp hm with rfl | hm
  · revert hc
    decide
  · rcases hcs _ hm with h | h | h <;> revert h <;> decide

/-- The first dot of a text tells what stands in front of it. -/
theorem append_dot_inj {a a' x x' : List Char} (ha : '.' ∉ a) (ha' : '.' ∉ a')
    (h : a ++ '.' :: x = a' ++ '.' :: x') : a = a' ∧ x = x' := by
  have hall {s : List Char} (hs : '.' ∉ s) : s.all (· != '.') = true := by
    rw [List.all_eq_true]
    intro c hc
    exact bne_iff_ne.mpr fun he => hs (he ▸ hc)
  have hstop (t : List Char) : Stops (· != '.') ('.' :: t) := stops_cons (by decide) t
  have heq : a = a' := by
    have := congrArg (List.takeWhile (· != '.')) h
    rwa [takeWhile_stop (hall ha) (hstop x), takeWhile_stop (hall ha') (hstop x')] at this
  subst heq
  simpa using h

theorem column_quoted_inj {a a' x x' : List Char} (ha : '.' ∉ a) (ha' : '.' ∉ a')
    (h : Naming.quoted.column a x = Naming.quoted.column a' x') : a = a' ∧ x = x' :=
  append_dot_inj ha ha' (quote_injective h)

/-- Two flattened names are equal if the queries are the same and the fields differ in dots and
underscores only, or if the name of one query takes a part of the other's field. -/
theorem column_flattened_eq_iff (a a' x x' : List Char) :
    Naming.flattened.column a x = Naming.flattened.column a' x' ↔
      (a = a' ∧ flatten x = flatten x') ∨
      (∃ mid, a' = a ++ '_' :: mid ∧ flatten x = mid ++ '_' :: flatten x') ∨
      (∃ mid, a = a' ++ '_' :: mid ∧ flatten x' = mid ++ '_' :: flatten x) := by
  show a ++ '_' :: flatten x = a' ++ '_' :: flatten x' ↔ _
  constructor
  · intro h
    rcases List.append_eq_append_iff.mp h with ⟨t, rfl, ht⟩ | ⟨t, rfl, ht⟩
    · cases t with
      | nil => exact .inl ⟨(List.append_nil a).symm, by simpa using ht⟩
      | cons c t =>
        obtain ⟨rfl, hx⟩ := List.cons.inj ht
        exact .inr (.inl ⟨t, rfl, hx⟩)
    · cases t with
      | nil => exact .inl ⟨List.append_nil a', by simpa using ht.symm⟩
      | cons c t =>
        obtain ⟨rfl, hx⟩ := List.cons.inj ht
        exact .inr (.inr ⟨t, rfl, hx⟩)
  · rintro (⟨rfl, h⟩ | ⟨mid, rfl, h⟩ | ⟨mid, rfl, h⟩) <;> simp [h]

namespace Blend

/-- No two fields of the blend get the same flattened name. -/
structure FlattensApart (b : Blend) : Prop where
  /-- Fields of one query differ in more than dots and underscores. -/
  inside : ∀ q ∈ b.queries, (q.fields.map fun f => flatten f.id.toList).Nodup
  /-- Where the name of one query goes on behind the name of another one, no field of the other one
  starts with what it goes on with and goes on with a field of the first one. -/
  across : ∀ q ∈ b.queries, ∀ q' ∈ b.queries, ∀ mid, q'.name.toList = q.name.toList ++ '_' :: mid →
    ∀ f ∈ q.fields, ∀ f' ∈ q'.fields, flatten f.id.toList ≠ mid ++ '_' :: flatten f'.id.toList

def columnNames (n : Naming) (q : Query) : List (List Char) :=
  q.fields.map fun f => n.column q.name.toList f.id.toList

variable {b : Blend}

/-! ## All columns -/

/-- Columns have different names if those of each query have, and those of different queries. -/
theorem nodup_columns_iff (h : (b.queries.map Query.name).Nodup) (n : Naming) :
    ((b.columns n).map Column.name).Nodup ↔
      (∀ q ∈ b.queries, (columnNames n q).Nodup) ∧
      ∀ q ∈ b.queries, ∀ q' ∈ b.queries, q ≠ q' → (columnNames n q).Disjoint (columnNames n q') := by
  rw [columns_map_name]
  show (b.queries.flatMap (columnNames n)).Nodup ↔ _
  rw [List.nodup_flatMap]
  have hnodup : b.queries.Pairwise (· ≠ ·) := List.Nodup.of_map _ h
  refine and_congr_right fun _ => ⟨fun hp q hq q' hq' hne => ?_, fun hp => ?_⟩
  · have : Std.Symm (Function.onFun List.Disjoint (columnNames n)) :=
      ⟨fun _ _ hd => List.disjoint_symm hd⟩
    exact hp.forall hq hq' hne
  · exact hnodup.imp_of_mem fun hq hq' hne => hp _ hq _ hq' hne

theorem name_inj (h : (b.queries.map Query.name).Nodup) {q q' : Query} (hq : q ∈ b.queries)
    (hq' : q' ∈ b.queries) (he : q.name.toList = q'.name.toList) : q = q' :=
  List.inj_on_of_nodup_map h hq hq' (String.toList_inj.mp he)

theorem nodup_columns_quoted (h : b.IsJoinTree)
    (hf : ∀ q ∈ b.queries, (q.fields.map Field.id).Nodup) :
    ((b.columns .quoted).map Column.name).Nodup := by
  refine (nodup_columns_iff h.names_nodup .quoted).mpr ⟨fun q hq => ?_, fun q hq q' hq' hne => ?_⟩
  · have hdot := dot_not_mem_alias (h.names_alias q hq)
    have hmap : columnNames .quoted q =
        (q.fields.map Field.id).map fun id => Naming.quoted.column q.name.toList id.toList := by
      simp [columnNames]
    rw [hmap]
    refine (hf q hq).map fun id id' he => ?_
    exact String.toList_inj.mp (column_quoted_inj hdot hdot he).2
  · intro name hm hm'
    obtain ⟨f, -, rfl⟩ := List.mem_map.mp hm
    obtain ⟨f', -, he⟩ := List.mem_map.mp hm'
    have hname := column_quoted_inj (dot_not_mem_alias (h.names_alias q' hq'))
      (dot_not_mem_alias (h.names_alias q hq)) he
    exact hne (name_inj h.names_nodup hq hq' hname.1.symm)

theorem nodup_columns_flattened_iff (h : b.IsJoinTree) :
    ((b.columns .flattened).map Column.name).Nodup ↔ b.FlattensApart := by
  have hinside (q : Query) : (columnNames .flattened q).Nodup ↔
      (q.fields.map fun f => flatten f.id.toList).Nodup := by
    have hmap : columnNames .flattened q =
        (q.fields.map fun f => flatten f.id.toList).map (q.name.toList ++ '_' :: ·) := by
      simp [columnNames, Naming.column]
    rw [hmap, List.nodup_map_iff]
    intro x x' he
    simpa using he
  rw [nodup_columns_iff h.names_nodup]
  constructor
  · rintro ⟨hin, hout⟩
    refine ⟨fun q hq => (hinside q).mp (hin q hq), fun q hq q' hq' mid hmid f hf f' hf' he => ?_⟩
    have hne : q ≠ q' := by
      rintro rfl
      have := congrArg List.length hmid
      simp at this
    refine hout q hq q' hq' hne (List.mem_map_of_mem hf) ?_
    rw [(column_flattened_eq_iff _ _ _ _).mpr (.inr (.inl ⟨mid, hmid, he⟩))]
    exact List.mem_map_of_mem hf'
  · intro ha
    refine ⟨fun q hq => (hinside q).mpr (ha.inside q hq), fun q hq q' hq' hne name hm hm' => ?_⟩
    obtain ⟨f, hf, rfl⟩ := List.mem_map.mp hm
    obtain ⟨f', hf', he⟩ := List.mem_map.mp hm'
    rcases (column_flattened_eq_iff _ _ _ _).mp he with ⟨hn, -⟩ | ⟨mid, hmid, hx⟩ | ⟨mid, hmid, hx⟩
    · exact hne (name_inj h.names_nodup hq hq' hn.symm)
    · exact ha.across q' hq' q hq mid hmid f' hf' f hf hx
    · exact ha.across q hq q' hq' mid hmid f hf f' hf' hx

/-- **Columns.** In a valid blend whose queries show no field twice all columns have different names,
in every dialect that quotes names; and in a dialect that flattens them if and only if the blend
flattens apart. -/
theorem columns_distinct_iff (hv : b.isValid = true)
    (hf : ∀ q ∈ b.queries, (q.fields.map Field.id).Nodup) (d : Dialect) :
    ((b.columns d.naming).map Column.name).Nodup ↔ (d.naming = .flattened → b.FlattensApart) := by
  have h := isJoinTree_of_isValid hv
  cases hd : d.naming with
  | flattened => simp [nodup_columns_flattened_iff h]
  | quoted => simp [nodup_columns_quoted h hf]

/-- The name of the second query takes a part of a field of the first one. -/
def clash : Blend where
  queries := [
    { id := "a", fields := [{ id := "b_c" }, { id := "v.x" }] },
    { id := "a_b", fields := [{ id := "c" }] }]
  joins := Dict.ofList [("a_b", { target := "a_b", kind := .cross })]

theorem isJoinTree_clash : clash.IsJoinTree where
  queries_ne_nil := List.cons_ne_nil _ _
  ids_nodup := by decide
  names_alias q hq := (isAlias_iff_isAliasText q.name).mp (by revert q; decide)
  names_nodup := by decide
  keys_iff id := by
    have hkeys : clash.joins.keys = ["a_b"] := by decide
    have htail : clash.ids.tail = ["a_b"] := rfl
    rw [hkeys, htail]
  target_eq := by decide
  cross_bare := by decide
  conditions_ne_nil := by decide
  conditions := by decide

theorem isValid_clash : clash.isValid = true :=
  List.isEmpty_iff.mpr (findings_of_isJoinTree isJoinTree_clash)

theorem columns_distinct_clash :
    ((clash.columns .quoted).map Column.name).Nodup ∧ ¬ clash.FlattensApart := by
  have hf : ∀ q ∈ clash.queries, (q.fields.map Field.id).Nodup := by decide
  refine ⟨(columns_distinct_iff isValid_clash hf .duckDb).mpr nofun, fun ha => ?_⟩
  have h := (columns_distinct_iff isValid_clash hf .bigQuery).mpr fun _ => ha
  revert h
  decide

/-- Valid blends whose queries show no field twice can have two columns of one name. -/
theorem columns_clash : ¬ ∀ (b : Blend) (d : Dialect), b.isValid = true →
    (∀ q ∈ b.queries, (q.fields.map Field.id).Nodup) →
      ((b.columns d.naming).map Column.name).Nodup := by
  intro h
  have hclash := h clash .bigQuery isValid_clash (by decide)
  revert hclash
  decide

end Blend
end QueryBlend
