import QueryBlend.Proofs.Statement.ColumnNames
/-!
# Reading the selected columns back

In a dialect that quotes names the `SELECT` clause says which fields of which queries it selects, even if
the ids of fields look like the text around them: an id can have quotes, commas, ` AS ` and ` FROM ` in
it, and the clause still has one reading only.

**A reader.** `readSelection` takes a clause apart without knowing the blend. It trusts two things: an
alias ends at the first dot, and a quoted name ends at the first double quote that stands alone.

* `readQuoted_quote`, `readColumn_shownField`, `readColumns_shownFields`: what a name, a column and a
  list of columns are read back as, with any text behind it that does not go on with them.
* `selection_readable`: the clause of a blend is read back as its columns and its root; so two blends
  with one clause have the same columns, in the same order, and the same root.
-/
namespace QueryBlend
open Text

/-! ## The reader -/

/-- The rest of a quoted name, and what is behind it. -/
def readQuotedRest : List Char → Option (List Char × List Char)
  | '\x22' :: '\x22' :: s => (readQuotedRest s).map fun (name, rest) => ('\x22' :: name, rest)
  | '\x22' :: s => some ([], s)
  | c :: s => (readQuotedRest s).map fun (name, rest) => (c :: name, rest)
  | [] => none

/-- A quoted name, and what is behind it. -/
def readQuoted : List Char → Option (List Char × List Char)
  | '\x22' :: s => readQuotedRest s
  | _ => none

/-- What a clause says of a column: the alias of the query, the id of the field, and the name that the
column gets. -/
structure SelectedColumn where
  query : List Char
  field : List Char
  name : List Char
  deriving DecidableEq, Repr

/-- A column as it is selected, and what is behind it. -/
def readColumn (s : List Char) : Option (SelectedColumn × List Char) := do
  let behindDot ← behind? ['.'] (s.dropWhile (· != '.'))
  let (field, behindField) ← readQuoted behindDot
  let named ← behind? " AS ".toList behindField
  let (name, rest) ← readQuoted named
  return (⟨s.takeWhile (· != '.'), field, name⟩, rest)

theorem readQuotedRest_length {s name rest : List Char}
    (h : readQuotedRest s = some (name, rest)) : rest.length < s.length := by
  induction s using readQuotedRest.induct generalizing name rest with
  | case1 s ih =>
    simp only [readQuotedRest, Option.map_eq_some_iff, Prod.mk.injEq] at h
    obtain ⟨⟨name', rest'⟩, hr, -, rfl⟩ := h
    have := ih hr
    simp only [List.length_cons]
    omega
  | case2 s hs =>
    simp only [readQuotedRest, Option.some.injEq, Prod.mk.injEq] at h
    obtain ⟨-, rfl⟩ := h
    simp
  | case3 c s hc hs ih =>
    simp only [readQuotedRest, Option.map_eq_some_iff, Prod.mk.injEq] at h
    obtain ⟨⟨name', rest'⟩, hr, -, rfl⟩ := h
    have := ih hr
    simp only [List.length_cons]
    omega
  | case4 => simp [readQuotedRest] at h

theorem readQuoted_length {s name rest : List Char} (h : readQuoted s = some (name, rest)) :
    rest.length < s.length := by
  unfold readQuoted at h
  split at h
  · have := readQuotedRest_length h
    simp only [List.length_cons]
    omega
  · cases h

theorem behind?_length {w s rest : List Char} (h : behind? w s = some rest) :
    rest.length ≤ s.length := by
  rw [behind?_eq_some_iff] at h
  simp [h]

theorem readColumn_length {s rest : List Char} {c : SelectedColumn}
    (h : readColumn s = some (c, rest)) : rest.length < s.length := by
  simp only [readColumn, Option.bind_eq_bind, Option.bind_eq_some_iff, Option.pure_def,
    Option.some.injEq, Prod.mk.injEq, Prod.exists] at h
  obtain ⟨t, ht, field, u, hu, v, hv, name, r, hr, -, rfl⟩ := h
  have h1 := behind?_length ht
  have h2 := readQuoted_length hu
  have h3 := behind?_length hv
  have h4 := readQuoted_length hr
  have h5 := (List.dropWhile_suffix (l := s) (· != '.')).length_le
  omega

/-- Columns with commas between them, at least one, and what is behind the last one. -/
def readColumns (s : List Char) : Option (List SelectedColumn × List Char) :=
  match _hc : readColumn s with
  | none => none
  | some (c, rest) =>
    match _hr : behind? ", ".toList rest with
    | none => some ([c], rest)
    | some next => (readColumns next).map fun (cs, rest) => (c :: cs, rest)
termination_by s.length
decreasing_by
  have h1 := readColumn_length _hc
  have h2 := behind?_length _hr
  omega

theorem readColumns_last {s rest : List Char} {c : SelectedColumn}
    (hc : readColumn s = some (c, rest)) (hr : behind? ", ".toList rest = none) :
    readColumns s = some ([c], rest) := by
  rw [readColumns]
  split <;> simp_all
  split <;> simp_all

theorem readColumns_next {s rest next : List Char} {c : SelectedColumn}
    (hc : readColumn s = some (c, rest)) (hr : behind? ", ".toList rest = some next) :
    readColumns s = (readColumns next).map fun (cs, rest) => (c :: cs, rest) := by
  rw [readColumns]
  split <;> simp_all
  split <;> simp_all

/-- The columns and the root of a `SELECT` clause; no columns where it selects everything. -/
def readSelection (s : List Char) : Option (List SelectedColumn × List Char) := do
  let selected ← behind? "SELECT ".toList s
  match behind? "* FROM ".toList selected with
  | some root => return ([], root)
  | none =>
    let (columns, rest) ← readColumns selected
    let root ← behind? " FROM ".toList rest
    return (columns, root)

/-! ## What is read back -/

theorem readQuotedRest_doubleQuotes (s : List Char) {rest : List Char}
    (h : rest.head? ≠ some '\x22') :
    readQuotedRest (doubleQuotes s ++ '\x22' :: rest) = some (s, rest) := by
  induction s with
  | nil =>
    cases rest with
    | nil => rfl
    | cons c rest =>
      have hc : c ≠ '\x22' := by simpa using h
      simp [doubleQuotes, readQuotedRest, hc]
  | cons c s ih =>
    by_cases hc : c = '\x22'
    · simp [doubleQuotes, readQuotedRest, hc, ih]
    · simp [doubleQuotes, readQuotedRest, hc, ih]

theorem readQuoted_quote (s rest : List Char) (h : rest.head? ≠ some '\x22') :
    readQuoted (quote s ++ rest) = some (s, rest) := by
  simp [quote, readQuoted, readQuotedRest_doubleQuotes s h]

theorem behind?_append (w s : List Char) : behind? w (w ++ s) = some s :=
  (behind?_eq_some_iff w _ s).mpr rfl

/-- What is read back of a field of a query. -/
def selectedColumn (query field : List Char) : SelectedColumn :=
  ⟨query, field, query ++ '.' :: field⟩

/-- A field of a query as it is selected, under the name of its column. -/
def shownField (query field : List Char) : List Char :=
  Naming.quoted.getter query field ++ " AS ".toList ++ Naming.quoted.column query field

theorem readColumn_shownField {query : List Char} (hq : '.' ∉ query) (field : List Char)
    {rest : List Char} (h : rest.head? ≠ some '\x22') :
    readColumn (shownField query field ++ rest) = some (selectedColumn query field, rest) := by
  have hall : query.all (· != '.') = true := by
    rw [List.all_eq_true]
    intro c hc
    exact bne_iff_ne.mpr fun he => hq (he ▸ hc)
  have hstop (t : List Char) : Stops (· != '.') ('.' :: t) := stops_cons (by decide) t
  have htext : shownField query field ++ rest = query ++ '.' :: (quote field ++ (" AS ".toList ++
      (quote (query ++ '.' :: field) ++ rest))) := by
    simp [shownField, Naming.getter, Naming.column]
  have hdot (t : List Char) : behind? ['.'] ('.' :: t) = some t := behind?_append ['.'] t
  have hfield := readQuoted_quote field (" AS ".toList ++ (quote (query ++ '.' :: field) ++ rest))
    (by simp)
  rw [htext, readColumn, dropWhile_stop hall (hstop _), takeWhile_stop hall (hstop _), hdot]
  simp only [Option.bind_eq_bind, Option.bind_some, hfield, behind?_append,
    readQuoted_quote (query ++ '.' :: field) rest h]
  rfl

theorem readColumns_shownFields {es : List (List Char × List Char)} (hne : es ≠ [])
    (hes : ∀ e ∈ es, '.' ∉ e.1) {rest : List Char} (h : rest.head? ≠ some '\x22')
    (hend : behind? ", ".toList rest = none) :
    readColumns (joinWith ", ".toList (es.map fun e => shownField e.1 e.2) ++ rest) =
      some (es.map fun e => selectedColumn e.1 e.2, rest) := by
  induction es with
  | nil => exact absurd rfl hne
  | cons e es ih =>
    have he := hes e List.mem_cons_self
    cases es with
    | nil =>
      exact readColumns_last (readColumn_shownField he e.2 h) hend
    | cons e' es =>
      have hrest := ih (by simp) fun x hx => hes x (List.mem_cons_of_mem _ hx)
      have hcomma (t : List Char) : (", ".toList ++ t).head? ≠ some '\x22' := by simp
      have hfirst := readColumn_shownField he e.2 (hcomma
        (joinWith ", ".toList ((e' :: es).map fun e => shownField e.1 e.2) ++ rest))
      rw [List.map_cons, joinWith_cons _ _ (by simp), List.append_assoc, List.append_assoc,
        readColumns_next hfirst (behind?_append _ _), hrest]
      rfl

def Column.selected (c : Column) : SelectedColumn :=
  selectedColumn c.queryName.toList c.fieldId.toList

namespace Blend

variable {b b' : Blend}

def aliasedFields (b : Blend) (n : Naming) : List (List Char × List Char) :=
  (b.columns n).map fun c => (c.queryName.toList, c.fieldId.toList)

theorem exists_of_mem_columns {n : Naming} {c : Column} (h : c ∈ b.columns n) :
    ∃ q ∈ b.queries, ∃ f ∈ q.fields, c = columnOf n q f := by
  obtain ⟨q, hq, hc⟩ := List.mem_flatMap.mp h
  obtain ⟨f, hf, rfl⟩ := List.mem_map.mp hc
  exact ⟨q, hq, f, hf, rfl⟩

theorem mem_aliasedFields (h : ∀ q ∈ b.queries, IsAliasText q.name.toList) {n : Naming}
    {e : List Char × List Char} (he : e ∈ b.aliasedFields n) : IsAliasText e.1 := by
  obtain ⟨c, hc, rfl⟩ := List.mem_map.mp he
  obtain ⟨q, hq, f, -, rfl⟩ := exists_of_mem_columns hc
  exact h q hq

theorem map_projection (b : Blend) : (b.columns .quoted).map (projection .quoted) =
    (b.aliasedFields .quoted).map fun e => shownField e.1 e.2 := by
  rw [aliasedFields, List.map_map]
  refine List.map_congr_left fun c hc => ?_
  obtain ⟨q, -, f, -, rfl⟩ := exists_of_mem_columns hc
  rfl

theorem map_selected (b : Blend) (n : Naming) : (b.columns n).map Column.selected =
    (b.aliasedFields n).map fun e => selectedColumn e.1 e.2 := by
  rw [aliasedFields, List.map_map]
  rfl

/-- A list of columns starts with an alias, so it is not taken for a star. -/
theorem behind?_star_columns {es : List (List Char × List Char)} (hne : es ≠ [])
    (hes : ∀ e ∈ es, IsAliasText e.1) (rest : List Char) :
    behind? "* FROM ".toList (joinWith ", ".toList (es.map fun e => shownField e.1 e.2) ++ rest) =
      none := by
  cases es with
  | nil => exact absurd rfl hne
  | cons e es =>
    obtain ⟨c, cs, hc, hsmall, -⟩ := hes e List.mem_cons_self
    have hstar : '*' ≠ c := by
      rintro rfl
      revert hsmall
      decide
    have hfront : ∃ t, joinWith ", ".toList ((e :: es).map fun e => shownField e.1 e.2) = c :: t := by
      cases es <;> simp [joinWith, shownField, Naming.getter, hc]
    obtain ⟨t, ht⟩ := hfront
    rw [ht]
    simp [behind?, hstar]

/-- The clause of a blend is read back as its columns and its root. -/
theorem readSelection_selection (h : ∀ q ∈ b.queries, IsAliasText q.name.toList) :
    readSelection (b.selection .quoted) =
      some ((b.columns .quoted).map Column.selected, b.rootName) := by
  have hes : ∀ e ∈ b.aliasedFields .quoted, IsAliasText e.1 := fun e he => mem_aliasedFields h he
  have htext : b.selection .quoted = "SELECT ".toList ++
      (projections .quoted (b.columns .quoted) ++ (" FROM ".toList ++ b.rootName)) := by
    unfold selection
    simp only [List.append_assoc]
  rw [htext, readSelection, behind?_append, map_selected]
  by_cases hne : b.aliasedFields .quoted = []
  · have hnil : b.columns .quoted = [] := List.map_eq_nil_iff.mp hne
    have hstar : projections .quoted (b.columns .quoted) ++ (" FROM ".toList ++ b.rootName) =
        "* FROM ".toList ++ b.rootName := by
      simp [projections, hnil]
    rw [hstar, hne]
    simp only [Option.bind_eq_bind, Option.bind_some, behind?_append]
    rfl
  · have hcolumns : (b.columns .quoted).isEmpty = false := by
      rw [List.isEmpty_eq_false_iff]
      exact fun hnil => hne (by rw [aliasedFields, hnil, List.map_nil])
    have hlist : projections .quoted (b.columns .quoted) =
        joinWith ", ".toList ((b.aliasedFields .quoted).map fun e => shownField e.1 e.2) := by
      simp [projections, hcolumns, map_projection]
    have hend : behind? ", ".toList (" FROM ".toList ++ b.rootName) = none := if_neg (by decide)
    have hquote : (" FROM ".toList ++ b.rootName).head? ≠ some '\x22' := by simp
    have hread := readColumns_shownFields hne (fun e he => dot_not_mem_alias (hes e he)) hquote hend
    rw [hlist]
    simp only [Option.bind_eq_bind, Option.bind_some, behind?_star_columns hne hes, hread,
      behind?_append]
    rfl

/-- The name of the root tells the root's alias, also where there is none. -/
theorem root_name_inj (h : ∀ q ∈ b.queries, IsAliasText q.name.toList)
    (h' : ∀ q ∈ b'.queries, IsAliasText q.name.toList) (he : b.rootName = b'.rootName) :
    b.root?.map Query.name = b'.root?.map Query.name := by
  have hne {a : Blend} (ha : ∀ q ∈ a.queries, IsAliasText q.name.toList) {q : Query}
      (hq : a.root? = some q) : q.name.toList ≠ [] := by
    obtain ⟨c, cs, hc, -⟩ := ha q (List.mem_of_head? hq)
    rw [hc]
    exact List.cons_ne_nil c cs
  unfold rootName at he
  cases hr : b.root? with
  | none =>
    cases hr' : b'.root? with
    | none => rfl
    | some q' =>
      rw [hr, hr'] at he
      exact absurd he.symm (hne h' hr')
  | some q =>
    cases hr' : b'.root? with
    | none =>
      rw [hr, hr'] at he
      exact absurd he (hne h hr)
    | some q' =>
      rw [hr, hr'] at he
      exact congrArg some (String.toList_inj.mp he)

/-- **Reading back.** Where names are quoted and the queries are called by aliases, the clause of a
blend is read back as its columns and its root, whatever the ids of the fields; each name of a column
is read back as the alias and the field id with a dot between them; and blends with one clause have the
same aliases and fields, in the same order, and the same root. -/
theorem selection_readable {d : Dialect} (hd : d.naming = .quoted)
    (h : ∀ q ∈ b.queries, IsAliasText q.name.toList)
    (h' : ∀ q ∈ b'.queries, IsAliasText q.name.toList) :
    readSelection (b.selection d.naming) =
        some ((b.columns d.naming).map Column.selected, b.rootName) ∧
      (∀ c ∈ b.columns d.naming,
        readQuoted c.name = some (c.queryName.toList ++ '.' :: c.fieldId.toList, [])) ∧
      (b.selection d.naming = b'.selection d.naming →
        (b.columns d.naming).map (fun c => (c.queryName, c.fieldId)) =
            (b'.columns d.naming).map (fun c => (c.queryName, c.fieldId)) ∧
          b.root?.map Query.name = b'.root?.map Query.name) := by
  rw [hd]
  refine ⟨readSelection_selection h, fun c hc => ?_, fun he => ?_⟩
  · obtain ⟨q, -, f, -, rfl⟩ := exists_of_mem_columns hc
    have hread := readQuoted_quote (q.name.toList ++ '.' :: f.id.toList) [] (by simp)
    rwa [List.append_nil] at hread
  · have hread := congrArg readSelection he
    rw [readSelection_selection h, readSelection_selection h'] at hread
    simp only [Option.some.injEq, Prod.mk.injEq] at hread
    refine ⟨?_, root_name_inj h h' hread.2⟩
    have hpairs := congrArg (List.map fun s : SelectedColumn =>
      (String.ofList s.query, String.ofList s.field)) hread.1
    simpa [Column.selected, selectedColumn, Function.comp_def] using hpairs

/-- The id of a field that looks like the end of its own column, another column and the root. -/
def forgingId : String := "x\" AS \"a.x\", b.\"y\" AS \"b.y\" FROM c\n--"

/-- A blend with this field, a field without an id and one whose id is a double quote. -/
def forged : Blend where
  queries := [
    { id := "a", fields := [{ id := forgingId }, { id := "" }] },
    { id := "2", givenName := some "b", fields := [{ id := "\"" }] }]

/-- Another blend with the same columns. -/
def relabeled : Blend where
  queries := [
    { id := "a", fields := [{ id := forgingId, label := "X" }] },
    { id := "1", givenName := some "a", fields := [{ id := "", role := .measure }] },
    { id := "b", fields := [{ id := "\"" }], respectLimit := true }]

theorem selection_readable_forged :
    (readSelection (forged.selection .quoted)).map (fun r => r.1.length) = some 3 ∧
      (forged.columns .quoted).map (fun c => (c.queryName, c.fieldId)) =
        (relabeled.columns .quoted).map (fun c => (c.queryName, c.fieldId)) := by
  have h : ∀ q ∈ forged.queries, IsAliasText q.name.toList := fun q hq =>
    (isAlias_iff_isAliasText q.name).mp (by revert q; decide)
  have h' : ∀ q ∈ relabeled.queries, IsAliasText q.name.toList := fun q hq =>
    (isAlias_iff_isAliasText q.name).mp (by revert q; decide)
  obtain ⟨hread, -, heq⟩ := selection_readable (d := .snowflake) rfl h h'
  refine ⟨?_, (heq (by decide +kernel)).1⟩
  have hread' : readSelection (forged.selection .quoted) =
      some ((forged.columns .quoted).map Column.selected, forged.rootName) := hread
  rw [hread']
  rfl

end Blend
end QueryBlend
