import QueryBlend.Proofs.Pivot.Projections
/-!
# The lines of an exchange

What `rowFirst` does to the lines of a text, whatever they are: they need not be those of a list of projections,
names may be projected by several of them, and one line may be found under both names.

**Lines.** A line that is found under a name ends in a double quote, but for a comma and blanks
(`getLast?_of_projects`). So a line that takes its body keeps its own comma, and is found under the same names
(`withBodyOf_of_projects`).

**Selects.** Either all stays as it is, or the two lines are in the wrong order and take each other's bodies
(`rowFirst_cases`).

* `rowFirst_lines`: the lines before and after, and that a second time changes nothing.
-/
namespace QueryBlend.Pivot
open Text Sql

/-! ## Lines -/

/-- The line with the body of another one and its own comma. -/
def withBodyOf (line other : List Char) : List Char := (bodyAndComma other).1 ++ (bodyAndComma line).2

theorem comma_cases (line : List Char) : (bodyAndComma line).2 = [] ∨ (bodyAndComma line).2 = [','] := by
  rw [bodyAndComma]
  split
  · exact .inr rfl
  · exact .inl rfl

/-- The body of a line that is found under a name ends in a quote, but for blanks. -/
theorem getLast?_of_projects {name line : List Char} (h : projects name line = true) :
    (trimEnd (bodyAndComma line).1).getLast? = some '\x22' := by
  rw [Projection.projects_eq, List.isSuffixOf_iff_suffix] at h
  obtain ⟨front, hfront⟩ := h
  have hlast := congrArg List.getLast? hfront
  rw [inQuotes, ← List.cons_append, ← List.append_assoc, List.map_append, ← List.append_assoc,
    List.map_singleton, List.getLast?_concat, List.getLast?_map] at hlast
  obtain ⟨c, hc, hlower⟩ := Option.map_eq_some_iff.mp hlast.symm
  have hquote : c = '\x22' := by
    by_contra hne
    have hplain := quote_notMem_lower (s := [c]) (by simpa using Ne.symm hne)
    rw [List.map_singleton, hlower] at hplain
    exact hplain (by decide)
  rw [hc, hquote]

/-- A line with the body of one that is found under a name keeps its comma, and is found under the names under
which that one is. -/
theorem withBodyOf_of_projects {name other : List Char} (h : projects name other = true) (line : List Char) :
    (bodyAndComma (withBodyOf line other)).2 = (bodyAndComma line).2 ∧
    ∀ n, projects n (withBodyOf line other) = projects n other := by
  have hquote := getLast?_of_projects h
  have htrim : trimEnd (trimEnd (bodyAndComma other).1) = trimEnd (bodyAndComma other).1 :=
    dropEnd_of_getLast? hquote (by decide)
  have hcut : (bodyAndComma (withBodyOf line other)).2 = (bodyAndComma line).2 ∧
      trimEnd (bodyAndComma (withBodyOf line other)).1 = trimEnd (bodyAndComma other).1 := by
    rcases comma_cases line with hcomma | hcomma
    · rw [withBodyOf, hcomma, List.append_nil, bodyAndComma_quote hquote]
      exact ⟨rfl, htrim⟩
    · rw [withBodyOf, hcomma, bodyAndComma_comma]
      exact ⟨rfl, rfl⟩
  refine ⟨hcut.1, fun n => ?_⟩
  rw [Projection.projects_eq, Projection.projects_eq, hcut.2]

theorem feed_notMem_withBodyOf {line other : List Char} (hline : '\n' ∉ line) (hother : '\n' ∉ other) :
    '\n' ∉ withBodyOf line other := by
  obtain ⟨blanks, he, -⟩ := exists_blanks line
  obtain ⟨blanks', he', -⟩ := exists_blanks other
  rw [he, List.mem_append, List.mem_append, not_or, not_or] at hline
  rw [he', List.mem_append, not_or] at hother
  rw [withBodyOf, List.mem_append, not_or]
  exact ⟨hother.1, hline.2.1⟩

theorem getElem?_swapBodies_of_ne {ls : List (List Char)} {i j k : Nat} (hi : k ≠ i) (hj : k ≠ j) :
    (swapBodies ls i j)[k]? = ls[k]? :=
  (List.getElem?_set_ne hj.symm).trans (List.getElem?_set_ne hi.symm)

/-! ## Selects -/

section

variable {row column x y : List Char} {front between rest : List (List Char)}

/-- Lines with the column dimension first, cut at the first line of either dimension. -/
structure ColumnAhead (row column : List Char) (front : List (List Char)) (x : List Char)
    (between : List (List Char)) (y : List Char) : Prop where
  column_front : ∀ l ∈ front, projects column l = false
  row_front : ∀ l ∈ front ++ x :: between, projects row l = false
  column_x : projects column x = true
  row_y : projects row y = true

/-- What becomes of the lines of a select. -/
structure LineExchange (row column : List Char) (before after : List (List Char)) : Prop where
  length : after.length = before.length
  /-- All lines but the first of either dimension stay as they are. -/
  others : ∀ i, before.findIdx? (projects row) ≠ some i → before.findIdx? (projects column) ≠ some i →
    after[i]? = before[i]?
  /-- Those two stay, too, or they take each other's bodies. -/
  bodies : after = before ∨ ∃ r c rowLine columnLine,
    before.findIdx? (projects row) = some r ∧ before.findIdx? (projects column) = some c ∧ c < r ∧
    before[r]? = some rowLine ∧ before[c]? = some columnLine ∧
    after[r]? = some (withBodyOf rowLine columnLine) ∧ after[c]? = some (withBodyOf columnLine rowLine)
  commas : after.map (fun l => (bodyAndComma l).2) = before.map fun l => (bodyAndComma l).2
  /-- What is found under a name is moved, and not lost. -/
  found : ∀ name, after.any (projects name) = before.any (projects name)
  row_first : ∀ r c, after.findIdx? (projects row) = some r → after.findIdx? (projects column) = some c → r ≤ c

namespace ColumnAhead

theorem findIdx?_column (h : ColumnAhead row column front x between y) :
    (front ++ x :: (between ++ y :: rest)).findIdx? (projects column) = some front.length :=
  findIdx?_first _ h.column_front h.column_x

theorem findIdx?_row (h : ColumnAhead row column front x between y) :
    (front ++ x :: (between ++ y :: rest)).findIdx? (projects row) =
      some (front ++ x :: between).length := by
  have hrow := findIdx?_first rest h.row_front h.row_y
  rwa [List.append_assoc, List.cons_append] at hrow

/-- The row dimension is found where the column dimension was. -/
theorem findIdx?_row_after (h : ColumnAhead row column front x between y) (rest : List (List Char)) :
    (front ++ withBodyOf x y :: rest).findIdx? (projects row) = some front.length := by
  refine findIdx?_first rest (fun l hl => h.row_front l (List.mem_append_left _ hl)) ?_
  rw [(withBodyOf_of_projects h.row_y x).2, h.row_y]

theorem lineExchange (h : ColumnAhead row column front x between y) (rest : List (List Char)) :
    LineExchange row column (front ++ x :: (between ++ y :: rest))
      (front ++ withBodyOf x y :: (between ++ withBodyOf y x :: rest)) where
  length := by simp
  others := by
    intro i hrow hcolumn
    rw [h.findIdx?_row, Ne, Option.some.injEq] at hrow
    rw [h.findIdx?_column, Ne, Option.some.injEq] at hcolumn
    rw [withBodyOf, withBodyOf, ← swapBodies_append]
    exact getElem?_swapBodies_of_ne (Ne.symm hcolumn) (Ne.symm hrow)
  bodies := by
    have hfirst (z : List Char) (b : List (List Char)) : (front ++ z :: b)[front.length]? = some z := by simp
    have hsecond (z w : List Char) :
        (front ++ z :: (between ++ w :: rest))[(front ++ x :: between).length]? = some w := by
      simp
    exact .inr ⟨_, _, y, x, h.findIdx?_row, h.findIdx?_column, by simp, hsecond _ _, hfirst _ _,
      hsecond _ _, hfirst _ _⟩
  commas := by
    simp only [List.map_append, List.map_cons, (withBodyOf_of_projects h.row_y x).1,
      (withBodyOf_of_projects h.column_x y).1]
  found := by
    intro name
    simp only [List.any_append, List.any_cons, (withBodyOf_of_projects h.row_y x).2,
      (withBodyOf_of_projects h.column_x y).2]
    ac_rfl
  row_first := by
    intro r c hr hc
    rw [h.findIdx?_row_after, Option.some.injEq] at hr
    -- no line in front of the exchange is found under the column dimension
    rw [List.findIdx?_append, List.findIdx?_eq_none_iff.mpr h.column_front, Option.none_or] at hc
    obtain ⟨i, -, hi⟩ := Option.map_eq_some_iff.mp hc
    omega

end ColumnAhead

/-- Lines that stay as they are. -/
theorem lineExchange_refl {ls : List (List Char)}
    (h : ∀ r c, ls.findIdx? (projects row) = some r → ls.findIdx? (projects column) = some c → r ≤ c) :
    LineExchange row column ls ls where
  length := rfl
  others := fun _ _ _ => rfl
  bodies := .inl rfl
  commas := rfl
  found := fun _ => rfl
  row_first := h

end

variable (select row column : List Char)

/-- Without a column dimension in front of the row dimension all stays as it is. -/
theorem rowFirst_of_le (h : ∀ r c, (lines select).findIdx? (projects row) = some r →
    (lines select).findIdx? (projects column) = some c → r ≤ c) : rowFirst select row column = select := by
  rw [rowFirst]
  split
  · next r c hr hc => exact if_neg (Nat.not_lt.mpr (h r c hr hc))
  · rfl

/-- The row dimension comes first, or the lines are exchanged. -/
theorem rowFirst_cases :
    (∀ r c, (lines select).findIdx? (projects row) = some r →
      (lines select).findIdx? (projects column) = some c → r ≤ c) ∨
    ∃ front x between y rest, ColumnAhead row column front x between y ∧
      lines select = front ++ x :: (between ++ y :: rest) ∧
      lines (rowFirst select row column) =
        front ++ withBodyOf x y :: (between ++ withBodyOf y x :: rest) := by
  by_cases h : ∃ r c, (lines select).findIdx? (projects row) = some r ∧
      (lines select).findIdx? (projects column) = some c ∧ c < r
  swap
  · exact .inl fun r c hr hc => Nat.not_lt.mp fun hlt => h ⟨r, c, hr, hc, hlt⟩
  obtain ⟨r, c, hr, hc, hlt⟩ := h
  obtain ⟨before, y, rest, hy, rfl, hrow, hbefore⟩ := exists_cut_of_findIdx? hr
  obtain ⟨front, x, between, rfl, rfl⟩ := exists_cut hlt
  obtain ⟨front', x', rest', hx, hlength, hcolumn, hfront⟩ := exists_cut_of_findIdx? hc
  have hcut : lines select = front ++ x :: (between ++ y :: rest) := by
    rw [hy, List.append_assoc, List.cons_append]
  -- the cut at the column dimension is the same one
  obtain ⟨rfl, htail⟩ := List.append_inj (hcut.symm.trans hx) hlength
  obtain ⟨rfl, -⟩ := List.cons.inj htail
  refine .inr ⟨front, x, between, y, rest, ⟨hfront, hbefore, hcolumn, hrow⟩, hcut, ?_⟩
  have hfeed {l : List Char} (hl : l ∈ front ++ x :: (between ++ y :: rest)) : '\n' ∉ l :=
    not_mem_of_mem_lines (hcut ▸ hl)
  rw [rowFirst, hr, hc]
  simp only []
  rw [if_pos hlt, hcut, swapBodies_append]
  refine lines_unlines (by simp) fun l hl => ?_
  simp only [List.mem_append, List.mem_cons] at hl
  rcases hl with hl | rfl | hl | rfl | hl
  · exact hfeed (by simp [hl])
  · exact feed_notMem_withBodyOf (hfeed (by simp)) (hfeed (by simp))
  · exact hfeed (by simp [hl])
  · exact feed_notMem_withBodyOf (hfeed (by simp)) (hfeed (by simp))
  · exact hfeed (by simp [hl])

/-- **The row dimension first.** Whatever the lines and the two names are, at most the bodies of two lines are
exchanged, the row dimension is found no later than the column dimension, and there is nothing left to do. -/
theorem rowFirst_lines :
    LineExchange row column (lines select) (lines (rowFirst select row column)) ∧
    rowFirst (rowFirst select row column) row column = rowFirst select row column := by
  have hlines : LineExchange row column (lines select) (lines (rowFirst select row column)) := by
    rcases rowFirst_cases select row column with hle | ⟨front, x, between, y, rest, h, hbefore, hafter⟩
    · rw [rowFirst_of_le select row column hle]
      exact lineExchange_refl hle
    · rw [hbefore, hafter]
      exact h.lineExchange rest
  exact ⟨hlines, rowFirst_of_le _ row column hlines.row_first⟩

end QueryBlend.Pivot
