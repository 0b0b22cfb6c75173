import QueryBlend.Text.Basic
/-!
# Lines of joined texts

What is joined line by line, and what the lines of a join are.

* `unlines_append_cons`: behind lines comes the text of the others.
* `lines_feed`: a line feed cuts the lines of a text in two.
* `lines_flatMap_feed`, `exists_lines_append`: behind lines with their line feeds come the lines of what
  follows; without a line feed in between its last line goes on.
-/
namespace QueryBlend.Text

theorem unlines_append_cons (ls : List (List Char)) (l : List Char) (rest : List (List Char)) :
    unlines (ls ++ l :: rest) = ls.flatMap (· ++ ['\n']) ++ unlines (l :: rest) := by
  induction ls with
  | nil => rfl
  | cons first ls ih =>
    have hne : ls ++ l :: rest ≠ [] := List.append_ne_nil_of_right_ne_nil _ (List.cons_ne_nil _ _)
    rw [List.flatMap_cons, List.append_assoc, ← ih, List.cons_append]
    exact joinWith_cons _ _ hne

theorem unlines_concat (ls : List (List Char)) (l : List Char) :
    unlines (ls ++ [l]) = ls.flatMap (· ++ ['\n']) ++ l := unlines_append_cons ls l []

/-- What is joined starts with its first line, and goes on with a line feed if there are others. -/
theorem unlines_cons (l : List Char) (rest : List (List Char)) :
    unlines (l :: rest) = l ++ (if rest = [] then [] else '\n' :: unlines rest) := by
  cases rest with
  | nil => exact (List.append_nil l).symm
  | cons m ms => exact List.append_assoc _ _ _

theorem lines_feed (s t : List Char) : lines (s ++ '\n' :: t) = lines s ++ lines t := by
  induction s with
  | nil => simp [lines]
  | cons c cs ih =>
    rw [List.cons_append, lines, lines, ih]
    split
    · rfl
    · cases h : lines cs with
      | nil => exact absurd h (lines_ne_nil cs)
      | cons l ls => rfl

theorem lines_flatMap_feed {ls : List (List Char)} (h : ∀ l ∈ ls, '\n' ∉ l) (s : List Char) :
    lines (ls.flatMap (· ++ ['\n']) ++ s) = ls ++ lines s := by
  induction ls with
  | nil => rfl
  | cons l ls ih =>
    rw [List.flatMap_cons, List.append_assoc, List.append_assoc, List.singleton_append,
      lines_append_feed (h l List.mem_cons_self), ih fun l' hl' => h l' (List.mem_cons_of_mem _ hl'),
      List.cons_append]

/-- What is put behind a text goes on with its last line. -/
theorem exists_lines_append (s : List Char) {t : List Char} (ht : '\n' ∉ t) :
    ∃ front last, lines s = front ++ [last] ∧ lines (s ++ t) = front ++ [last ++ t] := by
  obtain ⟨front, last, hlast⟩ := (List.eq_nil_or_concat (lines s)).resolve_left (lines_ne_nil s)
  rw [List.concat_eq_append] at hlast
  have hfeed : ∀ l ∈ front ++ [last], '\n' ∉ l := fun l hl => not_mem_of_mem_lines (hlast ▸ hl)
  have hcut : s ++ t = front.flatMap (· ++ ['\n']) ++ (last ++ t) := by
    rw [← List.append_assoc, ← unlines_concat, ← hlast, unlines_lines]
  have hend : '\n' ∉ last ++ t := by
    rw [List.mem_append, not_or]
    exact ⟨hfeed last (by simp), ht⟩
  refine ⟨front, last, hlast, ?_⟩
  rw [hcut, lines_flatMap_feed (fun l hl => hfeed l (List.mem_append_left _ hl)), lines_of_not_mem hend]

/-! ## What joined texts are made of -/

theorem mem_joinWith {sep : List Char} {c : Char} {ts : List (List Char)} (h : c ∈ joinWith sep ts) :
    c ∈ sep ∨ ∃ t ∈ ts, c ∈ t := by
  induction ts with
  | nil => cases h
  | cons t ts ih =>
    by_cases hnil : ts = []
    · subst hnil
      exact .inr ⟨t, List.mem_cons_self, h⟩
    · rw [joinWith_cons _ _ hnil, List.mem_append, List.mem_append] at h
      rcases h with (h | h) | h
      · exact .inr ⟨t, List.mem_cons_self, h⟩
      · exact .inl h
      · exact (ih h).imp_right fun ⟨u, hu, hc⟩ => ⟨u, List.mem_cons_of_mem _ hu, hc⟩

theorem infix_joinWith (sep : List Char) {t : List Char} {ts : List (List Char)} (h : t ∈ ts) :
    t <:+: joinWith sep ts := by
  induction ts with
  | nil => cases h
  | cons u ts ih =>
    by_cases hnil : ts = []
    · subst hnil
      rw [List.mem_singleton.mp h]
      exact List.infix_rfl
    · rw [joinWith_cons _ _ hnil]
      rcases List.mem_cons.mp h with rfl | h
      · exact ((List.prefix_append t sep).trans (List.prefix_append _ _)).isInfix
      · exact (ih h).trans (List.suffix_append _ _).isInfix

end QueryBlend.Text
