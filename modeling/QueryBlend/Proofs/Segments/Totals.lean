import QueryBlend.DerivedTable
import QueryBlend.Proofs.Segments
import QueryBlend.Proofs.Segments.Partition
import QueryBlend.Proofs.Sql.Totals
import QueryBlend.Proofs.Text.Lines
import Mathlib.Data.List.TakeWhile
/-!
# Totals on stable views and without them

The totals behind a query go in two ways. On stable views the select of a query ends where a line
announces totals of any of three kinds. Without stable views the query is stripped as it is, and there
only one kind of announcement counts.

**Stable views.** Behind the first line that announces totals nothing belongs to the select
(`linesFrom_announced`), so without blocks the select is what is in front of that line
(`stableSelect_eq`).

**Both ways.** `HasPlainSelect` says of a text that it has neither blocks nor a pivot, mentions no totals
in its select, and announces them at top level.

* `stripTrailing_stableSelect`: then both ways lead to the same text, if the first announcement is one
  that is looked for in both.
* `stripTrailing_grandTotals`: they do not if it is another one.
-/
namespace QueryBlend
open Text Sql

variable {raw : List Char} {l : List Char} {ls : List (List Char)}

/-- The lines in front of the first one that announces totals. -/
def linesAhead (raw : List Char) : List (List Char) :=
  (lines raw).takeWhile fun l => !decide (AnnouncesTotals l)

def announcing? (raw : List Char) : Option (List Char) :=
  (lines raw).find? fun l => decide (AnnouncesTotals l)

/-- The text in front of the first line that announces totals. -/
def selectText (raw : List Char) : List Char := unlines (linesAhead raw)

/-- The text in front of the comment in a line that announces totals. -/
def aheadOfComment (raw line : List Char) : List Char :=
  (linesAhead raw).flatMap (· ++ ['\n']) ++ line.takeWhile isBlank

/-- A text that has a select without derived tables, pivots and words about totals; totals behind it are
announced at top level of the trimmed text. -/
structure HasPlainSelect (raw : List Char) : Prop where
  no_block : ∀ l ∈ lines raw, ¬ StartsBlock l
  not_pivot : Pivot.isWrapped (selectText raw) = false
  no_mention : mentions announcement (selectText raw) = false
  at_top : ∀ l ∈ announcing? raw, endsAtTop (trimStart (aheadOfComment raw l)) = true

/-! ## The select -/

theorem ne_select_of_ofLine {p : Part} (h : LineKind.ofLine l = .announces p) : p ≠ .select := by
  have hparts : ∀ m ∈ totalMarkers, m.2 ≠ .select := by decide
  unfold LineKind.ofLine at h
  simp only [] at h
  split at h
  · cases h
  · split at h
    · cases h
    · split at h
      · rename_i m hm
        cases h
        exact hparts m (List.mem_of_find?_eq_some hm)
      · cases h

/-- Without blocks nothing that follows an announcement is in the select again. -/
theorem placesFrom_announced (h : ∀ l ∈ ls, ¬ StartsBlock l) {p : Part} (hp : p ≠ .select) (n : Nat) :
    .part .select ∉ placesFrom (.part p) n ls := by
  induction ls generalizing p n with
  | nil => exact List.not_mem_nil
  | cons l ls ih =>
    have hls : ∀ l ∈ ls, ¬ StartsBlock l := fun l hl => h l (List.mem_cons_of_mem _ hl)
    have hplace : Place.part .select ≠ .part p := fun he => hp (Place.part.inj he).symm
    obtain ⟨kind, here, next, blocks, hkind, hstep, heq⟩ := placesFrom_step (.part p) n l ls
    rw [heq, List.mem_cons, not_or]
    cases hstep with
    | start => exact absurd ((ofLine_eq_blockStart_iff l).mp hkind) (h l List.mem_cons_self)
    | finish h => cases h
    | announce q => exact ⟨nofun, ih hls (ne_select_of_ofLine hkind) _⟩
    | stray => exact ⟨hplace, ih hls hp _⟩
    | plain => exact ⟨hplace, ih hls hp _⟩

theorem linesFrom_announced (h : ∀ l ∈ ls, ¬ StartsBlock l) {p : Part} (hp : p ≠ .select) (n : Nat) :
    linesFrom (.part p) n (.part .select) ls = [] :=
  linesFrom_eq_nil (placesFrom_announced h hp n)

/-- A text falls into the lines ahead of its first announcement, that line, and the lines behind it. -/
theorem lines_eq (raw : List Char) :
    announcing? raw = none ∧ lines raw = linesAhead raw ∨
      ∃ l rest, announcing? raw = some l ∧ AnnouncesTotals l ∧ lines raw = linesAhead raw ++ l :: rest := by
  cases h : announcing? raw with
  | none =>
    have hall : ∀ l ∈ lines raw, (!decide (AnnouncesTotals l)) = true := by
      simpa using List.find?_eq_none.mp h
    exact .inl ⟨rfl, (List.takeWhile_eq_self_iff.mpr hall).symm⟩
  | some l =>
    obtain ⟨hl, ahead, rest, hlines, hahead⟩ := List.find?_eq_some_iff_append.mp h
    have htake : linesAhead raw = ahead := by
      rw [linesAhead, hlines, List.takeWhile_append_of_pos hahead,
        List.takeWhile_cons_of_neg (by simpa using hl), List.append_nil]
    exact .inr ⟨l, rest, rfl, of_decide_eq_true hl, by rw [htake, hlines]⟩

theorem isSelect_linesAhead (h : HasPlainSelect raw) : IsSelect (linesAhead raw) := by
  intro l hl
  have hnot : ¬ AnnouncesTotals l := by simpa using List.all_eq_true.mp List.all_takeWhile l hl
  exact ofLine_of_silent (h.no_block l ((List.takeWhile_prefix _).subset hl)) hnot

theorem split_select (h : HasPlainSelect raw) : (Segments.split raw).select = selectText raw := by
  have hselect := isSelect_linesAhead h
  show unlines (linesFrom (.part .select) 0 (.part .select) (lines raw)) = selectText raw
  rcases lines_eq raw with ⟨-, hlines⟩ | ⟨l, rest, -, hl, hlines⟩
  · rw [hlines, linesFrom_part hselect, if_pos rfl, selectText]
  · have hrest : ∀ l' ∈ rest, ¬ StartsBlock l' := fun l' hl' =>
      h.no_block l' (by rw [hlines]; exact List.mem_append_right _ (List.mem_cons_of_mem _ hl'))
    obtain ⟨p, hp⟩ := (exists_announces_iff l).mpr hl
    have hbehind : linesFrom (.part .select) 0 (.part .select) (l :: rest) = [] := by
      rw [linesFrom_announce hp _ _ (by simp), linesFrom_announced hrest (ne_select_of_ofLine hp)]
    rw [hlines, linesFrom_part_append hselect, if_pos rfl, hbehind, List.append_nil, selectText]

theorem split_blocks_nil (h : HasPlainSelect raw) : (Segments.split raw).blocks = [] := by
  have hcount : blockCount (lines raw) = 0 :=
    blockCount_eq_zero fun l hl hstart => h.no_block l hl ((ofLine_eq_blockStart_iff l).mp hstart)
  show (List.range (blockCount (lines raw))).map _ = []
  rw [hcount]
  rfl

/-- On stable views a query without derived tables is the text in front of its totals. -/
theorem stableSelect_eq (h : HasPlainSelect raw) : stableSelect raw = .ok (selectText raw) := by
  have hparse : Segments.parse raw = .ok (Segments.split raw) :=
    parse_of_not_wrapped (by rw [split_select h]; exact h.not_pivot)
  rw [stableSelect, hparse]
  show Except.ok (DerivedTable.redirect (Segments.split raw).select _) = _
  rw [split_select h, split_blocks_nil h]
  rfl

/-! ## Both ways -/

/-- A text whose first announcement is in a line goes on with the comment behind what is ahead of it. -/
theorem exists_behind {comment : List Char} {rest : List (List Char)}
    (hlines : lines raw = linesAhead raw ++ l :: rest) (hcomment : totalMarker ++ comment = trimStart l) :
    ∃ behind, raw = aheadOfComment raw l ++ (totalMarker ++ behind) := by
  have hline : l = l.takeWhile isBlank ++ (totalMarker ++ comment) := by
    rw [hcomment, trimStart, List.takeWhile_append_dropWhile]
  obtain ⟨more, hmore⟩ : ∃ more, unlines (l :: rest) = l ++ more := ⟨_, unlines_cons l rest⟩
  refine ⟨comment ++ more, ?_⟩
  calc raw = unlines (linesAhead raw ++ l :: rest) := by rw [← hlines, unlines_lines]
    _ = (linesAhead raw).flatMap (· ++ ['\n']) ++ (l ++ more) := by rw [unlines_append_cons, hmore]
    _ = (linesAhead raw).flatMap (· ++ ['\n']) ++
          (l.takeWhile isBlank ++ (totalMarker ++ comment) ++ more) := by rw [← hline]
    _ = _ := by rw [aheadOfComment]; simp only [List.append_assoc]

/-- The text up to an announcement is the select and what is blank between them. -/
theorem exists_lineGap (raw : List Char) (line : List Char) :
    ∃ gap, aheadOfComment raw line = selectText raw ++ gap ∧ IsLineGap (selectText raw) gap := by
  have hindent : isAllBlank (line.takeWhile isBlank) = true := List.all_takeWhile
  by_cases hnil : linesAhead raw = []
  · have hselect : selectText raw = [] := by rw [selectText, hnil]; rfl
    exact ⟨line.takeWhile isBlank, by rw [aheadOfComment, hnil, hselect]; rfl, hindent, .inl hselect⟩
  · refine ⟨'\n' :: line.takeWhile isBlank, ?_, hindent, .inr ⟨_, rfl⟩⟩
    rw [aheadOfComment, ← unlines_feed hnil, List.append_assoc, List.singleton_append, selectText]

theorem queryBody_eq (h : HasPlainSelect raw)
    (hmarker : ∀ l ∈ announcing? raw, totalMarker <+: trimStart l) :
    queryBody raw = queryBody (selectText raw) := by
  rcases lines_eq raw with ⟨-, hlines⟩ | ⟨l, rest, hl, -, hlines⟩
  · rw [selectText, ← hlines, unlines_lines]
  · obtain ⟨comment, hcomment⟩ := hmarker l hl
    obtain ⟨gap, hahead, hgap⟩ := exists_lineGap raw l
    obtain ⟨behind, hraw⟩ := exists_behind hlines hcomment
    have htop := h.at_top l hl
    rw [hahead] at htop hraw
    have hbody := queryBody_announced h.no_mention hgap htop behind
    rwa [← hraw] at hbody

/-- **Both ways.** On stable views a query without derived tables is the text in front of its totals; and
stripping it gives the same with and without stable views, if the first announcement of totals is the
comment that is looked for in stripping. -/
theorem stripTrailing_stableSelect (h : HasPlainSelect raw) :
    stableSelect raw = .ok (selectText raw) ∧
      ((∀ l ∈ announcing? raw, totalMarker <+: trimStart l) → ∀ respectLimit,
        stripTrailing raw respectLimit = stripTrailing (selectText raw) respectLimit) :=
  ⟨stableSelect_eq h, fun hmarker => stripTrailing_congr (queryBody_eq h hmarker)⟩

def withTotal : List Char := "SELECT 1 LIMIT 5\n -- sql for creating the total\nSELECT 2".toList

theorem hasPlainSelect_withTotal : HasPlainSelect withTotal where
  no_block := by decide +kernel
  not_pivot := by decide +kernel
  no_mention := by decide +kernel
  at_top := by decide +kernel

theorem stripTrailing_stableSelect_withTotal :
    stableSelect withTotal = .ok (selectText withTotal) ∧
      stripTrailing withTotal false = stripTrailing (selectText withTotal) false := by
  obtain ⟨hstable, hstrip⟩ := stripTrailing_stableSelect hasPlainSelect_withTotal
  exact ⟨hstable, hstrip (by decide +kernel) false⟩

def withGrandTotals : List Char :=
  "SELECT 1\n-- sql for creating the grand totals\nSELECT 2".toList

theorem hasPlainSelect_withGrandTotals : HasPlainSelect withGrandTotals where
  no_block := by decide +kernel
  not_pivot := by decide +kernel
  no_mention := by decide +kernel
  at_top := by decide +kernel

/-- Grand totals are left out on stable views and stay without them. -/
theorem stripTrailing_grandTotals :
    ¬ ∀ raw, HasPlainSelect raw → ∀ respectLimit, ∃ sql, stableSelect raw = .ok sql ∧
      stripTrailing raw respectLimit = stripTrailing sql respectLimit := by
  intro h
  obtain ⟨sql, hstable, hstrip⟩ := h withGrandTotals hasPlainSelect_withGrandTotals false
  rw [stableSelect_eq hasPlainSelect_withGrandTotals] at hstable
  cases hstable
  exact absurd hstrip (by decide +kernel)

end QueryBlend
