import QueryBlend.Proofs.Segments.Partition
import QueryBlend.Proofs.Text.Lines
/-!
# Blocks in front of a select

A text that is made of blocks and a select behind them falls into just these parts: the lines of each
block belong to a place of their own, in the order of the blocks, and no line of a block gets into the
select.

`linesFrom` is `linesAt` from the middle of a text: behind blocks that have been counted already. One
block puts its lines at the next place and leaves everything else to the rest (`linesFrom_block`), and
induction on the blocks gives all of them, whatever follows (`linesFrom_blocks`): what follows can add no
line to a block that has been left (`linesFrom_left`).

* `split_blocks`: the blocks and the select are what the text is split into.
-/
namespace QueryBlend
open Text

/-- The lines of a block: a start line, plain lines and a finish line. -/
structure IsBlock (ls : List (List Char)) : Prop where
  exists_lines : ∃ start inner finish, ls = start :: (inner ++ [finish]) ∧
    LineKind.ofLine start = .blockStart ∧ LineKind.ofLine finish = .blockFinish ∧
    ∀ l ∈ inner, LineKind.ofLine l = .plain

/-- The lines that belong to a place, when the line in front of them left off at `now` and `blocks`
blocks have been started. -/
def linesFrom (now : Place) (blocks : Nat) (p : Place) (ls : List (List Char)) : List (List Char) :=
  ((ls.zip (placesFrom now blocks ls)).filter fun e => e.2 == p).map Prod.fst

/-! ## One line -/

theorem linesFrom_step (now : Place) (blocks : Nat) (p : Place) (l : List Char)
    (ls : List (List Char)) :
    ∃ kind here next count, LineKind.ofLine l = kind ∧ Step now blocks kind here next count ∧
      linesFrom now blocks p (l :: ls) =
        (if here = p then [l] else []) ++ linesFrom next count p ls := by
  obtain ⟨kind, here, next, count, hkind, hstep, hplaces⟩ := placesFrom_step now blocks l ls
  refine ⟨kind, here, next, count, hkind, hstep, ?_⟩
  rw [linesFrom, hplaces, List.zip_cons_cons, List.filter_cons]
  by_cases hp : here = p
  · rw [if_pos hp, if_pos (beq_iff_eq.mpr hp)]
    rfl
  · rw [if_neg hp, if_neg fun h => hp (beq_iff_eq.mp h)]
    rfl

/-- Behind an announcement its part goes on, and the line itself is in none. -/
theorem linesFrom_announce {l : List Char} {q : Part} (h : LineKind.ofLine l = .announces q)
    (now : Place) (n : Nat) {p : Place} (hp : p ≠ .marker) (ls : List (List Char)) :
    linesFrom now n p (l :: ls) = linesFrom (.part q) n p ls := by
  have hplaces : placesFrom now n (l :: ls) = .marker :: placesFrom (.part q) n ls := by
    simp only [placesFrom, h]
  rw [linesFrom, hplaces, List.zip_cons_cons, List.filter_cons,
    if_neg fun h => hp (beq_iff_eq.mp h).symm]
  rfl

theorem linesFrom_eq_nil {now p : Place} {n : Nat} {ls : List (List Char)}
    (h : p ∉ placesFrom now n ls) : linesFrom now n p ls = [] := by
  rw [linesFrom, List.map_eq_nil_iff, List.filter_eq_nil_iff]
  intro e he hsame
  rw [beq_iff_eq] at hsame
  exact h (hsame ▸ (List.of_mem_zip he).2)

/-- No later line belongs to a block that has been left. -/
theorem linesFrom_left {now : Place} {n m : Nat} (hm : m < n) (hnow : now ≠ .block m)
    (ls : List (List Char)) : linesFrom now n (.block m) ls = [] := by
  refine linesFrom_eq_nil fun hmem => ?_
  obtain ⟨i, hi⟩ := List.getElem?_of_mem hmem
  have hidx : i ∈ (placesFrom now n ls).findIdxs (· == .block m) := by
    rw [List.mem_findIdxs_iff_exists_getElem_pos]
    obtain ⟨hlt, hget⟩ := List.getElem?_eq_some_iff.mp hi
    exact ⟨hlt, beq_iff_eq.mpr hget⟩
  rw [findIdxs_left hm hnow] at hidx
  cases hidx

/-! ## One block -/

theorem placesFrom_inner {inner : List (List Char)}
    (h : ∀ l ∈ inner, LineKind.ofLine l = .plain) (n m : Nat) (rest : List (List Char)) :
    placesFrom (.block n) m (inner ++ rest) =
      List.replicate inner.length (.block n) ++ placesFrom (.block n) m rest := by
  induction inner with
  | nil => rfl
  | cons l ls ih =>
    have hl := h l List.mem_cons_self
    have hls := ih fun l' hl' => h l' (List.mem_cons_of_mem _ hl')
    simp only [List.cons_append, placesFrom, hl, hls, List.length_cons, List.replicate_succ]

/-- A block takes the next place, and behind it is the select. -/
theorem placesFrom_block {ls : List (List Char)} (h : IsBlock ls) (now : Place) (n : Nat)
    (rest : List (List Char)) :
    placesFrom now n (ls ++ rest) =
      List.replicate ls.length (.block n) ++ placesFrom (.part .select) (n + 1) rest := by
  obtain ⟨start, inner, finish, rfl, hstart, hfinish, hinner⟩ := h.exists_lines
  have hrest : placesFrom (.block n) (n + 1) ([finish] ++ rest) =
      .block n :: placesFrom (.part .select) (n + 1) rest := by
    simp only [List.cons_append, List.nil_append, placesFrom, hfinish]
  have hlength : (start :: (inner ++ [finish])).length = inner.length + 1 + 1 := by simp
  rw [hlength, List.replicate_succ, List.replicate_succ', List.cons_append, List.append_assoc]
  simp only [placesFrom, hstart]
  rw [placesFrom_inner hinner, hrest]
  simp only [List.cons_append, List.nil_append, List.append_assoc]

theorem filter_replicate (ls : List (List Char)) (p q : Place) :
    ((ls.zip (List.replicate ls.length q)).filter fun e => e.2 == p).map Prod.fst =
      if q = p then ls else [] := by
  induction ls with
  | nil => split <;> rfl
  | cons l ls ih =>
    rw [List.length_cons, List.replicate_succ, List.zip_cons_cons, List.filter_cons]
    by_cases hq : q = p
    · rw [if_pos hq] at ih ⊢
      rw [if_pos (beq_iff_eq.mpr hq), List.map_cons, ih]
    · rw [if_neg hq] at ih ⊢
      rw [if_neg fun h => hq (beq_iff_eq.mp h), ih]

theorem linesFrom_block {ls : List (List Char)} (h : IsBlock ls) (now : Place) (n : Nat) (p : Place)
    (rest : List (List Char)) :
    linesFrom now n p (ls ++ rest) =
      (if .block n = p then ls else []) ++ linesFrom (.part .select) (n + 1) p rest := by
  rw [linesFrom, placesFrom_block h, List.zip_append (List.length_replicate).symm,
    List.filter_append, List.map_append, filter_replicate]
  rfl

/-! ## All blocks -/

/-- Lines of a select, or of totals. -/
def IsSelect (ls : List (List Char)) : Prop :=
  ∀ l ∈ ls, LineKind.ofLine l = .plain ∨ LineKind.ofLine l = .blockFinish

variable {bs : List (List (List Char))}

/-- A part goes on until a line starts a block or announces another part. -/
theorem linesFrom_part_append {ls : List (List Char)} (h : IsSelect ls) (q : Part) (n : Nat) (p : Place)
    (rest : List (List Char)) :
    linesFrom (.part q) n p (ls ++ rest) =
      (if .part q = p then ls else []) ++ linesFrom (.part q) n p rest := by
  have hplaces : placesFrom (.part q) n (ls ++ rest) =
      List.replicate ls.length (.part q) ++ placesFrom (.part q) n rest := by
    induction ls with
    | nil => rfl
    | cons l ls ih =>
      have hls : IsSelect ls := fun l hl => h l (List.mem_cons_of_mem _ hl)
      rcases h l List.mem_cons_self with hl | hl <;>
        simp only [List.cons_append, placesFrom, hl, ih hls, List.length_cons, List.replicate_succ]
  rw [linesFrom, hplaces, List.zip_append (List.length_replicate).symm, List.filter_append,
    List.map_append, filter_replicate]
  rfl

theorem linesFrom_part {ls : List (List Char)} (h : IsSelect ls) (q : Part) (n : Nat) (p : Place) :
    linesFrom (.part q) n p ls = if .part q = p then ls else [] := by
  have happend := linesFrom_part_append h q n p []
  rwa [List.append_nil, show linesFrom (.part q) n p [] = [] from rfl, List.append_nil] at happend

/-- Behind blocks the select goes on. -/
theorem linesFrom_blocks_part (hbs : ∀ b ∈ bs, IsBlock b) (n : Nat) (p : Part)
    (rest : List (List Char)) :
    linesFrom (.part .select) n (.part p) (bs.flatten ++ rest) =
      linesFrom (.part .select) (n + bs.length) (.part p) rest := by
  induction bs generalizing n with
  | nil => rfl
  | cons b bs ih =>
    rw [List.flatten_cons, List.append_assoc, linesFrom_block (hbs b List.mem_cons_self),
      if_neg (by simp), List.nil_append, ih (fun b' hb' => hbs b' (List.mem_cons_of_mem _ hb')),
      List.length_cons, Nat.add_assoc, Nat.add_comm 1]

/-- The blocks have the next places, one behind the other. -/
theorem linesFrom_blocks (hbs : ∀ b ∈ bs, IsBlock b) (n : Nat) (rest : List (List Char)) :
    (List.range' n bs.length).map
      (fun m => linesFrom (.part .select) n (.block m) (bs.flatten ++ rest)) = bs := by
  induction bs generalizing n with
  | nil => rfl
  | cons b bs ih =>
    have hbs' : ∀ b' ∈ bs, IsBlock b' := fun b' hb' => hbs b' (List.mem_cons_of_mem _ hb')
    have hb := linesFrom_block (hbs b List.mem_cons_self) (.part .select) n
    rw [List.length_cons, List.range'_succ, List.map_cons, List.flatten_cons, List.append_assoc, hb,
      if_pos rfl, linesFrom_left (Nat.lt_succ_self n) (by simp), List.append_nil]
    refine congrArg (b :: ·) ((List.map_congr_left fun m hm => ?_).trans (ih hbs' (n + 1)))
    have hne : Place.block n ≠ .block m := by
      intro he
      cases he
      have := List.mem_range'_1.mp hm
      omega
    rw [hb, if_neg hne, List.nil_append]

theorem blockCount_blocks (hbs : ∀ b ∈ bs, IsBlock b) (rest : List (List Char)) :
    blockCount (bs.flatten ++ rest) = bs.length + blockCount rest := by
  induction bs with
  | nil => exact (Nat.zero_add _).symm
  | cons b bs ih =>
    obtain ⟨start, inner, finish, rfl, hstart, hfinish, hinner⟩ :=
      (hbs b List.mem_cons_self).exists_lines
    have hzero : inner.countP (fun l => LineKind.ofLine l == .blockStart) = 0 := by
      refine List.countP_eq_zero.mpr fun l hl => ?_
      rw [hinner l hl]
      decide
    rw [List.flatten_cons, List.append_assoc, blockCount, List.countP_append, ← blockCount,
      ← blockCount, ih fun b' hb' => hbs b' (List.mem_cons_of_mem _ hb')]
    simp [blockCount, hstart, hfinish, hzero]
    omega

theorem blockCount_eq_zero {ls : List (List Char)}
    (h : ∀ l ∈ ls, LineKind.ofLine l ≠ .blockStart) : blockCount ls = 0 := by
  refine List.countP_eq_zero.mpr fun l hl => ?_
  rw [beq_iff_eq]
  exact h l hl

theorem IsSelect.blockCount {ls : List (List Char)} (h : IsSelect ls) : blockCount ls = 0 := by
  refine blockCount_eq_zero fun l hl => ?_
  rcases h l hl with hl | hl <;> rw [hl] <;> decide

/-! ## The text -/

theorem unlines_feed {ls : List (List Char)} (h : ls ≠ []) :
    unlines ls ++ ['\n'] = ls.flatMap (· ++ ['\n']) := by
  induction ls with
  | nil => exact absurd rfl h
  | cons l ls ih =>
    cases ls with
    | nil => simp [unlines, joinWith]
    | cons m ms =>
      rw [List.flatMap_cons, ← ih (by simp), unlines, joinWith_cons _ _ (by simp)]
      simp only [unlines, List.append_assoc]

theorem flatMap_unlines_feed {bs : List (List (List Char))} (h : ∀ b ∈ bs, b ≠ []) :
    bs.flatMap (fun b => unlines b ++ ['\n']) = bs.flatten.flatMap (· ++ ['\n']) := by
  induction bs with
  | nil => rfl
  | cons b bs ih =>
    rw [List.flatMap_cons, List.flatten_cons, List.flatMap_append, unlines_feed (h b List.mem_cons_self),
      ih fun b' hb' => h b' (List.mem_cons_of_mem _ hb')]

/-- The lines of joined texts are the lines of the texts. -/
theorem lines_unlines_texts {ts : List (List Char)} (h : ts ≠ []) :
    lines (unlines ts) = ts.flatMap lines := by
  induction ts with
  | nil => exact absurd rfl h
  | cons t ts ih =>
    cases ts with
    | nil => exact (List.append_nil _).symm
    | cons u us =>
      rw [unlines, joinWith_cons _ _ (by simp), List.append_assoc, List.singleton_append,
        lines_feed, ← unlines, ih (by simp)]
      rfl

/-- **Blocks and a select.** A text that is made of blocks and a select is split into these. -/
theorem split_blocks (hbs : ∀ b ∈ bs, IsBlock b) (hfeed : ∀ b ∈ bs, ∀ l ∈ b, '\n' ∉ l)
    {s : List Char} (hs : IsSelect (lines s)) :
    let raw := bs.flatMap (fun b => unlines b ++ ['\n']) ++ s
    (Segments.split raw).blocks = bs.map unlines ∧ (Segments.split raw).select = s := by
  intro raw
  have hraw : raw = bs.flatten.flatMap (· ++ ['\n']) ++ s := by
    refine congrArg (· ++ s) (flatMap_unlines_feed fun b hb => ?_)
    obtain ⟨_, _, _, rfl, -⟩ := (hbs b hb).exists_lines
    exact List.cons_ne_nil _ _
  have hlines : lines raw = bs.flatten ++ lines s := by
    rw [hraw]
    refine lines_flatMap_feed (fun l hl => ?_) s
    obtain ⟨b, hb, hlb⟩ := List.mem_flatten.mp hl
    exact hfeed b hb l hlb
  constructor
  · have hblocks := linesFrom_blocks hbs 0 (lines s)
    show (List.range (blockCount (lines raw))).map
      (fun n => unlines (linesFrom (.part .select) 0 (.block n) (lines raw))) = _
    rw [hlines, blockCount_blocks hbs, hs.blockCount, Nat.add_zero, List.range_eq_range']
    calc _ = ((List.range' 0 bs.length).map fun m =>
          linesFrom (.part .select) 0 (.block m) (bs.flatten ++ lines s)).map unlines := by
            rw [List.map_map]
            rfl
      _ = bs.map unlines := by rw [hblocks]
  · show unlines (linesFrom (.part .select) 0 (.part .select) (lines raw)) = s
    rw [hlines, linesFrom_blocks_part hbs, linesFrom_part hs, if_pos rfl, unlines_lines]

/-- A select that is not inside of a pivot stays as it is. -/
theorem parse_of_not_wrapped {raw : List Char}
    (h : Pivot.isWrapped (Segments.split raw).select = false) :
    Segments.parse raw = .ok (Segments.split raw) := by
  unfold Segments.parse
  simp only [h, Bool.false_eq_true, if_false]
  rfl

end QueryBlend
