import QueryBlend.Proofs.Segments
/-!
# Segments written out and split again

`Segments.split` undoes writing the segments out, and it does nothing more to what it has split already.

**Written out.** `Segments.render` puts the blocks first, then the select, and then each kind of totals
behind the comment that announces it. `IsPrintable` keeps the comments that say something about the parts
to where `render` has them: in front of totals, and around a block. Then the lines of every part are read
back, totals in any order of their comments (`linesFrom_totalLines`).

**Split again.** What has a place in a part says nothing about the parts (`isSelect_linesFrom`). What has a
place in a block is a start line and what goes on with it, `RunsOn`: plain lines up to a finish line, or up
to where the block was left without one (`exists_run`). By itself, the one is a select (`split_text`) and
the other a block (`split_run`).

* `split_restores`: printable segments are restored from their text; and for each part and each block of
  any text, splitting it gives just this part as the select, or just this block.
-/
namespace QueryBlend
open Text

namespace Segments

def textOf (s : Segments) : Part → List Char
  | .select => s.select
  | .total => s.total
  | .rowTotals => s.rowTotals
  | .grandTotal => s.grandTotal

/-- The segments as one text: the blocks, the select, and the totals in the given order, each behind the
comment that announces it. -/
def render (s : Segments) (order : List (List Char × Part)) : List Char :=
  unlines (s.blocks ++ s.select :: order.flatMap fun m => [m.1, s.textOf m.2])

end Segments

/-- The text is one block: its first line starts it, its last line finishes it, and no line in between
starts a block, finishes one or announces totals. -/
def IsWholeBlock (b : List Char) : Prop :=
  ∃ start inner finish, lines b = start :: (inner ++ [finish]) ∧ StartsBlock start ∧
    FinishesBlock finish ∧ ∀ l ∈ inner, ¬ StartsBlock l ∧ ¬ FinishesBlock l ∧ ¬ AnnouncesTotals l

/-- Segments that can be told apart in their text. -/
structure Segments.IsPrintable (s : Segments) : Prop where
  no_pivot : s.pivot = []
  whole : ∀ b ∈ s.blocks, IsWholeBlock b
  silent : ∀ p, ∀ l ∈ lines (s.textOf p), ¬ StartsBlock l ∧ ¬ AnnouncesTotals l

variable {s : Segments} {order : List (List Char × Part)} {ls : List (List Char)}

/-! ## The lines of the text -/

theorem ofLine_totalMarker {m : List Char × Part} (h : m ∈ totalMarkers) :
    LineKind.ofLine m.1 = .announces m.2 ∧ '\n' ∉ m.1 := by
  revert m
  decide

theorem IsWholeBlock.isBlock {b : List Char} (h : IsWholeBlock b) : IsBlock (lines b) := by
  obtain ⟨start, inner, finish, hlines, hstart, hfinish, hinner⟩ := h
  refine ⟨start, inner, finish, hlines, (ofLine_eq_blockStart_iff start).mpr hstart,
    ofLine_of_finishesBlock hfinish, fun l hl => ?_⟩
  obtain ⟨hnostart, hnofinish, hsilent⟩ := hinner l hl
  rcases ofLine_of_silent hnostart hsilent with hplain | hfinished
  · exact hplain
  · exact absurd ((ofLine_eq_blockFinish_iff l).mp hfinished) hnofinish

theorem Segments.IsPrintable.isSelect (h : s.IsPrintable) (p : Part) : IsSelect (lines (s.textOf p)) :=
  fun l hl => ofLine_of_silent (h.silent p l hl).1 (h.silent p l hl).2

/-- The lines of the totals in the given order, each behind its comment. -/
def totalLines (s : Segments) (order : List (List Char × Part)) : List (List Char) :=
  order.flatMap fun m => m.1 :: lines (s.textOf m.2)

theorem lines_render (h : ∀ m ∈ order, m ∈ totalMarkers) :
    lines (s.render order) = (s.blocks.map lines).flatten ++ (lines s.select ++ totalLines s order) := by
  have htotals : (order.flatMap fun m => [m.1, s.textOf m.2]).flatMap lines = totalLines s order := by
    rw [List.flatMap_assoc]
    refine List.flatMap_congr fun m hm => ?_
    rw [List.flatMap_cons, lines_of_not_mem (ofLine_totalMarker (h m hm)).2, List.flatMap_singleton,
      List.singleton_append]
  rw [Segments.render, lines_unlines_texts (by simp), List.flatMap_append, List.flatMap_cons, htotals,
    List.flatMap_def]

/-- Every part has the lines behind its own comment. -/
theorem linesFrom_totalLines (hs : ∀ p, IsSelect (lines (s.textOf p)))
    (hmarkers : ∀ m ∈ order, m ∈ totalMarkers) (hnodup : (order.map Prod.snd).Nodup) (q : Part) (n : Nat)
    (p : Part) :
    linesFrom (.part q) n (.part p) (totalLines s order) =
      if p ∈ order.map Prod.snd then lines (s.textOf p) else [] := by
  induction order generalizing q with
  | nil => rfl
  | cons m order ih =>
    obtain ⟨hnot, hnodup⟩ := List.nodup_cons.mp hnodup
    have hcons : totalLines s (m :: order) =
        m.1 :: (lines (s.textOf m.2) ++ totalLines s order) := rfl
    rw [hcons, linesFrom_announce (ofLine_totalMarker (hmarkers m List.mem_cons_self)).1 _ _ (by simp),
      linesFrom_part_append (hs m.2), ih (fun m' hm' => hmarkers m' (List.mem_cons_of_mem _ hm')) hnodup,
      List.map_cons]
    by_cases hp : m.2 = p
    · subst hp
      rw [if_pos rfl, if_neg hnot, if_pos List.mem_cons_self, List.append_nil]
    · have hmem : p ∈ m.2 :: order.map Prod.snd ↔ p ∈ order.map Prod.snd := by
        simp [Ne.symm hp]
      rw [if_neg (by simpa using hp), List.nil_append]
      simp only [hmem]

theorem blockCount_totalLines (hs : ∀ p, IsSelect (lines (s.textOf p)))
    (hmarkers : ∀ m ∈ order, m ∈ totalMarkers) : blockCount (totalLines s order) = 0 := by
  refine blockCount_eq_zero fun l hl => ?_
  obtain ⟨m, hm, hl⟩ := List.mem_flatMap.mp hl
  rcases List.mem_cons.mp hl with rfl | hl
  · rw [(ofLine_totalMarker (hmarkers m hm)).1]
    simp
  · rcases hs m.2 l hl with hl | hl <;> rw [hl] <;> simp

/-! ## Written out -/

theorem Segments.eq_of_texts {t : Segments} (hblocks : s.blocks = t.blocks)
    (htexts : ∀ p, s.textOf p = t.textOf p) (hpivot : s.pivot = t.pivot) : s = t := by
  cases s
  cases t
  have hselect := htexts .select
  have htotal := htexts .total
  have hrowTotals := htexts .rowTotals
  have hgrandTotal := htexts .grandTotal
  simp only [textOf] at hblocks hselect htotal hrowTotals hgrandTotal hpivot
  rw [hblocks, hselect, htotal, hrowTotals, hgrandTotal, hpivot]

theorem textOf_split (raw : List Char) (p : Part) :
    (Segments.split raw).textOf p = unlines (linesFrom (.part .select) 0 (.part p) (lines raw)) := by
  cases p <;> rfl

theorem blocks_split (raw : List Char) :
    (Segments.split raw).blocks = ((List.range (blockCount (lines raw))).map fun n =>
      linesFrom (.part .select) 0 (.block n) (lines raw)).map unlines := by
  rw [List.map_map]
  rfl

/-- The three kinds of totals, and not the select, are behind comments. -/
theorem mem_parts_iff (h : order.Perm totalMarkers) (p : Part) :
    p ∈ order.map Prod.snd ↔ p ≠ .select := by
  rw [(h.map Prod.snd).mem_iff]
  cases p <;> decide

theorem split_render (h : s.IsPrintable) (horder : order.Perm totalMarkers) :
    Segments.split (s.render order) = s := by
  have hmarkers : ∀ m ∈ order, m ∈ totalMarkers := fun m hm => horder.subset hm
  have hnodup : (order.map Prod.snd).Nodup := (horder.map Prod.snd).nodup_iff.mpr (by decide)
  have hlines := lines_render (s := s) hmarkers
  have hbs : ∀ b ∈ s.blocks.map lines, IsBlock b := by
    intro ls hls
    obtain ⟨b, hb, rfl⟩ := List.mem_map.mp hls
    exact (h.whole b hb).isBlock
  have hselect : IsSelect (lines s.select) := h.isSelect .select
  refine Segments.eq_of_texts ?_ (fun p => ?_) h.no_pivot.symm
  · have hcount : blockCount (lines s.select ++ totalLines s order) = 0 := by
      rw [blockCount, List.countP_append, ← blockCount, ← blockCount, hselect.blockCount,
        blockCount_totalLines h.isSelect hmarkers]
    rw [blocks_split, hlines, blockCount_blocks hbs, hcount, Nat.add_zero, List.range_eq_range',
      linesFrom_blocks hbs, List.map_map]
    exact (List.map_congr_left fun b _ => unlines_lines b).trans (List.map_id _)
  · rw [textOf_split, hlines, linesFrom_blocks_part hbs, linesFrom_part_append hselect,
      linesFrom_totalLines h.isSelect hmarkers hnodup]
    by_cases hp : p = .select
    · subst hp
      rw [if_pos rfl, if_neg (by simp [mem_parts_iff horder]), List.append_nil]
      exact unlines_lines s.select
    · rw [if_neg fun he => hp (Place.part.inj he).symm, if_pos ((mem_parts_iff horder p).mpr hp),
        List.nil_append, unlines_lines]

/-! ## A part again -/

variable {now p : Place} {blocks m n : Nat}

theorem isSelect_linesFrom (now : Place) (n : Nat) (p : Part) (ls : List (List Char)) :
    IsSelect (linesFrom now n (.part p) ls) := by
  induction ls generalizing now n with
  | nil => exact fun l hl => absurd hl List.not_mem_nil
  | cons l ls ih =>
    obtain ⟨kind, here, next, count, hkind, hstep, heq⟩ := linesFrom_step now n (.part p) l ls
    intro l' hl'
    rw [heq] at hl'
    rcases List.mem_append.mp hl' with hl' | hl'
    · split at hl'
      · next hhere =>
        rw [List.mem_singleton.mp hl', hkind]
        cases hstep with
        | start => cases hhere
        | finish => cases hhere
        | announce => cases hhere
        | stray => exact .inr rfl
        | plain => exact .inl rfl
      · cases hl'
    · exact ih next count l' hl'

theorem feed_notMem_linesFrom {raw : List Char} {l : List Char}
    (h : l ∈ linesFrom now n p (lines raw)) : '\n' ∉ l := by
  obtain ⟨e, he, rfl⟩ := List.mem_map.mp h
  exact not_mem_of_mem_lines (List.of_mem_zip (List.mem_filter.mp he).1).1

theorem split_text (h : IsSelect ls) (hfeed : ∀ l ∈ ls, '\n' ∉ l) :
    Segments.split (unlines ls) = { select := unlines ls } := by
  refine split_of_plain fun l hl => ?_
  by_cases hnil : ls = []
  · subst hnil
    rw [List.mem_singleton.mp (show l ∈ [[]] from hl)]
    exact .inl (by decide)
  · rw [lines_unlines hnil hfeed] at hl
    exact h l hl

/-! ## A block again -/

/-- Lines that go on with an open block: plain lines, and a finish line as the last one. -/
inductive RunsOn : List (List Char) → Prop
  | nil : RunsOn []
  | finish {l : List Char} (h : LineKind.ofLine l = .blockFinish) : RunsOn [l]
  | cons {l : List Char} {ls : List (List Char)} (h : LineKind.ofLine l = .plain) (hls : RunsOn ls) :
    RunsOn (l :: ls)

theorem RunsOn.placesFrom_eq (h : RunsOn ls) (n count : Nat) :
    placesFrom (.block n) count ls = List.replicate ls.length (.block n) := by
  induction h with
  | nil => rfl
  | finish h => simp only [placesFrom, h, List.length_singleton, List.replicate_one]
  | cons h _ ih => simp only [placesFrom, h, ih, List.length_cons, List.replicate_succ]

theorem RunsOn.blockCount_eq (h : RunsOn ls) : blockCount ls = 0 := by
  refine blockCount_eq_zero fun l hl => ?_
  induction h with
  | nil => cases hl
  | finish h =>
    rw [List.mem_singleton.mp hl, h]
    simp
  | cons h _ ih =>
    rcases List.mem_cons.mp hl with rfl | hl
    · simp [h]
    · exact ih hl

theorem blockCount_cons (l : List Char) (ls : List (List Char)) :
    blockCount (l :: ls) = blockCount ls + if LineKind.ofLine l = .blockStart then 1 else 0 := by
  simp only [blockCount, List.countP_cons, beq_iff_eq]

theorem runsOn_linesFrom (hm : m < blocks) (ls : List (List Char)) :
    RunsOn (linesFrom (.block m) blocks (.block m) ls) := by
  induction ls with
  | nil => exact .nil
  | cons l ls ih =>
    obtain ⟨kind, here, next, count, hkind, hstep, heq⟩ :=
      linesFrom_step (.block m) blocks (.block m) l ls
    rw [heq]
    cases hstep with
    | start =>
      have hne : Place.block blocks ≠ .block m := by simp; omega
      rw [if_neg hne, List.nil_append, linesFrom_left (by omega) hne]
      exact .nil
    | finish h =>
      cases h
      rw [if_pos rfl, linesFrom_left hm (by simp), List.append_nil]
      exact .finish hkind
    | announce q =>
      rw [if_neg (by simp), List.nil_append, linesFrom_left hm (by simp)]
      exact .nil
    | stray h => exact absurd rfl (h m)
    | plain =>
      rw [if_pos rfl, List.singleton_append]
      exact .cons hkind ih

/-- A block that is still to come is its start line and what goes on with it. -/
theorem exists_run (hs : Sound now blocks) (hm : blocks ≤ m) (hlt : m < blocks + blockCount ls) :
    ∃ start tail, linesFrom now blocks (.block m) ls = start :: tail ∧
      LineKind.ofLine start = .blockStart ∧ RunsOn tail := by
  induction ls generalizing now blocks with
  | nil =>
    have hzero : blockCount [] = 0 := rfl
    omega
  | cons l ls ih =>
    obtain ⟨kind, here, next, count, hkind, hstep, heq⟩ := linesFrom_step now blocks (.block m) l ls
    have hsound := hstep.sound hs
    have hnow : now ≠ .block m := fun hb => by
      have := hs.lt_blocks m hb
      omega
    rw [blockCount_cons, hkind] at hlt
    rw [heq]
    cases hstep with
    | start =>
      rw [if_pos rfl] at hlt
      -- the line starts the block in question, or one in front of it
      by_cases hb : m = blocks
      · subst hb
        rw [if_pos rfl]
        exact ⟨l, _, rfl, hkind, runsOn_linesFrom (Nat.lt_succ_self m) ls⟩
      · rw [if_neg (by simpa using Ne.symm hb), List.nil_append]
        exact ih hsound (by omega) (by omega)
    | finish h =>
      subst h
      rw [if_neg hnow, List.nil_append]
      exact ih hsound hm (by simpa using hlt)
    | announce q => exact ih hsound hm (by simpa using hlt)
    | stray _ =>
      rw [if_neg hnow, List.nil_append]
      exact ih hsound hm (by simpa using hlt)
    | plain =>
      rw [if_neg hnow, List.nil_append]
      exact ih hsound hm (by simpa using hlt)

theorem split_run {start : List Char} (hstart : LineKind.ofLine start = .blockStart) (h : RunsOn ls)
    (hfeed : ∀ l ∈ start :: ls, '\n' ∉ l) :
    Segments.split (unlines (start :: ls)) = { blocks := [unlines (start :: ls)] } := by
  have hlines : lines (unlines (start :: ls)) = start :: ls := lines_unlines (by simp) hfeed
  have hplaces : placesFrom (.part .select) 0 (start :: ls) =
      List.replicate (start :: ls).length (.block 0) := by
    simp only [placesFrom, hstart, h.placesFrom_eq, List.length_cons, List.replicate_succ]
  have hfrom : ∀ p, linesFrom (.part .select) 0 p (start :: ls) =
      if .block 0 = p then start :: ls else [] := by
    intro p
    rw [linesFrom, hplaces, filter_replicate]
  refine Segments.eq_of_texts ?_ (fun p => ?_) rfl
  · rw [blocks_split, hlines, blockCount_cons, if_pos hstart, h.blockCount_eq]
    show [unlines (linesFrom _ 0 (.block 0) (start :: ls))] = _
    rw [hfrom, if_pos rfl]
  · rw [textOf_split, hlines, hfrom, if_neg (by simp)]
    cases p <;> rfl

/-- **Splitting restores.** Printable segments are restored from their text, whatever order their totals
have in it. Each part of any text is its own select when it is split again, and each block is its own
block, with nothing else. -/
theorem split_restores :
    (∀ (s : Segments) (order : List (List Char × Part)), s.IsPrintable → order.Perm totalMarkers →
      Segments.split (s.render order) = s) ∧
    ∀ raw, (∀ p, Segments.split ((Segments.split raw).textOf p) =
        { select := (Segments.split raw).textOf p }) ∧
      ∀ b ∈ (Segments.split raw).blocks, Segments.split b = { blocks := [b] } := by
  refine ⟨fun s order => split_render, fun raw => ⟨fun p => ?_, fun b hb => ?_⟩⟩
  · rw [textOf_split]
    exact split_text (isSelect_linesFrom _ _ p _) fun l => feed_notMem_linesFrom
  · rw [blocks_split] at hb
    obtain ⟨ls, hls, rfl⟩ := List.mem_map.mp hb
    obtain ⟨n, hn, rfl⟩ := List.mem_map.mp hls
    have hlt : n < 0 + blockCount (lines raw) := by simpa using hn
    obtain ⟨start, tail, heq, hstart, htail⟩ := exists_run (sound_select 0) (Nat.zero_le n) hlt
    have hfeed : ∀ l ∈ start :: tail, '\n' ∉ l := by
      rw [← heq]
      exact fun l => feed_notMem_linesFrom
    rw [heq]
    exact split_run hstart htail hfeed

/-- Two blocks, a select with a finish line outside of blocks, and totals of one kind. -/
def wholeBlocks : Segments where
  blocks := ["-- generate derived table a\nCREATE TABLE a\n\n-- finished a".toList,
    "\t-- generate derived table b\n  -- finished".toList]
  select := "SELECT 1\n-- finished\n".toList
  rowTotals := "SELECT 2".toList

theorem isPrintable_wholeBlocks : wholeBlocks.IsPrintable where
  no_pivot := rfl
  whole := by
    intro b hb
    rcases List.mem_cons.mp hb with rfl | hb
    · exact ⟨_, ["CREATE TABLE a".toList, []], "-- finished a".toList, rfl, by decide, by decide,
        by decide⟩
    · rw [List.mem_singleton.mp hb]
      exact ⟨_, [], "  -- finished".toList, rfl, by decide, by decide, by decide⟩
  silent p := by cases p <;> decide

theorem split_restores_wholeBlocks :
    wholeBlocks.IsPrintable ∧ totalMarkers.reverse.Perm totalMarkers ∧
      Segments.split (wholeBlocks.render totalMarkers.reverse) = wholeBlocks ∧
      Segments.split ((Segments.split tangledText).textOf .total) =
        { select := (Segments.split tangledText).textOf .total } :=
  ⟨isPrintable_wholeBlocks, List.reverse_perm _,
    split_restores.1 wholeBlocks _ isPrintable_wholeBlocks (List.reverse_perm _),
    (split_restores.2 tangledText).1 .total⟩

end QueryBlend
