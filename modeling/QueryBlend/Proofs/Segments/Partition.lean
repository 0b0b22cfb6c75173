import QueryBlend.Segments
import Mathlib.Data.List.Nodup
/-!
# No line is lost

`Segments.split` puts every line of a text into one group or drops it, whatever the order of the marker
lines: blocks that totals or other blocks interrupt, blocks inside of totals, finish lines outside of
blocks, a block that is still open at the end.

**Groups.** `LineGroups` has the indices of the lines of each segment, and `LineGroups.IsPartition` says
what is promised of them. It speaks of the lines themselves, by the comments they start with
(`StartsBlock`, `FinishesBlock`, `AnnouncesTotals`), and of no mode.

**One line.** `Step` is all that one line can do: it starts a block, finishes the one that is open,
announces totals, or stays where the line in front of it was (`placesFrom_step`).

**All lines.** By induction over the lines: a block that has been left gets no further line
(`findIdxs_left`), an open block goes on without a gap (`findIdxs_open`), and so the block with a number
is a run that the start line with this number begins (`findIdxs_block`). A finish line in a block is its
last (`finish_last`), and only announcements are dropped (`findIdxs_marker`).

* `split_partition`: the segments of a text are the joined lines of the groups of such a partition.
-/
namespace QueryBlend
open Text

/-- The line starts the block of a derived table. -/
def StartsBlock (line : List Char) : Prop := "-- generate derived table".toList <+: trimStart line

/-- The line finishes the block of a derived table. -/
def FinishesBlock (line : List Char) : Prop := "-- finished".toList <+: trimStart line

/-- The comments of the three kinds of totals. -/
def totalComments : List String :=
  ["-- sql for creating the total", "-- sql for creating the pivot row totals",
    "-- sql for creating the grand totals"]

/-- The line announces totals of one of the three kinds. -/
def AnnouncesTotals (line : List Char) : Prop := ∃ c ∈ totalComments, c.toList <+: trimStart line

instance (line : List Char) : Decidable (StartsBlock line) :=
  inferInstanceAs (Decidable (_ <+: _))

instance (line : List Char) : Decidable (FinishesBlock line) :=
  inferInstanceAs (Decidable (_ <+: _))

instance (line : List Char) : Decidable (AnnouncesTotals line) :=
  inferInstanceAs (Decidable (∃ c ∈ totalComments, _))

/-- The lines with the given indices, joined. -/
def gather (ls : List (List Char)) (is : List Nat) : List Char := unlines (is.filterMap (ls[·]?))

/-- The indices of the lines of each segment, and of the lines that belong to none. -/
structure LineGroups where
  select : List Nat
  total : List Nat
  rowTotals : List Nat
  grandTotal : List Nat
  blocks : List (List Nat)
  dropped : List Nat
  deriving DecidableEq, Repr

namespace LineGroups

/-- The groups that are made of lines from anywhere in the text. -/
def parts (g : LineGroups) : List (List Nat) := [g.select, g.total, g.rowTotals, g.grandTotal]

/-- The segments that are the joined lines of the groups. -/
def segments (g : LineGroups) (ls : List (List Char)) : Segments where
  blocks := g.blocks.map (gather ls)
  select := gather ls g.select
  total := gather ls g.total
  rowTotals := gather ls g.rowTotals
  grandTotal := gather ls g.grandTotal

/-- What is promised of the groups of the lines `ls`. -/
structure IsPartition (g : LineGroups) (ls : List (List Char)) : Prop where
  /-- Each line is in one group, and once. -/
  perm : (g.parts.flatten ++ g.blocks.flatten ++ g.dropped).Perm (List.range ls.length)
  mem_dropped : ∀ i, i ∈ g.dropped ↔ ∃ l, ls[i]? = some l ∧ AnnouncesTotals l
  parts_increasing : ∀ is ∈ g.parts, is.Pairwise (· < ·)
  /-- In the order of the blocks, too. -/
  blocks_increasing : g.blocks.flatten.Pairwise (· < ·)
  block_run : ∀ is ∈ g.blocks, ∃ first n, is = List.range' first n
  /-- Each start line is the first line of one block, and of no other. -/
  start_first : ∀ (i : Nat) l, ls[i]? = some l → StartsBlock l →
    ∃! n : Nat, ∃ is : List Nat, g.blocks[n]? = some is ∧ is.head? = some i
  blocks_length : g.blocks.length = ls.countP fun l => decide (StartsBlock l)
  finish_last : ∀ is ∈ g.blocks, ∀ i ∈ is, ∀ l, ls[i]? = some l → FinishesBlock l →
    is.getLast? = some i

end LineGroups

/-! ## What a line says -/

theorem totalComments_perm : (totalComments.map String.toList).Perm (totalMarkers.map Prod.fst) := by
  decide

theorem announcesTotals_iff (l : List Char) :
    AnnouncesTotals l ↔ ∃ m ∈ totalMarkers, m.1 <+: trimStart l := by
  constructor
  · rintro ⟨c, hc, hl⟩
    obtain ⟨m, hm, he⟩ := List.mem_map.mp (totalComments_perm.subset (List.mem_map_of_mem hc))
    exact ⟨m, hm, he ▸ hl⟩
  · rintro ⟨m, hm, hl⟩
    obtain ⟨c, hc, he⟩ := List.mem_map.mp (totalComments_perm.symm.subset (List.mem_map_of_mem hm))
    exact ⟨c, hc, he ▸ hl⟩

theorem startsBlock_iff (l : List Char) : StartsBlock l ↔ blockStartMarker <+: trimStart l := Iff.rfl

theorem finishesBlock_iff (l : List Char) : FinishesBlock l ↔ blockFinishMarker <+: trimStart l := Iff.rfl

theorem ofLine_eq_blockStart_iff (l : List Char) :
    LineKind.ofLine l = .blockStart ↔ StartsBlock l := by
  unfold LineKind.ofLine
  rw [startsBlock_iff, ← List.isPrefixOf_iff_prefix]
  constructor
  · intro h
    by_contra hs
    simp only [hs, if_false] at h
    split at h
    · cases h
    · split at h <;> cases h
  · intro h
    simp [h]

/-- The markers differ in the character behind `-- `, so a line has only one of them. -/
theorem not_prefix_of_marker {w v l : List Char} (hw : w <+: l) (hne : w[3]? ≠ v[3]?)
    (hw3 : 3 < w.length) (hv3 : 3 < v.length) : ¬ v <+: l := by
  intro hv
  obtain ⟨s, rfl⟩ := hw
  obtain ⟨t, ht⟩ := hv
  have := congrArg (·[3]?) ht
  simp only [List.getElem?_append_left hw3, List.getElem?_append_left hv3] at this
  exact hne this.symm

theorem ofLine_of_finishesBlock {l : List Char} (h : FinishesBlock l) :
    LineKind.ofLine l = .blockFinish := by
  rw [finishesBlock_iff] at h
  have hs : blockStartMarker.isPrefixOf (trimStart l) = false := by
    rw [← Bool.not_eq_true, List.isPrefixOf_iff_prefix]
    exact not_prefix_of_marker h (by decide) (by decide) (by decide)
  have hf : blockFinishMarker.isPrefixOf (trimStart l) = true := List.isPrefixOf_iff_prefix.mpr h
  simp [LineKind.ofLine, hs, hf]

theorem ofLine_eq_blockFinish_iff (l : List Char) :
    LineKind.ofLine l = .blockFinish ↔ FinishesBlock l := by
  refine ⟨fun h => ?_, ofLine_of_finishesBlock⟩
  unfold LineKind.ofLine at h
  simp only [] at h
  split at h
  · cases h
  · split at h
    · next hf => exact (finishesBlock_iff l).mpr (List.isPrefixOf_iff_prefix.mp hf)
    · split at h <;> cases h

theorem exists_announces_iff (l : List Char) :
    (∃ p, LineKind.ofLine l = .announces p) ↔ AnnouncesTotals l := by
  rw [announcesTotals_iff]
  constructor
  · rintro ⟨p, h⟩
    unfold LineKind.ofLine at h
    simp only [] at h
    split at h
    · cases h
    · split at h
      · cases h
      · split at h
        · rename_i m hm
          have hp : m.1.isPrefixOf (trimStart l) = true := List.find?_eq_some_iff_append.mp hm |>.1
          exact ⟨m, List.mem_of_find?_eq_some hm, List.isPrefixOf_iff_prefix.mp hp⟩
        · cases h
  · rintro ⟨m, hm, hp⟩
    have hthird : ∀ m ∈ totalMarkers, m.1[3]? = some 's' ∧ 3 < m.1.length := by decide
    obtain ⟨hthird, hlen⟩ := hthird m hm
    have hs : blockStartMarker.isPrefixOf (trimStart l) = false := by
      rw [← Bool.not_eq_true, List.isPrefixOf_iff_prefix]
      exact not_prefix_of_marker hp (by rw [hthird]; decide) hlen (by decide)
    have hf : blockFinishMarker.isPrefixOf (trimStart l) = false := by
      rw [← Bool.not_eq_true, List.isPrefixOf_iff_prefix]
      exact not_prefix_of_marker hp (by rw [hthird]; decide) hlen (by decide)
    have hsome : (totalMarkers.find? fun m => m.1.isPrefixOf (trimStart l)).isSome = true := by
      rw [List.find?_isSome]
      exact ⟨m, hm, List.isPrefixOf_iff_prefix.mpr hp⟩
    obtain ⟨found, hfound⟩ := Option.isSome_iff_exists.mp hsome
    exact ⟨found.2, by simp [LineKind.ofLine, hs, hf, hfound]⟩

theorem ofLine_of_silent {l : List Char} (hstart : ¬ StartsBlock l) (hannounces : ¬ AnnouncesTotals l) :
    LineKind.ofLine l = .plain ∨ LineKind.ofLine l = .blockFinish := by
  cases h : LineKind.ofLine l with
  | blockStart => exact absurd ((ofLine_eq_blockStart_iff l).mp h) hstart
  | announces p => exact absurd ((exists_announces_iff l).mp ⟨p, h⟩) hannounces
  | plain => exact .inl rfl
  | blockFinish => exact .inr rfl

/-! ## One line -/

/-- A line of a kind, behind a line that left off at `now` with `blocks` blocks started: its own place,
where it leaves off, and how many blocks have been started then. -/
inductive Step (now : Place) (blocks : Nat) : LineKind → Place → Place → Nat → Prop
  | start : Step now blocks .blockStart (.block blocks) (.block blocks) (blocks + 1)
  | finish {n : Nat} (h : now = .block n) :
      Step now blocks .blockFinish (.block n) (.part .select) blocks
  | announce (p : Part) : Step now blocks (.announces p) .marker (.part p) blocks
  | stray (h : ∀ n, now ≠ .block n) : Step now blocks .blockFinish now now blocks
  | plain : Step now blocks .plain now now blocks

theorem placesFrom_step (now : Place) (blocks : Nat) (l : List Char) (ls : List (List Char)) :
    ∃ kind here next count, LineKind.ofLine l = kind ∧ Step now blocks kind here next count ∧
      placesFrom now blocks (l :: ls) = here :: placesFrom next count ls := by
  cases hk : LineKind.ofLine l with
  | blockStart => exact ⟨_, _, _, _, rfl, .start, by simp [placesFrom, hk]⟩
  | announces p => exact ⟨_, _, _, _, rfl, .announce p, by simp [placesFrom, hk]⟩
  | plain => exact ⟨_, _, _, _, rfl, .plain, by simp [placesFrom, hk]⟩
  | blockFinish =>
    cases now with
    | block n => exact ⟨_, _, _, _, rfl, .finish rfl, by simp [placesFrom, hk]⟩
    | part p => exact ⟨_, _, _, _, rfl, .stray (by simp), by simp [placesFrom, hk]⟩
    | marker => exact ⟨_, _, _, _, rfl, .stray (by simp), by simp [placesFrom, hk]⟩

/-- No block but those that have been started is open, and no line leaves off at an announcement. -/
structure Sound (now : Place) (blocks : Nat) : Prop where
  lt_blocks : ∀ n, now = .block n → n < blocks
  ne_marker : now ≠ .marker

theorem sound_select (blocks : Nat) : Sound (.part .select) blocks := ⟨by simp, by simp⟩

variable {now here next : Place} {blocks count m : Nat} {kind : LineKind}

theorem Step.sound (h : Step now blocks kind here next count) (hs : Sound now blocks) :
    Sound next count := by
  cases h with
  | start => exact ⟨by simp, by simp⟩
  | finish _ => exact sound_select blocks
  | announce p => exact ⟨by simp, by simp⟩
  | stray _ => exact hs
  | plain => exact hs

/-! ## All lines -/

/-- A block that has been left gets no further line. -/
theorem findIdxs_left {ls : List (List Char)} (hm : m < blocks) (hnow : now ≠ .block m) (k : Nat) :
    (placesFrom now blocks ls).findIdxs (· == .block m) k = [] := by
  induction ls generalizing now blocks k with
  | nil => rfl
  | cons l ls ih =>
    obtain ⟨kind, here, next, count, -, hstep, he⟩ := placesFrom_step now blocks l ls
    rw [he, List.findIdxs_cons]
    cases hstep with
    | start =>
      have hne : Place.block blocks ≠ .block m := by simp; omega
      simp [hne, ih (by omega : m < blocks + 1) hne]
    | finish h =>
      subst h
      simp [hnow, ih hm (by simp : Place.part .select ≠ .block m)]
    | announce p => simp [ih hm (by simp : Place.part p ≠ .block m)]
    | stray _ => simp [hnow, ih hm hnow]
    | plain => simp [hnow, ih hm hnow]

/-- An open block goes on without a gap. -/
theorem findIdxs_open (hm : m < blocks) (ls : List (List Char)) (k : Nat) :
    ∃ n, (placesFrom (.block m) blocks ls).findIdxs (· == .block m) k = List.range' k n := by
  induction ls generalizing k with
  | nil => exact ⟨0, rfl⟩
  | cons l ls ih =>
    obtain ⟨kind, here, next, count, -, hstep, he⟩ := placesFrom_step (.block m) blocks l ls
    rw [he, List.findIdxs_cons]
    cases hstep with
    | start =>
      have hne : Place.block blocks ≠ .block m := by simp; omega
      exact ⟨0, by simp [hne, findIdxs_left (by omega : m < blocks + 1) hne]⟩
    | finish h =>
      cases h
      exact ⟨1, by simp [findIdxs_left hm (by simp : Place.part .select ≠ .block m)]⟩
    | announce p => exact ⟨0, by simp [findIdxs_left hm (by simp : Place.part p ≠ .block m)]⟩
    | stray h => exact absurd rfl (h m)
    | plain =>
      obtain ⟨n, hn⟩ := ih (k + 1)
      exact ⟨n + 1, by simp [hn, List.range'_succ]⟩

def startIndices (ls : List (List Char)) (k : Nat) : List Nat :=
  ls.findIdxs (fun l => decide (StartsBlock l)) k

theorem startIndices_cons_of_kind {l : List Char} (h : LineKind.ofLine l ≠ .blockStart)
    (ls : List (List Char)) (k : Nat) : startIndices (l :: ls) k = startIndices ls (k + 1) := by
  have : ¬ StartsBlock l := fun hs => h ((ofLine_eq_blockStart_iff l).mpr hs)
  simp [startIndices, List.findIdxs_cons, this]

/-- A block that is still to come is a run, and the start line with its number is the first of it. -/
theorem findIdxs_block {ls : List (List Char)} (hs : Sound now blocks) (hm : blocks ≤ m) (k : Nat) :
    ∃ first n, (placesFrom now blocks ls).findIdxs (· == .block m) k = List.range' first n ∧
      (List.range' first n).head? = (startIndices ls k)[m - blocks]? := by
  induction ls generalizing now blocks k with
  | nil => exact ⟨0, 0, rfl, rfl⟩
  | cons l ls ih =>
    obtain ⟨kind, here, next, count, hk, hstep, he⟩ := placesFrom_step now blocks l ls
    have hsound := hstep.sound hs
    have hnow : now ≠ .block m := fun hb => by
      have := hs.lt_blocks m hb
      omega
    rw [he, List.findIdxs_cons]
    cases hstep with
    | start =>
      have hstart : StartsBlock l := (ofLine_eq_blockStart_iff l).mp hk
      have hcons : startIndices (l :: ls) k = k :: startIndices ls (k + 1) := by
        simp [startIndices, List.findIdxs_cons, hstart]
      by_cases hb : m = blocks
      · subst hb
        obtain ⟨n, hn⟩ := findIdxs_open (Nat.lt_succ_self m) ls (k + 1)
        exact ⟨k, n + 1, by simp [hn, List.range'_succ], by simp [hcons, List.range'_succ]⟩
      · have hne : Place.block blocks ≠ .block m := by simp; omega
        obtain ⟨first, n, hrun, hhead⟩ := ih hsound (by omega) (k + 1)
        refine ⟨first, n, by simpa [hne] using hrun, ?_⟩
        rw [hhead, hcons, show m - blocks = (m - (blocks + 1)) + 1 by omega]
        rfl
    | finish h =>
      subst h
      rw [startIndices_cons_of_kind (by simp [hk])]
      simpa [hnow] using ih hsound hm (k + 1)
    | announce p =>
      rw [startIndices_cons_of_kind (by simp [hk])]
      simpa using ih hsound hm (k + 1)
    | stray _ =>
      rw [startIndices_cons_of_kind (by simp [hk])]
      simpa [hnow] using ih hsound hm (k + 1)
    | plain =>
      rw [startIndices_cons_of_kind (by simp [hk])]
      simpa [hnow] using ih hsound hm (k + 1)

/-- A finish line in a block is its last line. -/
theorem finish_last {ls : List (List Char)} (hs : Sound now blocks) (k : Nat) {i : Nat}
    {l : List Char} (hl : ls[i]? = some l) (hf : FinishesBlock l)
    (hi : k + i ∈ (placesFrom now blocks ls).findIdxs (· == .block m) k) :
    ((placesFrom now blocks ls).findIdxs (· == .block m) k).getLast? = some (k + i) := by
  induction ls generalizing now blocks k i with
  | nil => simp at hl
  | cons l' ls ih =>
    obtain ⟨kind, here, next, count, hk, hstep, he⟩ := placesFrom_step now blocks l' ls
    have hsound := hstep.sound hs
    rw [he, List.findIdxs_cons] at hi ⊢
    cases i with
    | zero =>
      cases hl
      have hnot : ∀ n, k ∉ (placesFrom next count ls).findIdxs (· == .block n) (k + 1) := by
        intro n hn
        have := List.ge_of_mem_findIdxs k hn
        omega
      have hhere : here = .block m := by
        by_contra hne
        simp [hne, hnot m] at hi
      rw [ofLine_of_finishesBlock hf] at hk
      cases hk
      cases hstep with
      | finish h =>
        subst h
        have hlt := hs.lt_blocks _ rfl
        cases hhere
        simp [findIdxs_left hlt (by simp : Place.part .select ≠ .block m)]
      | stray h => exact absurd hhere (h m)
    | succ i =>
      have harith : k + (i + 1) = k + 1 + i := by omega
      rw [harith] at hi ⊢
      have hmem : k + 1 + i ∈ (placesFrom next count ls).findIdxs (· == .block m) (k + 1) := by
        split at hi
        · rcases List.mem_cons.mp hi with hk | hi
          · omega
          · exact hi
        · exact hi
      have hlast := ih hsound (k + 1) hl hmem
      split
      · rw [List.getLast?_cons, hlast]
        rfl
      · exact hlast

/-- Only announcements are dropped, and all of them. -/
theorem findIdxs_marker {ls : List (List Char)} (hs : Sound now blocks) (k : Nat) :
    (placesFrom now blocks ls).findIdxs (· == .marker) k =
      ls.findIdxs (fun l => decide (AnnouncesTotals l)) k := by
  induction ls generalizing now blocks k with
  | nil => rfl
  | cons l ls ih =>
    obtain ⟨kind, here, next, count, hk, hstep, he⟩ := placesFrom_step now blocks l ls
    have hrest := ih (hstep.sound hs) (k + 1)
    have hannounces := exists_announces_iff l
    rw [he, List.findIdxs_cons, List.findIdxs_cons, hrest]
    have hnow := hs.ne_marker
    rw [hk] at hannounces
    cases hstep with
    | start => simp [← hannounces]
    | finish _ => simp [← hannounces]
    | announce p => simp [← hannounces]
    | stray _ => simp [← hannounces, hnow]
    | plain => simp [← hannounces, hnow]

/-! ## The groups of a text -/

/-- The indices of the lines that belong to a place. -/
def indicesAt (p : Place) (ls : List (List Char)) : List Nat := (places ls).findIdxs (· == p)

def lineGroups (ls : List (List Char)) : LineGroups where
  select := indicesAt (.part .select) ls
  total := indicesAt (.part .total) ls
  rowTotals := indicesAt (.part .rowTotals) ls
  grandTotal := indicesAt (.part .grandTotal) ls
  blocks := (List.range (blockCount ls)).map fun n => indicesAt (.block n) ls
  dropped := indicesAt .marker ls

variable (ls : List (List Char))

theorem mem_indicesAt {p : Place} {i : Nat} : i ∈ indicesAt p ls ↔ (places ls)[i]? = some p := by
  rw [indicesAt, List.mem_findIdxs_iff_exists_getElem_pos, List.getElem?_eq_some_iff]
  simp

theorem blockCount_eq : blockCount ls = ls.countP fun l => decide (StartsBlock l) := by
  unfold blockCount
  refine List.countP_congr fun l _ => ?_
  simp [ofLine_eq_blockStart_iff]

/-- The lines at a place are those with its indices. -/
theorem linesAt_eq (p : Place) : linesAt p ls = (indicesAt p ls).filterMap (ls[·]?) := by
  suffices h : ∀ (ps : List Place) (ts : List (List Char)) (k : Nat), ls.drop k = ts →
      ps.length = ts.length → ((ts.zip ps).filter fun e => e.2 == p).map Prod.fst =
        (ps.findIdxs (· == p) k).filterMap (ls[·]?) from
    h (places ls) ls 0 rfl (places_length ls)
  intro ps
  induction ps with
  | nil =>
    intro ts k _ hlen
    cases ts with
    | nil => rfl
    | cons t ts => simp at hlen
  | cons q ps ih =>
    intro ts k hdrop hlen
    cases ts with
    | nil => simp at hlen
    | cons t ts =>
      have hk : ls[k]? = some t := by
        have := congrArg List.head? hdrop
        rwa [List.head?_drop] at this
      have hrest : ls.drop (k + 1) = ts := by rw [← List.drop_drop, hdrop]; rfl
      have := ih ts (k + 1) hrest (by simpa using hlen)
      rw [List.zip_cons_cons, List.filter_cons, List.findIdxs_cons]
      by_cases hq : q = p
      · simp [hq, hk, this]
      · simp [hq, this]

theorem split_eq_segments (raw : List Char) :
    Segments.split raw = (lineGroups (lines raw)).segments (lines raw) := by
  simp [Segments.split, LineGroups.segments, lineGroups, gather, linesAt_eq, Function.comp_def]

theorem indicesAt_block (n : Nat) : ∃ first len, indicesAt (.block n) ls = List.range' first len ∧
    (List.range' first len).head? = (startIndices ls 0)[n]? :=
  findIdxs_block (sound_select 0) (Nat.zero_le n) 0

theorem head?_indicesAt (n : Nat) : (indicesAt (.block n) ls).head? = (startIndices ls 0)[n]? := by
  obtain ⟨first, len, hrun, hhead⟩ := indicesAt_block ls n
  rw [hrun, hhead]

/-- A block of which there is a line has been started. -/
theorem lt_blockCount {n : Nat} (h : .block n ∈ places ls) : n < blockCount ls := by
  obtain ⟨i, hi⟩ := List.getElem?_of_mem h
  have hmem := (mem_indicesAt ls).mpr hi
  have hhead := head?_indicesAt ls n
  rw [blockCount_eq, ← List.length_findIdxs (s := 0)]
  by_contra hle
  have hnone : (startIndices ls 0)[n]? = none := List.getElem?_eq_none (by unfold startIndices; omega)
  rw [hnone, List.head?_eq_none_iff] at hhead
  rw [hhead] at hmem
  cases hmem

/-- The places that lines can have. -/
def allPlaces (blocks : Nat) : List Place :=
  [.part .select, .part .total, .part .rowTotals, .part .grandTotal] ++
    (List.range blocks).map .block ++ [.marker]

theorem nodup_allPlaces (blocks : Nat) : (allPlaces blocks).Nodup := by
  have hblocks : ((List.range blocks).map Place.block).Nodup :=
    List.nodup_range.map fun _ _ h => by simpa using h
  simp [allPlaces, List.nodup_append, hblocks]

theorem mem_allPlaces {p : Place} (h : p ∈ places ls) : p ∈ allPlaces (blockCount ls) := by
  cases p with
  | part p => cases p <;> simp [allPlaces]
  | block n => simp [allPlaces, lt_blockCount ls h]
  | marker => simp [allPlaces]

/-- Taken place by place, the indices of all lines. -/
theorem flatMap_indicesAt_perm :
    ((allPlaces (blockCount ls)).flatMap fun p => indicesAt p ls).Perm (List.range ls.length) := by
  refine (List.perm_ext_iff_of_nodup ?_ List.nodup_range).mpr fun i => ?_
  · refine List.nodup_flatMap.mpr ⟨fun p _ => List.nodup_findIdxs, ?_⟩
    refine (nodup_allPlaces _).imp fun {p q} hne i hp hq => ?_
    rw [mem_indicesAt] at hp hq
    exact hne (Option.some.inj (hp.symm.trans hq))
  · rw [List.mem_flatMap, List.mem_range, ← places_length ls]
    constructor
    · rintro ⟨p, -, hi⟩
      exact (List.getElem?_eq_some_iff.mp ((mem_indicesAt ls).mp hi)).1
    · intro hi
      have hget := List.getElem?_eq_getElem hi
      exact ⟨_, mem_allPlaces ls (List.mem_of_getElem? hget), (mem_indicesAt ls).mpr hget⟩

/-- Blocks are one behind the other: they start so, they have no gaps, and they share no line. -/
theorem indicesAt_block_lt {n n' i j : Nat} (hn : n < n') (hi : i ∈ indicesAt (.block n) ls)
    (hj : j ∈ indicesAt (.block n') ls) : i < j := by
  obtain ⟨first, len, hrun, hhead⟩ := indicesAt_block ls n
  obtain ⟨first', len', hrun', hhead'⟩ := indicesAt_block ls n'
  have hi' := hi
  have hj' := hj
  rw [hrun, List.mem_range'_1] at hi'
  rw [hrun', List.mem_range'_1] at hj'
  have hlen : 0 < len := by omega
  have hlen' : 0 < len' := by omega
  have hstart : (startIndices ls 0)[n]? = some first := by
    rw [← hhead, List.head?_range', if_neg (by omega)]
  have hstart' : (startIndices ls 0)[n']? = some first' := by
    rw [← hhead', List.head?_range', if_neg (by omega)]
  have hfirst : first < first' := by
    obtain ⟨h, rfl⟩ := List.getElem?_eq_some_iff.mp hstart
    obtain ⟨h', rfl⟩ := List.getElem?_eq_some_iff.mp hstart'
    exact List.pairwise_iff_getElem.mp List.pairwise_findIdxs n n' h h' hn
  by_contra hlt
  have hshared : first' ∈ indicesAt (.block n) ls := by
    rw [hrun, List.mem_range'_1]
    omega
  have hown : first' ∈ indicesAt (.block n') ls := by
    rw [hrun', List.mem_range'_1]
    omega
  rw [mem_indicesAt] at hshared hown
  rw [hshared] at hown
  cases hown
  omega

theorem isPartition_lineGroups : (lineGroups ls).IsPartition ls where
  perm := by
    have h := flatMap_indicesAt_perm ls
    simpa [allPlaces, LineGroups.parts, lineGroups, List.flatMap_append, List.flatMap_map,
      List.flatMap_def, Function.comp_def] using h
  mem_dropped i := by
    show i ∈ (placesFrom (.part .select) 0 ls).findIdxs (· == .marker) ↔ _
    rw [findIdxs_marker (sound_select 0), List.mem_findIdxs_iff_exists_getElem_pos]
    simp [List.getElem?_eq_some_iff]
  parts_increasing is his := by
    simp only [LineGroups.parts, lineGroups, List.mem_cons, List.not_mem_nil, or_false] at his
    rcases his with rfl | rfl | rfl | rfl <;> exact List.pairwise_findIdxs
  blocks_increasing := by
    refine List.pairwise_flatten.mpr ⟨fun is his => ?_, List.pairwise_map.mpr ?_⟩
    · obtain ⟨n, -, rfl⟩ := List.mem_map.mp his
      exact List.pairwise_findIdxs
    · exact List.pairwise_lt_range.imp fun hn i hi j hj => indicesAt_block_lt ls hn hi hj
  block_run is his := by
    obtain ⟨n, -, rfl⟩ := List.mem_map.mp his
    obtain ⟨first, len, hrun, -⟩ := indicesAt_block ls n
    exact ⟨first, len, hrun⟩
  start_first i l hl hs := by
    have hmem : i ∈ startIndices ls 0 := by
      rw [startIndices, List.mem_findIdxs_iff_exists_getElem_pos]
      obtain ⟨hlt, rfl⟩ := List.getElem?_eq_some_iff.mp hl
      exact ⟨hlt, decide_eq_true hs⟩
    obtain ⟨n, hn⟩ := List.getElem?_of_mem hmem
    have hlt : n < (startIndices ls 0).length := (List.getElem?_eq_some_iff.mp hn).1
    have hcount : n < blockCount ls := by
      rw [blockCount_eq, ← List.length_findIdxs (s := 0)]
      exact hlt
    refine ⟨n, ⟨indicesAt (.block n) ls, ?_, (head?_indicesAt ls n).trans hn⟩, ?_⟩
    · simp [lineGroups, hcount]
    · rintro n' ⟨is, his, hhead⟩
      simp only [lineGroups, List.getElem?_map, Option.map_eq_some_iff] at his
      obtain ⟨r, hr, rfl⟩ := his
      obtain ⟨hr', rfl⟩ := List.getElem?_eq_some_iff.mp hr
      rw [List.getElem_range, head?_indicesAt] at hhead
      exact ((List.getElem?_inj hlt List.nodup_findIdxs).mp (hn.trans hhead.symm)).symm
  blocks_length := by simp [lineGroups, blockCount_eq]
  finish_last is his i hi l hl hf := by
    obtain ⟨n, -, rfl⟩ := List.mem_map.mp his
    have hi' : 0 + i ∈ (placesFrom (.part .select) 0 ls).findIdxs (· == .block n) 0 := by
      rw [Nat.zero_add]
      exact hi
    have hlast := finish_last (sound_select 0) 0 hl hf hi'
    rw [Nat.zero_add] at hlast
    exact hlast

/-- **No line is lost.** The lines of every text can be put into groups so that each line is in one
group and once, the groups are increasing, each block is a run of lines that a start line begins, and
only announcements are dropped; and the segments of the text are the joined lines of the groups. A text
without start lines and announcements is its own select. -/
theorem split_partition (raw : List Char) :
    (∃ g : LineGroups, g.IsPartition (lines raw) ∧ Segments.split raw = g.segments (lines raw)) ∧
      ((∀ l ∈ lines raw, ¬ StartsBlock l ∧ ¬ AnnouncesTotals l) →
        Segments.split raw = { select := raw }) := by
  refine ⟨⟨_, isPartition_lineGroups (lines raw), split_eq_segments raw⟩, fun h => ?_⟩
  refine split_of_plain fun l hl => ?_
  obtain ⟨hstart, hannounces⟩ := h l hl
  rw [← ofLine_eq_blockStart_iff] at hstart
  rw [← exists_announces_iff] at hannounces
  cases hk : LineKind.ofLine l with
  | blockStart => exact absurd hk hstart
  | announces p => exact absurd ⟨p, hk⟩ hannounces
  | blockFinish => exact .inr rfl
  | plain => exact .inl rfl

/-- Totals in an open block, a block in totals, a block in a block, and a finish line outside. -/
def tangledText : List Char :=
  ("a\n-- generate derived table b\n-- sql for creating the total\nc\n" ++
    " -- generate derived table d\n-- generate derived table e\n-- finished e\n-- finished f").toList

/-- A finish line alone makes no block. -/
def blocklessText : List Char := "SELECT 1\n-- finished nothing\n".toList

theorem split_partition_tangled :
    (∃ g : LineGroups, g.IsPartition (lines tangledText) ∧
      Segments.split tangledText = g.segments (lines tangledText)) ∧
      Segments.split blocklessText = { select := blocklessText } :=
  ⟨(split_partition tangledText).1, (split_partition blocklessText).2 (by decide)⟩

example : lineGroups (lines tangledText) =
    { select := [0, 7], total := [3], rowTotals := [], grandTotal := []
      blocks := [[1], [4], [5, 6]], dropped := [2] } := by
  decide +kernel

end QueryBlend
