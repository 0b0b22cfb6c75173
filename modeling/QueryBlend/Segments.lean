import QueryBlend.Pivot
/-!
# The segments of a generated query

The SQL generated for one query can hold more than a select: blocks that build derived tables in front
of it, and selects for its totals behind it. Lines that are comments of a fixed wording say where each
part starts. `places` assigns every line to its part, and `Segments.split` collects the lines.

A block starts with its start line and ends with its finish line; the start of another block or of
totals also ends it. The comments that announce totals belong to no part.

Results:
* `places_length`: every line has a place.
* `split_of_plain`: a text without start lines and announcements is its own select.
-/
namespace QueryBlend
open Text

/-- The parts that are made of lines from anywhere in the text. -/
inductive Part where
  | select
  | total
  | rowTotals
  | grandTotal
  deriving DecidableEq, Repr

/-- Where a line belongs: to a part, to the `n`th block, or nowhere because it announces a part. -/
inductive Place where
  | part (p : Part)
  | block (n : Nat)
  | marker
  deriving DecidableEq, Repr

inductive LineKind where
  | blockStart
  | blockFinish
  | announces (p : Part)
  | plain
  deriving DecidableEq, Repr

def blockStartMarker : List Char := "-- generate derived table".toList

def blockFinishMarker : List Char := "-- finished".toList

/-- The comments that announce totals. -/
def totalMarkers : List (List Char × Part) :=
  [("-- sql for creating the pivot row totals".toList, .rowTotals),
    ("-- sql for creating the grand totals".toList, .grandTotal),
    ("-- sql for creating the total".toList, .total)]

/-- What a line says, by how it starts behind its indentation. -/
def LineKind.ofLine (line : List Char) : LineKind :=
  let l := trimStart line
  if blockStartMarker.isPrefixOf l then .blockStart
  else if blockFinishMarker.isPrefixOf l then .blockFinish
  else match totalMarkers.find? fun m => m.1.isPrefixOf l with
    | some m => .announces m.2
    | none => .plain

/-- The places of lines, when the line in front of them left off at `now` and `blocks` blocks have been
started. -/
def placesFrom (now : Place) (blocks : Nat) : List (List Char) → List Place
  | [] => []
  | l :: ls =>
    match LineKind.ofLine l, now with
    | .blockStart, _ => .block blocks :: placesFrom (.block blocks) (blocks + 1) ls
    | .blockFinish, .block n => .block n :: placesFrom (.part .select) blocks ls
    | .announces p, _ => .marker :: placesFrom (.part p) blocks ls
    | _, _ => now :: placesFrom now blocks ls

def places (ls : List (List Char)) : List Place := placesFrom (.part .select) 0 ls

/-- The lines that belong to a place, in their order. -/
def linesAt (p : Place) (ls : List (List Char)) : List (List Char) :=
  ((ls.zip (places ls)).filter fun e => e.2 == p).map Prod.fst

def blockCount (ls : List (List Char)) : Nat := ls.countP fun l => LineKind.ofLine l == .blockStart

/-- The parts of one query's SQL; a part that is not there is empty. -/
structure Segments where
  /-- The blocks that build derived tables, start and finish lines included. -/
  blocks : List (List Char) := []
  select : List Char := []
  total : List Char := []
  rowTotals : List Char := []
  grandTotal : List Char := []
  /-- The pivot around the select, when the select has been taken out of one. -/
  pivot : List Char := []
  deriving DecidableEq, Repr

namespace Segments

/-- The text with its lines put where they belong; a pivot stays in the select. -/
def split (raw : List Char) : Segments :=
  let ls := lines raw
  { blocks := (List.range (blockCount ls)).map fun n => unlines (linesAt (.block n) ls)
    select := unlines (linesAt (.part .select) ls)
    total := unlines (linesAt (.part .total) ls)
    rowTotals := unlines (linesAt (.part .rowTotals) ls)
    grandTotal := unlines (linesAt (.part .grandTotal) ls) }

/-- The segments of a text, the select taken out of its pivot. -/
def parse (raw : List Char) : Except UnsupportedPivot Segments := do
  let s := split raw
  if Pivot.isWrapped s.select then
    let flat ← Pivot.flatSelect s.select
    return { s with select := flat, pivot := s.select }
  else
    return s

end Segments

/-! ## Laws -/

theorem placesFrom_length (now : Place) (blocks : Nat) (ls : List (List Char)) :
    (placesFrom now blocks ls).length = ls.length := by
  induction ls generalizing now blocks with
  | nil => rfl
  | cons l ls ih => simp only [placesFrom]; split <;> simp [ih]

theorem places_length (ls : List (List Char)) : (places ls).length = ls.length :=
  placesFrom_length _ _ _

/-- Lines that start no block and announce nothing all belong to the select. -/
theorem placesFrom_of_plain {ls : List (List Char)}
    (h : ∀ l ∈ ls, LineKind.ofLine l = .plain ∨ LineKind.ofLine l = .blockFinish) (blocks : Nat) :
    placesFrom (.part .select) blocks ls = ls.map fun _ => .part .select := by
  induction ls with
  | nil => rfl
  | cons l ls ih =>
    have hl := h l (by simp)
    have := ih fun m hm => h m (List.mem_cons_of_mem _ hm)
    rcases hl with hl | hl <;> simp [placesFrom, hl, this]

theorem places_of_plain {ls : List (List Char)}
    (h : ∀ l ∈ ls, LineKind.ofLine l = .plain ∨ LineKind.ofLine l = .blockFinish) :
    places ls = ls.map fun _ => .part .select := placesFrom_of_plain h 0

theorem linesAt_of_plain {ls : List (List Char)}
    (h : ∀ l ∈ ls, LineKind.ofLine l = .plain ∨ LineKind.ofLine l = .blockFinish) (p : Place) :
    linesAt p ls = if p = .part .select then ls else [] := by
  rw [linesAt, places_of_plain h]
  induction ls with
  | nil => simp
  | cons l ls ih =>
    have := ih fun m hm => h m (List.mem_cons_of_mem _ hm)
    by_cases hp : p = .part .select
    · subst hp
      simpa using this
    · have hp' : ¬ (Place.part .select = p) := fun e => hp e.symm
      simpa [hp, hp'] using this

theorem split_of_plain {raw : List Char}
    (h : ∀ l ∈ lines raw, LineKind.ofLine l = .plain ∨ LineKind.ofLine l = .blockFinish) :
    Segments.split raw = { select := raw } := by
  have hc : blockCount (lines raw) = 0 := by
    rw [blockCount, List.countP_eq_zero]
    intro l hl
    rcases h l hl with e | e <;> simp [e]
  simpa [Segments.split, hc, linesAt_of_plain h, unlines, joinWith] using unlines_lines raw

end QueryBlend
