import QueryBlend.Proofs.Pivot.OrderAndCap
/-!
# Selects through a pivot

A pivot is unwrapped by one set of patterns, and the clauses that the unwrapping adds are stripped again
by another. `Wraps` says of a pivot what the unwrapping looks for in it; of the select inside it says only
that no other select starts there, so it may be any text.

Results:
* `innermost?_of_wraps`: the select inside a pivot is what is between its opening and its closing.
* `stripTrailing_flatSelect`: unwrapped and stripped, the select is back as it was, with its row dimension
  first; where the limit is to be respected, the order and the row cap of the pivot are behind it.
-/
namespace QueryBlend.Pivot
open Text Text.Form Sql

variable {head inner tail n : List Char}

/-! ## The opening of a select -/

theorem takes_plainStart_rest : Takes (gap >=> literal "(") (fold · != fold 'F') :=
  (takes_many fun _ hc => of_isBlank (p := (fold · != fold 'F')) (by decide +kernel) hc).seq
    (takes_literal (by decide))

theorem startsOnce_plainStart : plainStart.StartsOnce 'f' :=
  Pattern.startsOnce_word (a := 'F') rfl (by decide) takes_plainStart_rest

/-- What opens a select ends in a parenthesis, and opens it whatever is behind. -/
theorem form_plainStart_append {here : List Char} (h : plainStart.form here = some []) (t : List Char) :
    here.getLast? = some '(' ∧ plainStart.form (here ++ t) = some t := by
  obtain ⟨u, hu, h⟩ := seq_eq_some_iff.mp h
  obtain ⟨v, hv, hparen⟩ := seq_eq_some_iff.mp h
  obtain ⟨w, rfl, hw⟩ := spelled_eq_some_iff.mp hu
  obtain ⟨g, rfl, hg⟩ := takes_blankGap u v hv
  obtain rfl : v = ['('] := (behind?_eq_some_iff _ _ _).mp hparen
  refine ⟨by simp, ?_⟩
  have hword : word "FROM" (w ++ (g ++ '(' :: t)) = some (g ++ '(' :: t) :=
    spelled_eq_some_iff.mpr ⟨w, rfl, hw⟩
  have hgap : gap (g ++ '(' :: t) = some ('(' :: t) :=
    congrArg some (dropWhile_stop hg (stops_cons (by decide) t))
  rw [List.append_assoc, List.append_assoc, List.singleton_append]
  exact seq_eq hword (seq_eq hgap (literal_append "(" t))

/-- Whether a text ends in what opens a select: the word `FROM` in either case, and a parenthesis. -/
def Opens (head : List Char) : Prop :=
  ∃ before here, head = before ++ here ∧ here ≠ [] ∧ plainStart.readAt before.getLast? here = some []

/-- The last opening of a select is the one at the end of the text in front of it. -/
theorem spans_plainStart (h : Opens head) (hi : plainStart.occursIn inner = false) :
    ((plainStart.spans (head ++ inner)).getLast?).map Prod.snd = some head.length := by
  obtain ⟨before, here, rfl, hne, hread⟩ := h
  obtain ⟨hlast, hform⟩ := form_plainStart_append (Pattern.form_of_readAt hread) inner
  have hparen : (some '(').any isWord = (none : Option Char).any isWord := by decide
  have hnone : plainStart.findFrom here.getLast? inner = none := by
    rw [hlast, Pattern.findFrom_congr hparen]
    exact Pattern.find?_eq_none_of_occursIn hi
  obtain ⟨spans, hspans⟩ :=
    Pattern.spans_concat startsOnce_plainStart hne (Pattern.readAt_of_form hread hform) hnone
  rw [List.append_assoc, hspans]
  simp

/-! ## Unwrapping -/

/-- A pivot around a select, over at most one row and one column dimension, ordered by the rank of its
rows and capped at `n` of them. -/
structure Wraps (head inner tail n : List Char) : Prop where
  opens : Opens head
  opens_once : plainStart.occursIn inner = false
  closes : (plainStop.find? (head ++ inner ++ tail)).map Found.before = some (head ++ inner)
  row : (rowNames (head ++ inner ++ tail)).length ≤ 1
  column : (columnNames (head ++ inner ++ tail)).length ≤ 1
  ranked : rankOrder.occursIn (head ++ inner ++ tail) = true
  bound : rowBound? (head ++ inner ++ tail) = some n

/-- The select with its row dimension first, if the pivot names both of its dimensions. -/
def arranged (wrapper select : List Char) : List Char :=
  match rowNames wrapper, columnNames wrapper with
  | row :: _, column :: _ => rowFirst select row column
  | _, _ => select

theorem innermost?_of_wraps (h : Wraps head inner tail n) :
    innermost? (head ++ inner ++ tail) = some (trim inner) := by
  obtain ⟨close, hclose, hbefore⟩ := Option.map_eq_some_iff.mp h.closes
  obtain ⟨⟨i, j⟩, hspan, hj⟩ := Option.map_eq_some_iff.mp (spans_plainStart h.opens h.opens_once)
  obtain rfl : j = head.length := hj
  rw [innermost?, hclose]
  simp [hbefore, hspan]

theorem flatSelect_of_wraps (h : Wraps head inner tail n) {select : List Char}
    (hselect : arranged (head ++ inner ++ tail) (trim inner) = select)
    (horder : lastAtTop? orderBy select = none) :
    flatSelect (head ++ inner ++ tail) = .ok (select ++ orderClause ++ capClause n) := by
  have hnames : ¬ (1 < (rowNames (head ++ inner ++ tail)).length ∨
      1 < (columnNames (head ++ inner ++ tail)).length) := by
    have := h.row
    have := h.column
    omega
  rw [← withCap_withOrder h.ranked h.bound horder, ← hselect, flatSelect, innermost?_of_wraps h]
  exact if_neg hnames

/-- A closed select without an order of its own comes through a pivot. It may end in a row cap or in
semicolons: the clauses of the pivot are behind them, and only those are stripped. -/
theorem stripTrailing_flatSelect (h : Wraps head inner tail n) {select : List Char}
    (hselect : arranged (head ++ inner ++ tail) (trim inner) = select)
    (hblank : isAllBlank select = false) (hclosed : isClosed select = true)
    (horder : lastAtTop? orderBy select = none) (htotals : totals.occursIn select = false) :
    ∃ flat, flatSelect (head ++ inner ++ tail) = .ok flat ∧ stripTrailing flat false = trim select ∧
      stripTrailing flat true = trimStart select ++ orderClause ++ capClause n :=
  ⟨_, flatSelect_of_wraps h hselect horder,
    stripTrailing_orderAndCap hblank hclosed htotals (isNumber_of_rowBound? h.bound)⟩

/-- A select that ends in a comment and has its column dimension first. -/
def commented : List Char :=
  ["\nSELECT\n", "    t.b AS \"t.b\",\n", "    t.a AS \"t.a\"\n", "FROM t -- LIMIT 5\n"].flatMap
    String.toList

def commentedRowFirst : List Char :=
  ["SELECT\n", "    t.a AS \"t.a\",\n", "    t.b AS \"t.b\"\n", "FROM t -- LIMIT 5"].flatMap String.toList

def pivotHead : List Char :=
  ["SELECT *, MIN(z___rank) OVER ", "(PARTITION BY \"t.a\") as z___min_rank", " FROM (\n",
    "SELECT *, DENSE_RANK() OVER ", "(ORDER BY \"t.b\") AS z__pivot_col_rank ", "FROM ("].flatMap
    String.toList

def pivotTail : List Char :=
  [") ww\n", ") aa WHERE (z___pivot_row_rank <= 500)", " ORDER BY z___pivot_row_rank"].flatMap
    String.toList

theorem distinctSorted_singleton (name : List Char) : distinctSorted [name] = [name] := by
  have : [name].eraseDups = [name] := rfl
  simp [distinctSorted, this]

theorem rowNames_commented : rowNames (pivotHead ++ commented ++ pivotTail) = ["t.a".toList] := by
  have hlist : between? rowListStart rowListStop (pivotHead ++ commented ++ pivotTail) =
      some "\"t.a\"".toList := by decide +kernel
  have hnames : quotedNames "\"t.a\"".toList = ["t.a".toList] := by decide +kernel
  simp only [rowNames, listedNames, hlist, hnames, distinctSorted_singleton]

theorem columnNames_commented : columnNames (pivotHead ++ commented ++ pivotTail) = ["t.b".toList] := by
  have hlist : between? columnListStart columnListStop (pivotHead ++ commented ++ pivotTail) =
      some "\"t.b\"".toList := by decide +kernel
  have hnames : quotedNames "\"t.b\"".toList = ["t.b".toList] := by decide +kernel
  simp only [columnNames, listedNames, hlist, hnames, distinctSorted_singleton]

theorem wraps_commented : Wraps pivotHead commented pivotTail "500".toList where
  opens := ⟨pivotHead.take (pivotHead.length - 6), "FROM (".toList, by decide +kernel⟩
  opens_once := by decide +kernel
  closes := by decide +kernel
  row := by
    rw [rowNames_commented]
    exact Nat.le_refl 1
  column := by
    rw [columnNames_commented]
    exact Nat.le_refl 1
  ranked := by decide +kernel
  bound := by decide +kernel

theorem arranged_commented :
    arranged (pivotHead ++ commented ++ pivotTail) (trim commented) = commentedRowFirst := by
  simp only [arranged, rowNames_commented, columnNames_commented]
  decide +kernel

theorem stripTrailing_flatSelect_commented :
    ∃ flat, flatSelect (pivotHead ++ commented ++ pivotTail) = .ok flat ∧
      stripTrailing flat false = commentedRowFirst ∧
      stripTrailing flat true = commentedRowFirst ++ orderClause ++ capClause "500".toList := by
  have htrim : trim commentedRowFirst = commentedRowFirst ∧
      trimStart commentedRowFirst = commentedRowFirst := by decide +kernel
  obtain ⟨flat, hflat, hfalse, htrue⟩ := stripTrailing_flatSelect wraps_commented arranged_commented
    (by decide +kernel) (by decide +kernel) (by decide +kernel) (by decide +kernel)
  rw [htrim.1] at hfalse
  rw [htrim.2] at htrue
  exact ⟨flat, hflat, hfalse, htrue⟩

end QueryBlend.Pivot
