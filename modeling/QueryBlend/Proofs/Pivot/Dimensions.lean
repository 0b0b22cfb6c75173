import QueryBlend.Proofs.Pivot.Lists
import QueryBlend.Proofs.Pivot.Wrapper
import QueryBlend.Proofs.Segments
/-!
# The dimensions of a pivot

`Layers` is a pivot as it is written: a line for each layer of ranks, the select inside, and the lines that
close the layers again. The lists of its dimensions are lists of any length, in which a name may come again
and may be asked for nulls first; the select inside is any text that is no block and announces nothing.

Where a list is searched the layers in front of it are passed over: the first computes nothing, the second is
taken to list no dimensions of its own, and in the others there is nothing that starts a list of columns, for
there is no pair `()` but the one of `RANK()` (`between?_columns_eq_none`).

Results:
* `rowNames_text`, `columnNames_text`: the dimensions of a pivot are the names in its two lists.
* `parse_layers`: a pivot is refused exactly if it has several row or several column dimensions, and the
  refusal tells them; otherwise the select inside is taken out, and all else is as it is split.
-/
namespace QueryBlend.Pivot
open Text Text.Form

/-! ## Pivots -/

def isInner (c : Char) : Bool := !(['(', ')', '\n'].contains c)

def isListed (c : Char) : Bool := isInner c && c != '\x22'

/-- A term of a list of dimensions: a column, or whether it is null, and how the term goes on. -/
structure RankTerm where
  name : List Char
  asksNull : Bool := false
  behind : List Char := []
  name_listed : name ≠ [] ∧ name.all isListed = true := by decide
  behind_listed : behind.all isListed = true := by decide

def RankTerm.text (t : RankTerm) : List Char :=
  if t.asksNull then
    "CASE WHEN ".toList ++ (inQuotes t.name ++ (" IS NULL".toList ++ t.behind))
  else inQuotes t.name ++ t.behind

def listText (terms : List RankTerm) : List Char := joinWith ", ".toList (terms.map RankTerm.text)

def rowRankLayer (others : List Char) : List Char :=
  "SELECT *, DENSE_RANK() OVER (ORDER BY z___min_rank) as z___pivot_row_rank".toList ++ (others ++ [' '])

def rowLayer (terms : List RankTerm) : List Char :=
  "SELECT *, MIN(z___rank) OVER (PARTITION BY ".toList ++ (listText terms ++ ") as z___min_rank ".toList)

def rankLayer (ranking : List Char) : List Char :=
  "SELECT *, RANK() OVER (ORDER BY ".toList ++ (ranking ++ ") AS z___rank ".toList)

def columnLayer (terms : List RankTerm) : List Char :=
  "SELECT *, DENSE_RANK() OVER (ORDER BY ".toList ++
    (listText terms ++ ") AS z__pivot_col_rank ".toList)

/-- A pivot around a select. -/
structure Layers where
  rows : List RankTerm
  columns : List RankTerm
  /-- What else is computed with the ranks of the rows. -/
  others : List Char := []
  ranking : List Char
  inner : List Char
  columnCap : List Char
  condition : List Char
  rowCap : List Char
  others_line : '\n' ∉ others := by decide
  others_no_rows : between? rowListStart rowListStop (rowRankLayer others ++ opening) = none := by
    decide +kernel
  others_no_columns : between? columnListStart columnListStop (rowRankLayer others ++ opening) = none := by
    decide +kernel
  ranking_inner : ranking.all isInner = true := by decide
  inner_select : IsSelect (lines inner)
  closing_lines : '\n' ∉ columnCap ∧ '\n' ∉ condition ∧ '\n' ∉ rowCap := by decide

namespace Layers

/-- The lines of the layers, but for what opens the next select. -/
def layers (p : Layers) : List (List Char) :=
  ["SELECT * ".toList, rowRankLayer p.others, rowLayer p.rows, rankLayer p.ranking, columnLayer p.columns]

def closing (p : Layers) : List (List Char) :=
  [") bb WHERE z__pivot_col_rank <= ".toList ++ p.columnCap, ") aa".toList, ") xx".toList, ") zz".toList,
    " WHERE ".toList ++ (p.condition ++ (" AND (z___pivot_row_rank <= ".toList ++
      (p.rowCap ++ ") ORDER BY z___pivot_row_rank".toList)))]

def text (p : Layers) : List Char :=
  p.layers.flatMap (· ++ opening) ++ (p.inner ++ ") ww".toList ++ '\n' :: unlines p.closing)

def rowsListed (p : Layers) : List (List Char) := p.rows.map RankTerm.name

def columnsListed (p : Layers) : List (List Char) := p.columns.map RankTerm.name

end Layers

/-! ## What is listed -/

theorem RankTerm.names (t : RankTerm) : Names t.text [t.name] := by
  have hquote : '\x22' ∉ t.name := not_mem_of_all t.name_listed.2 (by decide)
  have hbehind : '\x22' ∉ t.behind := not_mem_of_all t.behind_listed (by decide)
  have hname := names_inQuotes t.name_listed.1 hquote
  unfold RankTerm.text
  split
  · exact (names_nil (by decide)).append (hname.append ((names_nil (by decide)).append (names_nil hbehind)))
  · exact hname.append (names_nil hbehind)

theorem quotedNames_listText (terms : List RankTerm) :
    quotedNames (listText terms) = terms.map RankTerm.name :=
  (names_joinWith (by decide) terms fun t _ => t.names).eq

/-- What cannot stand in parentheses is not in a list. -/
theorem not_mem_listText {c : Char} (hc : isInner c = false) (terms : List RankTerm) :
    c ∉ listText terms := by
  have hlisted {s : List Char} (h : s.all isListed = true) : c ∉ s :=
    not_mem_of_all (all_imp h fun h => (Bool.and_eq_true_iff.mp h).1) hc
  have hfixed {s : List Char} (h : s.all isInner = true) : c ∉ s := not_mem_of_all h hc
  have hquoted (t : RankTerm) : c ∉ inQuotes t.name := by
    have hmark : c ∉ ['\x22'] := hfixed (by decide)
    have hname := hlisted t.name_listed.2
    simp only [inQuotes, List.mem_cons, List.mem_append] at hmark ⊢
    exact fun h => h.elim (fun h => hmark (.inl h)) fun h => h.elim hname hmark
  intro hmem
  rcases mem_joinWith hmem with hmem | ⟨text, htext, hmem⟩
  · exact hfixed (by decide) hmem
  · obtain ⟨t, -, rfl⟩ := List.mem_map.mp htext
    unfold RankTerm.text at hmem
    have hcase : c ∉ "CASE WHEN ".toList ∧ c ∉ " IS NULL".toList := ⟨hfixed (by decide), hfixed (by decide)⟩
    split at hmem <;> simp only [List.mem_append, hcase, hquoted t, hlisted t.behind_listed, or_self] at hmem

/-- A list does not start with a blank, whatever is behind it, unless that does. -/
theorem stops_listText (terms : List RankTerm) {t : List Char} (ht : Stops isBlank t) :
    Stops isBlank (listText terms ++ t) := by
  cases terms with
  | nil => exact ht
  | cons term terms =>
    have hterm (u : List Char) : Stops isBlank (term.text ++ u) := by
      unfold RankTerm.text
      split <;> exact stops_cons (by decide +kernel) _
    cases terms with
    | nil => exact hterm t
    | cons next terms =>
      have hcons : listText (term :: next :: terms) ++ t =
          term.text ++ (", ".toList ++ listText (next :: terms) ++ t) := by
        rw [listText, List.map_cons, joinWith_cons _ _ (by simp)]
        simp only [listText, List.append_assoc]
      exact hcons ▸ hterm _

/-! ## Where the lists are found -/

variable {start stop : Form} {a b t w : List Char}

/-- A list is found in its layer. -/
theorem between?_listText (hs : Begins start w) (ha : clashes (w.map fold) (a.map fold) = true)
    (hb : b ≠ []) (hread : ∀ u, Stops isBlank u → start (b ++ u) = some u) (hstop : Begins stop [')'])
    (hend : (stop t).isSome = true) (ht : t.head? = some ')') (terms : List RankTerm) :
    between? start stop (a ++ (b ++ (listText terms ++ t))) = some (listText terms) := by
  have hblank : Stops isBlank t := by
    intro c hc
    rw [ht] at hc
    cases hc
    decide +kernel
  have hne : t ≠ [] := by
    rintro rfl
    cases ht
  have hlist : upTo? stop (listText terms ++ t) = some (listText terms) :=
    upTo?_eq_some hstop (not_mem_listText (by decide) terms) (not_mem_listText (by decide) terms) hne hend
  obtain ⟨c, cs, hcons⟩ := List.exists_cons_of_ne_nil hb
  have hhere := hread _ (stops_listText terms hblank)
  rw [between?_behind hs ha]
  rw [hcons, List.cons_append] at hhere ⊢
  rw [between?, hhere, Option.bind_some, hlist, Option.some_or]

theorem rowListStart_append {u : List Char} (hu : Stops isBlank u) :
    rowListStart ("MIN(z___rank) OVER (PARTITION BY ".toList ++ u) = some u := by
  have hblanks : rowListStart ("MIN(z___rank) OVER (PARTITION BY ".toList ++ u) = blanks (' ' :: u) := rfl
  rw [hblanks, blanks_space hu]

theorem columnListStart_append {u : List Char} (hu : Stops isBlank u) :
    columnListStart ("DENSE_RANK() OVER (ORDER BY ".toList ++ u) = some u := by
  have hblanks : columnListStart ("DENSE_RANK() OVER (ORDER BY ".toList ++ u) = blanks (' ' :: u) := rfl
  rw [hblanks, blanks_space hu]

/-- The list of rows is found in its layer. -/
theorem between?_rowLayer (terms : List RankTerm) :
    between? rowListStart rowListStop (rowLayer terms ++ opening) = some (listText terms) := by
  have hcut : rowLayer terms ++ opening = "SELECT *, ".toList ++ ("MIN(z___rank) OVER (PARTITION BY ".toList ++
      (listText terms ++ (") as z___min_rank ".toList ++ opening))) := by
    have hfront : "SELECT *, MIN(z___rank) OVER (PARTITION BY ".toList =
        "SELECT *, ".toList ++ "MIN(z___rank) OVER (PARTITION BY ".toList := by decide
    unfold rowLayer
    rw [hfront]
    simp only [List.append_assoc]
  rw [hcut]
  exact between?_listText (begins_word "MIN(" _) (by decide) (by decide) (fun _ => rowListStart_append)
    (begins_literal ")" _) (by decide +kernel) (by decide) terms

/-- The list of columns is found in its layer. -/
theorem between?_columnLayer (terms : List RankTerm) :
    between? columnListStart columnListStop (columnLayer terms ++ opening) = some (listText terms) := by
  have hcut : columnLayer terms ++ opening = "SELECT *, ".toList ++ ("DENSE_RANK() OVER (ORDER BY ".toList ++
      (listText terms ++ (") AS z__pivot_col_rank ".toList ++ opening))) := by
    have hfront : "SELECT *, DENSE_RANK() OVER (ORDER BY ".toList =
        "SELECT *, ".toList ++ "DENSE_RANK() OVER (ORDER BY ".toList := by decide
    unfold columnLayer
    rw [hfront]
    simp only [List.append_assoc]
  rw [hcut]
  exact between?_listText (begins_word "DENSE_RANK()" _) (by decide) (by decide)
    (fun _ => columnListStart_append) (begins_literal ")" _) (by decide +kernel) (by decide) terms

/-- No list of columns starts behind a front that cannot start one, where no parentheses make a pair. -/
theorem between?_columns_eq_none {front mid back : List Char}
    (hfront : clashes ("DENSE_RANK()".toList.map fold) (front.map fold) = true) (hmid : '(' ∉ mid)
    (hback : ¬ ['(', ')'] <:+: back.map fold) :
    between? columnListStart columnListStop (front ++ (mid ++ back)) = none := by
  refine between?_eq_none (begins_word "DENSE_RANK()" _) fun h => ?_
  rw [List.map_append] at h
  have hword : ['(', ')'] <:+: "DENSE_RANK()".toList.map fold := by decide
  have hpair := hword.trans (infix_of_clashes hfront h)
  have hparen : '(' ∉ mid.map fold := fun h => by
    obtain ⟨c, hc, he⟩ := List.mem_map.mp h
    exact hmid (eq_of_fold_eq (by decide) he ▸ hc)
  rw [List.map_append, pair_infix_append_iff] at hpair
  rcases hpair with hpair | hpair | ⟨hlast, -⟩
  · exact hparen (hpair.subset List.mem_cons_self)
  · exact hback hpair
  · exact hparen (List.mem_of_getLast? hlast)

theorem between?_columns_rowLayer (terms : List RankTerm) :
    between? columnListStart columnListStop (rowLayer terms ++ opening) = none := by
  unfold rowLayer
  rw [List.append_assoc, List.append_assoc]
  exact between?_columns_eq_none (by decide) (not_mem_listText (by decide) terms) (by decide)

theorem between?_columns_rankLayer {ranking : List Char} (h : ranking.all isInner = true) :
    between? columnListStart columnListStop (rankLayer ranking ++ opening) = none := by
  unfold rankLayer
  rw [List.append_assoc, List.append_assoc]
  exact between?_columns_eq_none (by decide) (not_mem_of_all h (by decide)) (by decide)

/-! ## Lines that mark nothing -/

/-- A line whose front starts with no hyphen marks nothing. -/
theorem ofLine_append {front : List Char} (hne : trimStart front ≠ [])
    (h : Stops (· == '-') (trimStart front)) (rest : List Char) :
    LineKind.ofLine (front ++ rest) = .plain ∨ LineKind.ofLine (front ++ rest) = .blockFinish := by
  have hblank : isAllBlank front = false := Bool.eq_false_iff.mpr fun hb => hne (trimStart_of_blank hb)
  have hmarker {w : List Char} (hw : w.head? = some '-') : ¬ w <+: trimStart (front ++ rest) := by
    rintro ⟨t, ht⟩
    have hhead := congrArg List.head? ht
    rw [trimStart_append_of_not_blank hblank, List.head?_append_of_ne_nil _ hne, List.head?_append, hw] at hhead
    exact absurd (h '-' hhead.symm) (by decide)
  refine ofLine_of_silent (hmarker (by decide)) ?_
  rintro ⟨c, hc, hpre⟩
  have hheads : ∀ c ∈ totalComments, c.toList.head? = some '-' := by decide
  exact hmarker (hheads c hc) hpre

/-- What marks nothing does not if a parenthesis and more is put behind it. -/
theorem ofLine_append_paren {l : List Char} (h : LineKind.ofLine l = .plain ∨ LineKind.ofLine l = .blockFinish)
    (t : List Char) :
    LineKind.ofLine (l ++ ')' :: t) = .plain ∨ LineKind.ofLine (l ++ ')' :: t) = .blockFinish := by
  have hmarker {w : List Char} (hw : w.all (· != ')') = true) (hpre : w <+: trimStart (l ++ ')' :: t)) :
      w <+: trimStart l := by
    rw [trimStart_append_cons (by decide +kernel)] at hpre
    exact prefix_run hw (stops_cons (by decide) t) hpre
  refine ofLine_of_silent (fun hstart => ?_) ?_
  · have hkind := (ofLine_eq_blockStart_iff l).mpr (hmarker (by decide) hstart)
    rw [hkind] at h
    simp at h
  · rintro ⟨c, hc, hpre⟩
    have hall : ∀ c ∈ totalComments, c.toList.all (· != ')') = true := by decide
    obtain ⟨q, hkind⟩ := (exists_announces_iff l).mpr ⟨c, hc, hmarker (hall c hc) hpre⟩
    rw [hkind] at h
    simp at h

namespace Layers

variable (p : Layers)

theorem between?_rows_text : between? rowListStart rowListStop p.text = some (listText p.rows) := by
  have hfirst : between? rowListStart rowListStop ("SELECT * ".toList ++ opening) = none := by decide +kernel
  rw [text, between?_layers stays_rowListStart stays_rowListStop, layers]
  simp only [List.findSome?_cons, hfirst, p.others_no_rows, between?_rowLayer, Option.some_or]

theorem between?_columns_text :
    between? columnListStart columnListStop p.text = some (listText p.columns) := by
  have hfirst : between? columnListStart columnListStop ("SELECT * ".toList ++ opening) = none := by
    decide +kernel
  rw [text, between?_layers stays_columnListStart stays_columnListStop, layers]
  simp only [List.findSome?_cons, hfirst, p.others_no_columns, between?_columns_rowLayer,
    between?_columns_rankLayer p.ranking_inner, between?_columnLayer, Option.some_or]

theorem rowNames_text : rowNames p.text = distinctSorted p.rowsListed := by
  rw [rowNames, listedNames, between?_rows_text]
  exact congrArg distinctSorted (quotedNames_listText p.rows)

theorem columnNames_text : columnNames p.text = distinctSorted p.columnsListed := by
  rw [columnNames, listedNames, between?_columns_text]
  exact congrArg distinctSorted (quotedNames_listText p.columns)

/-! ## The select inside -/

/-- There is a select inside: its end is found, and in front of that the first layer opens one. -/
theorem innermost?_text : ∃ inner, innermost? p.text = some inner := by
  have hclose : plainStop.readAt (p.layers.flatMap (· ++ opening) ++ p.inner).getLast?
      (") ww".toList ++ '\n' :: unlines p.closing) = some ('\n' :: unlines p.closing) := rfl
  obtain ⟨close, hfind, hbefore⟩ := Pattern.exists_find?_le (by simp) hclose
  have htext : p.layers.flatMap (· ++ opening) ++ p.inner ++ (") ww".toList ++ '\n' :: unlines p.closing) =
      p.text := by
    unfold text
    simp only [List.append_assoc]
  rw [htext] at hfind
  obtain ⟨hcut, -, hform⟩ := Pattern.find?_eq_some _ hfind
  obtain ⟨u, hu, -⟩ := seq_eq_some_iff.mp hform
  have hhere : close.here = ')' :: u := (behind?_eq_some_iff _ _ _).mp hu
  have hfirst : ∃ rest, p.text = ("SELECT * ".toList ++ "FROM (".toList) ++ rest := ⟨_, rfl⟩
  obtain ⟨rest, hrest⟩ := hfirst
  rw [hrest] at hcut
  obtain ⟨v, hv, -⟩ | ⟨v, hv, hparen, hne⟩ := append_eq_append_cases hcut
  · have hread : plainStart.readAt "SELECT * ".toList.getLast? ("FROM (".toList ++ v) = some v := rfl
    obtain ⟨f, hf, -⟩ := Pattern.exists_find?_le (by simp) hread
    rw [← List.append_assoc, ← hv] at hf
    have hspans : (plainStart.spans close.before).getLast? ≠ none :=
      mt List.getLast?_eq_none_iff.mp (Pattern.spansFrom_ne_nil hf 0)
    obtain ⟨span, hspan⟩ := Option.ne_none_iff_exists'.mp hspans
    exact ⟨_, by rw [innermost?, hfind, Option.bind_eq_bind, Option.bind_some, hspan]; rfl⟩
  · -- nothing is closed in the first layer
    have hmem : ')' ∈ v := by
      cases v with
      | nil => exact absurd rfl hne
      | cons c v =>
        rw [hhere, List.cons_append, List.cons.injEq] at hparen
        exact hparen.1 ▸ List.mem_cons_self
    have hlayer : ')' ∈ "SELECT * ".toList ++ "FROM (".toList := hv ▸ List.mem_append_right _ hmem
    exact absurd hlayer (by decide)

theorem isWrapped_text : isWrapped p.text = true := by
  have hcap : rankColumn <:+: ") bb WHERE z__pivot_col_rank <= ".toList := by decide
  have hline : ") bb WHERE z__pivot_col_rank <= ".toList <+: unlines p.closing := by
    rw [closing, unlines_cons, List.append_assoc]
    exact List.prefix_append _ _
  have htext : unlines p.closing <:+ p.text := by
    rw [text, ← List.append_assoc]
    exact (List.suffix_cons _ _).trans (List.suffix_append _ _)
  rw [isWrapped, hasPart_iff]
  exact (hcap.trans hline.isInfix).trans htext.isInfix

/-! ## The lines -/

theorem feed_notMem_layers {l : List Char} (h : l ∈ p.layers) : '\n' ∉ l := by
  have hjoin {s t : List Char} (hs : '\n' ∉ s) (ht : '\n' ∉ t) : '\n' ∉ s ++ t :=
    fun h => (List.mem_append.mp h).elim hs ht
  have hlist (terms : List RankTerm) : '\n' ∉ listText terms := not_mem_listText (by decide) terms
  have hranking : '\n' ∉ p.ranking := not_mem_of_all p.ranking_inner (by decide)
  simp only [layers, List.mem_cons, List.not_mem_nil, or_false] at h
  rcases h with rfl | rfl | rfl | rfl | rfl
  · decide
  · exact hjoin (by decide) (hjoin p.others_line (by decide))
  · exact hjoin (by decide) (hjoin (hlist _) (by decide))
  · exact hjoin (by decide) (hjoin hranking (by decide))
  · exact hjoin (by decide) (hjoin (hlist _) (by decide))

theorem select_prefix_layers {l : List Char} (h : l ∈ p.layers) : "SELECT *".toList <+: l := by
  have hfront {s : List Char} (h : "SELECT *".toList <+: s) (t : List Char) : "SELECT *".toList <+: s ++ t :=
    h.trans (List.prefix_append _ _)
  simp only [layers, List.mem_cons, List.not_mem_nil, or_false] at h
  rcases h with rfl | rfl | rfl | rfl | rfl
  · decide
  · exact hfront (by decide) _
  · exact hfront (by decide) _
  · exact hfront (by decide) _
  · exact hfront (by decide) _

theorem feed_notMem_closing {l : List Char} (h : l ∈ p.closing) : '\n' ∉ l := by
  have hjoin {s t : List Char} (hs : '\n' ∉ s) (ht : '\n' ∉ t) : '\n' ∉ s ++ t :=
    fun h => (List.mem_append.mp h).elim hs ht
  obtain ⟨hcolumn, hcondition, hrow⟩ := p.closing_lines
  simp only [closing, List.mem_cons, List.not_mem_nil, or_false] at h
  rcases h with rfl | rfl | rfl | rfl | rfl
  · exact hjoin (by decide) hcolumn
  · decide
  · decide
  · decide
  · exact hjoin (by decide) (hjoin hcondition (hjoin (by decide) (hjoin hrow (by decide))))

theorem ofLine_closing {l : List Char} (h : l ∈ p.closing) :
    LineKind.ofLine l = .plain ∨ LineKind.ofLine l = .blockFinish := by
  simp only [closing, List.mem_cons, List.not_mem_nil, or_false] at h
  rcases h with rfl | rfl | rfl | rfl | rfl
  · exact ofLine_append (by decide +kernel) (by decide +kernel) _
  · exact .inl (by decide +kernel)
  · exact .inl (by decide +kernel)
  · exact .inl (by decide +kernel)
  · exact ofLine_append (by decide +kernel) (by decide +kernel) _

theorem lines_text : ∃ front last, lines p.inner = front ++ [last] ∧ lines p.text =
    p.layers.map (· ++ "FROM (".toList) ++ (front ++ [last ++ ") ww".toList] ++ p.closing) := by
  obtain ⟨front, last, hinner, hlast⟩ := exists_lines_append p.inner (t := ") ww".toList) (by decide)
  refine ⟨front, last, hinner, ?_⟩
  have hopening : opening = "FROM (".toList ++ ['\n'] := by decide
  have hfeed : p.layers.flatMap (· ++ opening) =
      (p.layers.map (· ++ "FROM (".toList)).flatMap (· ++ ['\n']) := by
    simp only [List.flatMap_map, hopening, List.append_assoc]
  have hlayers : ∀ l ∈ p.layers.map (· ++ "FROM (".toList), '\n' ∉ l := by
    intro l hl
    obtain ⟨layer, hlayer, rfl⟩ := List.mem_map.mp hl
    rw [List.mem_append, not_or]
    exact ⟨p.feed_notMem_layers hlayer, by decide⟩
  have hclosing : lines (unlines p.closing) = p.closing :=
    lines_unlines (by simp [closing]) fun _ => p.feed_notMem_closing
  rw [text, hfeed, lines_flatMap_feed hlayers, lines_feed, hlast, hclosing]

theorem split_text : Segments.split p.text = { select := p.text } := by
  obtain ⟨front, last, hinner, hlines⟩ := p.lines_text
  have hselect : ∀ l ∈ front ++ [last], LineKind.ofLine l = .plain ∨ LineKind.ofLine l = .blockFinish :=
    hinner ▸ p.inner_select
  refine split_of_plain fun l hl => ?_
  rw [hlines] at hl
  rcases List.mem_append.mp hl with hl | hl
  · obtain ⟨layer, hlayer, rfl⟩ := List.mem_map.mp hl
    obtain ⟨rest, rfl⟩ := p.select_prefix_layers hlayer
    rw [List.append_assoc]
    exact ofLine_append (by decide +kernel) (by decide +kernel) _
  rcases List.mem_append.mp hl with hl | hl
  · rcases List.mem_append.mp hl with hl | hl
    · exact hselect l (List.mem_append_left _ hl)
    · rw [List.mem_singleton] at hl
      exact hl ▸ ofLine_append_paren (hselect last (by simp)) _
  · exact p.ofLine_closing hl

theorem flatSelect_error (h : Several p.rowsListed ∨ Several p.columnsListed) :
    flatSelect p.text = .error ⟨distinctSorted p.rowsListed, distinctSorted p.columnsListed⟩ := by
  obtain ⟨inner, hinner⟩ := p.innermost?_text
  rw [flatSelect, hinner, p.rowNames_text, p.columnNames_text]
  exact if_pos (h.imp one_lt_length_distinctSorted_iff.mpr one_lt_length_distinctSorted_iff.mpr)

theorem flatSelect_ok (h : ¬ (Several p.rowsListed ∨ Several p.columnsListed)) :
    ∃ flat, flatSelect p.text = .ok flat := by
  obtain ⟨inner, hinner⟩ := p.innermost?_text
  rw [flatSelect, hinner, p.rowNames_text, p.columnNames_text]
  exact ⟨_, if_neg (mt (Or.imp one_lt_length_distinctSorted_iff.mp one_lt_length_distinctSorted_iff.mp) h)⟩

theorem parse_text : Segments.parse p.text =
    (flatSelect p.text).map fun flat => { Segments.split p.text with select := flat, pivot := p.text } := by
  unfold Segments.parse
  simp only [split_text, isWrapped_text, if_true]
  cases flatSelect p.text <;> rfl

end Layers

/-- **Dimensions.** A pivot is refused exactly if it lists two different row dimensions or two different column
dimensions, and the refusal tells all of them, in their order; otherwise the select inside is taken out, and
the rest is as it is split. -/
theorem parse_layers (p : Layers) :
    ((∃ e, Segments.parse p.text = .error e) ↔ Several p.rowsListed ∨ Several p.columnsListed) ∧
    (∀ e, Segments.parse p.text = .error e →
      Ascending e.rows ∧ (∀ name, name ∈ e.rows ↔ name ∈ p.rowsListed) ∧
        Ascending e.columns ∧ ∀ name, name ∈ e.columns ↔ name ∈ p.columnsListed) ∧
    (¬ (Several p.rowsListed ∨ Several p.columnsListed) →
      ∃ flat, flatSelect p.text = .ok flat ∧
        Segments.parse p.text = .ok { Segments.split p.text with select := flat, pivot := p.text }) := by
  rw [p.parse_text]
  by_cases hseveral : Several p.rowsListed ∨ Several p.columnsListed
  · rw [p.flatSelect_error hseveral]
    refine ⟨iff_of_true ⟨_, rfl⟩ hseveral, fun e he => ?_, fun h => absurd hseveral h⟩
    cases he
    exact ⟨ascending_distinctSorted _, fun _ => mem_distinctSorted, ascending_distinctSorted _,
      fun _ => mem_distinctSorted⟩
  · obtain ⟨flat, hflat⟩ := p.flatSelect_ok hseveral
    rw [hflat]
    refine ⟨iff_of_false (fun ⟨e, he⟩ => ?_) hseveral, fun e he => ?_, fun _ => ⟨flat, rfl, rfl⟩⟩
    · cases he
    · cases he

/-- A pivot over one row dimension, nulls first, and one column dimension, each of them listed twice. -/
def listedTwice : Layers where
  rows := [{ name := "v.a".toList, asksNull := true, behind := " THEN 1 ELSE 0 END".toList },
    { name := "v.a".toList, behind := " DESC".toList }]
  columns := [{ name := "v.b".toList }, { name := "v.b".toList }]
  others := ", RANK() OVER (PARTITION BY z__pivot_col_rank ORDER BY z___min_rank) as z__ordering".toList
  ranking := "\"v.a\" DESC, z__pivot_col_rank".toList
  inner := "SELECT a FROM (SELECT 1 AS a) ww\n-- finished".toList
  columnCap := "16384".toList
  condition := "(z__pivot_col_rank = 1)".toList
  rowCap := "500".toList
  inner_select := by
    unfold IsSelect
    decide +kernel

theorem parse_layers_twice : ∃ flat, flatSelect listedTwice.text = .ok flat ∧ Segments.parse listedTwice.text =
    .ok { Segments.split listedTwice.text with select := flat, pivot := listedTwice.text } := by
  refine (parse_layers listedTwice).2.2 ?_
  have hrows : listedTwice.rowsListed = ["v.a".toList, "v.a".toList] := rfl
  have hcolumns : listedTwice.columnsListed = ["v.b".toList, "v.b".toList] := rfl
  simp [Several, hrows, hcolumns]

end QueryBlend.Pivot
