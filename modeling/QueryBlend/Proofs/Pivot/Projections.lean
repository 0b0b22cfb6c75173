import QueryBlend.Proofs.Pivot.Enclosed
import QueryBlend.Proofs.Pivot.Lists
import QueryBlend.Sql.Layout
/-!
# The row dimension first

`rowFirst` exchanges two lines of a select, and it means two projections of its list. A projection ends in the
line with its name, and that line is found by its ending; what is above it in a longer expression stays where it
is. So for a list of projections of any layout, on lines of their own:

* **Lines.** The lines of a list are those of its projections, one after the other, with commas at their ends
  (`lines_listing`), and a line ends like a projection of another name only if the names are the same but for
  letter case (`projects_ending_iff`).
* **The exchange.** What is exchanged makes a list of projections again: the two exchange the last lines of
  their expressions along with their names (`Projection.endingAs`).

Results:
* `rowFirst_text`: the row dimension comes first, and all projections are as before exactly if it did, or if
  what is above the last lines of the two is the same.
* `rowFirst_case`: an expression of several lines is torn apart.
-/
namespace QueryBlend.Pivot
open Text Sql

/-- An expression under a name. -/
structure Projection where
  expression : List Char
  name : List Char
  deriving DecidableEq

namespace Projection

/-- The lines of the expression above its last. -/
def upper (p : Projection) : List (List Char) := (lines p.expression).dropLast

def last (p : Projection) : List Char := (lines p.expression).getLast (lines_ne_nil _)

def naming (p : Projection) : List Char := " AS ".toList ++ inQuotes p.name

def text (p : Projection) : List Char := p.expression ++ p.naming

def ending (p : Projection) : List Char := p.last ++ p.naming

/-- The projection with its last line exchanged for that of another one. -/
def endingAs (p q : Projection) : Projection := ⟨unlines (p.upper ++ [q.last]), q.name⟩

def squeezed (p : Projection) : List Char × List Char := (p.name, squeeze p.expression)

end Projection

/-- The projections, each on lines of its own. -/
def listing (ps : List Projection) : List Char := joinWith ",\n".toList (ps.map Projection.text)

/-- A list of projections between the lines of a select. -/
def selectText (front : List (List Char)) (ps : List Projection) (behind : List (List Char)) : List Char :=
  front.flatMap (· ++ ['\n']) ++ (listing ps ++ behind.flatMap ('\n' :: ·))

/-- The same projections in whatever order, but for blanks. -/
def SameProjections (ps qs : List Projection) : Prop :=
  (ps.map Projection.squeezed).Perm (qs.map Projection.squeezed)

/-- The place of a name in a list of projections. -/
def placeOf (name : List Char) (ps : List Projection) : Nat := (ps.map Projection.name).idxOf name

/-! ## The lines of a list -/

namespace Projection

variable (p q : Projection)

theorem lines_expression : lines p.expression = p.upper ++ [p.last] :=
  (List.dropLast_append_getLast (lines_ne_nil _)).symm

theorem feed_notMem {l : List Char} (h : l ∈ p.upper ++ [p.last]) : '\n' ∉ l :=
  not_mem_of_mem_lines (p.lines_expression ▸ h)

theorem lines_append {t : List Char} (ht : '\n' ∉ t) :
    lines (p.expression ++ t) = p.upper ++ [p.last ++ t] := by
  obtain ⟨front, last, hlast, happend⟩ := exists_lines_append p.expression ht
  rw [lines_expression] at hlast
  obtain ⟨rfl, hsame⟩ := List.append_inj' hlast rfl
  rw [happend, List.singleton_inj.mp hsame]

/-- The lines of the projection with that last line. -/
theorem lines_endingAs : lines (p.endingAs q).expression = p.upper ++ [q.last] := by
  refine lines_unlines (by simp) fun l hl => ?_
  rcases List.mem_append.mp hl with hl | hl
  · exact p.feed_notMem (List.mem_append_left _ hl)
  · exact q.feed_notMem (List.mem_append_right _ hl)

theorem upper_endingAs : (p.endingAs q).upper = p.upper := by
  rw [upper, lines_endingAs, List.dropLast_concat]

theorem ending_endingAs : (p.endingAs q).ending = q.ending := by
  have hlast : (p.endingAs q).last = q.last := by
    simp only [last, lines_endingAs, List.getLast_concat]
  rw [ending, hlast]
  rfl

/-- The lines of the projection with a comma or nothing behind it. -/
def linesWith (comma : List Char) : List (List Char) := p.upper ++ [p.ending ++ comma]

theorem lines_text_append (hname : '\n' ∉ p.name) {comma : List Char} (hcomma : '\n' ∉ comma) :
    lines (p.text ++ comma) = p.linesWith comma := by
  have hnaming : '\n' ∉ p.naming ++ comma := by
    simp only [naming, inQuotes, List.mem_append, List.mem_cons, List.not_mem_nil, or_false, not_or]
    exact ⟨⟨by decide, by decide, hname, by decide⟩, hcomma⟩
  rw [text, List.append_assoc, p.lines_append hnaming, linesWith, ending, List.append_assoc]

end Projection

/-- The comma behind a projection if others follow. -/
def commaBefore (ps : List Projection) : List Char := if ps = [] then [] else [',']

theorem commaBefore_cases (ps : List Projection) : commaBefore ps = [] ∨ commaBefore ps = [','] := by
  rw [commaBefore]
  split
  · exact .inl rfl
  · exact .inr rfl

def listingLines : List Projection → List (List Char)
  | [] => []
  | p :: ps => p.linesWith (commaBefore ps) ++ listingLines ps

theorem lines_listing {ps : List Projection} (hne : ps ≠ []) (hnames : ∀ p ∈ ps, '\n' ∉ p.name) :
    lines (listing ps) = listingLines ps := by
  induction ps with
  | nil => exact absurd rfl hne
  | cons p ps ih =>
    have hp := hnames p List.mem_cons_self
    by_cases hps : ps = []
    · subst hps
      have htext : lines (p.text ++ []) = p.linesWith [] := p.lines_text_append hp List.not_mem_nil
      rw [List.append_nil] at htext
      rw [listing, List.map_singleton, joinWith, htext]
      exact (List.append_nil _).symm
    · have hcut : listing (p :: ps) = (p.text ++ [',']) ++ '\n' :: listing ps := by
        have hsep : ",\n".toList = [',', '\n'] := by decide
        rw [listing, List.map_cons, joinWith_cons _ _ (by simpa using hps), hsep]
        simp [listing]
      rw [hcut, lines_feed, p.lines_text_append hp (by decide), listingLines,
        ih hps fun q hq => hnames q (List.mem_cons_of_mem _ hq), commaBefore, if_neg hps]

theorem listingLines_append (ps : List Projection) (p : Projection) (qs : List Projection) :
    listingLines (ps ++ p :: qs) =
      ps.flatMap (·.linesWith [',']) ++ (p.linesWith (commaBefore qs) ++ listingLines qs) := by
  induction ps with
  | nil => rfl
  | cons q ps ih =>
    rw [List.cons_append, listingLines, ih, commaBefore, if_neg (by simp), List.flatMap_cons, List.append_assoc]

theorem lines_behind (t : List Char) {behind : List (List Char)} (h : ∀ l ∈ behind, '\n' ∉ l) :
    lines (t ++ behind.flatMap ('\n' :: ·)) = lines t ++ behind := by
  induction behind generalizing t with
  | nil => rw [List.flatMap_nil, List.append_nil, List.append_nil]
  | cons l ls ih =>
    rw [List.flatMap_cons, List.cons_append, lines_feed, ih l fun m hm => h m (List.mem_cons_of_mem _ hm),
      lines_of_not_mem (h l List.mem_cons_self)]
    rfl

theorem lines_selectText {front behind : List (List Char)} {ps : List Projection}
    (hfront : ∀ l ∈ front, '\n' ∉ l) (hbehind : ∀ l ∈ behind, '\n' ∉ l) (hne : ps ≠ [])
    (hnames : ∀ p ∈ ps, '\n' ∉ p.name) :
    lines (selectText front ps behind) = front ++ (listingLines ps ++ behind) := by
  rw [selectText, lines_flatMap_feed hfront, lines_behind _ hbehind, lines_listing hne hnames]

/-! ## Where a projection is found -/

theorem quote_notMem_lower {s : List Char} (h : '\x22' ∉ s) : '\x22' ∉ s.map lowerAscii := by
  intro hmem
  obtain ⟨c, hc, he⟩ := List.mem_map.mp hmem
  have hfold : fold c = '\x22' := by
    rw [fold]
    split
    · rename_i hs
      exact absurd (hs ▸ he) (by decide)
    · split
      · rename_i hk
        exact absurd (hk ▸ he) (by decide)
      · exact he
  exact h (eq_of_fold_eq (by decide) hfold ▸ hc)

/-- Behind the last quote of two texts is the same. -/
theorem eq_of_quote_suffix {u v n m : List Char} (hn : '\x22' ∉ n) (hm : '\x22' ∉ m)
    (h : u ++ '\x22' :: n = v ++ '\x22' :: m) : n = m := by
  obtain ⟨x, -, hx⟩ | ⟨x, -, hx, hne⟩ := append_eq_append_cases h
  · cases x with
    | nil => exact (List.cons.inj hx).2
    | cons c x =>
      have hmem : '\x22' ∈ n := by rw [(List.cons.inj hx).2]; simp
      exact absurd hmem hn
  · cases x with
    | nil => exact absurd rfl hne
    | cons c x =>
      have hmem : '\x22' ∈ m := by rw [(List.cons.inj hx).2]; simp
      exact absurd hmem hm

/-- What stands in front of a comma at the end of a line is its body. -/
theorem bodyAndComma_comma (body : List Char) : bodyAndComma (body ++ [',']) = (body, [',']) := by
  have hline : trimEnd (body ++ [',']) = body ++ [','] := dropEnd_of_getLast? List.getLast?_concat (by decide)
  have hlast : beforeLast? ',' (body ++ [',']) = some body := by
    rw [beforeLast?, List.getLast?_concat, if_pos rfl, List.dropLast_concat]
  rw [bodyAndComma, hline]
  simp only [hlast]

/-- A line that ends in a quote, but for blanks, has no comma. -/
theorem bodyAndComma_quote {line : List Char} (h : (trimEnd line).getLast? = some '\x22') :
    bodyAndComma line = (trimEnd line, []) := by
  have hlast : beforeLast? ',' (trimEnd line) = none := by
    rw [beforeLast?, h]
    rfl
  rw [bodyAndComma]
  simp only [hlast]

namespace Projection

variable (p q : Projection)

theorem getLast?_ending : p.ending.getLast? = some '\x22' := by
  rw [ending, naming, inQuotes, ← List.append_assoc, ← List.cons_append, ← List.append_assoc]
  exact List.getLast?_concat

/-- The last line of a projection, with a comma or nothing behind it, is what it is put together from. -/
theorem bodyAndComma_ending {comma : List Char} (h : comma = [] ∨ comma = [',']) :
    bodyAndComma (p.ending ++ comma) = (p.ending, comma) := by
  have hbody : trimEnd p.ending = p.ending := dropEnd_of_getLast? p.getLast?_ending (by decide)
  rcases h with rfl | rfl
  · rw [List.append_nil, bodyAndComma_quote (hbody.symm ▸ p.getLast?_ending), hbody]
  · exact bodyAndComma_comma p.ending

theorem projects_eq (name line : List Char) : projects name line =
    (("AS ".toList ++ inQuotes name).map lowerAscii).isSuffixOf
      ((trimEnd (bodyAndComma line).1).map lowerAscii) := by
  have hending : "AS \"".toList ++ name ++ "\"".toList = "AS ".toList ++ inQuotes name := by
    have hfront : "AS \"".toList = "AS ".toList ++ ['\x22'] := by decide
    rw [hfront, inQuotes, List.append_assoc, List.append_assoc]
    rfl
  rw [projects, bodyAndComma]
  simp only [hending]
  cases beforeLast? ',' (trimEnd line) <;> rfl

/-- A line that a projection ends with is found by its name, in whatever letter case, and by no other. -/
theorem projects_ending_iff {name comma : List Char} (hname : '\x22' ∉ name) (hp : '\x22' ∉ p.name)
    (h : comma = [] ∨ comma = [',']) :
    projects name (p.ending ++ comma) = true ↔ name.map lowerAscii = p.name.map lowerAscii := by
  have hbody : trimEnd p.ending = p.ending := dropEnd_of_getLast? p.getLast?_ending (by decide)
  have hquoted (n : List Char) : (inQuotes n).map lowerAscii = '\x22' :: (n.map lowerAscii ++ ['\x22']) := by
    simp [inQuotes, show lowerAscii '\x22' = '\x22' by decide]
  rw [projects_eq, p.bodyAndComma_ending h, hbody, List.isSuffixOf_iff_suffix, ending, naming,
    List.map_append, List.map_append, List.map_append, hquoted, hquoted]
  constructor
  · rintro ⟨x, hx⟩
    simp only [← List.cons_append, ← List.append_assoc] at hx
    have hx := List.append_cancel_right hx
    simp only [List.append_assoc] at hx
    exact eq_of_quote_suffix (quote_notMem_lower hname) (quote_notMem_lower hp)
      (u := x ++ "AS ".toList.map lowerAscii) (v := p.last.map lowerAscii ++ " AS ".toList.map lowerAscii)
      (by simpa only [List.append_assoc] using hx)
  · intro hsame
    have has : " AS ".toList.map lowerAscii = [' '] ++ "AS ".toList.map lowerAscii := by decide
    rw [hsame, has]
    exact ⟨p.last.map lowerAscii ++ [' '], by simp only [List.append_assoc]⟩

end Projection

/-! ## Lists of projections -/

/-- A select with a list of projections on lines of its own, under names that differ in more than letter case. -/
structure SelectList where
  front : List (List Char) := []
  projections : List Projection
  behind : List (List Char) := []
  front_lines : ∀ l ∈ front, '\n' ∉ l := by decide
  behind_lines : ∀ l ∈ behind, '\n' ∉ l := by decide
  names_plain : ∀ p ∈ projections, '\x22' ∉ p.name ∧ '\n' ∉ p.name := by decide
  names_differ : (projections.map fun p => p.name.map lowerAscii).Nodup := by decide

namespace SelectList

variable (s : SelectList)

def text : List Char := selectText s.front s.projections s.behind

/-- The lines that are not the last of a projection. -/
def otherLines : List (List Char) := s.front ++ s.projections.flatMap Projection.upper

/-- The projection is one of the list, and no other line ends like it. -/
structure Names (p : Projection) : Prop where
  mem : p ∈ s.projections
  once : ∀ l ∈ s.otherLines, projects p.name l = false

variable {s} {p : Projection} {a b : List Projection}

theorem names_ne (hcut : s.projections = a ++ p :: b) {q : Projection} (hq : q ∈ a ++ b) :
    q.name.map lowerAscii ≠ p.name.map lowerAscii := by
  have hnodup := s.names_differ
  rw [hcut, List.map_append, List.map_cons, List.nodup_middle, List.nodup_cons, ← List.map_append] at hnodup
  exact fun he => hnodup.1 (he ▸ List.mem_map_of_mem hq)

/-- The line of a projection is found. -/
theorem Names.findIdx? (h : s.Names p) (hcut : s.projections = a ++ p :: b) :
    (lines s.text).findIdx? (projects p.name) =
      some (s.front ++ (a.flatMap (·.linesWith [',']) ++ p.upper)).length := by
  have hlines : lines s.text = s.front ++ (a.flatMap (·.linesWith [',']) ++ p.upper) ++
      (p.ending ++ commaBefore b) :: (listingLines b ++ s.behind) := by
    rw [text, lines_selectText s.front_lines s.behind_lines (List.ne_nil_of_mem h.mem) fun q hq =>
      (s.names_plain q hq).2, hcut, listingLines_append, Projection.linesWith]
    simp only [List.append_assoc, List.cons_append, List.nil_append]
  have hplain := s.names_plain p h.mem
  rw [hlines]
  refine findIdx?_first _ (fun l hl => ?_) ((p.projects_ending_iff hplain.1 hplain.1 (commaBefore_cases b)).mpr rfl)
  have hupper {q : Projection} (hq : q ∈ s.projections) (hl : l ∈ q.upper) : l ∈ s.otherLines :=
    List.mem_append_right _ (List.mem_flatMap.mpr ⟨q, hq, hl⟩)
  rcases List.mem_append.mp hl with hl | hl
  · exact h.once l (List.mem_append_left _ hl)
  rcases List.mem_append.mp hl with hl | hl
  · obtain ⟨q, hqa, hl⟩ := List.mem_flatMap.mp hl
    have hq : q ∈ s.projections := hcut ▸ List.mem_append_left _ hqa
    rcases List.mem_append.mp hl with hl | hl
    · exact h.once l (hupper hq hl)
    · rw [List.mem_singleton.mp hl, Bool.eq_false_iff, Ne,
        q.projects_ending_iff hplain.1 (s.names_plain q hq).1 (.inr rfl)]
      exact (names_ne hcut (List.mem_append_left b hqa)).symm
  · exact h.once l (hupper h.mem hl)

end SelectList

/-! ## The exchange -/

/-- The list with the last lines of two of its projections exchanged. -/
def exchanged (row column : Projection) (ps : List Projection) : List Projection :=
  ps.map fun p =>
    if p.name = column.name then column.endingAs row
    else if p.name = row.name then row.endingAs column
    else p

def rowMoved (row column : Projection) (ps : List Projection) : List Projection :=
  if placeOf column.name ps < placeOf row.name ps then exchanged row column ps else ps

section

variable {a b c : List Projection} {p q : Projection}

theorem lines_two {front behind : List (List Char)} (hfront : ∀ l ∈ front, '\n' ∉ l)
    (hbehind : ∀ l ∈ behind, '\n' ∉ l) (hnames : ∀ r ∈ a ++ p :: (b ++ q :: c), '\n' ∉ r.name) :
    lines (selectText front (a ++ p :: (b ++ q :: c)) behind) =
      (front ++ (a.flatMap (·.linesWith [',']) ++ p.upper)) ++ (p.ending ++ [',']) ::
        ((b.flatMap (·.linesWith [',']) ++ q.upper) ++ (q.ending ++ commaBefore c) ::
          (listingLines c ++ behind)) := by
  have hcomma : commaBefore (b ++ q :: c) = [','] := if_neg (by simp)
  rw [lines_selectText hfront hbehind (by simp) hnames, listingLines_append, listingLines_append, hcomma,
    Projection.linesWith, Projection.linesWith]
  simp only [List.append_assoc, List.cons_append, List.nil_append]

theorem placeOf_eq (h : p.name ∉ a.map Projection.name) (b : List Projection) :
    placeOf p.name (a ++ p :: b) = a.length := by
  rw [placeOf, List.map_append, List.map_cons, List.idxOf_append_of_notMem h, List.idxOf_cons_self,
    List.length_map, Nat.add_zero]

end

namespace SelectList

variable {s : SelectList} {row column : Projection} {a b c : List Projection}

theorem cut_second {p q : Projection} (hcut : s.projections = a ++ p :: (b ++ q :: c)) :
    s.projections = (a ++ p :: b) ++ q :: c := by
  rw [hcut, List.append_assoc, List.cons_append]

/-- Where the column dimension comes first, the two exchange their last lines. -/
theorem rowFirst_exchanged (hrow : s.Names row) (hcolumn : s.Names column)
    (hcut : s.projections = a ++ column :: (b ++ row :: c)) :
    rowFirst s.text row.name column.name =
      selectText s.front (a ++ column.endingAs row :: (b ++ row.endingAs column :: c)) s.behind := by
  have hnames : ∀ p ∈ a ++ column :: (b ++ row :: c), '\n' ∉ p.name :=
    hcut ▸ fun p hp => (s.names_plain p hp).2
  have hr := hrow.findIdx? (cut_second hcut)
  have hc := hcolumn.findIdx? hcut
  -- the line of the row dimension is behind that of the column dimension
  have hindex : s.front ++ ((a ++ column :: b).flatMap (·.linesWith [',']) ++ row.upper) =
      (s.front ++ (a.flatMap (·.linesWith [',']) ++ column.upper)) ++ (column.ending ++ [',']) ::
        (b.flatMap (·.linesWith [',']) ++ row.upper) := by
    simp only [List.flatMap_append, List.flatMap_cons, Projection.linesWith, List.append_assoc,
      List.cons_append, List.nil_append]
  have hlines := lines_two s.front_lines s.behind_lines hnames
  rw [← hcut, ← text] at hlines
  have hmoved : ∀ p ∈ a ++ column.endingAs row :: (b ++ row.endingAs column :: c), '\n' ∉ p.name := by
    intro p hp
    simp only [List.mem_append, List.mem_cons] at hp
    rcases hp with hp | rfl | hp | rfl | hp
    · exact hnames p (by simp [hp])
    · exact hnames row (by simp)
    · exact hnames p (by simp [hp])
    · exact hnames column (by simp)
    · exact hnames p (by simp [hp])
  have hafter := lines_two s.front_lines s.behind_lines hmoved
  rw [Projection.upper_endingAs, Projection.upper_endingAs, Projection.ending_endingAs,
    Projection.ending_endingAs] at hafter
  rw [rowFirst, hr, hc]
  simp only []
  rw [if_pos (by rw [hindex]; simp only [List.length_append, List.length_cons]; omega), hindex, hlines,
    swapBodies_append, row.bodyAndComma_ending (commaBefore_cases c), column.bodyAndComma_ending (.inr rfl), ← hafter,
    unlines_lines]

/-- Where it does not, all stays as it is. -/
theorem rowFirst_kept (hrow : s.Names row) (hcolumn : s.Names column)
    (hcut : s.projections = a ++ row :: (b ++ column :: c)) :
    rowFirst s.text row.name column.name = s.text := by
  have hc := hcolumn.findIdx? (cut_second hcut)
  have hr := hrow.findIdx? hcut
  rw [rowFirst, hr, hc]
  simp only []
  rw [if_neg]
  simp only [List.flatMap_append, List.flatMap_cons, Projection.linesWith, List.length_append]
  omega

theorem rowFirst_self (h : s.Names row) : rowFirst s.text row.name row.name = s.text := by
  obtain ⟨a, b, hcut⟩ := List.append_of_mem h.mem
  rw [rowFirst, h.findIdx? hcut]
  exact if_neg (Nat.lt_irrefl _)

/-! ## The same projections -/

theorem name_notMem (hcut : s.projections = a ++ row :: b) : row.name ∉ a.map Projection.name := by
  intro hmem
  obtain ⟨q, hq, he⟩ := List.mem_map.mp hmem
  exact names_ne hcut (List.mem_append_left b hq) (congrArg (List.map lowerAscii) he)

theorem placeOf_cut (hcut : s.projections = a ++ row :: b) : placeOf row.name s.projections = a.length :=
  hcut ▸ placeOf_eq (name_notMem hcut) b

theorem eq_of_name_eq {p q : Projection} (hp : p ∈ s.projections) (hq : q ∈ s.projections)
    (h : p.name = q.name) : p = q :=
  List.inj_on_of_nodup_map s.names_differ hp hq (congrArg (List.map lowerAscii) h)

theorem exchanged_eq (hcut : s.projections = a ++ column :: (b ++ row :: c)) :
    exchanged row column s.projections = a ++ column.endingAs row :: (b ++ row.endingAs column :: c) := by
  have hcut' := cut_second hcut
  have hother {q : Projection} (hq : q ∈ a ++ (b ++ c)) : q.name ≠ column.name ∧ q.name ≠ row.name := by
    simp only [List.mem_append] at hq
    refine ⟨fun he => names_ne hcut ?_ (congrArg (List.map lowerAscii) he),
      fun he => names_ne hcut' ?_ (congrArg (List.map lowerAscii) he)⟩
    · simp only [List.mem_append, List.mem_cons]
      tauto
    · simp only [List.mem_append, List.mem_cons]
      tauto
  have hkeep {l : List Projection} (hl : l ⊆ a ++ (b ++ c)) : exchanged row column l = l := by
    refine (List.map_congr_left fun q hq => ?_).trans (List.map_id l)
    rw [if_neg (hother (hl hq)).1, if_neg (hother (hl hq)).2]
    rfl
  have hne : row.name ≠ column.name := fun he =>
    names_ne hcut' (q := column) (by simp) (congrArg (List.map lowerAscii) he.symm)
  have ha := hkeep (l := a) (by simp)
  have hb := hkeep (l := b) (by simp)
  have hc := hkeep (l := c) (by simp)
  rw [exchanged] at ha hb hc
  rw [hcut, exchanged, List.map_append, List.map_cons, List.map_append, List.map_cons, ha, hb, hc,
    if_pos rfl, if_neg hne, if_pos rfl]

end SelectList

theorem squeeze_unlines (ls : List (List Char)) : squeeze (unlines ls) = ls.flatMap squeeze := by
  induction ls with
  | nil => rfl
  | cons l ls ih =>
    rw [unlines_cons, squeeze_append, List.flatMap_cons]
    split
    · rename_i hnil
      rw [hnil]
      rfl
    · rw [← ih]
      rfl

/-- What is above the last line of an expression, and that line. -/
theorem squeeze_expression (p : Projection) :
    squeeze p.expression = squeeze (unlines p.upper) ++ squeeze p.last := by
  have hlines : p.expression = unlines (p.upper ++ [p.last]) := by
    rw [← p.lines_expression, unlines_lines]
  rw [hlines, squeeze_unlines, squeeze_unlines, List.flatMap_append, List.flatMap_singleton]

theorem squeezed_endingAs (p q : Projection) :
    (p.endingAs q).squeezed = (q.name, squeeze (unlines p.upper) ++ squeeze q.last) := by
  rw [Projection.squeezed, Projection.endingAs, squeeze_unlines, squeeze_unlines, List.flatMap_append,
    List.flatMap_singleton]

namespace SelectList

variable {s : SelectList} {row column : Projection} {a b c : List Projection}

/-- The exchange makes other projections unless the two are the same above their last lines. -/
theorem sameProjections_exchanged_iff (hcut : s.projections = a ++ column :: (b ++ row :: c)) :
    SameProjections (exchanged row column s.projections) s.projections ↔
      squeeze (unlines row.upper) = squeeze (unlines column.upper) := by
  have hrow : row ∈ s.projections := by rw [hcut]; simp
  rw [exchanged_eq hcut, SameProjections]
  constructor
  · intro hperm
    have hmem : (column.endingAs row).squeezed ∈ s.projections.map Projection.squeezed :=
      hperm.subset (List.mem_map_of_mem (by simp))
    obtain ⟨p, hp, he⟩ := List.mem_map.mp hmem
    rw [squeezed_endingAs, Projection.squeezed, Prod.mk.injEq] at he
    obtain rfl := eq_of_name_eq hp hrow he.1
    rw [squeeze_expression] at he
    exact List.append_cancel_right he.2
  · intro hupper
    have hfirst : (column.endingAs row).squeezed = row.squeezed := by
      rw [squeezed_endingAs, Projection.squeezed, squeeze_expression, hupper]
    have hsecond : (row.endingAs column).squeezed = column.squeezed := by
      rw [squeezed_endingAs, Projection.squeezed, squeeze_expression, hupper]
    rw [hcut]
    simp only [List.map_append, List.map_cons, hfirst, hsecond]
    exact perm_exchange _ _ _ _ _

/-- Of two projections of a list one comes first. -/
theorem exists_order (hrow : row ∈ s.projections) (hcolumn : column ∈ s.projections) :
    (∃ a b c, s.projections = a ++ row :: (b ++ column :: c)) ∨ row = column ∨
      ∃ a b c, s.projections = a ++ column :: (b ++ row :: c) := by
  obtain ⟨a, b, hcut⟩ := List.append_of_mem hcolumn
  rw [hcut] at hrow
  rcases List.mem_append.mp hrow with hrow | hrow
  · obtain ⟨a, d, rfl⟩ := List.append_of_mem hrow
    exact .inl ⟨a, d, b, by rw [hcut, List.append_assoc, List.cons_append]⟩
  rcases List.mem_cons.mp hrow with rfl | hrow
  · exact .inr (.inl rfl)
  · obtain ⟨d, c, rfl⟩ := List.append_of_mem hrow
    exact .inr (.inr ⟨a, d, c, hcut⟩)

theorem placeOf_second (hcut : s.projections = a ++ column :: (b ++ row :: c)) :
    placeOf row.name s.projections = a.length + 1 + b.length := by
  have hcut' := cut_second hcut
  rw [placeOf_cut hcut', List.length_append, List.length_cons]
  omega

/-- After the exchange the row dimension is in front. -/
theorem placeOf_exchanged (hcut : s.projections = a ++ column :: (b ++ row :: c)) :
    placeOf row.name (exchanged row column s.projections) ≤
      placeOf column.name (exchanged row column s.projections) := by
  have hcut' := cut_second hcut
  have hrow : (column.endingAs row).name ∉ a.map Projection.name := fun hmem =>
    name_notMem hcut' (by rw [List.map_append]; exact List.mem_append_left _ hmem)
  have hcolumn : column.name ∉ a.map Projection.name := name_notMem hcut
  rw [exchanged_eq hcut]
  calc placeOf row.name _ = a.length := placeOf_eq hrow _
    _ ≤ placeOf column.name _ := by
      rw [placeOf, List.map_append, List.idxOf_append_of_notMem hcolumn, List.length_map]
      exact Nat.le_add_right _ _

end SelectList

/-- **The row dimension first.** What comes out is a list of projections with the row dimension in front of the
column dimension. Each name has its own expression exactly if the row dimension was in front before, or if the
two expressions are the same above their last lines. -/
theorem rowFirst_text (s : SelectList) {row column : Projection} (hrow : s.Names row)
    (hcolumn : s.Names column) :
    rowFirst s.text row.name column.name = selectText s.front (rowMoved row column s.projections) s.behind ∧
    placeOf row.name (rowMoved row column s.projections) ≤
      placeOf column.name (rowMoved row column s.projections) ∧
    (SameProjections (rowMoved row column s.projections) s.projections ↔
      placeOf row.name s.projections ≤ placeOf column.name s.projections ∨
        squeeze (unlines row.upper) = squeeze (unlines column.upper)) := by
  rcases SelectList.exists_order hrow.mem hcolumn.mem with ⟨a, b, c, hcut⟩ | rfl | ⟨a, b, c, hcut⟩
  · have hle : placeOf row.name s.projections ≤ placeOf column.name s.projections := by
      rw [SelectList.placeOf_cut hcut, SelectList.placeOf_second hcut]
      omega
    rw [rowMoved, if_neg (Nat.not_lt.mpr hle)]
    exact ⟨SelectList.rowFirst_kept hrow hcolumn hcut, hle, iff_of_true (List.Perm.refl _) (.inl hle)⟩
  · rw [rowMoved, if_neg (Nat.lt_irrefl _)]
    exact ⟨SelectList.rowFirst_self hrow, Nat.le_refl _,
      iff_of_true (List.Perm.refl _) (.inl (Nat.le_refl _))⟩
  · have hlt : placeOf column.name s.projections < placeOf row.name s.projections := by
      rw [SelectList.placeOf_cut hcut, SelectList.placeOf_second hcut]
      omega
    rw [rowMoved, if_pos hlt]
    refine ⟨?_, ?_, ?_⟩
    · rw [SelectList.exchanged_eq hcut]
      exact SelectList.rowFirst_exchanged hrow hcolumn hcut
    · exact SelectList.placeOf_exchanged hcut
    · rw [SelectList.sameProjections_exchanged_iff hcut]
      exact ⟨.inr, fun h => h.resolve_left (Nat.not_le.mpr hlt)⟩

/-- A list with an expression of several lines between its dimensions. -/
def caseBetween : SelectList where
  front := ["SELECT".toList]
  projections :=
    [⟨"t.b".toList, "c".toList⟩, ⟨"CASE\nWHEN t.a > 1 THEN 1\nEND".toList, "x".toList⟩, ⟨"t.a".toList, "r".toList⟩]
  behind := ["FROM t".toList]

theorem rowFirst_text_between :
    rowFirst caseBetween.text "r".toList "c".toList =
      "SELECT\nt.a AS \"r\",\nCASE\nWHEN t.a > 1 THEN 1\nEND AS \"x\",\nt.b AS \"c\"\nFROM t".toList ∧
    SameProjections (rowMoved ⟨"t.a".toList, "r".toList⟩ ⟨"t.b".toList, "c".toList⟩ caseBetween.projections)
      caseBetween.projections := by
  have hrow : caseBetween.Names ⟨"t.a".toList, "r".toList⟩ := ⟨by decide, by decide +kernel⟩
  have hcolumn : caseBetween.Names ⟨"t.b".toList, "c".toList⟩ := ⟨by decide, by decide +kernel⟩
  obtain ⟨htext, -, hsame⟩ := rowFirst_text caseBetween hrow hcolumn
  exact ⟨htext.trans (by decide +kernel), hsame.mpr (.inr (by decide +kernel))⟩

/-- An expression of a list: closed, and without a comma of top-level code. -/
def IsSingle (expression : List Char) : Prop :=
  isClosed expression = true ∧ (',', true) ∉ expression.zip (mask expression)

instance (expression : List Char) : Decidable (IsSingle expression) := inferInstanceAs (Decidable (_ ∧ _))

theorem text_infix_selectText {ps : List Projection} {p : Projection} (h : p ∈ ps)
    (front behind : List (List Char)) : p.text <:+: selectText front ps behind := by
  have hlisting : p.text <:+: listing ps := infix_joinWith _ (List.mem_map_of_mem h)
  exact hlisting.trans ((List.prefix_append _ _).isInfix.trans (List.suffix_append _ _).isInfix)

/-- A list with an expression of several lines for its row dimension. -/
def caseSecond : SelectList where
  front := ["SELECT".toList]
  projections := [⟨"t.b".toList, "c".toList⟩, ⟨"CASE\nWHEN t.a > 1 THEN 1\nEND".toList, "r".toList⟩]
  behind := ["FROM t".toList]

/-- So not every list has the same projections afterwards: of an expression of several lines only the last one
moves. -/
theorem rowFirst_case : ¬ ∀ (s : SelectList) (row column : Projection), row ∈ s.projections →
    column ∈ s.projections → (∀ p ∈ s.projections, IsSingle p.expression) →
    ∃ ps, rowFirst s.text row.name column.name = selectText s.front ps s.behind ∧
      SameProjections ps s.projections ∧ placeOf row.name ps ≤ placeOf column.name ps := by
  intro h
  obtain ⟨ps, htext, hsame, -⟩ := h caseSecond ⟨"CASE\nWHEN t.a > 1 THEN 1\nEND".toList, "r".toList⟩
    ⟨"t.b".toList, "c".toList⟩ (by decide) (by decide) (by decide +kernel)
  have hrow : ("r".toList, "CASEWHENt.a>1THEN1END".toList) ∈ caseSecond.projections.map Projection.squeezed := by
    decide +kernel
  obtain ⟨p, hp, he⟩ := List.mem_map.mp (hsame.symm.subset hrow)
  obtain ⟨hname, hexpression⟩ := Prod.mk.inj he
  have hinfix := (text_infix_selectText hp caseSecond.front caseSecond.behind).filter fun c => !isBlank c
  have hwhole : squeeze p.text = "CASEWHENt.a>1THEN1ENDAS\"r\"".toList := by
    rw [Projection.text, squeeze_append, hexpression, Projection.naming, hname]
    decide +kernel
  rw [← htext] at hinfix
  have hfound : "CASEWHENt.a>1THEN1ENDAS\"r\"".toList <:+:
      squeeze (rowFirst caseSecond.text "r".toList "c".toList) := hwhole ▸ hinfix
  rw [← hasPart_iff] at hfound
  revert hfound
  decide +kernel

end QueryBlend.Pivot
