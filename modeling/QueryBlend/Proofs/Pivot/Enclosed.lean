import QueryBlend.Proofs.Pivot.ExistingCap
import QueryBlend.Proofs.Segments
/-!
# Closed selects inside of pivots

A pivot is unwrapped by its text alone: what is taken out stands between the first `) ww` and the last
`FROM (` in front of it, whether or not these are a pair. So a closed pivot can have an open select inside,
and this module says when.

* **Clauses.** Order and row cap, and blanks that are cut off, move no scan (`isClosed_withCap`).
* **Lines.** Two lines of a select may be exchanged if each of them starts at top level and leaves the scan
  there: then nothing else is scanned in another way (`isClosed_swapBodies`).
* **The parenthesis.** Where `FROM (` is code, what follows is closed exactly if its parenthesis stays open
  all through and is the innermost one at the end (`isClosed_iff_encloses`).

Results:
* `isClosed_flatSelect_iff`: what is taken out of a pivot is closed exactly if the parenthesis in front of it
  encloses it.
* `isClosed_flatSelect_subselect`: of a select from another select only an open rest may come out.
-/
namespace QueryBlend.Pivot
open Text Text.Form Sql

variable {wrapper front inside select inner flat s t n : List Char}

/-! ## What is put behind a select -/

theorem isStill_of_isDecimal {c : Char} (h : isDecimal c = true) : isStill c = true := by
  rw [isStill_iff, isPlain_iff]
  refine ⟨⟨?_, ?_, ?_, ?_, ?_, ?_, ?_, ?_⟩, ?_, ?_, ?_⟩ <;> rintro rfl <;> revert h <;> decide

theorem isClosed_withOrder (wrapper select : List Char) :
    isClosed (withOrder wrapper select) = isClosed select := by
  rw [withOrder]
  split
  · exact isClosed_append_still (by decide) select
  · rfl

theorem capClause_still (h : IsNumber n) : (capClause n).all isStill = true := by
  have hn : n.all isStill = true := all_imp h.digits isStill_of_isDecimal
  have hwords : "FETCH NEXT ".toList.all isStill = true ∧ " ROWS ONLY".toList.all isStill = true := by decide
  rw [capClause_eq, List.all_cons]
  unfold capText
  rw [List.all_append, List.all_append, hwords.1, hn, hwords.2]
  decide

theorem isClosed_withCap (wrapper select : List Char) :
    isClosed (withCap wrapper select) = isClosed select := by
  rw [withCap]
  split
  · rename_i n hbound
    split
    · rfl
    · exact isClosed_append_still (capClause_still (isNumber_of_rowBound? hbound)) select
  · rfl

/-! ## Lines that are exchanged -/

/-- Where the front of a text ends at top level, what is behind it is scanned on its own. -/
theorem isClosed_append_of_top (hs : ∀ next, runTo next {} s = {}) (t : List Char) :
    isClosed (s ++ t) = (opened {} s && isClosed t) := by
  rw [isClosed, run, runTo_append, hs, opened_append, hs, ← Bool.and_left_comm]
  rfl

/-- A text that leaves the scan at top level where it is, and closes only what it opens. -/
structure IsNeutral (s : List Char) : Prop where
  stays : ∀ next, runTo next {} s = {}
  opens : opened {} s = true

theorem IsNeutral.isClosed_append (hs : IsNeutral s) (t : List Char) : isClosed (s ++ t) = isClosed t := by
  rw [isClosed_append_of_top hs.stays, hs.opens, Bool.true_and]

/-- A line feed is read in the same way whatever is behind it. -/
theorem runTo_feed (next : Option Char) (st : State) (s : List Char) :
    runTo next st (s ++ ['\n']) = runTo none st (s ++ ['\n']) := by
  have hstep (st : State) : st.step '\n' next = st.step '\n' none := by
    obtain ⟨mode, depth, held⟩ := st
    cases held
    · cases mode <;> simp [State.step, State.inQuote]
    · rfl
  rw [runTo_append, runTo_append, runTo_singleton, runTo_singleton, hstep]
  rfl

theorem runTo_lines (next : Option Char) (st : State) (ls : List (List Char)) :
    runTo next st (ls.flatMap (· ++ ['\n'])) = runTo none st (ls.flatMap (· ++ ['\n'])) := by
  rcases List.eq_nil_or_concat ls with rfl | ⟨front, l, rfl⟩
  · rfl
  · rw [List.concat_eq_append, List.flatMap_append, List.flatMap_singleton, ← List.append_assoc, runTo_feed]

/-- The body of a line is code of top level with all that it opens. -/
def IsWhole (body : List Char) : Prop := run body = {} ∧ opened {} body = true

instance (body : List Char) : Decidable (IsWhole body) := inferInstanceAs (Decidable (_ ∧ _))

theorem IsWhole.isNeutral (hs : IsWhole s) (ht : t.all isStill = true) (hne : t ≠ []) :
    IsNeutral (s ++ t) := by
  have hi : inert t.head? = true := by simpa using inert_still (t := []) ht hne
  have hhead (next : Option Char) : t.head?.or next = t.head? := by
    cases t with
    | nil => exact absurd rfl hne
    | cons c t => rfl
  have hplain : t.all isPlain = true := all_imp ht fun h => ((isStill_iff _).mp h).1
  have hrun : runTo t.head? {} s = {} := (runTo_inert hi {} s).trans hs.1
  refine ⟨fun next => ?_, ?_⟩
  · rw [runTo_append, hhead, hrun, ← codeAt_zero, runTo_plain hplain]
  · rw [opened_append, hs.2, opened_still ht]
    rfl

/-- A line is its body, its comma if there is one, and blanks. -/
theorem exists_blanks (line : List Char) :
    ∃ blanks, line = (bodyAndComma line).1 ++ ((bodyAndComma line).2 ++ blanks) ∧
      blanks.all isStill = true ∧ (bodyAndComma line).2.all isStill = true := by
  obtain ⟨blanks, hline, hblanks⟩ := trimEnd_append line
  have hstill : blanks.all isStill = true := all_isStill_of_filler (all_isFiller_of_blank hblanks)
  refine ⟨blanks, ?_⟩
  rw [bodyAndComma]
  split
  · rename_i body hbody
    rw [beforeLast?] at hbody
    split at hbody
    · rename_i hlast
      obtain ⟨init, hinit⟩ := List.getLast?_eq_some_iff.mp hlast
      rw [hinit, List.dropLast_concat, Option.some.injEq] at hbody
      subst hbody
      have hcomma : [','].all isStill = true := by decide
      exact ⟨by rw [← List.append_assoc, ← hinit, ← hline], hstill, hcomma⟩
    · cases hbody
  · exact ⟨hline, hstill, rfl⟩

/-- The scan comes to the line at top level, and its body is whole. -/
def StandsWhole (ls : List (List Char)) (i : Nat) : Prop :=
  run ((ls.take i).flatMap (· ++ ['\n'])) = {} ∧ IsWhole (bodyAndComma (ls.getD i [])).1

instance (ls : List (List Char)) (i : Nat) : Decidable (StandsWhole ls i) :=
  inferInstanceAs (Decidable (_ ∧ _))

theorem swapBodies_append (a : List (List Char)) (x : List Char) (b : List (List Char)) (y : List Char)
    (c : List (List Char)) :
    swapBodies (a ++ x :: (b ++ y :: c)) a.length (a ++ x :: b).length =
      a ++ ((bodyAndComma y).1 ++ (bodyAndComma x).2) ::
        (b ++ ((bodyAndComma x).1 ++ (bodyAndComma y).2) :: c) := by
  have hget (a : List (List Char)) (x : List Char) (b : List (List Char)) :
      (a ++ x :: b).getD a.length [] = x := by simp [List.getD]
  have hset (a : List (List Char)) (x z : List Char) (b : List (List Char)) :
      (a ++ x :: b).set a.length z = a ++ z :: b := by simp
  have hy := hget (a ++ x :: b) y c
  rw [List.append_assoc, List.cons_append] at hy
  have hlength (z : List Char) : (a ++ x :: b).length = (a ++ z :: b).length := by simp
  have hsecond (z w : List Char) : (a ++ z :: (b ++ y :: c)).set (a ++ x :: b).length w =
      a ++ z :: (b ++ w :: c) := by
    have h := hset (a ++ z :: b) y w c
    rwa [← hlength, List.append_assoc, List.append_assoc, List.cons_append, List.cons_append] at h
  rw [swapBodies, hget, hy]
  exact (congrArg (fun l => List.set l _ _) (hset a x _ _)).trans (hsecond _ _)

theorem isClosed_unlines {ls : List (List Char)} (hne : ls ≠ []) :
    isClosed (unlines ls) = isClosed (ls.flatMap (· ++ ['\n'])) := by
  rw [← unlines_feed hne, isClosed_append_still (by decide)]

/-- A whole body with whatever comma and blanks, on its line. -/
theorem IsWhole.isNeutral_line (hs : IsWhole s) (ht : t.all isStill = true) :
    IsNeutral (s ++ t ++ ['\n']) := by
  rw [List.append_assoc]
  refine hs.isNeutral ?_ (by simp)
  rw [List.all_append, ht]
  decide

theorem StandsWhole.top {a b : List (List Char)} {x : List Char} (h : StandsWhole (a ++ x :: b) a.length) :
    run (a.flatMap (· ++ ['\n'])) = {} ∧ IsWhole (bodyAndComma x).1 := by
  obtain ⟨htop, hwhole⟩ := h
  rw [List.take_left] at htop
  have hget : (a ++ x :: b).getD a.length [] = x := by simp [List.getD]
  exact ⟨htop, hget ▸ hwhole⟩

/-- Lines that stand whole may be exchanged. -/
theorem isClosed_swapBodies {ls : List (List Char)} {i j : Nat} (hij : i < j) (hlt : j < ls.length)
    (hi : StandsWhole ls i) (hj : StandsWhole ls j) :
    isClosed (unlines (swapBodies ls i j)) = isClosed (unlines ls) := by
  obtain ⟨d, y, c, rfl, rfl⟩ := exists_cut hlt
  obtain ⟨a, x, b, rfl, rfl⟩ := exists_cut hij
  obtain ⟨htop, hy⟩ := hj.top
  rw [List.append_assoc, List.cons_append] at hi
  obtain ⟨ha, hx⟩ := hi.top
  obtain ⟨xs, hxline, hxs, hxcomma⟩ := exists_blanks x
  obtain ⟨ys, hyline, hys, hycomma⟩ := exists_blanks y
  -- around and between the two lines the scan comes from top level and goes on there
  have hfront (next : Option Char) : runTo next {} (a.flatMap (· ++ ['\n'])) = {} :=
    (runTo_lines next {} a).trans ha
  have hxneutral : IsNeutral (x ++ ['\n']) := by
    rw [hxline]
    exact hx.isNeutral_line (by rw [List.all_append, hxs, hxcomma]; rfl)
  have hyneutral : IsNeutral (y ++ ['\n']) := by
    rw [hyline]
    exact hy.isNeutral_line (by rw [List.all_append, hys, hycomma]; rfl)
  have hbetween (next : Option Char) : runTo next {} (b.flatMap (· ++ ['\n'])) = {} := by
    rw [run, List.flatMap_append, runTo_append, hfront, List.flatMap_cons, runTo_append,
      hxneutral.stays] at htop
    rw [runTo_lines, htop]
  have hsame {m n : List Char} (hm : IsNeutral (m ++ ['\n'])) (hn : IsNeutral (n ++ ['\n'])) :
      isClosed (unlines (a ++ m :: (b ++ n :: c))) = (opened {} (a.flatMap (· ++ ['\n'])) &&
        (opened {} (b.flatMap (· ++ ['\n'])) && isClosed (c.flatMap (· ++ ['\n'])))) := by
    rw [isClosed_unlines (by simp), List.flatMap_append, List.flatMap_cons, List.flatMap_append,
      List.flatMap_cons, isClosed_append_of_top hfront, hm.isClosed_append,
      isClosed_append_of_top hbetween, hn.isClosed_append]
  rw [List.append_assoc, List.cons_append, swapBodies_append,
    hsame (hy.isNeutral_line hxcomma) (hx.isNeutral_line hycomma), hsame hxneutral hyneutral]

/-- If two lines of the select are exchanged to have its row dimension first, both stand whole. -/
def ExchangesWhole (select row column : List Char) : Prop :=
  ∀ r ∈ (lines select).findIdx? (projects row), ∀ c ∈ (lines select).findIdx? (projects column), c < r →
    StandsWhole (lines select) c ∧ StandsWhole (lines select) r

theorem isClosed_rowFirst {row column : List Char} (h : ExchangesWhole select row column) :
    isClosed (rowFirst select row column) = isClosed select := by
  rw [rowFirst]
  split
  · rename_i r c hr hc
    split
    · rename_i hlt
      obtain ⟨hcolumn, hrow⟩ := h r hr c hc hlt
      have hbound : r < (lines select).length := (List.findIdx?_eq_some_iff_getElem.mp hr).1
      rw [isClosed_swapBodies hlt hbound hcolumn hrow, unlines_lines]
    · rfl
  · rfl

/-- The same for the dimensions of a pivot, if it has both. -/
def ArrangesWhole (wrapper select : List Char) : Prop :=
  ∀ row ∈ (rowNames wrapper).head?, ∀ column ∈ (columnNames wrapper).head?,
    ExchangesWhole select row column

theorem isClosed_arranged (h : ArrangesWhole wrapper select) :
    isClosed (arranged wrapper select) = isClosed select := by
  rw [arranged]
  split
  · rename_i row rows column columns hrow hcolumn
    exact isClosed_rowFirst (h row (by simp [hrow]) column (by simp [hcolumn]))
  · rfl

/-! ## The parenthesis -/

/-- A text closes only what it opens exactly if the depth of a scan that comes to it within parentheses
nowhere falls below where it was. -/
theorem opened_iff_depth {st : State} (d : Nat) : opened st s = true ↔
    ∀ a, a <+: s → d + 1 ≤ (runTo none (st.raise (d + 1)) a).depth := by
  have hraise (st : State) : d + 1 ≤ (st.raise (d + 1)).depth := Nat.le_add_left _ _
  induction s generalizing st with
  | nil =>
    refine iff_of_true rfl fun a ha => ?_
    obtain rfl := List.prefix_nil.mp ha
    exact hraise st
  | cons c cs ih =>
    have hnext {a : List Char} (hne : a ≠ []) (ha : a <+: cs) : a.head?.or none = cs.head? := by
      obtain ⟨b, rfl⟩ := ha
      rw [List.head?_append_of_ne_nil _ hne, Option.or_none]
    rw [opened, Bool.and_eq_true, Bool.not_eq_true']
    constructor
    · rintro ⟨hover, hrest⟩ a ha
      cases a with
      | nil => exact hraise st
      | cons e a =>
        obtain ⟨rfl, htail⟩ := List.cons_prefix_cons.mp ha
        rw [runTo, step_raise hover]
        by_cases hne : a = []
        · subst hne
          exact hraise _
        · rw [hnext hne htail]
          exact ih.mp hrest a htail
    · intro h
      have hover : st.overcloses c = false := by
        refine Bool.eq_false_iff.mpr fun hover => ?_
        have hone := h [c] (by simp)
        obtain ⟨mode, depth, held⟩ := st
        simp only [State.overcloses, State.isTop, Bool.and_eq_true, beq_iff_eq, Bool.not_eq_true'] at hover
        obtain ⟨⟨rfl, rfl, rfl⟩, rfl⟩ := hover
        have hfall : (runTo none (State.raise {} (d + 1)) [')']).depth = d := by
          simp [runTo, State.step, State.raise]
        rw [hfall] at hone
        exact Nat.not_succ_le_self d hone
      refine ⟨hover, ih.mpr fun a ha => ?_⟩
      by_cases hne : a = []
      · subst hne
        exact hraise _
      · have hlonger := h (c :: a) (List.cons_prefix_cons.mpr ⟨rfl, ha⟩)
        rwa [runTo, step_raise hover, hnext hne ha] at hlonger

/-- Behind a parenthesis that is code the scan stands in code, one parenthesis deeper. -/
theorem exists_codeAt (hlast : front.getLast? = some '(') (hcode : (run front).mode = .code) :
    ∃ d, ∀ next, runTo next {} front = codeAt (d + 1) := by
  obtain ⟨f, rfl⟩ := List.getLast?_eq_some_iff.mp hlast
  have hstep (next : Option Char) : runTo next {} (f ++ ['(']) = (run f).step '(' next := by
    rw [runTo_append, runTo_singleton, List.head?_cons, Option.some_or, runTo_inert (by decide)]
    rfl
  have hheld : (run f).held = false := by
    refine Bool.eq_false_iff.mpr fun hheld => ?_
    have hquoted : (run f).isQuoted = true := isQuoted_of_held (by simp) f hheld
    rw [run, hstep, step_of_held hheld] at hcode
    simp [State.isQuoted, show (run f).mode = .code from hcode] at hquoted
  rw [run, hstep] at hcode
  refine ⟨(run f).depth, fun next => ?_⟩
  rw [hstep]
  generalize run f = st at hheld hcode ⊢
  obtain ⟨mode, depth, held⟩ := st
  cases hheld
  cases mode <;> simp_all [State.step, State.inQuote, codeAt]

/-- The parenthesis in which a text begins stays open all through it, and at its end the scan is in code or a
line comment and has no other one open. -/
structure Encloses (front inside : List Char) : Prop where
  stays : ∀ a, a <+: inside → (run front).depth ≤ (run (front ++ a)).depth
  settles : (run (front ++ inside)).mode = .code ∨ (run (front ++ inside)).mode = .lineComment
  innermost : (run (front ++ inside)).depth = (run front).depth

theorem isClosed_iff_encloses (hlast : front.getLast? = some '(') (hcode : (run front).mode = .code) :
    isClosed inside = true ↔ Encloses front inside := by
  obtain ⟨d, hfront⟩ := exists_codeAt hlast hcode
  have hrun (a : List Char) : run (front ++ a) = runTo none (State.raise {} (d + 1)) a := by
    rw [run, runTo_append, hfront, ← codeAt_zero, raise_codeAt, Nat.zero_add]
  have hdepth : (run front).depth = d + 1 := by rw [run, hfront]; rfl
  have hstays : opened {} inside = true ↔
      ∀ a, a <+: inside → (run front).depth ≤ (run (front ++ a)).depth := by
    simp only [opened_iff_depth d, hdepth, hrun]
  have hend (h : opened {} inside = true) : run (front ++ inside) = (run inside).raise (d + 1) := by
    rw [hrun, runTo_raise h, run]
  rw [isClosed, Bool.and_eq_true]
  constructor
  · rintro ⟨hsettled, hopened⟩
    simp only [State.isSettled, Bool.and_eq_true, Bool.or_eq_true, beq_iff_eq] at hsettled
    refine ⟨hstays.mp hopened, ?_, ?_⟩
    · rw [hend hopened]
      exact hsettled.1
    · rw [hend hopened, hdepth, State.raise_depth, hsettled.2, Nat.zero_add]
  · rintro ⟨hall, hmode, hback⟩
    have hopened := hstays.mpr hall
    rw [hend hopened] at hmode hback
    rw [hdepth, State.raise_depth, Nat.add_eq_right] at hback
    refine ⟨?_, hopened⟩
    simp only [State.isSettled, Bool.and_eq_true, Bool.or_eq_true, beq_iff_eq]
    exact ⟨hmode, hback⟩

/-! ## What is taken out -/

/-- The text in front of the select inside, and that select with the blanks around it. -/
def uncovered? (wrapper : List Char) : Option (List Char × List Char) := do
  let close ← plainStop.find? wrapper
  let (_, start) ← (plainStart.spans close.before).getLast?
  return (close.before.take start, close.before.drop start)

theorem innermost?_eq (wrapper : List Char) :
    innermost? wrapper = (uncovered? wrapper).map fun cut => trim cut.2 := by
  rw [innermost?, uncovered?]
  cases plainStop.find? wrapper with
  | none => rfl
  | some close =>
    simp only [Option.bind_eq_bind, Option.bind_some]
    cases (plainStart.spans close.before).getLast? <;> rfl

/-- In front of the select inside is a parenthesis. -/
theorem getLast?_of_uncovered? (h : uncovered? wrapper = some (front, inside)) :
    front.getLast? = some '(' := by
  obtain ⟨close, hclose, h⟩ := Option.bind_eq_some_iff.mp h
  obtain ⟨⟨i, j⟩, hspan, h⟩ := Option.bind_eq_some_iff.mp h
  obtain ⟨rfl, rfl⟩ := Prod.mk.inj (Option.some.inj h)
  obtain ⟨before, here, after, hbefore, -, hi, hread, hj⟩ :=
    Pattern.readAt_of_mem_spansFrom (List.mem_of_getLast? hspan)
  obtain ⟨u, hu, hrest⟩ := seq_eq_some_iff.mp (Pattern.form_of_readAt hread)
  obtain ⟨v, hv, hparen⟩ := seq_eq_some_iff.mp hrest
  obtain ⟨w, rfl, -⟩ := spelled_eq_some_iff.mp hu
  obtain ⟨g, rfl, -⟩ := takes_blankGap u v hv
  obtain rfl : v = '(' :: after := (behind?_eq_some_iff _ _ _).mp hparen
  have hopen : close.before = before ++ w ++ g ++ ['('] ++ after := by simp [hbefore]
  have hlength : j = (before ++ w ++ g ++ ['(']).length := by
    simp only [List.length_append, List.length_cons, List.length_nil] at hj ⊢
    omega
  rw [hopen, List.take_left' hlength.symm, List.getLast?_concat]

/-- The parenthesis in front of the select inside is code, and lines of the select that are exchanged are
whole. -/
def IsLegible (wrapper : List Char) : Prop :=
  ∀ front inside, uncovered? wrapper = some (front, inside) →
    (run front).mode = .code ∧ ArrangesWhole wrapper (trim inside)

/-- The parenthesis in front of the select inside encloses it. -/
def EnclosesSelect (wrapper : List Char) : Prop :=
  ∀ front inside, uncovered? wrapper = some (front, inside) → Encloses front inside

/-- **Closed selects.** What is taken out of a closed pivot is closed exactly if the parenthesis in front of it
encloses it. -/
theorem isClosed_flatSelect_iff (hclosed : isClosed wrapper = true) (hlegible : IsLegible wrapper)
    (hflat : flatSelect wrapper = .ok flat) : isClosed flat = true ↔ EnclosesSelect wrapper := by
  cases hcut : uncovered? wrapper with
  | none =>
    have hinner : innermost? wrapper = none := by rw [innermost?_eq, hcut]; rfl
    rw [flatSelect_of_innermost_none hinner, Except.ok.injEq] at hflat
    refine iff_of_true (hflat ▸ hclosed) fun front inside h => ?_
    rw [hcut] at h
    cases h
  | some cut =>
    obtain ⟨front, inside⟩ := cut
    obtain ⟨hcode, hlines⟩ := hlegible front inside hcut
    have hinner : innermost? wrapper = some (trim inside) := by rw [innermost?_eq, hcut]; rfl
    rw [flatSelect_eq_ok hinner hflat, isClosed_withCap, isClosed_withOrder, isClosed_arranged hlines,
      isClosed_trim_eq, isClosed_iff_encloses (getLast?_of_uncovered? hcut) hcode]
    refine ⟨fun h front' inside' hcut' => ?_, fun h => h front inside hcut⟩
    rw [hcut] at hcut'
    cases hcut'
    exact h

theorem isClosed_flatSelect_commented : ∃ flat, flatSelect (pivotHead ++ commented ++ pivotTail) = .ok flat ∧
    isClosed flat = true := by
  have hcut : uncovered? (pivotHead ++ commented ++ pivotTail) = some (pivotHead, commented) := by
    decide +kernel
  have hwhole : ExchangesWhole (trim commented) "t.a".toList "t.b".toList := by
    unfold ExchangesWhole
    decide +kernel
  have hlegible : IsLegible (pivotHead ++ commented ++ pivotTail) := by
    intro front inside h
    rw [hcut] at h
    cases h
    refine ⟨by decide +kernel, fun row hrow column hcolumn => ?_⟩
    rw [rowNames_commented] at hrow
    rw [columnNames_commented] at hcolumn
    cases hrow
    cases hcolumn
    exact hwhole
  have hencloses : EnclosesSelect (pivotHead ++ commented ++ pivotTail) := by
    intro front inside h
    rw [hcut] at h
    cases h
    exact (isClosed_iff_encloses (by decide +kernel) (by decide +kernel)).mp (by decide +kernel)
  have hflat := flatSelect_of_wraps wraps_commented arranged_commented (by decide +kernel)
  exact ⟨_, hflat, (isClosed_flatSelect_iff (by decide +kernel) hlegible hflat).mpr hencloses⟩

/-- A pivot around a select from another select. -/
def subselectPivot : List Char :=
  "SELECT *, 1 AS z__pivot_col_rank FROM (SELECT a FROM (SELECT 1 AS a) x) ww".toList

/-- So a closed pivot need not have a closed select inside: of a select from another select what is taken out
begins with that other one. -/
theorem isClosed_flatSelect_subselect : ¬ ∀ wrapper flat, isClosed wrapper = true →
    flatSelect wrapper = .ok flat → isClosed flat = true := by
  intro h
  have hinner : innermost? subselectPivot = some "SELECT 1 AS a) x".toList := by decide +kernel
  obtain ⟨-, hflat⟩ := flatSelect_of_no_names hinner (by decide +kernel) (by decide +kernel)
  have hopen := h _ _ (by decide +kernel) hflat
  revert hopen
  decide +kernel

end QueryBlend.Pivot
