import QueryBlend.Proofs.Sql.Closed
import QueryBlend.Proofs.Text.Places
/-!
# Patterns that stand at top level

A pattern *stands* at a place of a text if it can be read there and a scan of the text in front ends at top
level. The functions that look for clauses ask in two ways where top level is: by a scan of the text in
front, and by the mask of the whole text. For a letter both say the same (`getElem?_mask`).

* **The last one.** What `lastAtTop?` answers for a pattern that begins with letters and does not overlap
  itself is the last place where it stands (`lastAtTop?_eq_some`), and it answers nothing only where it
  stands nowhere (`lastAtTop?_isSome_iff`).
* **Seams.** Behind a place of top level and plain code a scan goes on as if the text began there
  (`run_append_plain`, `StandsAt.run_append`), so a clause stands in the rest of a text where it stands in
  the text.
-/
namespace QueryBlend.Sql
open Text Text.Form

/-- The pattern can be read where `before` ends and `here` begins, and that is a place of top level. -/
structure StandsAt (p : Pattern) (before here : List Char) : Prop where
  at_top : endsAtTop before = true
  reads : (p.readAt before.getLast? here).isSome = true

/-- The pattern stands somewhere in the text. -/
def StandsIn (p : Pattern) (sql : List Char) : Prop :=
  ∃ before here, sql = before ++ here ∧ StandsAt p before here

/-- From the end of `before` on the pattern stands nowhere. -/
def Lacks (p : Pattern) (before here : List Char) : Prop :=
  ∀ t u, here = t ++ u → ¬ StandsAt p (before ++ t) u

/-- The pattern stands where `before` ends, and nowhere behind that place. -/
structure IsLastAt (p : Pattern) (before here : List Char) : Prop where
  stands : StandsAt p before here
  last : ∀ c cs, here = c :: cs → Lacks p (before ++ [c]) cs

instance (p : Pattern) (before here : List Char) : Decidable (StandsAt p before here) :=
  decidable_of_iff (endsAtTop before = true ∧ (p.readAt before.getLast? here).isSome = true)
    ⟨fun h => ⟨h.1, h.2⟩, fun h => ⟨h.at_top, h.reads⟩⟩

variable {p : Pattern} {before here s t w : List Char} {starts : List (Char × Char)}

theorem lacks_iff : Lacks p before here ↔
    ∀ i < here.length + 1, ¬ StandsAt p (before ++ here.take i) (here.drop i) := by
  constructor
  · intro h i _
    exact h _ _ (List.take_append_drop i here).symm
  · intro h t u hcut
    have hi := h t.length (by rw [hcut, List.length_append]; omega)
    rwa [hcut, List.take_left, List.drop_left] at hi

instance (p : Pattern) (before here : List Char) : Decidable (Lacks p before here) :=
  decidable_of_iff _ lacks_iff.symm

/-! ## Letters at top level -/

/-- A letter makes no pair, neither opens nor closes anything, and is no line feed. -/
theorem isPlain_of_letter {c : Char} (h : isAsciiLetter (fold c) = true) :
    isPlain c = true ∧ inert (some c) = true ∧ c ≠ '\n' := by
  have hne (d : Char) (hd : isAsciiLetter (fold d) = false) : c ≠ d := by
    rintro rfl
    rw [hd] at h
    cases h
  refine ⟨(isPlain_iff c).mpr ⟨?_, ?_, ?_, ?_, ?_, ?_, ?_, ?_⟩, ?_, hne _ (by decide)⟩
  all_goals try exact hne _ (by decide)
  simp [inert, hne '-' (by decide), hne '*' (by decide), hne '/' (by decide), hne '\x27' (by decide),
    hne '\x22' (by decide)]

/-- At top level, with nothing held, a scan is where it starts. -/
theorem eq_of_isTop {st : State} (h : st.isTop = true) (hheld : st.held = false) : st = {} := by
  simp only [State.isTop, Bool.and_eq_true, beq_iff_eq] at h
  obtain ⟨mode, depth, held⟩ := st
  obtain ⟨rfl, rfl⟩ := h
  obtain rfl : held = false := hheld
  rfl

theorem run_eq_of_endsAtTop (h : endsAtTop s = true) : run s = {} :=
  eq_of_isTop h (not_held_of_isSettled (isSettled_of_isTop h))

/-- Of a character that makes no pair the mask says what a scan of the text in front says. -/
theorem getElem?_mask {c : Char} (hplain : isPlain c = true) (hinert : inert (some c) = true)
    (hfeed : c ≠ '\n') (before cs : List Char) :
    (mask (before ++ c :: cs))[before.length]? = some (endsAtTop before) := by
  rw [mask, getElem?_maskTo, runTo_inert hinert, Option.some.injEq, Bool.eq_iff_iff]
  refine ⟨isTop_of_isCode hfeed, fun h => ?_⟩
  have hrun : runTo none {} before = codeAt 0 := run_eq_of_endsAtTop h
  rw [hrun, isCode_plain hplain]
  rfl

theorem exists_letter (hb : p.BeginsIn starts) {prev : Option Char} {r : List Char}
    (h : p.readAt prev here = some r) : ∃ c cs, here = c :: cs ∧ isAsciiLetter (fold c) = true := by
  obtain ⟨c, d, cs, hs, hmem⟩ := hb.begins _ _ (Pattern.form_of_readAt h)
  exact ⟨c, d :: cs, hs, hb.letters _ hmem⟩

/-! ## The last place -/

/-- The occurrences that the mask lets pass are the places where the pattern stands. -/
theorem mem_topSpans_iff (hb : p.BeginsIn starts) (hp : BarsInside p.form p) {i j : Nat} :
    (i, j) ∈ (p.spans s).filter (fun span => (mask s)[span.1]? == some true) ↔
      ∃ before here after, s = before ++ here ∧ i = before.length ∧
        j = i + (here.length - after.length) ∧ endsAtTop before = true ∧
          p.readAt before.getLast? here = some after := by
  rw [List.mem_filter, Pattern.mem_spans_iff hp, beq_iff_eq]
  constructor
  · rintro ⟨⟨before, here, after, rfl, -, rfl, hr, hj⟩, hmask⟩
    obtain ⟨c, cs, rfl, hc⟩ := exists_letter hb hr
    obtain ⟨hplain, hinert, hfeed⟩ := isPlain_of_letter hc
    rw [getElem?_mask hplain hinert hfeed, Option.some.injEq] at hmask
    exact ⟨before, c :: cs, after, rfl, rfl, hj, hmask, hr⟩
  · rintro ⟨before, here, after, rfl, rfl, hj, htop, hr⟩
    obtain ⟨c, cs, rfl, hc⟩ := exists_letter hb hr
    obtain ⟨hplain, hinert, hfeed⟩ := isPlain_of_letter hc
    rw [getElem?_mask hplain hinert hfeed, Option.some.injEq]
    exact ⟨⟨before, c :: cs, after, rfl, List.cons_ne_nil _ _, rfl, hr, hj⟩, htop⟩

theorem le_of_getLast? {l : List (Nat × Nat)} (hl : l.Pairwise fun x y => x.1 < y.1) {x y : Nat × Nat}
    (hx : l.getLast? = some x) (hy : y ∈ l) : y.1 ≤ x.1 := by
  obtain ⟨init, rfl⟩ := List.getLast?_eq_some_iff.mp hx
  rcases List.mem_append.mp hy with hy | hy
  · exact Nat.le_of_lt ((List.pairwise_append.mp hl).2.2 y hy x List.mem_cons_self)
  · rw [List.mem_singleton.mp hy]

/-- What is found last is the last place where the pattern stands, with what is behind the pattern. -/
theorem lastAtTop?_eq_some (hb : p.BeginsIn starts) (hp : BarsInside p.form p) {i j : Nat}
    (h : lastAtTop? p s = some (i, j)) :
    ∃ before here after, s = before ++ here ∧ s.take i = before ∧ s.drop j = after ∧
      p.readAt before.getLast? here = some after ∧ IsLastAt p before here := by
  have hmem := List.mem_of_getLast? h
  obtain ⟨before, here, after, rfl, rfl, rfl, htop, hr⟩ := (mem_topSpans_iff hb hp).mp hmem
  obtain ⟨taken, rfl⟩ := hp.cuts _ _ (Pattern.form_of_readAt hr)
  refine ⟨before, taken ++ after, after, rfl, List.take_left, ?_, hr, ⟨htop, by rw [hr]; rfl⟩, ?_⟩
  · rw [List.length_append, Nat.add_sub_cancel, ← List.append_assoc]
    exact List.drop_left' (by rw [List.length_append])
  · intro c cs hhere t u hcs hstands
    obtain ⟨r, hread⟩ := Option.isSome_iff_exists.mp hstands.reads
    have hsorted := (p.spansFrom_sorted 0 none 0 (before ++ (taken ++ after))).filter
      fun span => (mask (before ++ (taken ++ after)))[span.1]? == some true
    have hmem : ((before ++ [c] ++ t).length, (before ++ [c] ++ t).length + (u.length - r.length)) ∈
        (p.spans (before ++ (taken ++ after))).filter
          (fun span => (mask (before ++ (taken ++ after)))[span.1]? == some true) :=
      (mem_topSpans_iff hb hp).mpr
        ⟨before ++ [c] ++ t, u, r, by rw [hhere, hcs]; simp, rfl, rfl, hstands.at_top, hread⟩
    have hle := le_of_getLast? hsorted h hmem
    simp only [List.length_append, List.length_cons] at hle
    omega

/-- Nothing is found only where the pattern stands nowhere. -/
theorem lastAtTop?_isSome_iff (hb : p.BeginsIn starts) (hp : BarsInside p.form p) :
    (lastAtTop? p s).isSome = true ↔ StandsIn p s := by
  constructor
  · intro h
    obtain ⟨⟨i, j⟩, hlast⟩ := Option.isSome_iff_exists.mp h
    obtain ⟨before, here, -, hs, -, -, -, hstands⟩ := lastAtTop?_eq_some hb hp hlast
    exact ⟨before, here, hs, hstands.stands⟩
  · rintro ⟨before, here, hs, hstands⟩
    obtain ⟨after, hr⟩ := Option.isSome_iff_exists.mp hstands.reads
    have hmem := (mem_topSpans_iff (s := s) hb hp).mpr
      ⟨before, here, after, hs, rfl, rfl, hstands.at_top, hr⟩
    exact List.getLast?_isSome.mpr (List.ne_nil_of_mem hmem)

/-! ## Seams -/

/-- Behind a place of top level and plain code a scan goes on as if the text began there. -/
theorem run_append_plain (h : endsAtTop s = true) (hw : w.all isPlain = true)
    (hi : inert (w ++ t).head? = true) : run (s ++ (w ++ t)) = run t := by
  have hs : runTo (w ++ t).head? {} s = {} := by
    rw [runTo_inert hi]
    exact run_eq_of_endsAtTop h
  rw [run, runTo_append, Option.or_none, hs, runTo_append, ← codeAt_zero, runTo_plain hw]
  rfl

/-- So it does behind plain code that begins with what stands there. -/
theorem StandsAt.run_append (hb : p.BeginsIn starts) (h : StandsAt p before (w ++ t ++ s))
    (hw : w.all isPlain = true) : run (before ++ (w ++ t)) = run t := by
  obtain ⟨r, hr⟩ := Option.isSome_iff_exists.mp h.reads
  obtain ⟨c, cs, hcs, hletter⟩ := exists_letter hb hr
  refine run_append_plain h.at_top hw ?_
  by_cases hnil : w ++ t = []
  · rw [hnil]
    rfl
  · have hhead := congrArg List.head? hcs
    rw [List.head?_append_of_ne_nil _ hnil, List.head?_cons] at hhead
    rw [hhead]
    exact (isPlain_of_letter hletter).2.1

end QueryBlend.Sql
