import QueryBlend.Proofs.Pivot.OrderAndCap
import QueryBlend.Proofs.Sql.Announced
import QueryBlend.Proofs.Sql.Comment
import QueryBlend.Proofs.Sql.Standing
import Mathlib.Data.List.TakeWhile
/-!
# Row caps of a query, and the order in front of them

`stripTrailing` judges a row cap by two patterns. `closingCap` reads a whole cap up to the end of the text,
with a last comment behind it; `capWord` only reads the key word, in whatever notation the cap goes on.

* **Nothing starts inside.** Of the words of a cap only the first begins as a cap does, and none as an order
  does (`barsInside_capForm`). What is behind a cap is blank or a comment, so neither a cap nor an order
  stands there (`not_standsAt_behind_cap`).
* **The tail of an order.** The text behind `ORDER BY` is judged by itself. All that the order takes is plain
  code, and no cap starts in it, so a cap stands in that text where it stands in the query
  (`standsIn_tail`). So an order only goes with all that is behind it, and without a cap (`dropOrder_cases`).

Results:
* `stripTrailing_keeps_cap`: where caps are respected, only an order without a cap behind it is cut off.
* `stripTrailing_capped`: where they are not, a last cap goes unless a cap can be read to the end of the
  text from a place in front of it; then nothing goes.
-/
namespace QueryBlend.Sql
open Text Text.Form Pivot

variable {sql s t w before here : List Char} {q : Pattern} {starts : List (Char × Char)}

/-! ## How clauses begin -/

theorem begins_of_word {w : String} {r : List Char} (h : word w s = some r)
    (hw : ∃ xy ∈ starts, [xy.1, xy.2] <+: w.toList.map fold) :
    ∃ c d cs, s = c :: d :: cs ∧ (fold c, fold d) ∈ starts := by
  obtain ⟨xy, hxy, hfront⟩ := hw
  have hspelled := spelled_prefix h
  have hs : [xy.1, xy.2] <+: s.map fold := hfront.trans hspelled
  cases s with
  | nil => cases List.prefix_nil.mp hs
  | cons c s =>
    obtain ⟨hc, hs⟩ := List.cons_prefix_cons.mp hs
    cases s with
    | nil => cases List.prefix_nil.mp hs
    | cons d cs =>
      obtain ⟨hd, -⟩ := List.cons_prefix_cons.mp hs
      exact ⟨c, d, cs, rfl, by rw [← hc, ← hd]; exact hxy⟩

def capStarts : List (Char × Char) := [('l', 'i'), ('f', 'e')]

theorem begins_capForm {r : List Char} (h : capForm s = some r) :
    ∃ c d cs, s = c :: d :: cs ∧ (fold c, fold d) ∈ capStarts := by
  rcases Option.or_eq_some_iff.mp h with h | ⟨-, h⟩
  · obtain ⟨t, ht, -⟩ := seq_eq_some_iff.mp h
    obtain ⟨u, hu, -⟩ := seq_eq_some_iff.mp ht
    exact begins_of_word hu (by decide)
  · obtain ⟨u, hu, -⟩ := seq_eq_some_iff.mp h
    exact begins_of_word hu (by decide)

theorem beginsIn_closingCap : closingCap.BeginsIn capStarts where
  atWordStart := rfl
  letters := by decide
  begins s r h := by
    obtain ⟨t, ht, -⟩ := seq_eq_some_iff.mp h
    exact begins_capForm ht

theorem beginsIn_capWord : capWord.BeginsIn (('o', 'f') :: capStarts) where
  atWordStart := rfl
  letters := by decide
  begins s r h := by
    obtain ⟨t, ht, -⟩ := seq_eq_some_iff.mp h
    rcases Option.or_eq_some_iff.mp ht with ht | ⟨-, ht⟩
    · exact begins_of_word ht (by decide)
    · rcases Option.or_eq_some_iff.mp ht with ht | ⟨-, ht⟩
      · exact begins_of_word ht (by decide)
      · exact begins_of_word ht (by decide)

theorem beginsIn_orderBy : orderBy.BeginsIn [('o', 'r')] where
  atWordStart := rfl
  letters := by decide
  begins s r h := by
    obtain ⟨t, ht, -⟩ := seq_eq_some_iff.mp h
    exact begins_of_word ht (by decide)

/-! ## What cannot be read inside of clauses -/

/-- The words of row caps behind the first. -/
def laterCapWords : List String := ["OFFSET", "NEXT", "FIRST", "ROW", "S", "ONLY"]

theorem bars_laterCapWord (hq : q.BeginsIn starts)
    (hw : ∀ w ∈ laterCapWords, beginsElse starts (w.toList.map fold) = true) {w : String}
    (h : w ∈ laterCapWords) : Bars (word w) q := by
  have hletters : ∀ w ∈ laterCapWords, (w.toList.map fold).all isAsciiLetter = true := by decide
  exact bars_word hq (hletters w h) (hw w h)

theorem barsInside_limitForm (hq : q.BeginsIn starts) : BarsInside limitForm q :=
  (barsInside_word hq (by decide)).seq ((bars_blanks hq).seq (bars_number hq))

theorem bars_offsetForm (hq : q.BeginsIn starts)
    (hw : ∀ w ∈ laterCapWords, beginsElse starts (w.toList.map fold) = true) : Bars offsetForm q :=
  (bars_blanks hq).seq ((bars_laterCapWord hq hw (by decide)).seq ((bars_blanks hq).seq (bars_number hq)))

theorem barsInside_fetchForm (hq : q.BeginsIn starts)
    (hw : ∀ w ∈ laterCapWords, beginsElse starts (w.toList.map fold) = true) :
    BarsInside fetchForm q := by
  have hlater {w : String} (h : w ∈ laterCapWords) : Bars (word w) q := bars_laterCapWord hq hw h
  have hblanks := bars_blanks hq
  exact (barsInside_word hq (by decide)).seq <| hblanks.seq <|
    ((hlater (by decide)).either (hlater (by decide))).seq <| hblanks.seq <| (bars_number hq).seq <|
    hblanks.seq <| (hlater (by decide)).seq <| (hlater (by decide)).maybe.seq <| hblanks.seq <|
    hlater (by decide)

theorem barsInside_capForm (hq : q.BeginsIn starts)
    (hw : ∀ w ∈ laterCapWords, beginsElse starts (w.toList.map fold) = true) : BarsInside capForm q :=
  ((barsInside_limitForm hq).seq (bars_offsetForm hq hw).maybe).either (barsInside_fetchForm hq hw)

theorem barsInside_orderBy : BarsInside orderBy.form orderBy :=
  (barsInside_word beginsIn_orderBy (by decide)).seq <| (bars_blanks beginsIn_orderBy).seq <|
    (bars_word beginsIn_orderBy (by decide) (by decide)).seq (bars_wordEnd beginsIn_orderBy)

theorem barsInside_capWord : BarsInside capWord.form capWord := by
  have hword {w : String} (hw : (w.toList.map fold).all isAsciiLetter = true) :
      BarsInside (word w) capWord := barsInside_word beginsIn_capWord hw
  exact ((hword (by decide)).either ((hword (by decide)).either (hword (by decide)))).seq
    (bars_wordEnd beginsIn_capWord)

/-- No row cap starts in what an order takes. -/
theorem bars_orderBy_capWord : Bars orderBy.form capWord :=
  (bars_word beginsIn_capWord (by decide) (by decide)).seq <| (bars_blanks beginsIn_capWord).seq <|
    (bars_word beginsIn_capWord (by decide) (by decide)).seq (bars_wordEnd beginsIn_capWord)

/-! ## Behind a row cap -/

theorem isPlain_of_isCapChar {c : Char} (h : isCapChar c = true) : isPlain c = true := by
  rw [isPlain_iff]
  refine ⟨?_, ?_, ?_, ?_, ?_, ?_, ?_, ?_⟩ <;> rintro rfl <;> revert h <;> decide

/-- A closing cap, its blanks, and the comment behind it. -/
theorem exists_of_closingCap {r : List Char} (h : closingCap.form s = some r) :
    ∃ cap blank note, s = cap ++ (blank ++ note) ∧ capForm s = some (blank ++ note) ∧
      cap.all isCapChar = true ∧ isAllBlank blank = true ∧
        (note = [] ∨ ∃ m, note = '-' :: '-' :: m ∧ '\n' ∉ m) := by
  obtain ⟨t, ht, h⟩ := seq_eq_some_iff.mp h
  obtain ⟨u, hu, h⟩ := seq_eq_some_iff.mp h
  obtain ⟨v, hv, hend⟩ := seq_eq_some_iff.mp h
  obtain ⟨cap, rfl, hcap⟩ := takes_capForm s t ht
  obtain ⟨blank, rfl, hblank⟩ := takes_blankGap t u hu
  refine ⟨cap, blank, u, rfl, ht, hcap, hblank, ?_⟩
  obtain rfl : v = [] := textEnd_eq_some hend
  rcases Option.or_eq_some_iff.mp hv with hv | ⟨-, hv⟩
  · obtain ⟨m, hm, hrest⟩ := seq_eq_some_iff.mp hv
    refine .inr ⟨m, (behind?_eq_some_iff _ _ _).mp hm, fun hfeed => ?_⟩
    have hall : m.dropWhile (· != '\n') = [] := Option.some.inj hrest
    have hne := List.dropWhile_eq_nil_iff.1 hall '\n' hfeed
    cases hne
  · exact .inl (Option.some.inj hv)

/-- Of blanks and a comment only the inside of the comment has letters. -/
theorem exists_in_note {blank note cs : List Char} {c : Char} (hblank : isAllBlank blank = true)
    (hnote : note = [] ∨ ∃ m, note = '-' :: '-' :: m ∧ '\n' ∉ m) (hc : isAsciiLetter (fold c) = true)
    (h : blank ++ note = s ++ c :: cs) : ∃ m, s = blank ++ '-' :: '-' :: m ∧ '\n' ∉ m := by
  have hhyphen : c ≠ '-' := by
    rintro rfl
    cases hc
  obtain ⟨u, rfl, hrest⟩ | ⟨u, rfl, hu, hne⟩ := append_eq_append_cases h
  · rcases hnote with rfl | ⟨m, rfl, hm⟩
    · simp at hrest
    · cases u with
      | nil => exact absurd (List.cons.inj hrest).1.symm hhyphen
      | cons x u =>
        obtain ⟨rfl, htail⟩ := List.cons.inj hrest
        cases u with
        | nil => exact absurd (List.cons.inj htail).1.symm hhyphen
        | cons x u =>
          obtain ⟨rfl, rfl⟩ := List.cons.inj htail
          exact ⟨u, rfl, fun h => hm (List.mem_append_left _ h)⟩
  · cases u with
    | nil => exact absurd rfl hne
    | cons x u =>
      obtain ⟨rfl, -⟩ := List.cons.inj hu
      have hx : isBlank c = true := List.all_eq_true.mp hblank c (by simp)
      rw [not_isBlank_of_letter hc] at hx
      cases hx

/-- Behind the front of a closing cap no clause stands that can be read nowhere inside of caps: what is left
there is blank or a comment. -/
theorem not_standsAt_behind_cap (hq : q.BeginsIn starts) (hbars : BarsInside capForm q)
    (hcap : StandsAt closingCap before (s ++ t)) (hs : s ≠ []) : ¬ StandsAt q (before ++ s) t := by
  intro hstands
  obtain ⟨r, hr⟩ := Option.isSome_iff_exists.mp hcap.reads
  obtain ⟨r', hr'⟩ := Option.isSome_iff_exists.mp hstands.reads
  obtain ⟨cap, blank, note, hsplit, hform, hchars, hblank, hnote⟩ :=
    exists_of_closingCap (Pattern.form_of_readAt hr)
  by_cases hinside : (blank ++ note).length < t.length
  · rw [List.getLast?_append_of_ne_nil _ hs, hbars.inside s t _ hform hs hinside] at hr'
    cases hr'
  · obtain ⟨u, v, rfl, hrest⟩ := exists_of_suffix_of_length_le (a := s) (b := t)
      ⟨cap, hsplit.symm⟩ (Nat.le_of_not_lt hinside)
    rw [hrest, ← List.append_assoc, List.append_cancel_right_eq, List.append_cancel_right_eq] at hsplit
    subst hsplit
    obtain ⟨c, cs, rfl, hc⟩ := exists_letter hq hr'
    obtain ⟨m, rfl, hm⟩ := exists_in_note hblank hnote hc hrest
    -- in a comment behind the cap nothing is at top level
    have hplain : (u ++ blank).all isPlain = true := by
      rw [List.all_append, Bool.and_eq_true, List.all_eq_true, List.all_eq_true]
      exact ⟨fun x hx => isPlain_of_isCapChar (List.all_eq_true.mp hchars x hx),
        fun x hx => (isFiller_ne (isFiller_of_isBlank (List.all_eq_true.mp hblank x hx))).1⟩
    rw [← List.append_assoc u] at hcap hstands
    have htop := hstands.at_top
    have hnot := endsAtTop_comment hm
    rw [endsAtTop, hcap.run_append beginsIn_closingCap hplain] at htop
    rw [endsAtTop, htop] at hnot
    cases hnot

/-! ## The key word of a row cap -/

/-- A word that blanks follow is at its end. -/
theorem wordEnd_of_blanks {r : List Char} (h : blanks s = some r) : wordEnd s = some s := by
  cases s with
  | nil => cases h
  | cons c cs =>
    rw [blanks, many1] at h
    split at h
    · rename_i hblank
      have hword : isWord c = false := by
        simpa using of_isBlank (p := (!isWord ·)) (by decide +kernel) hblank
      simp [wordEnd, hword]
    · cases h

theorem capWord_of_capForm {r : List Char} (h : capForm s = some r) : ∃ u, capWord.form s = some u := by
  rcases Option.or_eq_some_iff.mp h with h | ⟨-, h⟩
  · obtain ⟨t, ht, -⟩ := seq_eq_some_iff.mp h
    obtain ⟨u, hu, hblanks⟩ := seq_eq_some_iff.mp ht
    obtain ⟨v, hv⟩ := exists_of_seq hblanks
    exact ⟨u, seq_eq (by simp [either, hu]) (wordEnd_of_blanks hv)⟩
  · obtain ⟨u, hu, hblanks⟩ := seq_eq_some_iff.mp h
    obtain ⟨v, hv⟩ := exists_of_seq hblanks
    have hlimit : word "LIMIT" s = none := by
      obtain ⟨c, cs, rfl, hc, -⟩ := head_of_spelled (a := 'F') hu
      have hne : fold 'L' ≠ fold c := by
        rw [hc]
        decide
      exact if_neg hne
    exact ⟨u, seq_eq (by simp [either, hlimit, hu]) (wordEnd_of_blanks hv)⟩

theorem standsAt_capWord (h : StandsAt closingCap before here) : StandsAt capWord before here := by
  obtain ⟨r, hr⟩ := Option.isSome_iff_exists.mp h.reads
  obtain ⟨t, ht⟩ := exists_of_seq (Pattern.form_of_readAt hr)
  obtain ⟨u, hu⟩ := capWord_of_capForm ht
  have hplaces : closingCap.atWordStart = capWord.atWordStart := rfl
  exact ⟨h.at_top, Option.isSome_of_mem (Pattern.readAt_of_place hplaces hr hu)⟩

/-- Where a row cap closes a text no order follows. -/
theorem lacks_orderBy (h : StandsAt closingCap before here) : Lacks orderBy before here := by
  rintro t u rfl hstands
  by_cases ht : t = []
  · subst ht
    obtain ⟨r, hr⟩ := Option.isSome_iff_exists.mp h.reads
    obtain ⟨r', hr'⟩ := Option.isSome_iff_exists.mp hstands.reads
    have hnone := beginsIn_orderBy.form_eq_none beginsIn_closingCap (by decide) (Pattern.form_of_readAt hr')
    rw [← List.nil_append u, Pattern.form_of_readAt hr] at hnone
    cases hnone
  · exact not_standsAt_behind_cap beginsIn_orderBy
      (barsInside_capForm beginsIn_orderBy (by decide)) h ht hstands

/-! ## The tail of an order -/

theorem takes_orderBy : Takes orderBy.form isPlain := by
  have hword {w : String} (hw : (w.toList.map fold).all isAsciiLetter = true) : Takes (word w) isPlain :=
    takes_spelled fun c hc => (isPlain_of_letter (List.all_eq_true.mp hw _ hc)).1
  have hblanks : Takes blanks isPlain :=
    takes_many1 fun c hc => (isFiller_ne (isFiller_of_isBlank hc)).1
  exact (hword (by decide)).seq (hblanks.seq ((hword (by decide)).seq takes_wordEnd))

/-- What is behind an order of top level has the row caps of the text. -/
theorem standsIn_tail {tail u : List Char} (htop : endsAtTop before = true)
    (hr : orderBy.readAt before.getLast? (t ++ u) = some tail)
    (hcap : StandsAt capWord (before ++ t) u) : StandsIn capWord tail := by
  obtain ⟨r, hread⟩ := Option.isSome_iff_exists.mp hcap.reads
  have hform := Pattern.form_of_readAt hr
  obtain ⟨w, hw, hplain⟩ := takes_orderBy _ _ hform
  by_cases hinside : tail.length < u.length
  · -- the cap would start in what the order takes
    by_cases ht : t = []
    · subst ht
      have hfront := bars_orderBy_capWord.front _ _ hform hinside
      rw [List.nil_append, Pattern.form_of_readAt hread] at hfront
      cases hfront
    · rw [List.getLast?_append_of_ne_nil _ ht, bars_orderBy_capWord.inside t u _ hform ht hinside] at hread
      cases hread
  · obtain ⟨w', v, rfl, rfl⟩ :=
      exists_of_suffix_of_length_le (a := t) (b := u) ⟨w, hw.symm⟩ (Nat.le_of_not_lt hinside)
    rw [← List.append_assoc, List.append_cancel_right_eq, List.append_cancel_right_eq] at hw
    subst hw
    have hstands : StandsAt orderBy before (w' ++ v ++ u) := ⟨htop, Option.isSome_of_mem hr⟩
    refine ⟨v, u, rfl, ?_, ?_⟩
    · rw [endsAtTop, ← hstands.run_append beginsIn_orderBy hplain]
      exact hcap.at_top
    · rw [← List.append_assoc] at hread
      exact Option.isSome_of_mem (Pattern.readAt_of_append hread)

/-! ## Dropping an order -/

theorem Lacks.of_blank (hq : q.BeginsIn starts) {blank : List Char} (hblank : isAllBlank blank = true)
    (h : Lacks q (before ++ blank) here) : Lacks q before (blank ++ here) := by
  intro t u hcut hstands
  obtain ⟨v, rfl, rfl⟩ | ⟨v, rfl, rfl, hv⟩ := append_eq_append_cases hcut
  · exact h v u rfl (by rwa [List.append_assoc])
  · obtain ⟨r, hr⟩ := Option.isSome_iff_exists.mp hstands.reads
    obtain ⟨c, cs, hc, hletter⟩ := exists_letter hq hr
    cases v with
    | nil => exact hv rfl
    | cons x v =>
      obtain ⟨rfl, -⟩ := List.cons.inj hc
      have hx : isBlank x = true := List.all_eq_true.mp hblank x (by simp)
      rw [not_isBlank_of_letter hletter] at hx
      cases hx

/-- An order is dropped with all that is behind it, and only if that has no row cap. -/
theorem dropOrder_cases (sql : List Char) : dropOrder sql = sql ∨ ∃ before here, sql = before ++ here ∧
    IsLastAt orderBy before here ∧ Lacks capWord before here ∧ dropOrder sql = trimEnd before := by
  rw [dropOrder]
  split
  · rename_i first behind hlast
    obtain ⟨before, here, tail, hsql, hfront, htail, hr, hstands⟩ :=
      lastAtTop?_eq_some beginsIn_orderBy barsInside_orderBy hlast
    simp only [hfront, htail]
    split
    · rename_i hlist
      rw [Bool.and_eq_true, Option.isNone_iff_eq_none] at hlist
      refine .inr ⟨before, here, hsql, hstands, fun t u hhere hcap => ?_, rfl⟩
      rw [hhere] at hr
      have hin := standsIn_tail hstands.stands.at_top hr hcap
      rw [← lastAtTop?_isSome_iff beginsIn_capWord barsInside_capWord, hlist.2] at hin
      cases hin
    · exact .inl rfl
  · exact .inl rfl

/-- A row cap behind which there is no order keeps the order in front of it. -/
theorem dropOrder_of_standsAt (hcap : StandsAt capWord before here) (horder : Lacks orderBy before here) :
    dropOrder (before ++ here) = before ++ here := by
  obtain h | ⟨b, h, hsql, hlast, hlacks, -⟩ := dropOrder_cases (before ++ here)
  · exact h
  · obtain ⟨v, rfl, rfl⟩ | ⟨v, rfl, rfl, -⟩ := append_eq_append_cases hsql
    · exact absurd hlast.stands (horder v h rfl)
    · exact absurd hcap (hlacks v here rfl)

/-! ## Row caps that are respected -/

theorem stripTrailing_true_cases (sql : List Char) :
    stripTrailing sql true = queryBody sql ∨ stripTrailing sql true = dropOrder (queryBody sql) := by
  unfold stripTrailing
  simp only [if_true]
  split
  · split
    · exact .inl rfl
    · exact .inr rfl
  · exact .inr rfl

/-- **Row caps stay.** The body of a query is what is in front of its totals, without the semicolons and
blanks at the end. Where row caps are respected, all that is stripped from it is the last order of top level
with what is behind it, and there is no row cap of top level in that. So the body stays as it is if a row cap
of top level, in whatever notation, has no order of top level behind it. -/
theorem stripTrailing_keeps_cap (sql : List Char) :
    IsBody (trim sql) (queryBody sql) ∧
    (stripTrailing sql true = queryBody sql ∨
      ∃ before order removed, queryBody sql = before ++ order ∧ IsLastAt orderBy before order ∧
        stripTrailing sql true = trimEnd before ∧ queryBody sql = trimEnd before ++ removed ∧
          Lacks capWord (trimEnd before) removed) ∧
    ∀ before here, queryBody sql = before ++ here → StandsAt capWord before here →
      Lacks orderBy before here → stripTrailing sql true = queryBody sql := by
  have hcases := stripTrailing_true_cases sql
  refine ⟨isBody_queryBody sql, ?_, ?_⟩
  · rcases hcases with h | h
    · exact .inl h
    rw [h]
    refine (dropOrder_cases (queryBody sql)).imp_right fun ⟨before, order, hbody, hlast, hlacks, hkept⟩ => ?_
    obtain ⟨blank, hblank, hall⟩ := trimEnd_append before
    refine ⟨before, order, blank ++ order, hbody, hlast, hkept, ?_, ?_⟩
    · rw [← List.append_assoc, ← hblank, hbody]
    · exact .of_blank beginsIn_capWord hall (by rwa [← hblank])
  · intro before here hbody hcap horder
    rcases hcases with h | h
    · exact h
    · rw [h, hbody, dropOrder_of_standsAt hcap horder]

/-- A query with its row cap in a notation that no cap pattern knows. -/
def cappedFrom : List Char := "SELECT a FROM t ORDER BY 1 LIMIT 5, 10".toList

theorem stripTrailing_keeps_cap_from : stripTrailing cappedFrom true = cappedFrom := by
  have hbody : queryBody cappedFrom = cappedFrom := by decide
  have hcut : cappedFrom = "SELECT a FROM t ORDER BY 1 ".toList ++ "LIMIT 5, 10".toList := by decide
  have hkept := (stripTrailing_keeps_cap cappedFrom).2.2 _ _ (hbody.trans hcut) (by decide)
    (by decide)
  rw [hkept, hbody]

/-! ## Row caps that are not respected -/

/-- In front of the row cap a text begins that reads as a row cap to the end. -/
def IsShadowed (before cap : List Char) : Prop :=
  ∃ a b, before = a ++ b ∧ b ≠ [] ∧ (closingCap.readAt a.getLast? (b ++ cap)).isSome = true

/-- What reads as a row cap in front of a row cap of top level is not at top level. -/
theorem not_endsAtTop_of_shadow {a b cap : List Char} (hcap : StandsAt closingCap (a ++ b) cap)
    (hb : b ≠ []) (hr : (closingCap.readAt a.getLast? (b ++ cap)).isSome = true) :
    endsAtTop a = false := by
  rw [← Bool.not_eq_true]
  intro htop
  exact not_standsAt_behind_cap beginsIn_closingCap (barsInside_capForm beginsIn_closingCap (by decide))
    ⟨htop, hr⟩ hb hcap

/-- A row cap without a shadow is the first that is found, and goes. -/
theorem stripTrailing_length_le {f : Found} (hbody : queryBody sql = before ++ here)
    (hf : closingCap.find? (before ++ here) = some f) (hbefore : f.before = before)
    (htop : endsAtTop before = true) : (stripTrailing sql false).length ≤ before.length := by
  rw [stripTrailing, hbody, hf]
  simp only [hbefore, htop, if_true, Bool.false_eq_true, if_false]
  exact ((dropOrder_isPrefix _).trans ((dropSemicolons_isPrefix _).trans (trimEnd_isPrefix _))).length_le

/-- If what is found first is not at top level, the row cap keeps all that is in front of it. -/
theorem stripTrailing_eq_body {f : Found} {cap : List Char} (hbody : queryBody sql = before ++ cap)
    (hcap : StandsAt closingCap before cap) (hf : closingCap.find? (before ++ cap) = some f)
    (htop : endsAtTop f.before = false) : stripTrailing sql false = before ++ cap := by
  rw [stripTrailing, hbody, hf]
  simp only [htop, Bool.false_eq_true, if_false]
  exact dropOrder_of_standsAt (standsAt_capWord hcap) (lacks_orderBy hcap)

/-- **Row caps go.** Where row caps are not respected, a row cap that ends the body of a query at top level
is stripped unless a text in front of it reads as a row cap to the end. Such a text is never at top level
(`not_endsAtTop_of_shadow`), but it is found first, and then all of the body stays. -/
theorem stripTrailing_capped {cap : List Char} (hbody : queryBody sql = before ++ cap)
    (hcap : StandsAt closingCap before cap) :
    ((stripTrailing sql false).length ≤ before.length ↔ ¬ IsShadowed before cap) ∧
      (IsShadowed before cap → stripTrailing sql false = before ++ cap) := by
  obtain ⟨r, hr⟩ := Option.isSome_iff_exists.mp hcap.reads
  obtain ⟨c, cs, hcs, -⟩ := exists_letter beginsIn_closingCap hr
  have hne : cap ≠ [] := by simp [hcs]
  obtain ⟨f, hf, b, rfl⟩ := Pattern.exists_find?_le hne hr
  obtain ⟨hcut, -, -⟩ := closingCap.find?_eq_some hf
  rw [List.append_assoc, List.append_cancel_left_eq] at hcut
  obtain ⟨hread, hfirst⟩ := Pattern.readAt_of_find? hf
  rw [← hcut] at hread hfirst
  by_cases hb : b = []
  · -- what is found is the cap itself
    subst hb
    rw [List.nil_append] at hfirst
    have hclear : ¬ IsShadowed (f.before ++ []) cap := by
      rintro ⟨a, b, hab, hb, hsome⟩
      rw [List.append_nil] at hab
      rw [hfirst a b hab hb] at hsome
      cases hsome
    have hgone := stripTrailing_length_le hbody hf (List.append_nil _).symm hcap.at_top
    exact ⟨iff_of_true hgone hclear, fun h => absurd h hclear⟩
  · have hsome : (closingCap.readAt f.before.getLast? (b ++ cap)).isSome = true := by rw [hread]; rfl
    have hshadowed : IsShadowed (f.before ++ b) cap := ⟨f.before, b, rfl, hb, hsome⟩
    have hkept := stripTrailing_eq_body hbody hcap hf (not_endsAtTop_of_shadow hcap hb hsome)
    refine ⟨iff_of_false ?_ (not_not_intro hshadowed), fun _ => hkept⟩
    have hpos := List.length_pos_of_ne_nil hne
    rw [hkept, List.length_append]
    omega

/-- A query with a quote that reads as a row cap to the end. -/
def quotedCap : List Char := "SELECT 'LIMIT 5 --' AS a FROM t ".toList

def rowCap : List Char := "LIMIT 10".toList

theorem stripTrailing_capped_quoted : IsShadowed quotedCap rowCap ∧
    stripTrailing (quotedCap ++ rowCap) false = quotedCap ++ rowCap := by
  have hshadowed : IsShadowed quotedCap rowCap :=
    ⟨"SELECT '".toList, "LIMIT 5 --' AS a FROM t ".toList, by decide, by decide, by decide⟩
  exact ⟨hshadowed, (stripTrailing_capped (by decide) (by decide)).2 hshadowed⟩

/-- So a row cap of top level may stay. -/
theorem stripTrailing_misses_cap : ¬ ∀ sql before cap, queryBody sql = before ++ cap →
    StandsAt closingCap before cap → (stripTrailing sql false).length ≤ before.length := fun h =>
  absurd (h (quotedCap ++ rowCap) quotedCap rowCap (by decide) (by decide))
    (by decide)

end QueryBlend.Sql
