import QueryBlend.Pivot
import QueryBlend.Proofs.Sql.Closed
import QueryBlend.Proofs.Sql.Totals
/-!
# The order and the row cap of a pivot

`flatSelect` puts an order and a row cap behind a plain select, and `stripTrailing` takes such clauses off
a query. The two have patterns of their own, and a select may mention clauses of every kind. For a closed
select they fit: what one puts on is just what the other takes off.

* **Nothing in front.** No row cap starts in the select and reaches to the end: it would have to take the
  `D` of `ORDER`, or to hide a line feed in a comment (`not_capped_over_order`). So the cap of the pivot
  is found where it has been put (`find?_closingCap`), and a select with an order behind it has no cap
  of its own (`occursIn_bareCap`).
* **Nothing across.** A comment that announces totals is one in the select alone (`form_totals_cut`).
* **The last order.** Occurrences of `ORDER BY` do not overlap, and behind a closed select and a line
  feed is top level, so the last one of top level is the pivot's (`lastAtTop?_orderBy`).

Results:
* `stripTrailing_orderAndCap`: with both clauses behind it a select comes out trimmed, or, where the limit
  is to be respected, with both.
-/
namespace QueryBlend.Pivot
open Text Text.Form Sql

variable {s t n : List Char}

/-! ## What a row cap is made of -/

def isCapLetter (c : Char) : Bool := "limtofsechnxrwy".toList.contains (fold c)

def isCapChar (c : Char) : Bool := isBlank c || isDecimal c || isCapLetter c

theorem takes_capWord {w : String} (h : w.toList.all isCapLetter = true) :
    Takes (word w) isCapChar := by
  refine takes_spelled fun c hc => ?_
  obtain ⟨a, ha, he⟩ := List.mem_map.mp hc
  have hletter := List.all_eq_true.mp h a ha
  rw [isCapLetter, he] at hletter
  rw [isCapChar, isCapLetter, hletter, Bool.or_true]

theorem takes_capBlanks : Takes blanks isCapChar := takes_many1 fun c hc => by simp [isCapChar, hc]

theorem takes_capNumber : Takes number isCapChar := takes_many1 fun c hc => by simp [isCapChar, hc]

theorem takes_limitForm : Takes limitForm isCapChar :=
  (takes_capWord (by decide)).seq (takes_capBlanks.seq takes_capNumber)

theorem takes_offsetForm : Takes offsetForm isCapChar :=
  takes_capBlanks.seq ((takes_capWord (by decide)).seq (takes_capBlanks.seq takes_capNumber))

theorem takes_fetchForm : Takes fetchForm isCapChar :=
  (takes_capWord (by decide)).seq <| takes_capBlanks.seq <|
    ((takes_capWord (by decide)).either (takes_capWord (by decide))).seq <| takes_capBlanks.seq <|
    takes_capNumber.seq <| takes_capBlanks.seq <| (takes_capWord (by decide)).seq <|
    (takes_capWord (by decide)).maybe.seq <| takes_capBlanks.seq <| takes_capWord (by decide)

theorem takes_capForm : Takes capForm isCapChar :=
  (takes_limitForm.seq takes_offsetForm.maybe).either takes_fetchForm

theorem textEnd_eq_some {r : List Char} (h : textEnd s = some r) : s = [] := by
  rw [textEnd] at h
  split at h
  · simpa using ‹s.isEmpty = true›
  · cases h

theorem takes_blankGap : Takes gap isBlank := takes_many fun _ hc => hc

theorem takes_lineComment : Takes lineComment (· != '\n') :=
  (takes_literal (by decide)).seq (takes_many fun _ hc => hc)

/-- Where a row cap closes a text, a part without line feeds may follow what caps are made of. -/
def ClosesWithCap (s : List Char) : Prop :=
  ∃ w c, s = w ++ c ∧ w.all isCapChar = true ∧ c.all (· != '\n') = true

theorem closesWithCap_of_gap {w u : List Char} (hw : w.all isCapChar = true)
    (hu : gap u = some t) (ht : t.all (· != '\n') = true) : ClosesWithCap (w ++ u) := by
  obtain ⟨g, rfl, hg⟩ := takes_blankGap u t hu
  have hgap : g.all isCapChar = true := by
    rw [List.all_eq_true] at hg ⊢
    intro c hc
    simp [isCapChar, hg c hc]
  exact ⟨w ++ g, t, by simp, by simp [hw, hgap], ht⟩

theorem closesWithCap_of_bareCap {r : List Char} (h : bareCap.form s = some r) : ClosesWithCap s := by
  obtain ⟨t, ht, h⟩ := seq_eq_some_iff.mp h
  obtain ⟨u, hu, hend⟩ := seq_eq_some_iff.mp h
  obtain ⟨w, rfl, hw⟩ := takes_limitForm.either takes_fetchForm s t ht
  exact closesWithCap_of_gap hw hu (by simp [textEnd_eq_some hend])

theorem closesWithCap_of_closingCap {r : List Char} (h : closingCap.form s = some r) :
    ClosesWithCap s := by
  obtain ⟨t, ht, h⟩ := seq_eq_some_iff.mp h
  obtain ⟨u, hu, h⟩ := seq_eq_some_iff.mp h
  obtain ⟨v, hv, hend⟩ := seq_eq_some_iff.mp h
  obtain ⟨w, rfl, hw⟩ := takes_capForm s t ht
  obtain ⟨c, rfl, hc⟩ := takes_lineComment.maybe u v hv
  exact closesWithCap_of_gap hw hu (by simp [hc, textEnd_eq_some hend])

theorem orderClause_cut : orderClause = "\nOR".toList ++ 'D' :: "ER BY\n    1".toList := rfl

/-- No row cap that closes a text starts in front of the order of a pivot: what caps are made of ends at
the `D` of `ORDER`, and a line feed is still to come. -/
theorem not_capped_over_order (s t : List Char) : ¬ ClosesWithCap (s ++ orderClause ++ t) := by
  rintro ⟨w, c, he, hw, hc⟩
  have hcut : s ++ orderClause ++ t =
      (s ++ "\nOR".toList) ++ 'D' :: ("ER BY\n    1".toList ++ t) := by
    simp only [orderClause_cut, List.append_assoc, List.cons_append]
  have hstop : Stops isCapChar ('D' :: ("ER BY\n    1".toList ++ t)) := stops_cons (by decide) _
  rw [hcut] at he
  obtain ⟨u, hu⟩ := prefix_run hw hstop ⟨c, he.symm⟩
  rw [← hu, List.append_assoc, List.append_cancel_left_eq] at he
  have hfeed : '\n' ∈ 'D' :: ("ER BY\n    1".toList ++ t) := by simp
  have := List.all_eq_true.mp hc '\n' (by rw [← he]; exact List.mem_append_right u hfeed)
  cases this

theorem occursIn_bareCap (s : List Char) : bareCap.occursIn (s ++ orderClause) = false := by
  refine Pattern.occursIn_eq_false fun x r hx hne hr => ?_
  rcases suffix_append_cases hx with hx | ⟨y, rfl, -, -⟩
  · have hnone : orderClause.tails.all (fun x => (bareCap.form x).isNone) = true := by decide
    have := List.all_eq_true.mp hnone x (List.mem_tails _ _ |>.mpr hx)
    rw [hr] at this
    cases this
  · have := closesWithCap_of_bareCap hr
    exact not_capped_over_order y [] (by rwa [List.append_nil])

/-! ## The row cap of a pivot -/

/-- A number as it is written: at least one digit, and nothing else. -/
structure IsNumber (n : List Char) : Prop where
  not_empty : n ≠ []
  digits : n.all isDecimal = true

theorem isNumber_of_rowBound? {wrapper : List Char} (h : rowBound? wrapper = some n) : IsNumber n := by
  obtain ⟨f, hf, h⟩ := Option.bind_eq_some_iff.mp h
  obtain ⟨digits, hd, h⟩ := Option.bind_eq_some_iff.mp h
  cases h
  have hread := (Pattern.find?_eq_some _ hf).2.2
  obtain ⟨t, ht, hnumber⟩ := seq_eq_some_iff.mp hread
  rw [hd, Option.some.injEq] at ht
  subst ht
  cases digits with
  | nil => cases hnumber
  | cons c cs =>
    by_cases hc : isDecimal c = true
    · exact ⟨by simp [hc], List.all_takeWhile⟩
    · simp [number, many1, hc] at hnumber

/-- The row cap of a pivot on its line. -/
def capText (n : List Char) : List Char := "FETCH NEXT ".toList ++ (n ++ " ROWS ONLY".toList)

theorem capClause_eq (n : List Char) : capClause n = '\n' :: capText n := by
  have hfront : "\nFETCH NEXT ".toList = '\n' :: "FETCH NEXT ".toList := by decide
  calc capClause n = "\nFETCH NEXT ".toList ++ (n ++ " ROWS ONLY".toList) := List.append_assoc _ _ _
    _ = ('\n' :: "FETCH NEXT ".toList) ++ (n ++ " ROWS ONLY".toList) := congrArg (· ++ _) hfront
    _ = '\n' :: capText n := List.cons_append

theorem capText_concat (n : List Char) :
    capText n = "FETCH NEXT ".toList ++ (n ++ " ROWS ONL".toList) ++ ['Y'] := by
  have hend : " ROWS ONLY".toList = " ROWS ONL".toList ++ ['Y'] := by decide
  calc capText n = "FETCH NEXT ".toList ++ (n ++ (" ROWS ONL".toList ++ ['Y'])) :=
        congrArg (fun t => "FETCH NEXT ".toList ++ (n ++ t)) hend
    _ = "FETCH NEXT ".toList ++ (n ++ " ROWS ONL".toList) ++ ['Y'] := by
        rw [← List.append_assoc n, ← List.append_assoc]

theorem capText_ne_nil (n : List Char) : capText n ≠ [] := by
  rw [capText_concat]
  exact List.append_ne_nil_of_right_ne_nil _ (List.cons_ne_nil _ _)

theorem blanks_space {t : List Char} (h : Stops isBlank t) : blanks (' ' :: t) = some t :=
  many1_append (s := [' ']) (by decide) (by decide) h

theorem fetchForm_capText (h : IsNumber n) : fetchForm (capText n) = some [] := by
  have hfirst : Stops isBlank (n ++ " ROWS ONLY".toList) := by
    intro c hc
    rw [List.head?_append_of_ne_nil _ h.not_empty] at hc
    exact isBlank_of_isDecimal (List.all_eq_true.mp h.digits c (List.mem_of_head? hc))
  have hnumber : number (n ++ " ROWS ONLY".toList) = some " ROWS ONLY".toList :=
    many1_append h.not_empty h.digits (by decide)
  have hrest : (blanks >=> word "ROW" >=> maybe (word "S") >=> blanks >=> word "ONLY")
      " ROWS ONLY".toList = some [] := by decide
  have hnext (t : List Char) : either (word "NEXT") (word "FIRST") ("NEXT ".toList ++ t) =
      some (' ' :: t) := rfl
  exact seq_eq (word_append "FETCH" (" NEXT ".toList ++ (n ++ " ROWS ONLY".toList))) <|
    seq_eq (blanks_space (stops_cons (by decide) _)) <| seq_eq (hnext _) <|
    seq_eq (blanks_space hfirst) <| seq_eq hnumber hrest

theorem readAt_closingCap (h : IsNumber n) : closingCap.readAt (some '\n') (capText n) = some [] := by
  have hlimit : (limitForm >=> maybe offsetForm) (capText n) = none := rfl
  have hcap : capForm (capText n) = some [] := by
    rw [capForm, either, hlimit, fetchForm_capText h]
    rfl
  exact seq_eq hcap rfl

/-- A row cap starts with one of two letters. -/
theorem head_of_capForm {r : List Char} (h : capForm s = some r) :
    ∃ c cs, s = c :: cs ∧ (fold c = 'l' ∨ fold c = 'f') := by
  rcases Option.or_eq_some_iff.mp h with h | ⟨-, h⟩
  · obtain ⟨t, ht, -⟩ := seq_eq_some_iff.mp h
    obtain ⟨u, hu, -⟩ := seq_eq_some_iff.mp ht
    obtain ⟨c, cs, hs, hc, -⟩ := head_of_spelled (a := 'L') hu
    exact ⟨c, cs, hs, .inl hc⟩
  · obtain ⟨u, hu, -⟩ := seq_eq_some_iff.mp h
    obtain ⟨c, cs, hs, hc, -⟩ := head_of_spelled (a := 'F') hu
    exact ⟨c, cs, hs, .inr hc⟩

/-- The row cap that closes the text is the one that has been put there. -/
theorem find?_closingCap (h : IsNumber n) (s : List Char) :
    closingCap.find? (s ++ orderClause ++ capClause n) =
      some ⟨s ++ orderClause ++ ['\n'], capText n, []⟩ := by
  have hcut : s ++ orderClause ++ capClause n = s ++ orderClause ++ ['\n'] ++ capText n := by
    rw [capClause_eq, List.append_assoc _ ['\n'], List.singleton_append]
  have hlast : (s ++ orderClause ++ ['\n']).getLast? = some '\n' := List.getLast?_concat
  rw [hcut]
  refine Pattern.find?_of_first (capText_ne_nil n) (fun x r hx hne hr => ?_) (by
    rw [hlast]
    exact readAt_closingCap h)
  rw [List.append_assoc] at hx
  rcases suffix_append_cases hx with hx | ⟨y, rfl, -, -⟩
  · -- in the order of the pivot there is no letter to start with
    obtain ⟨t, ht, -⟩ := seq_eq_some_iff.mp hr
    obtain ⟨c, cs, hs, hc⟩ := head_of_capForm ht
    have hnone : (orderClause ++ ['\n']).all (fun c => fold c != 'l' && fold c != 'f') = true := by
      decide
    have hmem : c ∈ orderClause ++ ['\n'] := by
      cases x with
      | nil => exact absurd rfl hne
      | cons d ds =>
        rw [List.cons_append, List.cons.injEq] at hs
        exact hs.1 ▸ hx.subset List.mem_cons_self
    have := List.all_eq_true.mp hnone c hmem
    rcases hc with hc | hc <;> simp [hc] at this
  · refine not_capped_over_order y (['\n'] ++ capText n) ?_
    have := closesWithCap_of_closingCap hr
    simpa only [List.append_assoc] using this

/-! ## The totals of a pivot -/

/-- Neither the order nor the row cap of a pivot announces totals. -/
theorem occursIn_totals (h : totals.occursIn s = false) (hn : IsNumber n) :
    totals.occursIn (s ++ orderClause ++ capClause n) = false := by
  refine Pattern.occursIn_eq_false fun x r hx hne hr => ?_
  rw [List.append_assoc] at hx
  rcases suffix_append_cases hx with hx | ⟨y, rfl, hy, hys⟩
  · obtain ⟨t, ht, -⟩ := seq_eq_some_iff.mp hr
    have ht := (behind?_eq_some_iff _ _ _).mp ht
    have hdash : '-' ∈ orderClause ++ capClause n := hx.subset (by rw [ht]; simp)
    have hdigit : '-' ∉ n := fun hm => absurd (List.all_eq_true.mp hn.digits _ hm) (by decide)
    rcases List.mem_append.mp hdash with hm | hm
    · exact absurd hm (by decide)
    rcases List.mem_append.mp hm with hm | hm
    · rcases List.mem_append.mp hm with hm | hm
      · exact absurd hm (by decide)
      · exact hdigit hm
    · exact absurd hm (by decide)
  · obtain ⟨r', hr'⟩ := form_totals_cut (stops_cons (by decide) _) hr
    exact Pattern.form_ne_some_of_occursIn rfl h y r' hys hy hr'

/-! ## The order of a pivot -/

theorem takes_orderBy_rest : Takes (blanks >=> word "BY" >=> wordEnd) (fold · != fold 'O') := by
  refine (takes_many1 fun c hc => ?_).seq ((takes_spelled fun c hc => ?_).seq takes_wordEnd)
  · exact of_isBlank (p := (fold · != fold 'O')) (by decide +kernel) hc
  · rw [bne_iff_ne]
    intro he
    rw [he] at hc
    exact absurd hc (by decide)

theorem startsOnce_orderBy : orderBy.StartsOnce 'o' :=
  Pattern.startsOnce_word (a := 'O') rfl (by decide) takes_orderBy_rest

/-- The order of a pivot behind its line feed. -/
def orderText : List Char := "ORDER BY".toList ++ "\n    1".toList

theorem append_orderClause (s : List Char) : s ++ orderClause = (s ++ ['\n']) ++ orderText := by
  have horder : orderClause = ['\n'] ++ orderText := by decide
  rw [horder, List.append_assoc]

theorem endsAtTop_orderClause (h : isClosed s = true) :
    endsAtTop (s ++ orderClause ++ ['\n']) = true := by
  rw [endsAtTop, run, append_orderClause, List.append_assoc (s ++ ['\n']), runTo_append, ← codeAt_zero,
    runTo_closed_feed h, runTo_plain (by decide)]
  rfl

theorem orderText_plain : orderText.all isPlain = true := by decide

/-- Behind a closed text and a line feed all of the order of a pivot is top-level code. -/
theorem mask_orderClause (h : isClosed s = true) :
    (mask (s ++ orderClause))[s.length + 1]? = some true := by
  have hlength : ∀ m, (maskTo m (codeAt 0) (s ++ ['\n'])).length = s.length + 1 := by
    simp [maskTo_length]
  rw [mask, append_orderClause, maskTo_append, ← codeAt_zero, runTo_closed_feed h,
    maskTo_plain orderText_plain, List.getElem?_append_right (by rw [hlength]), hlength, Nat.sub_self]
  decide

/-- The last order of top level is the one that has been put there. -/
theorem lastAtTop?_orderBy (h : isClosed s = true) :
    lastAtTop? orderBy (s ++ orderClause) = some (s.length + 1, s.length + 1 + 8) := by
  have hread : orderBy.readAt (s ++ ['\n']).getLast? ("ORDER BY".toList ++ "\n    1".toList) =
      some "\n    1".toList := by
    rw [List.getLast?_concat]
    decide
  obtain ⟨spans, hspans⟩ := Pattern.spans_concat startsOnce_orderBy (by decide) hread (by decide)
  have hlength : (s ++ ['\n']).length = s.length + 1 ∧ "ORDER BY".toList.length = 8 :=
    ⟨by simp, by decide⟩
  rw [hlength.1, hlength.2] at hspans
  have hall : orderBy.spans (s ++ orderClause) = spans ++ [(s.length + 1, s.length + 1 + 8)] := by
    rw [append_orderClause]
    exact hspans
  simp only [lastAtTop?]
  rw [hall, List.filter_append]
  simp [mask_orderClause h]

/-- The order of a pivot goes, with the line feed in front of it. -/
theorem dropOrder_orderClause (h : isClosed s = true) : dropOrder (s ++ orderClause) = trimEnd s := by
  have hfront : (s ++ orderClause).take (s.length + 1) = s ++ ['\n'] := by
    rw [append_orderClause]
    exact List.take_left' (by simp)
  have htail : (s ++ orderClause).drop (s.length + 1 + 8) = "\n    1".toList := by
    have hcut : orderClause = "\nORDER BY".toList ++ "\n    1".toList := by decide
    have hlength : "\nORDER BY".toList.length = 9 := by decide
    rw [hcut, ← List.append_assoc]
    exact List.drop_left' (by rw [List.length_append, hlength])
  have hlist : (isOrderList "\n    1".toList && (lastAtTop? capWord "\n    1".toList).isNone) = true := by
    decide
  rw [dropOrder, lastAtTop?_orderBy h]
  simp only [htail, hfront, hlist, if_true]
  exact dropEnd_append_of_all (by decide)

/-! ## Both clauses -/

theorem queryBody_orderAndCap (hs : isAllBlank s = false) (ht : totals.occursIn s = false)
    (hn : IsNumber n) : queryBody (s ++ orderClause ++ capClause n) =
      trimStart s ++ orderClause ++ capClause n := by
  have hlast : (trimStart s ++ orderClause ++ capClause n).getLast? = some 'Y' := by
    rw [capClause_eq, capText_concat, ← List.cons_append, ← List.append_assoc]
    exact List.getLast?_concat
  have htrim : trim (s ++ orderClause ++ capClause n) = trimStart s ++ orderClause ++ capClause n := by
    rw [trim, List.append_assoc, trimStart_append_of_not_blank hs, ← List.append_assoc]
    exact dropEnd_of_getLast? hlast (by decide)
  have htotals : totals.occursIn (trimStart s ++ orderClause ++ capClause n) = false :=
    occursIn_totals (Pattern.occursIn_eq_false_of_suffix rfl ht (trimStart_suffix s)) hn
  rw [queryBody, htrim, dropTotal, Pattern.find?_eq_none_of_occursIn htotals]
  exact dropEnd_of_getLast? hlast (by decide)

/-- The clauses of a pivot behind a closed select are taken off together, or kept together where the
limit is to be respected. -/
theorem stripTrailing_orderAndCap (hs : isAllBlank s = false) (hclosed : isClosed s = true)
    (ht : totals.occursIn s = false) (hn : IsNumber n) :
    stripTrailing (s ++ orderClause ++ capClause n) false = trim s ∧
      stripTrailing (s ++ orderClause ++ capClause n) true =
        trimStart s ++ orderClause ++ capClause n := by
  have hstart : isClosed (trimStart s) = true := isClosed_trimStart hclosed
  have hlast : (trimStart s ++ orderClause).getLast? = some '1' := by
    rw [List.getLast?_append_of_ne_nil _ (by decide)]
    decide
  have hfeed : trimEnd (trimStart s ++ orderClause ++ ['\n']) = trimStart s ++ orderClause := by
    rw [trimEnd, dropEnd_append_of_all (by decide)]
    exact dropEnd_of_getLast? hlast (by decide)
  have hsemicolons : dropSemicolons (trimStart s ++ orderClause) = trimStart s ++ orderClause :=
    dropEnd_of_getLast? hlast (by decide)
  simp only [stripTrailing, queryBody_orderAndCap hs ht hn, find?_closingCap hn,
    endsAtTop_orderClause hstart, hfeed, hsemicolons, dropOrder_orderClause hstart]
  exact ⟨rfl, rfl⟩

/-- A select without an order of its own gets both clauses of a pivot that has them. -/
theorem withCap_withOrder {wrapper : List Char} (horder : rankOrder.occursIn wrapper = true)
    (hbound : rowBound? wrapper = some n) (h : lastAtTop? orderBy s = none) :
    withCap wrapper (withOrder wrapper s) = s ++ orderClause ++ capClause n := by
  have hwith : withOrder wrapper s = s ++ orderClause := by simp [withOrder, horder, h]
  rw [hwith, withCap, hbound]
  simp [occursIn_bareCap]

end QueryBlend.Pivot
