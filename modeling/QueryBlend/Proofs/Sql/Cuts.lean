import QueryBlend.Proofs.Sql.TopText
import QueryBlend.Proofs.Text.Occurrences
/-!
# Where trailing clauses are cut off

`stripTrailing` makes up to three cuts. Each is decided on what the one before it has left, for totals and
row caps by a scan of the text in front of the place, for the order by the mask of the whole text, and
between the cuts semicolons and blanks go, among them the line feed of a last comment.

**One cut.** `Cut` says what a cut is: a place of top level at which a clause starts, and in front of it
what is kept and a filler of semicolons and blanks. A cut of the start of a text is one of the text
(`Cut.append`), since only what is in front of the place counts, and it stays one when more filler goes
(`Cut.drop`).

**All cuts.** So the last cut is one of the trimmed text, however many have been made before it
(`CutTo.of_isPrefix`, `CutTo.dropOrder`).

* `stripTrailing_cut`: what is stripped is nothing but semicolons and blanks, or starts at a cut.
-/
namespace QueryBlend.Sql
open Text Text.Form

/-- Whether a text begins with a key word, letters in either case. -/
def BeginsWith (w : String) (s : List Char) : Prop := w.toList.map lowerAscii <+: s.map lowerAscii

/-- A text that begins with a comment, or with the key word of a row cap or an order. -/
def StartsClause (s : List Char) : Prop :=
  "--".toList <+: s ∨ ∃ w ∈ ["LIMIT", "FETCH", "ORDER"], BeginsWith w s

/-- A text is cut at a place of top level: a clause starts there, and what is kept goes up to there but for
semicolons and blanks. -/
structure Cut (sql kept filler clause : List Char) : Prop where
  sql_eq : sql = kept ++ filler ++ clause
  all_filler : filler.all isFiller = true
  at_top : isTopAt sql (byteCount (kept ++ filler)) = true
  starts : StartsClause clause

variable {sql s t kept filler clause : List Char}

/-! ## Key words -/

theorem fold_eq_lowerAscii {c : Char} (hs : fold c ≠ 's') (hk : fold c ≠ 'k') :
    fold c = lowerAscii c := by
  by_cases hlong : c = '\u017f'
  · simp [fold, hlong] at hs
  · by_cases hkelvin : c = '\u212a'
    · simp [fold, hkelvin] at hk
    · simp [fold, hlong, hkelvin]

/-- No other character counts as a letter of a word without `s` and `k`. -/
theorem beginsWith_of_word {w : String} {r : List Char} (h : word w s = some r)
    (hw : w.toList.all (fun c => fold c != 's' && fold c != 'k') = true) : BeginsWith w s := by
  obtain ⟨v, rfl, hv⟩ := spelled_eq_some_iff.mp h
  have hletters : ∀ c ∈ w.toList, fold c ≠ 's' ∧ fold c ≠ 'k' := by simpa using hw
  have hfold {t : List Char} (ht : t.map fold = w.toList.map fold) : t.map lowerAscii = t.map fold := by
    refine List.map_congr_left fun c hc => ?_
    have hmem : fold c ∈ w.toList.map fold := ht ▸ List.mem_map_of_mem hc
    obtain ⟨a, ha, hca⟩ := List.mem_map.mp hmem
    have hne := hletters a ha
    rw [hca] at hne
    exact (fold_eq_lowerAscii hne.1 hne.2).symm
  rw [BeginsWith, List.map_append, hfold hv, hfold rfl, hv]
  exact List.prefix_append _ _

theorem startsClause_of_word {w : String} {r : List Char} (h : word w s = some r)
    (hmem : w ∈ ["LIMIT", "FETCH", "ORDER"]) : StartsClause s := by
  have hw : ∀ w ∈ ["LIMIT", "FETCH", "ORDER"],
      w.toList.all (fun c => fold c != 's' && fold c != 'k') = true := by decide
  exact .inr ⟨w, hmem, beginsWith_of_word h (hw w hmem)⟩

theorem startsClause_totals {r : List Char} (h : totals.form s = some r) : StartsClause s := by
  obtain ⟨t, ht, -⟩ := seq_eq_some_iff.mp h
  exact .inl ⟨t, ((behind?_eq_some_iff _ _ _).mp ht).symm⟩

theorem startsClause_closingCap {r : List Char} (h : closingCap.form s = some r) : StartsClause s := by
  obtain ⟨t, ht, -⟩ := seq_eq_some_iff.mp h
  rcases Option.or_eq_some_iff.mp ht with hlimit | ⟨-, hfetch⟩
  · obtain ⟨u, hu, -⟩ := seq_eq_some_iff.mp hlimit
    obtain ⟨v, hv, -⟩ := seq_eq_some_iff.mp hu
    exact startsClause_of_word hv (by decide)
  · obtain ⟨v, hv, -⟩ := seq_eq_some_iff.mp hfetch
    exact startsClause_of_word hv (by decide)

theorem startsClause_orderBy {r : List Char} (h : orderBy.form s = some r) : StartsClause s := by
  obtain ⟨t, ht, -⟩ := seq_eq_some_iff.mp h
  exact startsClause_of_word ht (by decide)

theorem StartsClause.append (h : StartsClause s) (t : List Char) : StartsClause (s ++ t) := by
  rcases h with h | ⟨w, hw, h⟩
  · exact .inl (h.trans (List.prefix_append _ _))
  · refine .inr ⟨w, hw, h.trans ?_⟩
    rw [List.map_append]
    exact List.prefix_append _ _

/-- An order does not start with a line feed. -/
theorem head_of_orderBy {r : List Char} (h : orderBy.form s = some r) :
    ∃ c, s.head? = some c ∧ c ≠ '\n' := by
  obtain ⟨t, ht, -⟩ := seq_eq_some_iff.mp h
  obtain ⟨c, cs, rfl, hc, -⟩ := head_of_spelled (a := 'O') ht
  refine ⟨c, rfl, ?_⟩
  rintro rfl
  exact absurd hc (by decide)

/-! ## Cuts -/

theorem Cut.of_endsAtTop (hsql : sql = kept ++ filler ++ clause) (hfiller : filler.all isFiller = true)
    (htop : endsAtTop (kept ++ filler) = true) (hstarts : StartsClause clause) :
    Cut sql kept filler clause :=
  ⟨hsql, hfiller, by rw [hsql, isTopAt_append, htop], hstarts⟩

theorem Cut.endsAtTop (h : Cut sql kept filler clause) : endsAtTop (kept ++ filler) = true := by
  rw [← isTopAt_append _ clause, ← h.sql_eq, h.at_top]

/-- Only what is in front of the place counts, so a cut of the start of a text is one of the text. -/
theorem Cut.append (h : Cut s kept filler clause) (t : List Char) :
    Cut (s ++ t) kept filler (clause ++ t) :=
  .of_endsAtTop (by rw [h.sql_eq, List.append_assoc]) h.all_filler h.endsAtTop (h.starts.append t)

/-- Semicolons and blanks at the end of what is kept may go. -/
theorem Cut.drop (h : Cut sql (kept ++ t) filler clause) (ht : t.all isFiller = true) :
    Cut sql kept (t ++ filler) clause := by
  have hassoc : kept ++ (t ++ filler) = kept ++ t ++ filler := (List.append_assoc _ _ _).symm
  refine .of_endsAtTop (by rw [hassoc, h.sql_eq]) ?_ (by rw [hassoc, h.endsAtTop]) h.starts
  rw [List.all_append, ht, h.all_filler]
  rfl

/-- All that is open in what is kept is a last line comment. -/
theorem Cut.isSettled (h : Cut sql kept filler clause) : (run kept).isSettled = true := by
  have htop : (run (kept ++ filler)).isSettled = true := isSettled_of_isTop h.endsAtTop
  rwa [isSettled_run_append_still (all_isStill_of_filler h.all_filler)] at htop

/-- What is kept of the text goes up to a cut. -/
def CutTo (sql kept : List Char) : Prop := ∃ filler clause, Cut sql kept filler clause

theorem CutTo.of_isPrefix (h : CutTo s kept) (hp : s <+: sql) : CutTo sql kept := by
  obtain ⟨t, rfl⟩ := hp
  obtain ⟨filler, clause, hcut⟩ := h
  exact ⟨filler, clause ++ t, hcut.append t⟩

theorem CutTo.dropSemicolons (h : CutTo sql kept) : CutTo sql (dropSemicolons kept) := by
  obtain ⟨filler, clause, hcut⟩ := h
  obtain ⟨more, hkept, hmore⟩ := dropSemicolons_append kept
  rw [hkept] at hcut
  exact ⟨more ++ filler, clause, hcut.drop hmore⟩

theorem cutTo_trimEnd (hsql : sql = s ++ clause) (htop : endsAtTop s = true)
    (hstarts : StartsClause clause) : CutTo sql (trimEnd s) := by
  obtain ⟨blank, hs, hblank⟩ := trimEnd_append s
  exact ⟨blank, clause, .of_endsAtTop (by rw [← hs, hsql]) (all_isFiller_of_blank hblank)
    (by rw [← hs, htop]) hstarts⟩

/-- What is in front of a clause that is found at top level. -/
theorem cutTo_before {p : Pattern} {f : Found} (hf : p.find? sql = some f)
    (htop : endsAtTop f.before = true) (hstarts : ∀ s r, p.form s = some r → StartsClause s) :
    CutTo sql (trimEnd f.before) := by
  obtain ⟨hsql, -, hread⟩ := p.find?_eq_some hf
  exact cutTo_trimEnd hsql htop (hstarts _ _ hread)

theorem dropTotal_cut (sql : List Char) : dropTotal sql = sql ∨ CutTo sql (dropTotal sql) := by
  unfold dropTotal
  split
  · rename_i f hf
    split
    · rename_i htop
      exact .inr (cutTo_before hf htop fun _ _ => startsClause_totals)
    · exact .inl rfl
  · exact .inl rfl

theorem dropOrder_cut (sql : List Char) : dropOrder sql = sql ∨ CutTo sql (dropOrder sql) := by
  unfold dropOrder
  split
  · rename_i first behind hlast
    simp only []
    split
    · have hspan := List.mem_of_getLast? hlast
      rw [List.mem_filter] at hspan
      obtain ⟨r, hr⟩ := Pattern.form_of_mem_spans hspan.1
      obtain ⟨c, hc, hfeed⟩ := head_of_orderBy hr
      rw [List.head?_drop] at hc
      have htop := endsAtTop_of_mask (lastAtTop?_mask hlast) hc hfeed
      exact .inr (cutTo_trimEnd (List.take_append_drop first sql).symm htop (startsClause_orderBy hr))
    · exact .inl rfl
  · exact .inl rfl

theorem queryBody_cut (sql : List Char) :
    queryBody sql = dropSemicolons (trim sql) ∨ CutTo (trim sql) (queryBody sql) := by
  rcases dropTotal_cut (trim sql) with h | h
  · exact .inl (by rw [queryBody, h])
  · exact .inr h.dropSemicolons

/-- Without its order a text is cut, or it is as it was. -/
theorem CutTo.dropOrder (h : CutTo sql kept) : CutTo sql (dropOrder kept) := by
  rcases dropOrder_cut kept with he | hcut
  · rwa [he]
  · obtain ⟨filler, clause, hkept⟩ := h
    have hprefix : kept <+: sql := ⟨filler ++ clause, by rw [hkept.sql_eq, List.append_assoc]⟩
    exact hcut.of_isPrefix hprefix

/-- Behind the body of a query the row cap and the order are cut off. -/
theorem stripTrailing_cut_body (sql : List Char) (respectLimit : Bool) :
    stripTrailing sql respectLimit = queryBody sql ∨
      CutTo (queryBody sql) (stripTrailing sql respectLimit) := by
  unfold stripTrailing
  simp only []
  split
  · rename_i f hf
    split
    · rename_i htop
      split
      · exact .inl rfl
      · -- the order is looked for in what the row cap has left
        have hcap := cutTo_before hf htop fun _ _ => startsClause_closingCap
        exact .inr hcap.dropSemicolons.dropOrder
    · exact dropOrder_cut _
  · exact dropOrder_cut _

/-- **Cuts.** What is left of a query is the start of its trimmed text. Either only semicolons and blanks
have gone, or all has gone from a place of top level on at which a comment, a row cap or an order starts,
and the semicolons and blanks in front of that place; then nothing is open in what is left but a line
comment that has lost its line feed. -/
theorem stripTrailing_cut (sql : List Char) (respectLimit : Bool) :
    stripTrailing sql respectLimit <+: trim sql ∧
      (stripTrailing sql respectLimit = dropSemicolons (trim sql) ∨
        ∃ filler clause, Cut (trim sql) (stripTrailing sql respectLimit) filler clause ∧
          (run (stripTrailing sql respectLimit)).isSettled = true) := by
  refine ⟨stripTrailing_isPrefix sql respectLimit, ?_⟩
  have hcut : stripTrailing sql respectLimit = dropSemicolons (trim sql) ∨
      CutTo (trim sql) (stripTrailing sql respectLimit) := by
    rcases stripTrailing_cut_body sql respectLimit with h | h
    · rw [h]
      exact queryBody_cut sql
    · exact .inr (h.of_isPrefix (queryBody_isPrefix sql))
  refine hcut.imp_right fun ⟨filler, clause, h⟩ => ⟨filler, clause, h, h.isSettled⟩

end QueryBlend.Sql
