import QueryBlend.Proofs.Text.Blanks
import QueryBlend.Proofs.Text.Occurrences
import QueryBlend.Sql.Trailing
/-!
# Where totals are announced

The comment in front of a query's totals may have line feeds in its gap, so it need not stand in one
line. But only its words can follow the gap, and they have no line feed: what looks like an announcement
that goes on in a line of other text is one in the line where it starts (`form_totals_cut`).

* `find?_totals`: behind a text that does not mention totals the announcement is found where it starts.
* `queryBody_announced`: the body of such a text and an announcement at top level is the body of the text.
-/
namespace QueryBlend.Sql
open Text Text.Form

/-- The line that is in front of the totals of a query. -/
def totalMarker : List Char := "-- sql for creating the total".toList

/-- What all announcements say. -/
def announcement : List Char := "sql for creating the".toList

variable {s t : List Char}

/-! ## Announcements and line feeds -/

/-- An announcement of totals does not reach over a line feed if the next character that is not blank is
none with which it can go on: the gap in it may take the line feed, but nothing else may. -/
theorem form_totals_cut (hs : Stops (fold · == 's') (trimStart t)) {r : List Char}
    (h : totals.form (s ++ '\n' :: t) = some r) : ∃ r', totals.form s = some r' := by
  obtain ⟨u, hu, h⟩ := seq_eq_some_iff.mp h
  obtain ⟨v, hv, hword⟩ := seq_eq_some_iff.mp h
  have hstop : Stops (· != '\n') ('\n' :: t) := stops_cons (by decide) _
  have hu := (behind?_eq_some_iff _ _ _).mp hu
  obtain ⟨y, rfl⟩ := prefix_run (p := (· != '\n')) (by decide) hstop ⟨u, hu.symm⟩
  rw [List.append_assoc, List.append_cancel_left_eq] at hu
  subst hu
  have hv : (y ++ '\n' :: t).dropWhile isBlank = v := Option.some.inj hv
  rw [List.dropWhile_append] at hv
  split at hv
  · -- the gap takes the line feed, and the word does not start with what is behind it
    subst hv
    obtain ⟨c, cs, hc, hfold, -⟩ := head_of_spelled (a := 's') hword
    have hc : trimStart t = c :: cs := hc
    have hnot : (fold c == 's') = false := hs c (by rw [hc]; rfl)
    rw [hfold] at hnot
    exact absurd hnot (by decide)
  · subst hv
    obtain ⟨r', hr'⟩ := spelled_cut_feed (by decide) hword
    exact ⟨r', seq_eq (literal_append "--" y) (seq_eq rfl hr')⟩

/-! ## Texts that do not mention totals -/

theorem mentions_of_isInfix {w : List Char} (h : mentions w s = true) (hst : s <:+: t) :
    mentions w t = true :=
  (hasPart_iff _ _).mpr (((hasPart_iff _ _).mp h).trans (hst.map fold))

/-- Where an announcement can be read its words are. -/
theorem mentions_of_form {r : List Char} (h : totals.form s = some r) :
    mentions announcement s = true := by
  obtain ⟨u, hu, h⟩ := seq_eq_some_iff.mp h
  obtain ⟨v, hv, hword⟩ := seq_eq_some_iff.mp h
  have hsuffix : v <:+ s := (cuts_many _ _ _ hv).trans (cuts_literal _ _ _ hu)
  have hfront : announcement <+: "sql for creating the total".toList := by decide
  have hspelled := spelled_prefix hword
  have hv : announcement.map fold <+: v.map fold := (hfront.map fold).trans hspelled
  exact mentions_of_isInfix ((hasPart_iff _ _).mpr hv.isInfix) hsuffix.isInfix

theorem occursIn_totals_of_mentions (h : mentions announcement s = false) : totals.occursIn s = false := by
  refine Pattern.occursIn_eq_false fun x r hx _ hr => ?_
  rw [mentions_of_isInfix (mentions_of_form hr) hx.isInfix] at h
  cases h

/-! ## The announcement behind a text -/

theorem form_totalMarker (rest : List Char) : totals.form (totalMarker ++ rest) = some rest := by
  have hword := word_append "sql for creating the total" rest
  exact seq_eq (literal_append "--" _) (seq_eq rfl hword)

variable {gap : List Char}

/-- Blanks between a text and what follows it: none, or from a line feed on. -/
structure IsLineGap (s gap : List Char) : Prop where
  blank : isAllBlank gap = true
  feed : s = [] ∨ ∃ indent, gap = '\n' :: indent

theorem form_totals_ahead (h : mentions announcement s = false) (hgap : IsLineGap s gap)
    {x rest : List Char} (hx : x <:+ s ++ gap) (hne : x ≠ []) (r : List Char) :
    totals.form (x ++ (totalMarker ++ rest)) ≠ some r := by
  intro hr
  rcases suffix_append_cases hx with hx | ⟨y, rfl, hy, hys⟩
  · -- a blank is no hyphen
    obtain ⟨c, cs, rfl⟩ := List.exists_cons_of_ne_nil hne
    have hc : isBlank c = true := List.all_eq_true.mp hgap.blank c (hx.subset List.mem_cons_self)
    obtain ⟨u, hu, -⟩ := seq_eq_some_iff.mp hr
    have hu := (behind?_eq_some_iff _ _ _).mp hu
    obtain ⟨rfl, -⟩ := List.cons.inj hu
    exact absurd hc (by decide)
  · obtain rfl | ⟨indent, rfl⟩ := hgap.feed
    · exact hy (List.suffix_nil.mp hys)
    · have hindent : isAllBlank indent = true := hgap.blank
      have hstop : Stops (fold · == 's') (trimStart (indent ++ (totalMarker ++ rest))) := by
        rw [trimStart_append_of_blank hindent]
        exact stops_cons (by decide) _
      rw [List.append_assoc, List.cons_append] at hr
      obtain ⟨r', hr'⟩ := form_totals_cut hstop hr
      rw [mentions_of_isInfix (mentions_of_form hr') hys.isInfix] at h
      cases h

/-- The first announcement in a text is the one behind a part that does not mention any. -/
theorem find?_totals (h : mentions announcement s = false) (hgap : IsLineGap s gap) (rest : List Char) :
    totals.find? (trimStart (s ++ gap) ++ (totalMarker ++ rest)) =
      some ⟨trimStart (s ++ gap), totalMarker ++ rest, rest⟩ := by
  refine Pattern.find?_of_first (List.cons_ne_nil _ _) (fun x r hx hne => ?_) ?_
  · exact form_totals_ahead h hgap (hx.trans (trimStart_suffix _)) hne r
  · rw [Pattern.readAt, form_totalMarker]
    rfl

/-- Trimming leaves an announcement as it is. -/
theorem exists_trim_announced (s rest : List Char) :
    ∃ rest', trim (s ++ (totalMarker ++ rest)) = trimStart s ++ (totalMarker ++ rest') := by
  have hstart : trimStart (s ++ (totalMarker ++ rest)) = trimStart s ++ (totalMarker ++ rest) :=
    trimStart_append_cons (by decide) s _
  have hlast : (trimStart s ++ totalMarker).getLast? = some 'l' := by
    rw [List.getLast?_append_of_ne_nil _ (by decide)]
    decide
  obtain ⟨rest', hrest⟩ := exists_dropEnd_append hlast (p := isBlank) (by decide) rest
  refine ⟨rest', ?_⟩
  rw [trim, hstart, trimEnd, ← List.append_assoc, hrest, List.append_assoc]

/-- A text that does not mention totals has the same body with and without an announcement at top level
behind it. -/
theorem queryBody_announced (h : mentions announcement s = false) (hgap : IsLineGap s gap)
    (htop : endsAtTop (trimStart (s ++ gap)) = true) (rest : List Char) :
    queryBody (s ++ gap ++ (totalMarker ++ rest)) = queryBody s := by
  obtain ⟨rest', htrim⟩ := exists_trim_announced (s ++ gap) rest
  have hdrop : dropTotal (trim (s ++ gap ++ (totalMarker ++ rest))) = trim s := by
    rw [htrim, dropTotal, find?_totals h hgap]
    simp only [htop, if_true]
    exact trim_append_of_blank hgap.blank s
  have hnone : dropTotal (trim s) = trim s := by
    have hm : mentions announcement (trim s) = false := by
      rw [← Bool.not_eq_true] at h ⊢
      exact fun hm => h (mentions_of_isInfix hm (trim_isInfix s))
    rw [dropTotal, Pattern.find?_eq_none_of_occursIn (occursIn_totals_of_mentions hm)]
  rw [queryBody, queryBody, hdrop, hnone]

/-- What is stripped depends on the body only. -/
theorem stripTrailing_congr (h : queryBody s = queryBody t) (respectLimit : Bool) :
    stripTrailing s respectLimit = stripTrailing t respectLimit := by
  rw [stripTrailing, stripTrailing, h]

end QueryBlend.Sql
