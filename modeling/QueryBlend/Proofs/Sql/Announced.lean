import QueryBlend.Proofs.Sql.Cuts
import QueryBlend.Proofs.Sql.Standing
import QueryBlend.Proofs.Sql.Totals
/-!
# Announced totals that are left

`dropTotal` looks at the first text that reads as an announcement of totals, and cuts only if that is at top
level. A quote that reads as an announcement is found in front of all that follow it, and then they stay.

* **Announcements stay what they are.** What can be read as an announcement in the front of a text can be
  read there in all of the text (`form_totals_append`), and none ends in a semicolon or a blank
  (`IsAnnouncement.last`), so all of them are left when such characters go (`StandsIn.dropSemicolons`).
* **The first one.** `AnnouncedFirst` says of the text alone what `dropTotal` decides on. In front of its cut
  nothing reads as an announcement (`occursIn_of_announcedFirst`), and otherwise it makes none
  (`dropTotal_of_not_announcedFirst`).
* **The body.** So what the first two steps leave of a query can be said of its text alone: what is in front
  of the totals, without the semicolons and blanks at its end (`isBody_queryBody`).

Results:
* `standsIn_totals_iff`: the body of a query announces totals at top level exactly when the trimmed text does
  and what reads as an announcement first is not at top level.
-/
namespace QueryBlend.Sql
open Text Text.Form

variable {sql s t x r : List Char}

/-! ## Announcements -/

/-- The text announces totals and nothing else: two hyphens, blanks, and the words in either case. -/
def IsAnnouncement (x : List Char) : Prop :=
  ∃ blank words, x = '-' :: '-' :: (blank ++ words) ∧ isAllBlank blank = true ∧
    words.map fold = "sql for creating the total".toList.map fold

theorem form_totals_iff : totals.form s = some r ↔ ∃ x, s = x ++ r ∧ IsAnnouncement x := by
  constructor
  · intro h
    obtain ⟨u, hu, h⟩ := seq_eq_some_iff.mp h
    obtain ⟨v, hv, hword⟩ := seq_eq_some_iff.mp h
    obtain ⟨blank, rfl, hblank⟩ := takes_many (p := isBlank) (fun _ hc => hc) u v hv
    obtain ⟨words, rfl, hwords⟩ := spelled_eq_some_iff.mp hword
    refine ⟨'-' :: '-' :: (blank ++ words), ?_, blank, words, rfl, hblank, hwords⟩
    rw [(behind?_eq_some_iff _ _ _).mp hu, List.cons_append, List.cons_append, List.append_assoc]
    rfl
  · rintro ⟨x, rfl, blank, words, rfl, hblank, hwords⟩
    have hgap : gap (blank ++ (words ++ r)) = some (words ++ r) := by
      refine congrArg some (dropWhile_stop hblank ?_)
      cases words with
      | nil => cases hwords
      | cons c cs =>
        have hc : fold c = fold 's' := (List.cons.inj hwords).1
        have hletter : isAsciiLetter (fold c) = true := by
          rw [hc]
          decide
        exact stops_cons (not_isBlank_of_letter hletter) _
    have hsplit : '-' :: '-' :: (blank ++ words) ++ r = "--".toList ++ (blank ++ (words ++ r)) := by
      rw [List.cons_append, List.cons_append, List.append_assoc]
      rfl
    rw [hsplit]
    exact seq_eq (literal_append "--" _) (seq_eq hgap (spelled_eq_some_iff.mpr ⟨words, rfl, hwords⟩))

/-- An announcement ends in a letter. -/
theorem IsAnnouncement.last (h : IsAnnouncement x) : ∃ c, x.getLast? = some c ∧ isFiller c = false := by
  obtain ⟨blank, words, rfl, -, hwords⟩ := h
  have hlast : words.getLast?.map fold = some (fold 'l') := by
    rw [← List.getLast?_map, hwords]
    decide
  obtain ⟨c, hc, hfold⟩ := Option.map_eq_some_iff.mp hlast
  have hne : words ≠ [] := by
    rintro rfl
    cases hc
  refine ⟨c, ?_, ?_⟩
  · rw [List.getLast?_cons_of_ne_nil (List.cons_ne_nil _ _),
      List.getLast?_cons_of_ne_nil (List.append_ne_nil_of_right_ne_nil _ hne),
      List.getLast?_append_of_ne_nil _ hne, hc]
  · have hletter : isAsciiLetter (fold c) = true := by
      rw [hfold]
      decide
    have hne : c ≠ ';' := by
      rintro rfl
      cases hletter
    rw [isFiller, beq_false_of_ne hne, not_isBlank_of_letter hletter]
    rfl

/-- An announcement is one whatever follows it. -/
theorem form_totals_append (h : totals.form s = some r) (t : List Char) :
    totals.form (s ++ t) = some (r ++ t) := by
  obtain ⟨x, rfl, hx⟩ := form_totals_iff.mp h
  exact form_totals_iff.mpr ⟨x, List.append_assoc _ _ _, hx⟩

theorem readAt_totals (prev : Option Char) (s : List Char) : totals.readAt prev s = totals.form s := rfl

theorem standsAt_totals_iff {before here : List Char} : StandsAt totals before here ↔
    endsAtTop before = true ∧ ∃ x rest, here = x ++ rest ∧ IsAnnouncement x := by
  constructor
  · rintro ⟨htop, hreads⟩
    obtain ⟨r, hr⟩ := Option.isSome_iff_exists.mp hreads
    obtain ⟨x, hx⟩ := form_totals_iff.mp hr
    exact ⟨htop, x, r, hx⟩
  · rintro ⟨htop, x, rest, hx⟩
    exact ⟨htop, Option.isSome_of_mem (form_totals_iff.mpr ⟨x, hx⟩)⟩

theorem StandsIn.of_isPrefix (h : StandsIn totals s) (hs : s <+: t) : StandsIn totals t := by
  obtain ⟨u, rfl⟩ := hs
  obtain ⟨before, here, rfl, hstands⟩ := h
  obtain ⟨htop, x, rest, rfl, hx⟩ := standsAt_totals_iff.mp hstands
  exact ⟨before, x ++ rest ++ u, by rw [List.append_assoc],
    standsAt_totals_iff.mpr ⟨htop, x, rest ++ u, List.append_assoc _ _ _, hx⟩⟩

/-- No announcement goes with the semicolons and blanks at the end of a text. -/
theorem StandsIn.dropSemicolons (h : StandsIn totals s) : StandsIn totals (dropSemicolons s) := by
  obtain ⟨before, here, rfl, hstands⟩ := h
  obtain ⟨htop, x, rest, rfl, hx⟩ := standsAt_totals_iff.mp hstands
  obtain ⟨c, hc, hletter⟩ := hx.last
  have hlast : (before ++ x).getLast? = some c := by
    rw [List.getLast?_append_of_ne_nil _ (by rintro rfl; cases hc), hc]
  obtain ⟨rest', hrest⟩ := exists_dropEnd_append hlast hletter rest
  refine ⟨before, x ++ rest', ?_, standsAt_totals_iff.mpr ⟨htop, x, rest', rfl, hx⟩⟩
  rw [← List.append_assoc, ← List.append_assoc, ← hrest]
  rfl

/-! ## The first announcement -/

/-- What reads as an announcement first is at top level. -/
def AnnouncedFirst (sql : List Char) : Prop :=
  ∃ before here, sql = before ++ here ∧ StandsAt totals before here ∧
    ∀ a b, before = a ++ b → b ≠ [] → totals.form (b ++ here) = none

theorem announcedFirst_iff :
    AnnouncedFirst sql ↔ ∃ f, totals.find? sql = some f ∧ endsAtTop f.before = true := by
  constructor
  · rintro ⟨before, here, rfl, hstands, hfirst⟩
    obtain ⟨r, hr⟩ := Option.isSome_iff_exists.mp hstands.reads
    have hne : here ≠ [] := by
      rintro rfl
      cases hr
    obtain ⟨f, hf, b, rfl⟩ := Pattern.exists_find?_le hne hr
    obtain ⟨hcut, -, hread⟩ := totals.find?_eq_some hf
    rw [List.append_assoc, List.append_cancel_left_eq] at hcut
    have hb : b = [] := by
      by_contra hb
      have hnone := hfirst f.before b rfl hb
      rw [hcut, hread] at hnone
      cases hnone
    subst hb
    exact ⟨f, hf, by simpa using hstands.at_top⟩
  · rintro ⟨f, hf, htop⟩
    obtain ⟨hcut, -, -⟩ := totals.find?_eq_some hf
    obtain ⟨hread, hfirst⟩ := Pattern.readAt_of_find? hf
    exact ⟨f.before, f.here, hcut, ⟨htop, Option.isSome_of_mem hread⟩, hfirst⟩

theorem dropTotal_of_find? {f : Found} (hf : totals.find? sql = some f) (htop : endsAtTop f.before = true) :
    dropTotal sql = trimEnd f.before := by
  rw [dropTotal, hf]
  simp only [htop, if_true]

theorem dropTotal_of_not_announcedFirst (h : ¬ AnnouncedFirst sql) : dropTotal sql = sql := by
  rw [dropTotal]
  split
  · rename_i f hf
    split
    · rename_i htop
      exact absurd (announcedFirst_iff.mpr ⟨f, hf, htop⟩) h
    · rfl
  · rfl

/-- In front of the first announcement there is none. -/
theorem occursIn_of_announcedFirst (h : AnnouncedFirst sql) (ht : t <+: dropTotal sql) :
    totals.occursIn t = false := by
  obtain ⟨f, hf, htop⟩ := announcedFirst_iff.mp h
  rw [dropTotal_of_find? hf htop] at ht
  obtain ⟨u, hu⟩ := ht.trans (trimEnd_isPrefix _)
  rw [← Bool.not_eq_true, Pattern.occursIn_iff]
  rintro ⟨a, b, r, rfl, hb, hr⟩
  have hnone := (Pattern.readAt_of_find? hf).2 a (b ++ u) (by rw [← hu, List.append_assoc])
    (List.append_ne_nil_of_left_ne_nil hb _)
  rw [readAt_totals, List.append_assoc, form_totals_append hr] at hnone
  cases hnone

/-! ## The body -/

/-- An announcement of totals begins the text. -/
def Announces (s : List Char) : Prop := ∃ x, x <+: s ∧ IsAnnouncement x

/-- The totals of a text start where `front` ends: what reads as an announcement first is there, and that is
a place of top level. -/
structure TotalsFollow (front behind : List Char) : Prop where
  at_top : endsAtTop front = true
  announced : Announces behind
  first : ∀ a b, front = a ++ b → b ≠ [] → ¬ Announces (b ++ behind)

/-- What is in front of the totals of a text, or all of it if it has none, without the semicolons and blanks
at the end. -/
structure IsBody (text body : List Char) : Prop where
  cut : ∃ filler behind, text = body ++ filler ++ behind ∧ filler.all isFiller = true ∧
    (TotalsFollow (body ++ filler) behind ∨
      behind = [] ∧ ∀ front rest, text = front ++ rest → ¬ TotalsFollow front rest)
  last : ∀ c, body.getLast? = some c → isFiller c = false

theorem announces_iff : Announces s ↔ ∃ r, totals.form s = some r := by
  constructor
  · rintro ⟨x, ⟨r, rfl⟩, hx⟩
    exact ⟨r, form_totals_iff.mpr ⟨x, rfl, hx⟩⟩
  · rintro ⟨r, hr⟩
    obtain ⟨x, rfl, hx⟩ := form_totals_iff.mp hr
    exact ⟨x, List.prefix_append _ _, hx⟩

theorem totalsFollow_iff {front behind : List Char} : TotalsFollow front behind ↔
    StandsAt totals front behind ∧ ∀ a b, front = a ++ b → b ≠ [] → totals.form (b ++ behind) = none := by
  constructor
  · rintro ⟨htop, hannounced, hfirst⟩
    obtain ⟨r, hr⟩ := announces_iff.mp hannounced
    refine ⟨⟨htop, Option.isSome_of_mem hr⟩, fun a b hab hb => ?_⟩
    rw [Option.eq_none_iff_forall_ne_some]
    exact fun r hr => hfirst a b hab hb (announces_iff.mpr ⟨r, hr⟩)
  · rintro ⟨hstands, hfirst⟩
    refine ⟨hstands.at_top, announces_iff.mpr (Option.isSome_iff_exists.mp hstands.reads), ?_⟩
    intro a b hab hb hannounces
    obtain ⟨r, hr⟩ := announces_iff.mp hannounces
    rw [hfirst a b hab hb] at hr
    cases hr

theorem announcedFirst_iff_totalsFollow :
    AnnouncedFirst sql ↔ ∃ front behind, sql = front ++ behind ∧ TotalsFollow front behind := by
  simp only [AnnouncedFirst, totalsFollow_iff]

/-- Blanks at the end go with the semicolons. -/
theorem dropSemicolons_trimEnd (s : List Char) : dropSemicolons (trimEnd s) = dropSemicolons s := by
  obtain ⟨blank, hs, hblank⟩ := trimEnd_append s
  conv => rhs; rw [hs]
  exact (dropEnd_append_of_all (all_isFiller_of_blank hblank)).symm

/-- What the first two steps leave of a query is its body. -/
theorem isBody_queryBody (sql : List Char) : IsBody (trim sql) (queryBody sql) := by
  refine ⟨?_, fun c hc => of_getLast?_dropEnd hc⟩
  by_cases hfirst : AnnouncedFirst (trim sql)
  · obtain ⟨f, hf, htop⟩ := announcedFirst_iff.mp hfirst
    obtain ⟨hcut, -, -⟩ := totals.find?_eq_some hf
    obtain ⟨hread, hnone⟩ := Pattern.readAt_of_find? hf
    have hfollow : TotalsFollow f.before f.here :=
      totalsFollow_iff.mpr ⟨⟨htop, Option.isSome_of_mem hread⟩, hnone⟩
    have hbody : queryBody sql = dropSemicolons f.before := by
      rw [queryBody, dropTotal_of_find? hf htop, dropSemicolons_trimEnd]
    obtain ⟨filler, hfront, hfiller⟩ := dropSemicolons_append f.before
    rw [← hbody] at hfront
    exact ⟨filler, f.here, by rw [← hfront, hcut], hfiller, .inl (by rwa [← hfront])⟩
  · obtain ⟨filler, htext, hfiller⟩ := dropSemicolons_append (trim sql)
    have hbody : queryBody sql = dropSemicolons (trim sql) := by
      rw [queryBody, dropTotal_of_not_announcedFirst hfirst]
    refine ⟨filler, [], by rw [List.append_nil, hbody, ← htext], hfiller, .inr ⟨rfl, ?_⟩⟩
    exact fun front rest hcut hfollow =>
      hfirst (announcedFirst_iff_totalsFollow.mpr ⟨front, rest, hcut, hfollow⟩)

/-! ## What is left -/

theorem stripTrailing_isPrefix_body (sql : List Char) (respectLimit : Bool) :
    stripTrailing sql respectLimit <+: queryBody sql := by
  rcases stripTrailing_cut_body sql respectLimit with h | ⟨filler, clause, hcut⟩
  · rw [h]
  · exact ⟨filler ++ clause, by rw [hcut.sql_eq, List.append_assoc]⟩

theorem StandsIn.occursIn (h : StandsIn totals s) : totals.occursIn s = true := by
  obtain ⟨before, here, rfl, hstands⟩ := h
  obtain ⟨r, hr⟩ := Option.isSome_iff_exists.mp hstands.reads
  have hne : here ≠ [] := by
    rintro rfl
    cases hr
  exact Pattern.occursIn_iff.mpr ⟨before, here, r, rfl, hne, hr⟩

/-- **Announcements of totals.** The body of a query announces totals at top level exactly when the trimmed
text does and what reads as an announcement first is not at top level. If that is at top level, nothing that
is left reads as an announcement at all; and what is left never announces totals that the body does not. -/
theorem standsIn_totals_iff (sql : List Char) :
    (StandsIn totals (queryBody sql) ↔ StandsIn totals (trim sql) ∧ ¬ AnnouncedFirst (trim sql)) ∧
      ∀ respectLimit,
        (AnnouncedFirst (trim sql) → totals.occursIn (stripTrailing sql respectLimit) = false) ∧
        (StandsIn totals (stripTrailing sql respectLimit) → StandsIn totals (queryBody sql)) := by
  have hnone {t : List Char} (hfirst : AnnouncedFirst (trim sql)) (ht : t <+: queryBody sql) :
      totals.occursIn t = false :=
    occursIn_of_announcedFirst hfirst (ht.trans (dropSemicolons_isPrefix _))
  refine ⟨⟨fun h => ⟨h.of_isPrefix (queryBody_isPrefix sql), fun hfirst => ?_⟩, fun ⟨h, hnot⟩ => ?_⟩,
    fun respectLimit => ⟨fun hfirst => ?_, fun h => ?_⟩⟩
  · have hin := h.occursIn
    rw [hnone hfirst (List.prefix_refl _)] at hin
    cases hin
  · rw [queryBody, dropTotal_of_not_announcedFirst hnot]
    exact h.dropSemicolons
  · exact hnone hfirst (stripTrailing_isPrefix_body sql respectLimit)
  · exact h.of_isPrefix (stripTrailing_isPrefix_body sql respectLimit)

/-- A query with a column that reads as an announcement, and with totals. -/
def quotedAnnouncement : List Char :=
  ["SELECT '-- sql for creating the total' AS a\n", "-- sql for creating the total\n", "SELECT 2"].flatMap
    String.toList

/-- So totals may be left behind their announcement. -/
theorem stripTrailing_misses_totals : ¬ ∀ sql, StandsIn totals (trim sql) →
    ∀ respectLimit, ¬ StandsIn totals (stripTrailing sql respectLimit) := by
  intro h
  have hcut : quotedAnnouncement = "SELECT '-- sql for creating the total' AS a\n".toList ++
    "-- sql for creating the total\nSELECT 2".toList := by decide
  have htrim : trim quotedAnnouncement = quotedAnnouncement := by decide
  have hkept : stripTrailing quotedAnnouncement false = quotedAnnouncement := by decide
  have hin : StandsIn totals quotedAnnouncement := ⟨_, _, hcut, by decide⟩
  exact h quotedAnnouncement (by rwa [htrim]) false (by rwa [hkept])

end QueryBlend.Sql
