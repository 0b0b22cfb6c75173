import QueryBlend.Proofs.ListFacts
import QueryBlend.Proofs.Sql.RowCaps
/-!
# Two tests of top level

Whether a place of a text is at top level is asked in two ways. `byteMask` scans all of the text once and is
looked up at the place. `isTopAt` scans the text in front of the place and forgets the rest, so the last
character in front has lost the next one from sight, and a backslash there has nothing left to hold.

**Characters.** What is lost makes no difference to a scan that ends in code: it holds nothing there
(`run_eq_of_endsAtTop`), and the last character makes a pair only with certain others (`runTo_inert`). But
the mask speaks of the character itself, and a scan in front of it does not. Quotes, brackets and
parentheses are no code wherever they stand, the line feed of a comment is code although the comment goes up
to it, and a second character of a pair goes with the first. These are the `disputedChars`, and the tests
agree on all others in every text (`mask_eq_endsAtTop_iff`).

**Patterns.** No character of a word is disputed, so the clauses that begin with key words are judged alike
by both tests (`not_disputed_of_beginsIn`).

* `topLevel_agrees`: each text passes both tests at the same characters, for the same occurrences of a
  pattern, and wherever `stripTrailing` asks one of them.
-/
namespace QueryBlend.Sql
open Text Text.Form

variable {sql : List Char} {c : Char} {i : Nat} {p : Pattern}

/-! ## Characters -/

/-- The character that starts at a byte offset. -/
def charAt? (sql : List Char) (offset : Nat) : Option Char :=
  (firstBytes? offset sql).bind fun before => sql[before.length]?

/-- The characters of which a mask can say something else than a scan of the text in front. -/
def disputedChars : List Char := ['\x27', '\x22', '\x60', '[', '(', ')', '-', '/', '*', '\n']

theorem exists_cut_of_charAt? (h : charAt? sql i = some c) :
    ∃ before after, sql = before ++ c :: after ∧ i = byteCount before := by
  obtain ⟨before, hfirst, hc⟩ := Option.bind_eq_some_iff.mp h
  obtain ⟨⟨rest, rfl⟩, hcount⟩ := firstBytes?_eq_some hfirst
  rw [List.getElem?_append_right (Nat.le_refl _), Nat.sub_self, ← List.head?_eq_getElem?] at hc
  obtain ⟨after, rfl⟩ := List.head?_eq_some_iff.mp hc
  exact ⟨before, after, rfl, hcount.symm⟩

theorem isPlain_of_not_disputed (h : c ∉ disputedChars) :
    isPlain c = true ∧ inert (some c) = true ∧ c ≠ '\n' := by
  simp only [disputedChars, List.mem_cons, List.not_mem_nil, or_false, not_or] at h
  obtain ⟨hsingle, hdouble, hbacktick, hbracket, hopen, hclose, hhyphen, hslash, hstar, hfeed⟩ := h
  refine ⟨(isPlain_iff c).mpr ⟨hsingle, hdouble, hbacktick, hbracket, hhyphen, hslash, hopen, hclose⟩,
    ?_, hfeed⟩
  simp [inert, hsingle, hdouble, hhyphen, hslash, hstar]

/-- No character can be taken off the list: each has a text in which the tests differ. -/
theorem mask_eq_endsAtTop_iff (c : Char) :
    (∀ before after, (mask (before ++ c :: after))[before.length]? = some (endsAtTop before)) ↔
      c ∉ disputedChars := by
  constructor
  · intro h hmem
    -- at the start, behind the slash of a block comment, or at the end of a line comment
    have hdiffer : disputedChars.all (fun c => ["", "/", "--"].any fun before =>
        ["", "-", "*"].any fun after =>
          (mask (before.toList ++ c :: after.toList))[before.toList.length]? !=
            some (endsAtTop before.toList)) = true := by decide +kernel
    have hany := List.all_eq_true.mp hdiffer c hmem
    obtain ⟨before, -, hbefore⟩ := List.any_eq_true.mp hany
    obtain ⟨after, -, hne⟩ := List.any_eq_true.mp hbefore
    exact bne_iff_ne.mp hne (h _ _)
  · intro h before after
    obtain ⟨hplain, hinert, hfeed⟩ := isPlain_of_not_disputed h
    exact getElem?_mask hplain hinert hfeed before after

theorem mask_eq_isTopAt (hc : sql[i]? = some c) (h : c ∉ disputedChars) :
    (mask sql)[i]? = some (isTopAt sql (byteOffset sql i)) := by
  obtain ⟨hi, -⟩ := List.getElem?_eq_some_iff.mp hc
  obtain ⟨before, d, after, rfl, rfl⟩ := exists_cut hi
  obtain rfl : d = c := by simpa using hc
  rw [(mask_eq_endsAtTop_iff d).mpr h, isTopAt_byteOffset, List.take_left]

theorem byteMask_eq_isTopAt (hc : charAt? sql i = some c) (h : c ∉ disputedChars) :
    (byteMask sql)[i]? = some (isTopAt sql i) := by
  obtain ⟨before, after, rfl, rfl⟩ := exists_cut_of_charAt? hc
  rw [getElem?_byteMask, (mask_eq_endsAtTop_iff c).mpr h, isTopAt_append]

/-! ## Patterns -/

/-- The last occurrence of the pattern that starts at top level, as scans of the texts in front of the
occurrences say. -/
def lastScanned? (p : Pattern) (sql : List Char) : Option (Nat × Nat) :=
  ((p.spans sql).filter fun span => isTopAt sql (byteOffset sql span.1)).getLast?

theorem exists_char_of_mem_spans {j : Nat} (h : (i, j) ∈ p.spans sql) : ∃ c, sql[i]? = some c := by
  obtain ⟨before, here, -, rfl, hne, hi, -⟩ := Pattern.readAt_of_mem_spansFrom h
  obtain ⟨c, cs, rfl⟩ := List.exists_cons_of_ne_nil hne
  exact ⟨c, by rw [hi, Nat.zero_add]; simp⟩

theorem mask_eq_isTopAt_of_mem_spans {span : Nat × Nat} (hspan : span ∈ p.spans sql)
    (h : ∀ c ∈ sql[span.1]?, c ∉ disputedChars) :
    (mask sql)[span.1]? = some (isTopAt sql (byteOffset sql span.1)) := by
  obtain ⟨c, hc⟩ := exists_char_of_mem_spans hspan
  exact mask_eq_isTopAt hc (h c hc)

theorem lastAtTop?_eq_lastScanned?
    (h : ∀ span ∈ p.spans sql, ∀ c ∈ sql[span.1]?, c ∉ disputedChars) :
    lastAtTop? p sql = lastScanned? p sql := by
  refine congrArg List.getLast? (List.filter_congr fun span hspan => ?_)
  rw [mask_eq_isTopAt_of_mem_spans hspan (h span hspan), Option.some_beq_some, beq_true]

/-- Letters, digits and whatever else words are made of is not disputed. -/
theorem not_disputed_of_isWord (h : isWord c = true) : c ∉ disputedChars := by
  have hdisputed : disputedChars.all (!isWord ·) = true := by decide
  intro hmem
  have hnot := List.all_eq_true.mp hdisputed c hmem
  rw [h] at hnot
  cases hnot

theorem not_disputed_of_beginsIn {starts : List (Char × Char)} (hb : p.BeginsIn starts) {after : List Char}
    {s : List Char} (h : p.form s = some after) : ∀ c ∈ s.head?, c ∉ disputedChars := by
  obtain ⟨c, d, cs, rfl, hmem⟩ := hb.begins _ _ h
  rintro _ ⟨⟩
  exact not_disputed_of_isWord (isWord_of_fold (hb.letters _ hmem))

theorem lastAtTop?_of_beginsIn {starts : List (Char × Char)} (hb : p.BeginsIn starts) (sql : List Char) :
    lastAtTop? p sql = lastScanned? p sql := by
  refine lastAtTop?_eq_lastScanned? fun span hspan => ?_
  obtain ⟨after, hafter⟩ := Pattern.form_of_mem_spans (i := span.1) (j := span.2) hspan
  rw [← List.head?_drop]
  exact not_disputed_of_beginsIn hb hafter

theorem byteMask_of_find? {starts : List (Char × Char)} (hb : p.BeginsIn starts) {f : Found}
    (hf : p.find? sql = some f) : (byteMask sql)[byteCount f.before]? = some (endsAtTop f.before) := by
  obtain ⟨hsql, hne, hform⟩ := p.find?_eq_some hf
  obtain ⟨c, cs, hhere⟩ := List.exists_cons_of_ne_nil hne
  have hc : c ∉ disputedChars := not_disputed_of_beginsIn hb hform c (by rw [hhere]; rfl)
  rw [hsql, hhere, getElem?_byteMask, (mask_eq_endsAtTop_iff c).mpr hc]

/-! ## One top level -/

/-- The mask of a text and scans of what is in front say the same. -/
structure TestsAgree (sql : List Char) : Prop where
  /-- The mask of all bytes, at each character that is not disputed. -/
  chars : ∀ i c, charAt? sql i = some c → c ∉ disputedChars → (byteMask sql)[i]? = some (isTopAt sql i)
  /-- An occurrence of a pattern that begins with such a character, as with a letter. -/
  occurrences : ∀ p : Pattern, ∀ span ∈ p.spans sql, (∀ c ∈ sql[span.1]?, c ∉ disputedChars) →
    (mask sql)[span.1]? = some (isTopAt sql (byteOffset sql span.1))
  /-- The last occurrence at top level, if all occurrences do so. -/
  last : ∀ p : Pattern, (∀ span ∈ p.spans sql, ∀ c ∈ sql[span.1]?, c ∉ disputedChars) →
    lastAtTop? p sql = lastScanned? p sql
  /-- The clauses that are judged by the mask where trailing clauses are stripped. -/
  clauses : ∀ p ∈ [orderBy, capWord], lastAtTop? p sql = lastScanned? p sql
  /-- The last row cap, which is judged by a scan there. -/
  cap : ∀ f, closingCap.find? sql = some f →
    (byteMask sql)[byteCount f.before]? = some (endsAtTop f.before)

/-- **One top level.** The two tests of top level agree on every text, so that trailing clauses can be
stripped by both of them at once. -/
theorem topLevel_agrees (sql : List Char) : TestsAgree sql where
  chars _ _ := byteMask_eq_isTopAt
  occurrences _ _ := mask_eq_isTopAt_of_mem_spans
  last _ := lastAtTop?_eq_lastScanned?
  clauses p hp := by
    rcases List.mem_cons.mp hp with rfl | hp
    · exact lastAtTop?_of_beginsIn beginsIn_orderBy sql
    · rw [List.mem_singleton.mp hp]
      exact lastAtTop?_of_beginsIn beginsIn_capWord sql
  cap _ := byteMask_of_find? beginsIn_closingCap

/-- A query with an escaped mark and a parenthesis in a quote, a comment, an order and a row cap. -/
def escapedQuery : List Char := "SELECT 'é\\' (' AS a -- x\nFROM t ORDER BY 1 LIMIT 5".toList

theorem topLevel_agrees_escaped :
    (charAt? escapedQuery 33 = some 'O' ∧ 'O' ∉ disputedChars ∧
      (byteMask escapedQuery)[33]? = some (isTopAt escapedQuery 33)) ∧
    ((∀ span ∈ orderBy.spans escapedQuery, ∀ c ∈ escapedQuery[span.1]?, c ∉ disputedChars) ∧
      lastAtTop? orderBy escapedQuery = lastScanned? orderBy escapedQuery) ∧
    (closingCap.find? escapedQuery).map Found.before = some (escapedQuery.take 43) ∧
      (byteMask escapedQuery)[byteCount (escapedQuery.take 43)]? =
        some (endsAtTop (escapedQuery.take 43)) := by
  have hc : charAt? escapedQuery 33 = some 'O' := by decide +kernel
  have hfree : 'O' ∉ disputedChars := by decide
  have hspans : ∀ span ∈ orderBy.spans escapedQuery, ∀ c ∈ escapedQuery[span.1]?, c ∉ disputedChars := by
    have hone : orderBy.spans escapedQuery = [(32, 40)] := by decide +kernel
    have hletter : escapedQuery[32]? = some 'O' := by decide
    rw [hone, List.forall_mem_singleton, hletter]
    rintro _ ⟨⟩
    exact hfree
  have hcap : (closingCap.find? escapedQuery).map Found.before = some (escapedQuery.take 43) := by
    decide +kernel
  have h := topLevel_agrees escapedQuery
  refine ⟨⟨hc, hfree, h.chars 33 'O' hc hfree⟩, ⟨hspans, h.last orderBy hspans⟩, hcap, ?_⟩
  obtain ⟨f, hf, hbefore⟩ := Option.map_eq_some_iff.mp hcap
  rw [← hbefore]
  exact h.cap f hf

end QueryBlend.Sql
