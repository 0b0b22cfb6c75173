import QueryBlend.Proofs.Sql.Lexemes
import QueryBlend.Proofs.Sql.RowCaps
/-!
# Seams of a scan

Behind a text that ends at top level a scan is where it starts, and goes on as if the next text stood alone.
Only the last character in front of the seam is scanned otherwise than at an end: it has the first character
behind the seam in sight.

**The last character.** A character that leads to top level comes from code, from the end of a comment, or
closes what is quoted (`leads_to_top`). In code it may open a comment with what is in sight; then it is no
code any more, and the texts cannot be scanned apart. A mark that closes a quote may be taken for one that
is written twice, but then the next text opens the quote again (`hides_close`). Nothing else depends on what
is in sight.

* `scan_append_iff`: two texts of which the first ends at top level are scanned apart exactly if no comment
  is opened across the seam.
* `scan_append`: so it is where no pair stands across the seam, and behind every order of top level.
-/
namespace QueryBlend.Sql
open Text Text.Form

variable {s t w rest : List Char} {st : State} {c : Char} {next : Option Char}

/-! ## The last character -/

/-- In code the first character of a comment is code as long as the second is not in sight. -/
theorem code_of_opensComment (h : OpensComment (some c) next) (d : Nat) :
    (codeAt d).step c none = codeAt d ∧ (codeAt d).isCode c none = true ∧
      (codeAt d).isCode c next = false := by
  rcases h with ⟨hc, rfl⟩ | ⟨hc, rfl⟩ <;> cases hc <;> exact ⟨rfl, rfl, rfl⟩

theorem code_of_not_opensComment (h : ¬ OpensComment (some c) next) (d : Nat) :
    (codeAt d).step c next = (codeAt d).step c none ∧
      (codeAt d).isCode c next = (codeAt d).isCode c none := by
  obtain ⟨hline, hblock⟩ : ¬(c = '-' ∧ next = some '-') ∧ ¬(c = '/' ∧ next = some '*') := by
    simpa [OpensComment] using h
  constructor
  · simp [State.step, codeAt, hline, hblock]
  · have hline : (c == '-' && next == some '-') = false := by simpa using hline
    have hblock : (c == '/' && next == some '*') = false := by simpa using hblock
    simp [State.isCode, codeAt, hline, hblock]

theorem mark_of_step_between {k : QuoteKind} {d : Nat} (h : (between k d).step c none = {}) :
    d = 0 ∧ c = k.mark := by
  cases k <;> simp only [State.step, State.inQuote, between, QuoteKind.mode] at h <;>
    grind [QuoteKind.mark]

/-- A character that leads to top level closes a quote, or does so whatever is in sight, unless it is code
there already and opens a comment. -/
theorem leads_to_top (h : st.step c none = {}) :
    (∃ k, st = between k 0 ∧ c = k.mark) ∨
      ∀ next, ¬ (st = {} ∧ OpensComment (some c) next) →
        st.step c next = {} ∧ st.isCode c next = st.isCode c none := by
  have hmark (k : QuoteKind) (hk : st = between k st.depth) : ∃ k, st = between k 0 ∧ c = k.mark := by
    rw [hk] at h
    obtain ⟨hd, hc⟩ := mark_of_step_between h
    exact ⟨k, hd ▸ hk, hc⟩
  obtain ⟨mode, depth, held⟩ := st
  cases held with
  | true => exact .inr fun next _ => ⟨h, rfl⟩
  | false =>
    cases mode with
    | code =>
      refine .inr fun next hopen => ?_
      have hnot : ¬ OpensComment (some c) next := fun ho =>
        hopen ⟨(code_of_opensComment ho depth).1.symm.trans h, ho⟩
      obtain ⟨hstep, hcode⟩ := code_of_not_opensComment hnot depth
      exact ⟨hstep.trans h, hcode⟩
    | single => exact .inl (hmark .single rfl)
    | double => exact .inl (hmark .double rfl)
    | backtick => exact .inl (hmark .backtick rfl)
    | bracket => exact .inr fun next _ => ⟨h, rfl⟩
    | lineComment => exact .inr fun next _ => ⟨h, rfl⟩
    | blockComment => simp [State.step] at h

theorem reads_last (h : st.step c none = {}) (hopen : ¬ (st = {} ∧ OpensComment (some c) rest.head?)) :
    Reads st [c] (spread [c] (maskTo none st [c])) {} rest := by
  have hmask : spread [c] (maskTo none st [c]) =
      List.replicate c.utf8Size (st.isCode c none && st.depth == 0) := by
    simp [spread, maskTo]
  rw [hmask]
  rcases leads_to_top h with ⟨k, rfl, rfl⟩ | hahead
  · have hclose : Hides (between k 0) [k.mark] {} rest := hides_close k
    simpa [Hides, byteCount, isCode_between] using hclose
  · obtain ⟨hstep, hcode⟩ := hahead _ hopen
    have hread := reads_char st c rest
    rwa [hstep, hcode] at hread

/-! ## Seams -/

/-- The last character of a text is code of top level, and opens a comment with the first of the next. -/
def OpensAtSeam (s t : List Char) : Prop :=
  (mask s).getLast? = some true ∧ OpensComment s.getLast? t.head?

theorem mask_concat (s : List Char) (c : Char) :
    mask (s ++ [c]) = maskTo (some c) {} s ++ maskTo none (runTo (some c) {} s) [c] :=
  maskTo_append none {} s [c]

theorem opensAtSeam_concat_iff :
    OpensAtSeam (s ++ [c]) t ↔ runTo (some c) {} s = {} ∧ OpensComment (some c) t.head? := by
  have hlast : (mask (s ++ [c])).getLast? =
      some ((runTo (some c) {} s).isCode c none && (runTo (some c) {} s).depth == 0) := by
    rw [mask_concat]
    exact List.getLast?_concat
  rw [OpensAtSeam, hlast, List.getLast?_concat, Option.some.injEq]
  refine and_congr_left fun hopen => ?_
  have hc : c ≠ '\n' := by
    rintro rfl
    simp [OpensComment] at hopen
  refine ⟨fun h => eq_of_isTop (isTop_of_isCode hc h) (isSettled_of_isCode h).2, fun h => ?_⟩
  rw [h, ← codeAt_zero, (code_of_opensComment hopen 0).2.1]
  rfl

/-- A text is read with the first character of the rest in sight. -/
theorem reads_text (st : State) (s rest : List Char) :
    Reads st s (spread s (maskTo rest.head? st s)) (runTo rest.head? st s) rest := by
  constructor
  · rw [runTo_append, Option.or_none]
  · rw [bytesFrom, maskTo_append, Option.or_none, spread_append (maskTo_length _ _ _)]
    rfl

/-- A text that ends at top level is read as it is scanned alone. -/
theorem reads_top (hs : endsAtTop s = true) (hseam : ¬ OpensAtSeam s t) : Reads {} s (byteMask s) {} t := by
  rcases List.eq_nil_or_concat s with rfl | ⟨front, c, rfl⟩
  · exact reads_nil
  · rw [List.concat_eq_append] at hs hseam ⊢
    have hfront := reads_text {} front ([c] ++ t)
    have hlast : (runTo (some c) {} front).step c none = {} := by
      have hrun := run_eq_of_endsAtTop hs
      rwa [run, runTo_append] at hrun
    rw [byteMask_eq_spread, mask_concat, spread_append (maskTo_length _ _ _)]
    exact hfront.append (reads_last hlast (mt opensAtSeam_concat_iff.mpr hseam))

/-- The first character of a comment that is opened across the seam is no code any more. -/
theorem byteMask_append_ne (h : OpensAtSeam s t) : byteMask (s ++ t) ≠ byteMask s ++ byteMask t := by
  rcases List.eq_nil_or_concat s with rfl | ⟨front, c, rfl⟩
  · cases h.1
  · rw [List.concat_eq_append] at h ⊢
    obtain ⟨hrun, hopen⟩ := opensAtSeam_concat_iff.mp h
    obtain ⟨-, hcode, hnot⟩ := code_of_opensComment hopen 0
    have hpos := c.utf8Size_pos
    intro heq
    have happ : front ++ [c] ++ t = front ++ c :: t := by simp
    have hjoin : (byteMask (front ++ [c] ++ t))[byteCount front]? = some false := by
      rw [happ, getElem?_byteMask, mask, getElem?_maskTo, hrun, ← codeAt_zero, Option.or_none, hnot]
      rfl
    have halone : (byteMask (front ++ [c]))[byteCount front]? = some true := by
      rw [getElem?_byteMask, mask, getElem?_maskTo, hrun, ← codeAt_zero, Option.or_none, List.head?_nil,
        hcode]
      rfl
    have hlt : byteCount front < (byteMask (front ++ [c])).length := by
      rw [byteMask_length, byteCount_append]
      simp [byteCount, hpos]
    rw [heq, List.getElem?_append_left hlt, halone] at hjoin
    cases hjoin

/-- Behind a text that ends at top level the next is scanned as if it stood alone, unless a comment is opened
across the seam. -/
theorem scan_append_iff (hs : endsAtTop s = true) :
    (byteMask (s ++ t) = byteMask s ++ byteMask t ∧ run (s ++ t) = run t) ↔ ¬ OpensAtSeam s t := by
  refine ⟨fun h hopen => byteMask_append_ne hopen h.1, fun h => ?_⟩
  have hread := reads_top hs h
  exact ⟨hread.bytes_eq, hread.run_eq⟩

/-- The slash at the end of a comment opens no other. -/
example : byteMask ("/**/".toList ++ "*".toList) = byteMask "/**/".toList ++ byteMask "*".toList := by
  decide

/-! ## Pairs and orders -/

/-- What may be read as one: the openings of comments, and a mark that is written twice. -/
def pairs : List (Char × Char) := [('-', '-'), ('/', '*'), ('\x27', '\x27'), ('\x22', '\x22')]

/-- A pair stands across the seam of two texts. -/
def PairsAtSeam (s t : List Char) : Prop :=
  ∃ pair ∈ pairs, s.getLast? = some pair.1 ∧ t.head? = some pair.2

instance (s t : List Char) : Decidable (PairsAtSeam s t) :=
  inferInstanceAs (Decidable (∃ pair ∈ pairs, s.getLast? = some pair.1 ∧ t.head? = some pair.2))

theorem pairsAtSeam_of_opens (h : OpensAtSeam s t) : PairsAtSeam s t := by
  rcases h.2 with ⟨hs, ht⟩ | ⟨hs, ht⟩
  · exact ⟨('-', '-'), by decide, hs, ht⟩
  · exact ⟨('/', '*'), by decide, hs, ht⟩

theorem not_opensAtSeam_of_inert (h : inert t.head? = true) : ¬ OpensAtSeam s t := by
  rintro ⟨-, ⟨-, ht⟩ | ⟨-, ht⟩⟩ <;> rw [ht] at h <;> cases h

theorem reads_plain (hw : w.all isPlain = true) (d : Nat) :
    Reads (codeAt d) w (List.replicate (byteCount w) (d == 0)) (codeAt d) rest := by
  have hread := reads_text (codeAt d) w rest
  rwa [maskTo_plain hw, runTo_plain hw, spread_replicate] at hread

/-- An order of top level is read up to top level. -/
theorem reads_order {before here after : List Char} (htop : endsAtTop before = true)
    (hr : orderBy.readAt before.getLast? here = some after) :
    ∃ w m, here = w ++ after ∧ m.length = byteCount (before ++ w) ∧ Reads {} (before ++ w) m {} after := by
  obtain ⟨w, rfl, hplain⟩ := takes_orderBy _ _ (Pattern.form_of_readAt hr)
  obtain ⟨c, cs, hhere, hletter⟩ := exists_letter beginsIn_orderBy hr
  have hseam : ¬ OpensAtSeam before (w ++ after) :=
    not_opensAtSeam_of_inert (by rw [hhere]; exact (isPlain_of_letter hletter).2.1)
  refine ⟨w, _, rfl, ?_, (reads_top htop hseam).append (reads_plain hplain 0)⟩
  rw [List.length_append, byteMask_length, List.length_replicate, byteCount_append]

/-- **Seams.** Behind a text that ends at top level, unless a pair stands across the seam, the next text is
masked as it is alone, and the scan ends where it ends for that text alone. So the tail of an order of top
level, whatever it begins with, shows the same code of top level when it is scanned by itself. -/
theorem scan_append :
    (∀ s t, endsAtTop s = true → ¬ PairsAtSeam s t →
      byteMask (s ++ t) = byteMask s ++ byteMask t ∧ run (s ++ t) = run t) ∧
    ∀ sql first behind, (first, behind) ∈ orderBy.spans sql → (mask sql)[first]? = some true →
      (byteMask sql).drop (byteOffset sql behind) = byteMask (sql.drop behind) ∧
        run sql = run (sql.drop behind) := by
  constructor
  · intro s t hs hseam
    exact (scan_append_iff hs).mpr (mt pairsAtSeam_of_opens hseam)
  · intro sql first behind hspan hmask
    have hmem : (first, behind) ∈
        (orderBy.spans sql).filter fun span => (mask sql)[span.1]? == some true :=
      List.mem_filter.mpr ⟨hspan, beq_iff_eq.mpr hmask⟩
    obtain ⟨before, here, after, rfl, rfl, rfl, htop, hr⟩ :=
      (mem_topSpans_iff beginsIn_orderBy barsInside_orderBy).mp hmem
    obtain ⟨w, m, rfl, hm, hread⟩ := reads_order htop hr
    have hbehind : before.length + ((w ++ after).length - after.length) = (before ++ w).length := by
      simp
    rw [hbehind, ← List.append_assoc, byteOffset, List.take_left, List.drop_left]
    refine ⟨?_, hread.run_eq⟩
    have hbytes : byteMask (before ++ w ++ after) = m ++ byteMask after := hread.bytes_eq
    rw [hbytes, ← hm, List.drop_left]

/-- A select with a mark that is written twice, and a comment with another. -/
def markedSelect : List Char := "SELECT 'a''(' AS b -- '\nFROM t".toList

/-- More than the select has opened is closed, an order, and a quote that stays open. -/
def openTail : List Char := ") ORDER BY c, 'd\\'".toList

theorem scan_append_open :
    (endsAtTop markedSelect = true ∧ ¬ PairsAtSeam markedSelect openTail ∧
      byteMask (markedSelect ++ openTail) = byteMask markedSelect ++ byteMask openTail ∧
      run (markedSelect ++ openTail) = run openTail) ∧
    ((2, 10) ∈ orderBy.spans openTail ∧ (mask openTail)[2]? = some true ∧
      (byteMask openTail).drop (byteOffset openTail 10) = byteMask (openTail.drop 10) ∧
      run openTail = run (openTail.drop 10)) := by
  have htop : endsAtTop markedSelect = true := by decide
  have hseam : ¬ PairsAtSeam markedSelect openTail := by decide
  have hspan : (2, 10) ∈ orderBy.spans openTail := by decide +kernel
  have hmask : (mask openTail)[2]? = some true := by decide
  obtain ⟨htexts, horders⟩ := scan_append
  exact ⟨⟨htop, hseam, htexts _ _ htop hseam⟩, ⟨hspan, hmask, horders _ _ _ hspan hmask⟩⟩

end QueryBlend.Sql
