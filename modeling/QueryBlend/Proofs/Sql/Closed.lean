import QueryBlend.Proofs.ListFacts
import QueryBlend.Proofs.Sql.Scan
import QueryBlend.Sql.Trailing
/-!
# Closed texts

A SQL text is *closed* when it can be put into parentheses without harm: the scan ends in code or in a
line comment, outside of all parentheses, and no closing parenthesis of the text is left over. A line
comment may be open, as long as a line feed is put behind the text.

**Cuts.** Each cut that `stripTrailing` makes keeps a text closed, for one of two reasons.
* Blanks and semicolons go from the end: they are code, or belong to the last comment
  (`isClosed_of_append_filler`).
* A clause goes together with all that follows it: what is in front of a place of top level is closed
  (`isClosed_of_endsAtTop`, `isClosed_of_mask`), even where the character in front of the cut had made
  a pair with the first one behind it.

Results:
* `isClosed_stripTrailing`: a closed query is closed without its trailing clauses, too.
* `runTo_wrapped`, `maskTo_wrapped`: inside parentheses on lines of its own a closed text leaves the
  scan where it was, and none of it is top-level code.
-/
namespace QueryBlend.Sql
open Text

/-- Whether the scan stands in code or in a line comment, outside of all parentheses. -/
def State.isSettled (st : State) : Bool :=
  (st.mode == .code || st.mode == .lineComment) && st.depth == 0

/-- Whether a text ends settled and opens each parenthesis that it closes. -/
def isClosed (sql : List Char) : Bool := (run sql).isSettled && opened {} sql

theorem isSettled_of_isTop {st : State} (h : st.isTop = true) : st.isSettled = true := by
  simp only [State.isTop, State.isSettled, Bool.and_eq_true] at h ⊢
  exact ⟨by rw [h.1, Bool.true_or], h.2⟩

/-- A character that is top-level code stands behind a settled text. -/
theorem isSettled_of_isCode {st : State} {c : Char} {next : Option Char}
    (h : (st.isCode c next && st.depth == 0) = true) : st.isSettled = true ∧ st.held = false := by
  obtain ⟨mode, depth, held⟩ := st
  cases held
  · cases mode <;> simp_all [State.isCode, State.isSettled]
  · simp [State.isCode] at h

theorem isTop_of_isCode {st : State} {c : Char} {next : Option Char} (hc : c ≠ '\n')
    (h : (st.isCode c next && st.depth == 0) = true) : st.isTop = true := by
  obtain ⟨mode, depth, held⟩ := st
  cases held
  · cases mode <;> simp_all [State.isCode, State.isTop]
  · simp [State.isCode] at h

/-! ## Blanks and semicolons at the end -/

/-- A semicolon or a blank. -/
def isFiller (c : Char) : Bool := c == ';' || isBlank c

theorem isFiller_of_isBlank {c : Char} (h : isBlank c = true) : isFiller c = true := by
  simp [isFiller, h]

theorem all_isFiller_of_blank {s : List Char} (h : s.all isBlank = true) : s.all isFiller = true := by
  rw [List.all_eq_true] at h ⊢
  exact fun c hc => isFiller_of_isBlank (h c hc)

/-- A filler is none of the characters by which a scan moves, but for the line feed. -/
theorem isFiller_ne {c : Char} (h : isFiller c = true) :
    isPlain c = true ∧ c ≠ '\\' ∧ c ≠ '*' ∧ c ≠ ']' := by
  rw [isPlain_iff]
  refine ⟨⟨?_, ?_, ?_, ?_, ?_, ?_, ?_, ?_⟩, ?_, ?_, ?_⟩ <;> rintro rfl <;> revert h <;> decide

/-- A character by which no scan moves but out of a line comment, whatever is ahead. -/
def isStill (c : Char) : Bool := isPlain c && !(['\\', '*', ']'].contains c)

theorem isStill_iff (c : Char) : isStill c = true ↔ isPlain c = true ∧ c ≠ '\\' ∧ c ≠ '*' ∧ c ≠ ']' := by
  simp [isStill]

theorem isStill_of_isFiller {c : Char} (h : isFiller c = true) : isStill c = true :=
  (isStill_iff c).mpr (isFiller_ne h)

theorem all_isStill_of_filler {s : List Char} (h : s.all isFiller = true) : s.all isStill = true := by
  rw [List.all_eq_true] at h ⊢
  exact fun c hc => isStill_of_isFiller (h c hc)

theorem inert_still {s t : List Char} (hs : s.all isStill = true) (hne : s ≠ []) :
    inert (s ++ t).head? = true := by
  cases s with
  | nil => exact absurd rfl hne
  | cons c cs =>
    simp only [List.all_cons, Bool.and_eq_true] at hs
    obtain ⟨hp, -, h3, -⟩ := (isStill_iff c).mp hs.1
    obtain ⟨h1, h2, -, -, h4, h5, -⟩ := (isPlain_iff c).mp hp
    simp [inert, h1, h2, h3, h4, h5]

theorem isSettled_step_still {st : State} {c : Char} (h : isStill c = true) (next : Option Char) :
    (st.step c next).isSettled = st.isSettled := by
  obtain ⟨hp, h1, h2, h3⟩ := (isStill_iff c).mp h
  obtain ⟨q1, q2, q3, q4, q5, q6, q7, q8⟩ := (isPlain_iff c).mp hp
  obtain ⟨mode, depth, held⟩ := st
  cases held
  · cases mode <;>
      simp [State.step, State.inQuote, State.isSettled, h1, h2, h3, q1, q2, q3, q4, q5, q6, q7, q8]
    split <;> simp
  · rfl

theorem isSettled_runTo_still {s : List Char} (h : s.all isStill = true) (st : State)
    (next : Option Char) : (runTo next st s).isSettled = st.isSettled := by
  induction s generalizing st with
  | nil => rfl
  | cons c cs ih =>
    simp only [List.all_cons, Bool.and_eq_true] at h
    rw [runTo, ih h.2, isSettled_step_still h.1]

theorem opened_still {s : List Char} (h : s.all isStill = true) (st : State) : opened st s = true := by
  induction s generalizing st with
  | nil => rfl
  | cons c cs ih =>
    simp only [List.all_cons, Bool.and_eq_true] at h
    have hparen := ((isPlain_iff c).mp ((isStill_iff c).mp h.1).1).2.2.2.2.2.2.2
    rw [opened, ih h.2, State.overcloses, beq_false_of_ne hparen]
    rfl

theorem isSettled_run_append_still {t : List Char} (ht : t.all isStill = true) (s : List Char) :
    (run (s ++ t)).isSettled = (run s).isSettled := by
  by_cases hne : t = []
  · rw [hne, List.append_nil]
  · -- a scan that looks ahead to such a text does the same as at the end
    have hi : inert t.head? = true := by simpa using inert_still (t := []) ht hne
    rw [run, runTo_append, isSettled_runTo_still ht, Option.or_none, runTo_inert hi, run]

/-- What moves no scan neither opens nor closes a text that it is put behind. -/
theorem isClosed_append_still {t : List Char} (ht : t.all isStill = true) (s : List Char) :
    isClosed (s ++ t) = isClosed s := by
  rw [isClosed, isClosed, isSettled_run_append_still ht, opened_append, opened_still ht, Bool.and_true]

theorem isClosed_of_append_filler {s t : List Char} (ht : t.all isFiller = true)
    (h : isClosed (s ++ t) = true) : isClosed s = true := by
  rwa [isClosed_append_still (all_isStill_of_filler ht)] at h

theorem dropEnd_append (p : Char → Bool) (s : List Char) :
    ∃ t, s = dropEnd p s ++ t ∧ t.all p = true := by
  induction s with
  | nil => exact ⟨[], rfl, rfl⟩
  | cons c cs ih =>
    obtain ⟨t, ht, hp⟩ := ih
    rw [dropEnd]
    split
    · rename_i he
      rw [he, List.nil_append] at ht
      split
      · rename_i hc
        exact ⟨c :: cs, rfl, by rw [ht, List.all_cons, hc, hp]; rfl⟩
      · exact ⟨cs, rfl, ht ▸ hp⟩
    · exact ⟨t, by rw [List.cons_append, ← ht], hp⟩

theorem trimEnd_append (s : List Char) : ∃ blank, s = trimEnd s ++ blank ∧ blank.all isBlank = true :=
  dropEnd_append isBlank s

theorem dropSemicolons_append (s : List Char) :
    ∃ filler, s = dropSemicolons s ++ filler ∧ filler.all isFiller = true :=
  dropEnd_append isFiller s

theorem isClosed_trimEnd_eq (s : List Char) : isClosed (trimEnd s) = isClosed s := by
  obtain ⟨blank, hs, hblank⟩ := trimEnd_append s
  rw [hs, isClosed_append_still (all_isStill_of_filler (all_isFiller_of_blank hblank)), ← hs]

theorem isClosed_trimEnd {s : List Char} (h : isClosed s = true) : isClosed (trimEnd s) = true :=
  (isClosed_trimEnd_eq s).trans h

theorem isClosed_dropSemicolons {s : List Char} (h : isClosed s = true) :
    isClosed (dropSemicolons s) = true := by
  obtain ⟨filler, hs, hfiller⟩ := dropSemicolons_append s
  rw [hs] at h
  exact isClosed_of_append_filler hfiller h

/-- Plain characters in front of a text are code. -/
theorem isClosed_plain_append {s : List Char} (h : s.all isPlain = true) (t : List Char) :
    isClosed (s ++ t) = isClosed t := by
  rw [isClosed, run, runTo_append, ← codeAt_zero, runTo_plain h, opened_append, runTo_plain h,
    opened_plain h, Bool.true_and]
  rfl

theorem isClosed_trimStart_eq (s : List Char) : isClosed (trimStart s) = isClosed s := by
  have hb : (s.takeWhile isBlank).all isPlain = true := by
    rw [List.all_eq_true]
    intro c hc
    have := List.all_eq_true.mp (List.all_takeWhile (p := isBlank) (l := s)) c hc
    exact (isFiller_ne (isFiller_of_isBlank this)).1
  have hs : s = s.takeWhile isBlank ++ trimStart s := List.takeWhile_append_dropWhile.symm
  rw [hs, isClosed_plain_append hb, ← hs]

theorem isClosed_trimStart {s : List Char} (h : isClosed s = true) :
    isClosed (trimStart s) = true := (isClosed_trimStart_eq s).trans h

/-- Blanks at the ends make no difference. -/
theorem isClosed_trim_eq (s : List Char) : isClosed (trim s) = isClosed s :=
  (isClosed_trimEnd_eq _).trans (isClosed_trimStart_eq s)

theorem isClosed_trim {s : List Char} (h : isClosed s = true) : isClosed (trim s) = true :=
  (isClosed_trim_eq s).trans h

/-! ## Cuts at top level -/

theorem opened_of_prefix {s t : List Char} (hp : s <+: t) (h : opened {} t = true) :
    opened {} s = true := by
  obtain ⟨r, rfl⟩ := hp
  rw [opened_append, Bool.and_eq_true] at h
  exact h.1

theorem isClosed_of_endsAtTop {s t : List Char} (hp : s <+: t) (ht : isClosed t = true)
    (h : endsAtTop s = true) : isClosed s = true := by
  rw [isClosed, Bool.and_eq_true] at ht ⊢
  exact ⟨isSettled_of_isTop h, opened_of_prefix hp ht.2⟩

/-- The character of which a mask says that it is top-level code is code where a scan comes to it. -/
theorem isCode_of_maskTo {st : State} {s : List Char} {next : Option Char} {i : Nat}
    (h : (maskTo next st s)[i]? = some true) :
    ∃ c ahead, s[i]? = some c ∧ ((runTo (some c) st (s.take i)).isCode c ahead &&
      (runTo (some c) st (s.take i)).depth == 0) = true := by
  have hlt : i < s.length := by
    have := (List.getElem?_eq_some_iff.mp h).1
    rwa [maskTo_length] at this
  obtain ⟨before, c, after, rfl, rfl⟩ := exists_cut hlt
  rw [getElem?_maskTo, Option.some.injEq] at h
  exact ⟨c, after.head?.or next, by simp, by rwa [List.take_left]⟩

/-- The text in front of a character of top-level code ends settled, with nothing held. -/
theorem isSettled_of_maskTo {st : State} {s : List Char} {next : Option Char} {i : Nat}
    (h : (maskTo next st s)[i]? = some true) :
    (runTo none st (s.take i)).isSettled = true ∧ (runTo none st (s.take i)).held = false := by
  obtain ⟨c, ahead, -, hcode⟩ := isCode_of_maskTo h
  obtain ⟨hs, hh⟩ := isSettled_of_isCode hcode
  rw [runTo_of_not_held hh] at hs hh
  exact ⟨hs, hh⟩

/-- What a mask says of a character other than a line feed, a scan of the text in front of it says too. -/
theorem endsAtTop_of_mask {s : List Char} {i : Nat} {c : Char} (h : (mask s)[i]? = some true)
    (hc : s[i]? = some c) (hfeed : c ≠ '\n') : endsAtTop (s.take i) = true := by
  obtain ⟨d, ahead, hd, hcode⟩ := isCode_of_maskTo h
  obtain rfl : c = d := Option.some.inj (hc.symm.trans hd)
  have hheld := (isSettled_of_isCode hcode).2
  have htop := isTop_of_isCode hfeed hcode
  rwa [runTo_of_not_held hheld] at htop

theorem isClosed_of_mask {s : List Char} (hs : isClosed s = true) {i : Nat}
    (h : (mask s)[i]? = some true) : isClosed (s.take i) = true := by
  rw [isClosed, Bool.and_eq_true] at hs ⊢
  exact ⟨(isSettled_of_maskTo h).1, opened_of_prefix (List.take_prefix _ _) hs.2⟩

theorem isClosed_dropTotal {s : List Char} (h : isClosed s = true) : isClosed (dropTotal s) = true := by
  unfold dropTotal
  split
  · rename_i f hf
    split
    · rename_i htop
      exact isClosed_trimEnd (isClosed_of_endsAtTop (before_isPrefix hf) h htop)
    · exact h
  · exact h

theorem lastAtTop?_mask {p : Pattern} {s : List Char} {i j : Nat}
    (h : lastAtTop? p s = some (i, j)) : (mask s)[i]? = some true := by
  have hm := List.mem_of_getLast? h
  rw [List.mem_filter, beq_iff_eq] at hm
  exact hm.2

theorem isClosed_dropOrder {s : List Char} (h : isClosed s = true) : isClosed (dropOrder s) = true := by
  unfold dropOrder
  split
  · rename_i first behind hl
    simp only []
    split
    · exact isClosed_trimEnd (isClosed_of_mask h (lastAtTop?_mask hl))
    · exact h
  · exact h

theorem isClosed_queryBody {s : List Char} (h : isClosed s = true) : isClosed (queryBody s) = true :=
  isClosed_dropSemicolons (isClosed_dropTotal (isClosed_trim h))

theorem isClosed_stripTrailing {s : List Char} (h : isClosed s = true) (respectLimit : Bool) :
    isClosed (stripTrailing s respectLimit) = true := by
  have hb := isClosed_queryBody h
  unfold stripTrailing
  simp only []
  split
  · rename_i f hf
    split
    · rename_i htop
      split
      · exact hb
      · have := isClosed_of_endsAtTop (before_isPrefix hf) hb htop
        exact isClosed_dropOrder (isClosed_dropSemicolons (isClosed_trimEnd this))
    · exact isClosed_dropOrder hb
  · exact isClosed_dropOrder hb

theorem isClosed_orNotice {s : List Char} (h : isClosed s = true) : isClosed (orNotice s) = true := by
  unfold orNotice
  split
  · decide
  · exact h

/-! ## Closed texts in parentheses -/

/-- A settled scan with a character held stands in code or a comment, where nothing can be held. -/
theorem not_held_of_isSettled {s : List Char} (h : (run s).isSettled = true) :
    (run s).held = false := by
  cases hh : (run s).held with
  | false => rfl
  | true =>
    have hq : (run s).isQuoted = true := isQuoted_of_held (by simp) s hh
    simp only [State.isSettled, State.isQuoted, Bool.and_eq_true, Bool.or_eq_true, beq_iff_eq] at h hq
    rcases h.1 with hm | hm <;> simp [hm] at hq

/-- The line feed behind a settled text is code. -/
theorem step_feed_of_isSettled {st : State} (h : st.isSettled = true) (hh : st.held = false) (d : Nat)
    (next : Option Char) : (st.raise d).step '\n' next = codeAt d := by
  obtain ⟨mode, depth, held⟩ := st
  cases hh
  simp only [State.isSettled, Bool.and_eq_true, Bool.or_eq_true, beq_iff_eq] at h
  obtain ⟨hm | hm, rfl⟩ := h <;> subst hm <;> simp [State.step, State.raise, codeAt]

/-- A closed text with a line feed behind it, inside of `d` parentheses. -/
theorem runTo_closed_feed {s : List Char} (h : isClosed s = true) (d : Nat) (next : Option Char) :
    runTo next (codeAt d) (s ++ ['\n']) = codeAt d := by
  rw [isClosed, Bool.and_eq_true] at h
  have hr : runTo (some '\n') (codeAt d) s = (run s).raise d := by
    rw [runTo_inert (by decide), ← Nat.zero_add d, ← raise_codeAt, codeAt_zero, runTo_raise h.2,
      Nat.zero_add]
    rfl
  rw [runTo_append, List.head?_cons, Option.some_or, hr, runTo_singleton]
  exact step_feed_of_isSettled h.1 (not_held_of_isSettled h.1) d next

/-- A text in parentheses, on lines of its own. -/
def wrapped (s : List Char) : List Char := "(\n".toList ++ (s ++ ['\n']) ++ [')']

theorem runTo_wrapped {s : List Char} (h : isClosed s = true) (d : Nat) (next : Option Char) :
    runTo next (codeAt d) (wrapped s) = codeAt d := by
  have ho : runTo (((s ++ ['\n']) ++ [')']).head?.or next) (codeAt d) "(\n".toList = codeAt (d + 1) := by
    simp [runTo, State.step, codeAt]
  rw [wrapped, List.append_assoc, runTo_append, ho, runTo_append, runTo_closed_feed h, runTo_singleton]
  simp [State.step, codeAt]

theorem opened_closed_feed {s : List Char} (h : isClosed s = true) :
    opened {} (s ++ ['\n']) = true := by
  rw [isClosed, Bool.and_eq_true] at h
  rw [opened_append, h.2]
  simp [opened, State.overcloses]

/-- Inside parentheses nothing of a closed text is top-level code. -/
theorem maskTo_closed {s : List Char} (h : isClosed s = true) (next : Option Char) :
    maskTo next (codeAt 1) s = List.replicate s.length false := by
  rw [isClosed, Bool.and_eq_true] at h
  rw [← Nat.zero_add 1, ← raise_codeAt, codeAt_zero, maskTo_raise h.2]

theorem maskTo_closed_feed {s : List Char} (h : isClosed s = true) (next : Option Char) :
    maskTo next (codeAt 1) (s ++ ['\n']) = List.replicate (s.length + 1) false := by
  rw [← Nat.zero_add 1, ← raise_codeAt, codeAt_zero, maskTo_raise (opened_closed_feed h)]
  simp

theorem maskTo_wrapped {s : List Char} (h : isClosed s = true) (next : Option Char) :
    maskTo next (codeAt 0) (wrapped s) = List.replicate (wrapped s).length false := by
  have ho (next' : Option Char) : runTo next' (codeAt 0) "(\n".toList = codeAt 1 := by
    simp [runTo, State.step, codeAt]
  have hm (next' : Option Char) : maskTo next' (codeAt 0) "(\n".toList = [false, false] := by
    simp [maskTo, State.step, State.isCode, codeAt]
  have hc : maskTo next (codeAt 1) [')'] = [false] := by simp [maskTo, State.isCode, codeAt]
  rw [wrapped, List.append_assoc, maskTo_append, ho, hm, maskTo_append, runTo_closed_feed h,
    maskTo_closed_feed h, hc]
  refine List.eq_replicate_iff.mpr ⟨?_, by simp⟩
  simp only [List.length_append, List.length_replicate]
  rfl

end QueryBlend.Sql
