import QueryBlend.Proofs.Sql.TopText
import QueryBlend.Proofs.Text.Blanks
/-!
# Line comments

A line comment goes from two hyphens to the end of its line. As long as no line feed comes, a scan stays
in the comment, whatever the text is (`runTo_comment`), and none of it is code, at top level or inside
of parentheses (`codeTo_comment`). The line feed itself is code again, so a text with a line feed shows
code wherever it stands in a comment (`maskTo_comment_feed`).

* `isLineComment_iff`: a text behind two hyphens is nothing but a line comment exactly when it has no
  line feed.
* `stripTrailing_comment`: nothing is stripped from a line comment.
-/
namespace QueryBlend.Sql
open Text

/-- In a line comment inside of `d` parentheses. -/
def commentAt (d : Nat) : State := { mode := .lineComment, depth := d }

/-- For each character of a text that `next` follows whether it is code, inside or outside of
parentheses. -/
def codeTo (next : Option Char) (st : State) : List Char → List Bool
  | [] => []
  | c :: cs =>
    let ahead := cs.head?.or next
    st.isCode c ahead :: codeTo next (st.step c ahead) cs

/-- Whether a text has no code, and is in a line comment where it ends. -/
def isLineComment (sql : List Char) : Bool :=
  (codeTo none {} sql).all (! ·) && (run sql).mode == .lineComment

variable {s : List Char}

/-! ## Inside of a comment -/

theorem step_commentAt {c : Char} (h : c ≠ '\n') (d : Nat) (next : Option Char) :
    (commentAt d).step c next = commentAt d := by
  simp [State.step, commentAt, h]

theorem isCode_commentAt (c : Char) (d : Nat) (next : Option Char) :
    (commentAt d).isCode c next = (c == '\n') := rfl

theorem runTo_comment (h : '\n' ∉ s) (d : Nat) (next : Option Char) :
    runTo next (commentAt d) s = commentAt d := by
  induction s with
  | nil => rfl
  | cons c cs ih =>
    simp only [List.mem_cons, not_or] at h
    rw [runTo, step_commentAt (Ne.symm h.1), ih h.2]

theorem codeTo_comment (h : '\n' ∉ s) (d : Nat) (next : Option Char) :
    codeTo next (commentAt d) s = List.replicate s.length false := by
  induction s with
  | nil => rfl
  | cons c cs ih =>
    simp only [List.mem_cons, not_or] at h
    rw [codeTo, step_commentAt (Ne.symm h.1), ih h.2, isCode_commentAt, beq_false_of_ne (Ne.symm h.1)]
    rfl

/-- Top-level code is code outside of all parentheses. -/
theorem maskTo_of_codeTo {next : Option Char} {st : State}
    (h : codeTo next st s = List.replicate s.length false) :
    maskTo next st s = List.replicate s.length false := by
  induction s generalizing st with
  | nil => rfl
  | cons c cs ih =>
    rw [codeTo, List.length_cons, List.replicate_succ, List.cons.injEq] at h
    rw [maskTo, ih h.2, h.1]
    rfl

theorem maskTo_comment (h : '\n' ∉ s) (d : Nat) (next : Option Char) :
    maskTo next (commentAt d) s = List.replicate s.length false :=
  maskTo_of_codeTo (codeTo_comment h d next)

/-- The first line feed behind the start of a comment is top-level code if the comment is. -/
theorem maskTo_comment_feed (h : '\n' ∉ s) (next : Option Char) (t : List Char) :
    maskTo next (commentAt 0) (s ++ '\n' :: t) =
      List.replicate s.length false ++ true :: maskTo next (codeAt 0) t := by
  rw [maskTo_append, maskTo_comment h, runTo_comment h]
  rfl

theorem codeTo_append (next : Option Char) (st : State) (s t : List Char) :
    codeTo next st (s ++ t) =
      codeTo (t.head?.or next) st s ++ codeTo next (runTo (t.head?.or next) st s) t := by
  induction s generalizing st with
  | nil => rfl
  | cons c cs ih =>
    have hh : (cs ++ t).head?.or next = cs.head?.or (t.head?.or next) := by cases cs <;> simp
    simp only [List.cons_append, codeTo, runTo, hh, ih]

/-! ## Whole comments -/

theorem runTo_hyphens (d : Nat) (next : Option Char) (s : List Char) :
    runTo next (codeAt d) ('-' :: '-' :: s) = runTo next (commentAt d) s := by
  simp [runTo, State.step, codeAt, commentAt]

theorem codeTo_hyphens (d : Nat) (next : Option Char) (s : List Char) :
    codeTo next (codeAt d) ('-' :: '-' :: s) = false :: false :: codeTo next (commentAt d) s := by
  simp [codeTo, State.step, State.isCode, codeAt, commentAt]

theorem isLineComment_iff (s : List Char) :
    isLineComment ('-' :: '-' :: s) = true ↔ '\n' ∉ s := by
  rw [isLineComment, run, ← codeAt_zero, runTo_hyphens, codeTo_hyphens]
  constructor
  · intro h hfeed
    obtain ⟨before, behind, rfl, hbefore⟩ := List.eq_append_cons_of_mem hfeed
    rw [codeTo_append, runTo_comment hbefore] at h
    simp [codeTo, isCode_commentAt] at h
  · intro h
    rw [codeTo_comment h, runTo_comment h]
    simp [commentAt]

/-! ## Stripping comments -/

/-- Behind two hyphens and more of a line without a line feed nothing is at top level. -/
theorem endsAtTop_comment (h : '\n' ∉ s) : endsAtTop ('-' :: '-' :: s) = false := by
  rw [endsAtTop, run, ← codeAt_zero, runTo_hyphens, runTo_comment h]
  rfl

theorem mask_comment (h : '\n' ∉ s) : mask ('-' :: '-' :: s) = List.replicate (s.length + 2) false := by
  have hcode : codeTo none {} ('-' :: '-' :: s) = List.replicate ('-' :: '-' :: s).length false := by
    rw [← codeAt_zero, codeTo_hyphens, codeTo_comment h]
    rfl
  exact maskTo_of_codeTo hcode

/-- A pattern that cannot be read at either hyphen is found inside of the comment or not at all. -/
theorem endsAtTop_before_of_find? {p : Pattern} {f : Found} (h : '\n' ∉ s)
    (hfirst : p.form ('-' :: '-' :: s) = none) (hsecond : p.form ('-' :: s) = none)
    (hf : p.find? ('-' :: '-' :: s) = some f) : endsAtTop f.before = false := by
  obtain ⟨hcut, -, hread⟩ := p.find?_eq_some hf
  obtain ⟨before, here, after⟩ := f
  cases before with
  | nil => rw [← show '-' :: '-' :: s = here from hcut, hfirst] at hread; cases hread
  | cons c cs =>
    cases cs with
    | nil =>
      rw [← show '-' :: s = here from (List.cons.inj hcut).2, hsecond] at hread
      cases hread
    | cons d ds =>
      simp only [List.cons_append, List.cons.injEq] at hcut
      obtain ⟨rfl, rfl, rfl⟩ := hcut
      exact endsAtTop_comment fun hd => h (List.mem_append_left _ hd)

theorem lastAtTop?_comment (h : '\n' ∉ s) (p : Pattern) : lastAtTop? p ('-' :: '-' :: s) = none := by
  rw [← Option.not_isSome_iff_eq_none]
  intro hsome
  obtain ⟨⟨i, j⟩, hspan⟩ := Option.isSome_iff_exists.mp hsome
  have hm := lastAtTop?_mask hspan
  rw [mask_comment h, List.getElem?_replicate] at hm
  split at hm <;> cases hm

/-- No row cap starts with a hyphen. -/
theorem closingCap_hyphen (s : List Char) : closingCap.form ('-' :: s) = none := rfl

/-- Of a line comment nothing is stripped: it has no clause, and ends in no semicolon or blank. Only an
announcement of totals can be read at its hyphens. -/
theorem stripTrailing_comment (h : '\n' ∉ s) {c : Char} (hlast : s.getLast? = some c)
    (hc : isFiller c = false) (hfirst : totals.form ('-' :: '-' :: s) = none)
    (hsecond : totals.form ('-' :: s) = none) (respectLimit : Bool) :
    stripTrailing ('-' :: '-' :: s) respectLimit = '-' :: '-' :: s := by
  have hne : s ≠ [] := by
    rintro rfl
    cases hlast
  have hlast : ('-' :: '-' :: s).getLast? = some c := by
    rw [List.getLast?_cons_of_ne_nil (List.cons_ne_nil _ _), List.getLast?_cons_of_ne_nil hne, hlast]
  have hblank : isBlank c = false := Bool.eq_false_iff.mpr fun hb => by
    rw [isFiller_of_isBlank hb] at hc
    cases hc
  have htrim : trim ('-' :: '-' :: s) = '-' :: '-' :: s := dropEnd_of_getLast? hlast hblank
  have htotal : dropTotal ('-' :: '-' :: s) = '-' :: '-' :: s := by
    unfold dropTotal
    split
    · rename_i f hf
      rw [endsAtTop_before_of_find? h hfirst hsecond hf]
      rfl
    · rfl
  have hbody : queryBody ('-' :: '-' :: s) = '-' :: '-' :: s := by
    rw [queryBody, htrim, htotal]
    exact dropEnd_of_getLast? hlast hc
  have horder : dropOrder ('-' :: '-' :: s) = '-' :: '-' :: s := by
    rw [dropOrder, lastAtTop?_comment h]
  unfold stripTrailing
  simp only [hbody, horder]
  split
  · rename_i f hf
    rw [endsAtTop_before_of_find? h (closingCap_hyphen _) (closingCap_hyphen _) hf]
    rfl
  · rfl

end QueryBlend.Sql
