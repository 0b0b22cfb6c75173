import QueryBlend.Text.Classes
/-!
# Cutting and joining texts

Texts are worked on as lists of characters. This module cuts them at the ends, into lines and around
a fixed part, and puts them together again.

Results:
* `dropEnd_isPrefix`, `trim_isInfix`: what a trim keeps is a part of the text.
* `unlines_lines`: joining the lines of a text gives it back, and `lines_ne_nil`: there is one always.
* `lines_unlines`: lines without line feeds, at least one, are read back from their join.
* `hasPart_iff`: the search for a part decides `<:+:`.
-/
namespace QueryBlend.Text

/-- The text without its longest end of characters in `p`. -/
def dropEnd (p : Char → Bool) : List Char → List Char
  | [] => []
  | c :: cs =>
    match dropEnd p cs with
    | [] => if p c then [] else [c]
    | kept => c :: kept

def trimStart (s : List Char) : List Char := s.dropWhile isBlank

def trimEnd (s : List Char) : List Char := dropEnd isBlank s

def trim (s : List Char) : List Char := trimEnd (trimStart s)

/-- The number of bytes of the UTF-8 form of a text. -/
def byteCount : List Char → Nat
  | [] => 0
  | c :: cs => c.utf8Size + byteCount cs

/-- Whether the text holds nothing but blanks. -/
def isAllBlank (s : List Char) : Bool := s.all isBlank

/-- What stands behind `w` when the text starts with `w`. -/
def behind? : (w s : List Char) → Option (List Char)
  | [], s => some s
  | _ :: _, [] => none
  | w :: ws, c :: cs => if w = c then behind? ws cs else none

/-- The text in front of a last character `c`, when it ends in `c`. -/
def beforeLast? (c : Char) (s : List Char) : Option (List Char) :=
  if s.getLast? = some c then some s.dropLast else none

def hasPart (part : List Char) : List Char → Bool
  | [] => part.isEmpty
  | c :: cs => part.isPrefixOf (c :: cs) || hasPart part cs

/-- The lines of a text: what stands between its line feeds, so that a text without line feed is one
line and the empty text is one empty line. -/
def lines : List Char → List (List Char)
  | [] => [[]]
  | c :: cs =>
    if c = '\n' then [] :: lines cs
    else match lines cs with
      | [] => [[c]]
      | l :: ls => (c :: l) :: ls

/-- The texts one after the other with `sep` between them. -/
def joinWith (sep : List Char) : List (List Char) → List Char
  | [] => []
  | [t] => t
  | t :: u :: ts => t ++ sep ++ joinWith sep (u :: ts)

def unlines (ls : List (List Char)) : List Char := joinWith ['\n'] ls

/-- The replacement of occurrences, left to right, while `skip` characters of the last one found are
still to be passed over. -/
def replaceFrom (old new : List Char) : (skip : Nat) → List Char → List Char
  | _, [] => []
  | skip + 1, _ :: cs => replaceFrom old new skip cs
  | 0, c :: cs =>
    if old.isPrefixOf (c :: cs) then new ++ replaceFrom old new (old.length - 1) cs
    else c :: replaceFrom old new 0 cs

/-- The text with every occurrence of `old`, found from left to right without overlaps, replaced by
`new`. The part searched for is not empty. -/
def replaceAll (old new s : List Char) : List Char := replaceFrom old new 0 s

/-! ## Ends -/

theorem dropEnd_isPrefix (p : Char → Bool) (s : List Char) : dropEnd p s <+: s := by
  induction s with
  | nil => exact List.prefix_refl _
  | cons c cs ih =>
    rw [dropEnd]
    split
    · split
      · exact List.nil_prefix
      · exact ⟨cs, rfl⟩
    · exact List.cons_prefix_cons.mpr ⟨rfl, ih⟩

theorem trimEnd_isPrefix (s : List Char) : trimEnd s <+: s := dropEnd_isPrefix _ s

theorem trimStart_suffix (s : List Char) : trimStart s <:+ s := List.dropWhile_suffix _

theorem trim_isInfix (s : List Char) : trim s <:+: s :=
  (trimEnd_isPrefix _).isInfix.trans (trimStart_suffix s).isInfix

theorem dropEnd_eq_nil_iff (p : Char → Bool) (s : List Char) :
    dropEnd p s = [] ↔ s.all p = true := by
  induction s with
  | nil => simp [dropEnd]
  | cons c cs ih =>
    rw [dropEnd]
    split
    · next h =>
      have : cs.all p = true := ih.mp h
      split <;> simp_all
    · next h =>
      have : cs.all p ≠ true := fun e => h (ih.mpr e)
      simp only [List.all_cons, Bool.and_eq_true, reduceCtorEq, false_iff, not_and]
      exact fun _ => this

/-! ## Parts -/

theorem behind?_eq_some_iff (w s r : List Char) : behind? w s = some r ↔ s = w ++ r := by
  induction w generalizing s with
  | nil => simp [behind?, eq_comm]
  | cons c w ih =>
    cases s with
    | nil => simp [behind?]
    | cons d s =>
      rw [behind?]
      split
      · next h => subst h; simp [ih]
      · next h =>
        simp only [reduceCtorEq, List.cons_append, List.cons.injEq, false_iff, not_and]
        exact fun e => absurd e.symm h

theorem hasPart_iff (part s : List Char) : hasPart part s = true ↔ part <:+: s := by
  induction s with
  | nil => simp [hasPart]
  | cons c cs ih =>
    rw [hasPart, Bool.or_eq_true, List.isPrefixOf_iff_prefix, ih, List.infix_cons_iff]

/-! ## Lines -/

theorem lines_ne_nil (s : List Char) : lines s ≠ [] := by
  cases s with
  | nil => simp [lines]
  | cons c cs =>
    rw [lines]
    split
    · simp
    · split <;> simp

theorem joinWith_cons (sep t : List Char) {ts : List (List Char)} (h : ts ≠ []) :
    joinWith sep (t :: ts) = t ++ sep ++ joinWith sep ts := by
  cases ts with
  | nil => exact absurd rfl h
  | cons u us => rfl

theorem unlines_lines (s : List Char) : unlines (lines s) = s := by
  induction s with
  | nil => rfl
  | cons c cs ih =>
    rw [lines]
    split
    · next h =>
      subst h
      rw [unlines, joinWith_cons _ _ (lines_ne_nil cs)]
      simpa [unlines] using ih
    · split
      · next h => exact absurd h (lines_ne_nil cs)
      · next l ls h =>
        rw [h] at ih
        cases ls with
        | nil => simpa [unlines, joinWith] using ih
        | cons m ms => simpa [unlines, joinWith] using ih

theorem lines_of_not_mem {s : List Char} (h : '\n' ∉ s) : lines s = [s] := by
  induction s with
  | nil => rfl
  | cons c cs ih =>
    simp only [List.mem_cons, not_or] at h
    rw [lines, if_neg (Ne.symm h.1), ih h.2]

theorem lines_append_feed {s : List Char} (h : '\n' ∉ s) (t : List Char) :
    lines (s ++ '\n' :: t) = s :: lines t := by
  induction s with
  | nil => simp [lines]
  | cons c cs ih =>
    simp only [List.mem_cons, not_or] at h
    rw [List.cons_append, lines, if_neg (Ne.symm h.1), ih h.2]

theorem lines_unlines {ls : List (List Char)} (hne : ls ≠ []) (h : ∀ l ∈ ls, '\n' ∉ l) :
    lines (unlines ls) = ls := by
  induction ls with
  | nil => exact absurd rfl hne
  | cons l ls ih =>
    cases ls with
    | nil => exact lines_of_not_mem (h l (by simp))
    | cons m ms =>
      rw [unlines, joinWith_cons _ _ (by simp), List.append_assoc, List.singleton_append,
        lines_append_feed (h l (by simp))]
      exact congrArg (l :: ·) (ih (by simp) fun x hx => h x (List.mem_cons_of_mem _ hx))

theorem not_mem_of_mem_lines {s l : List Char} (h : l ∈ lines s) : '\n' ∉ l := by
  induction s generalizing l with
  | nil => simp_all [lines]
  | cons c cs ih =>
    rw [lines] at h
    split at h
    · rcases List.mem_cons.mp h with rfl | h
      · simp
      · exact ih h
    · next hc =>
      split at h
      · next e => exact absurd e (lines_ne_nil cs)
      · next m ms e =>
        rcases List.mem_cons.mp h with rfl | h
        · have := ih (l := m) (by rw [e]; simp)
          simpa [this] using fun e => hc e.symm
        · exact ih (by rw [e]; exact List.mem_cons_of_mem _ h)

end QueryBlend.Text
