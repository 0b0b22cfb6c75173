import QueryBlend.Sql.TopLevel
import QueryBlend.Dialect
/-!
# Scans of the parts of a text

`runTo_append` and `maskTo_append` cut a scan in two, but the first part is read with the second in
sight, and the second from wherever the first ends. This module says when neither matters.

* **What is ahead.** The next character only counts where it makes a pair with the last one, and then
  it is held (`runTo_of_not_held`). A character that makes no pair with anything is `inert`
  (`runTo_inert`).
* **Depth.** A text that closes no parenthesis it has not opened (`opened`) is scanned in the same way
  at every depth (`runTo_raise`), and none of it is top-level code inside a parenthesis
  (`maskTo_raise`).
* **Code that changes nothing.** Plain characters and quoted names leave a scan where it was. `Passes`
  says so of a text, and is kept where texts are put together (`Passes.append`, `Passes.joinWith`).
-/
namespace QueryBlend.Sql
open Text

/-! ## What is ahead -/

/-- Whether what is ahead makes no pair with any character. -/
def inert (next : Option Char) : Bool :=
  !next.any fun c => ['-', '*', '/', '\x27', '\x22'].contains c

theorem inert_some {d : Char} (h : inert (some d) = true) :
    d ≠ '-' ∧ d ≠ '*' ∧ d ≠ '/' ∧ d ≠ '\x27' ∧ d ≠ '\x22' := by
  simpa [inert] using h

theorem step_inert {next : Option Char} (h : inert next = true) (st : State) (c : Char) :
    st.step c next = st.step c none := by
  cases next with
  | none => rfl
  | some d =>
    obtain ⟨h1, h2, h3, h4, h5⟩ := inert_some h
    simp [State.step, State.inQuote, h1, h2, h3, h4, h5]

/-- The next character counts only where it makes a pair, and then it is held. -/
theorem step_of_not_held {st : State} {c : Char} {next : Option Char}
    (h : (st.step c next).held = false) : st.step c next = st.step c none := by
  obtain ⟨mode, depth, held⟩ := st
  cases held
  · cases mode <;> grind [State.step, State.inQuote]
  · rfl

theorem runTo_singleton (next : Option Char) (st : State) (c : Char) :
    runTo next st [c] = st.step c next := rfl

theorem runTo_cons_cons (next : Option Char) (st : State) (c d : Char) (cs : List Char) :
    runTo next st (c :: d :: cs) = runTo next (st.step c (some d)) (d :: cs) := rfl

theorem maskTo_cons_cons (next : Option Char) (st : State) (c d : Char) (cs : List Char) :
    maskTo next st (c :: d :: cs) =
      (st.isCode c (some d) && st.depth == 0) :: maskTo next (st.step c (some d)) (d :: cs) := rfl

/-- What a mask says of the character behind a text. -/
theorem getElem?_maskTo (next : Option Char) (st : State) (before : List Char) (c : Char)
    (after : List Char) : (maskTo next st (before ++ c :: after))[before.length]? =
      some ((runTo (some c) st before).isCode c (after.head?.or next) &&
        (runTo (some c) st before).depth == 0) := by
  rw [maskTo_append, List.head?_cons, Option.some_or,
    List.getElem?_append_right (Nat.le_of_eq (maskTo_length _ _ _)), maskTo_length, Nat.sub_self, maskTo,
    List.getElem?_cons_zero]

theorem runTo_inert {next : Option Char} (h : inert next = true) (st : State) (s : List Char) :
    runTo next st s = runTo none st s := by
  induction s generalizing st with
  | nil => rfl
  | cons c cs ih =>
    cases cs with
    | nil => exact step_inert h st c
    | cons d ds => simp only [runTo_cons_cons, ih]

theorem runTo_of_not_held {next : Option Char} {st : State} {s : List Char}
    (h : (runTo next st s).held = false) : runTo next st s = runTo none st s := by
  induction s generalizing st with
  | nil => rfl
  | cons c cs ih =>
    cases cs with
    | nil => exact step_of_not_held h
    | cons d ds => exact ih h

/-- Whether the scan stands between marks that a backslash keeps open. -/
def State.isQuoted (st : State) : Bool :=
  st.mode == .single || st.mode == .double || st.mode == .backtick

/-- With nothing ahead only a backslash holds a character. -/
theorem isQuoted_of_held_step {st : State} {c : Char} (h : (st.step c none).held = true) :
    (st.step c none).isQuoted = true := by
  obtain ⟨mode, depth, held⟩ := st
  cases held
  · cases mode <;> grind [State.step, State.inQuote, State.isQuoted]
  · simp [State.step] at h

theorem isQuoted_of_held {st : State} (hst : st.held = true → st.isQuoted = true) (s : List Char)
    (h : (runTo none st s).held = true) : (runTo none st s).isQuoted = true := by
  rcases List.eq_nil_or_concat s with rfl | ⟨init, c, rfl⟩
  · exact hst h
  · rw [List.concat_eq_append, runTo_append] at h ⊢
    exact isQuoted_of_held_step h

/-! ## Depth -/

namespace State

/-- The scan inside `d` more parentheses. -/
def raise (st : State) (d : Nat) : State := { st with depth := st.depth + d }

@[simp] theorem raise_depth (st : State) (d : Nat) : (st.raise d).depth = st.depth + d := rfl

/-- Whether `c` is code that closes a parenthesis where none is open. -/
def overcloses (st : State) (c : Char) : Bool := c == ')' && st.isTop && !st.held

end State

/-- Whether each closing parenthesis of a text that is code has been opened, by the text itself or in
front of it. -/
def opened : State → List Char → Bool
  | _, [] => true
  | st, c :: cs => !st.overcloses c && opened (st.step c cs.head?) cs

theorem opened_append (st : State) (s t : List Char) :
    opened st (s ++ t) = (opened st s && opened (runTo t.head? st s) t) := by
  induction s generalizing st with
  | nil => rfl
  | cons c cs ih =>
    have hh : (cs ++ t).head? = cs.head?.or t.head? := by cases cs <;> simp
    simp only [List.cons_append, opened, runTo, hh, ih, Bool.and_assoc]
    cases cs with
    | nil => simp [opened]
    | cons d ds => rfl

theorem step_raise {st : State} {c : Char} (h : st.overcloses c = false) (next : Option Char)
    (d : Nat) : (st.raise d).step c next = (st.step c next).raise d := by
  obtain ⟨mode, depth, held⟩ := st
  cases held
  · cases mode <;>
      simp only [State.step, State.inQuote, State.raise, State.overcloses, State.isTop] at h ⊢ <;>
      grind
  · rfl

theorem runTo_raise {st : State} {s : List Char} (h : opened st s = true) (next : Option Char)
    (d : Nat) : runTo next (st.raise d) s = (runTo next st s).raise d := by
  induction s generalizing st with
  | nil => rfl
  | cons c cs ih =>
    simp only [opened, Bool.and_eq_true, Bool.not_eq_true'] at h
    cases cs with
    | nil => exact step_raise h.1 next d
    | cons e es =>
      rw [runTo_cons_cons, runTo_cons_cons, step_raise h.1]
      exact ih h.2

/-- Inside a parenthesis nothing of a text is top-level code. -/
theorem maskTo_raise {st : State} {s : List Char} (h : opened st s = true) (next : Option Char)
    (d : Nat) : maskTo next (st.raise (d + 1)) s = List.replicate s.length false := by
  induction s generalizing st with
  | nil => rfl
  | cons c cs ih =>
    simp only [opened, Bool.and_eq_true, Bool.not_eq_true'] at h
    have hd : ((st.raise (d + 1)).depth == 0) = false := by
      rw [State.raise_depth, beq_eq_false_iff_ne]; omega
    cases cs with
    | nil => simp [maskTo]
    | cons e es =>
      rw [maskTo_cons_cons, step_raise h.1, hd, Bool.and_false, List.length_cons,
        List.replicate_succ]
      exact congrArg _ (ih h.2)

/-! ## Code that changes nothing -/

/-- In code inside of `d` parentheses. -/
def codeAt (d : Nat) : State := { depth := d }

theorem codeAt_zero : codeAt 0 = {} := rfl

theorem raise_codeAt (d e : Nat) : (codeAt d).raise e = codeAt (d + e) := rfl

/-- Whether a character is code that neither opens nor closes anything, whatever is ahead. -/
def isPlain (c : Char) : Bool :=
  !(['\x27', '\x22', '\x60', '[', '-', '/', '(', ')'].contains c)

theorem isPlain_iff (c : Char) : isPlain c = true ↔ c ≠ '\x27' ∧ c ≠ '\x22' ∧ c ≠ '\x60' ∧ c ≠ '[' ∧
    c ≠ '-' ∧ c ≠ '/' ∧ c ≠ '(' ∧ c ≠ ')' := by
  simp [isPlain]

theorem step_plain {c : Char} (h : isPlain c = true) (d : Nat) (next : Option Char) :
    (codeAt d).step c next = codeAt d := by
  obtain ⟨h1, h2, h3, h4, h5, h6, h7, h8⟩ := (isPlain_iff c).mp h
  simp [State.step, codeAt, h1, h2, h3, h4, h5, h6, h7, h8]

theorem isCode_plain {c : Char} (h : isPlain c = true) (d : Nat) (next : Option Char) :
    (codeAt d).isCode c next = true := by
  obtain ⟨h1, h2, h3, h4, h5, h6, h7, h8⟩ := (isPlain_iff c).mp h
  simp [State.isCode, codeAt, h1, h2, h3, h4, h5, h6, h7, h8]

theorem runTo_plain {s : List Char} (h : s.all isPlain = true) (d : Nat) (next : Option Char) :
    runTo next (codeAt d) s = codeAt d := by
  induction s with
  | nil => rfl
  | cons c cs ih =>
    simp only [List.all_cons, Bool.and_eq_true] at h
    rw [runTo, step_plain h.1, ih h.2]

theorem maskTo_plain {s : List Char} (h : s.all isPlain = true) (d : Nat) (next : Option Char) :
    maskTo next (codeAt d) s = List.replicate s.length (d == 0) := by
  induction s with
  | nil => rfl
  | cons c cs ih =>
    simp only [List.all_cons, Bool.and_eq_true] at h
    rw [maskTo, step_plain h.1, isCode_plain h.1, ih h.2]
    simp [codeAt, List.replicate_succ]

theorem opened_plain {s : List Char} (h : s.all isPlain = true) (d : Nat) :
    opened (codeAt d) s = true := by
  induction s with
  | nil => rfl
  | cons c cs ih =>
    simp only [List.all_cons, Bool.and_eq_true] at h
    have hc := ((isPlain_iff c).mp h.1).2.2.2.2.2.2.2
    simp [opened, State.overcloses, hc, step_plain h.1, ih h.2]

/-- What is between double quotes stays there; only the mark at the end leaves it. -/
theorem runTo_doubleQuotes {s : List Char} (h : '\\' ∉ s) (d : Nat) {next : Option Char}
    (hn : next ≠ some '\x22') :
    runTo next ⟨.double, d, false⟩ (doubleQuotes s ++ ['\x22']) = codeAt d := by
  induction s with
  | nil => simp [doubleQuotes, runTo, State.step, State.inQuote, hn, codeAt]
  | cons c cs ih =>
    simp only [List.mem_cons, not_or] at h
    have hc : c ≠ '\\' := Ne.symm h.1
    rw [doubleQuotes]
    split
    · rename_i he
      subst he
      rw [List.cons_append, List.cons_append, runTo_cons_cons, runTo]
      simpa [State.step, State.inQuote] using ih h.2
    · rename_i he
      rw [List.cons_append, runTo]
      simpa [State.step, State.inQuote, hc, he] using ih h.2

theorem runTo_quote {s : List Char} (h : '\\' ∉ s) (d : Nat) {next : Option Char}
    (hn : next ≠ some '\x22') : runTo next (codeAt d) (quote s) = codeAt d := by
  rw [quote, runTo]
  exact runTo_doubleQuotes h d hn

/-- A text that leaves a scan in code where it was, unless a double quote follows it. -/
def Passes (s : List Char) : Prop :=
  ∀ d next, next ≠ some '\x22' → runTo next (codeAt d) s = codeAt d

theorem passes_nil : Passes [] := fun _ _ _ => rfl

theorem passes_plain {s : List Char} (h : s.all isPlain = true) : Passes s :=
  fun d next _ => runTo_plain h d next

theorem passes_quote {s : List Char} (h : '\\' ∉ s) : Passes (quote s) :=
  fun d _ hn => runTo_quote h d hn

theorem Passes.append {s t : List Char} (hs : Passes s) (ht : Passes t)
    (hh : t.head? ≠ some '\x22') : Passes (s ++ t) := by
  intro d next hn
  rw [runTo_append, hs d _ ?_, ht d next hn]
  cases t with
  | nil => exact hn
  | cons c cs => simpa using hh

theorem Passes.plain_append {s t : List Char} (hs : s.all isPlain = true) (ht : Passes t) :
    Passes (s ++ t) := by
  intro d next hn
  rw [runTo_append, runTo_plain hs, ht d next hn]

/-- Plain text between two texts keeps the second from making a pair with the first. -/
theorem Passes.between {s sep t : List Char} (hs : Passes s) (hsep : sep.all isPlain = true)
    (hne : sep ≠ []) (ht : Passes t) : Passes (s ++ sep ++ t) := by
  rw [List.append_assoc]
  refine hs.append (ht.plain_append hsep) ?_
  cases sep with
  | nil => exact absurd rfl hne
  | cons c cs =>
    rw [List.all_cons, Bool.and_eq_true] at hsep
    have hc := ((isPlain_iff c).mp hsep.1).2.1
    rw [List.cons_append, List.head?_cons]
    exact fun h => hc (Option.some.inj h)

theorem Passes.joinWith {sep : List Char} (hsep : sep.all isPlain = true) (hne : sep ≠ [])
    {ts : List (List Char)} (h : ∀ t ∈ ts, Passes t) : Passes (joinWith sep ts) := by
  induction ts with
  | nil => exact passes_nil
  | cons t ts ih =>
    have ht := h t List.mem_cons_self
    have hts := ih fun u hu => h u (List.mem_cons_of_mem _ hu)
    cases ts with
    | nil => exact ht
    | cons u us => exact ht.between hsep hne hts

end QueryBlend.Sql
