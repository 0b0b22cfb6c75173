import QueryBlend.Text.Basic
/-!
# Forms and patterns

A *form* reads itself off the front of a text and answers the text behind it. Every form here takes as
much as it can and never gives any of it back; the forms of this library are built so that giving back
would never help. A *pattern* is a form together with the places where it may be tried, and is looked
for from left to right.

Results:
* `Form.Cuts`: the text behind a form is an end of the text before it; forms put together from such
  forms cut, too (`Cuts.seq`, `Cuts.either`, `Cuts.maybe`).
* `Pattern.findFrom_eq_some`: what is found lies where it is said to lie.
-/
namespace QueryBlend.Text

/-- Reads itself off the front of a text; `none` when the text does not start with it. -/
abbrev Form := List Char → Option (List Char)

namespace Form

def literal (w : String) : Form := behind? w.toList

/-- The characters of `w`, letters in either case. -/
def spelled : (w : List Char) → Form
  | [], s => some s
  | _ :: _, [] => none
  | w :: ws, c :: cs => if fold w = fold c then spelled ws cs else none

def word (w : String) : Form := spelled w.toList

/-- All characters of the class from here on, perhaps none. -/
def many (p : Char → Bool) : Form := fun s => some (s.dropWhile p)

/-- All characters of the class from here on, at least one. -/
def many1 (p : Char → Bool) : Form
  | [] => none
  | c :: cs => if p c then some (cs.dropWhile p) else none

/-- Blanks, perhaps none. -/
def gap : Form := many isBlank

/-- Blanks, at least one. -/
def blanks : Form := many1 isBlank

/-- A number: decimal digits, at least one. -/
def number : Form := many1 isDecimal

/-- The first of two forms that can be read. -/
def either (f g : Form) : Form := fun s => (f s).or (g s)

/-- The form if it can be read, otherwise nothing. -/
def maybe (f : Form) : Form := fun s => (f s).or (some s)

/-- Takes nothing; stands behind a word where the word does not go on. -/
def wordEnd : Form := fun s => if s.head?.any isWord then none else some s

/-- Takes nothing; stands at the end of the text. -/
def textEnd : Form := fun s => if s.isEmpty then some s else none

/-- The text behind the form is an end of the text before it. -/
def Cuts (f : Form) : Prop := ∀ s r, f s = some r → r <:+ s

theorem cuts_literal (w : String) : Cuts (literal w) := fun s r h =>
  ⟨w.toList, ((behind?_eq_some_iff _ s r).mp h).symm⟩

theorem cuts_many (p : Char → Bool) : Cuts (many p) := fun s r h => by
  cases h; exact List.dropWhile_suffix _

theorem Cuts.seq {f g : Form} (hf : Cuts f) (hg : Cuts g) : Cuts (f >=> g) := fun s r h => by
  obtain ⟨t, ht, hr⟩ := Option.bind_eq_some_iff.mp h
  exact (hg t r hr).trans (hf s t ht)

theorem Cuts.either {f g : Form} (hf : Cuts f) (hg : Cuts g) : Cuts (Form.either f g) :=
  fun s r h => by
    rcases Option.or_eq_some_iff.mp h with h | ⟨_, h⟩
    · exact hf s r h
    · exact hg s r h

theorem Cuts.maybe {f : Form} (hf : Cuts f) : Cuts (Form.maybe f) := fun s r h => by
  rcases Option.or_eq_some_iff.mp h with h | ⟨_, h⟩
  · exact hf s r h
  · cases h; exact List.suffix_refl _

end Form

/-- A form and the places where it may be tried: anywhere, or only where no word is under way. The
forms tried only there start with a character of a word, so such a place is the start of a word. -/
structure Pattern where
  form : Form
  atWordStart : Bool := false

/-- A place of a text where a pattern was found: the text before it, the text from there on, and the
text behind what the pattern took. -/
structure Found where
  before : List Char
  here : List Char
  after : List Char

namespace Pattern

/-- The pattern read off the front of `s`, where `prev` is the character in front of `s`. -/
def readAt (p : Pattern) (prev : Option Char) (s : List Char) : Option (List Char) :=
  if p.atWordStart && prev.any isWord then none else p.form s

/-- The first place of `s` where the pattern can be read, where `prev` is the character in front
of `s`. -/
def findFrom (p : Pattern) : (prev : Option Char) → List Char → Option Found
  | _, [] => none
  | prev, c :: cs =>
    match p.readAt prev (c :: cs) with
    | some after => some ⟨[], c :: cs, after⟩
    | none => (p.findFrom (some c) cs).map fun f => { f with before := c :: f.before }

def find? (p : Pattern) (s : List Char) : Option Found := p.findFrom none s

def occursIn (p : Pattern) (s : List Char) : Bool := (p.find? s).isSome

/-- Where the pattern is read, from left to right without overlaps, as first index and the index
behind the last, in a text whose first character has index `i`; `skip` characters still belong to the
occurrence before. -/
def spansFrom (p : Pattern) :
    (skip : Nat) → (prev : Option Char) → (i : Nat) → List Char → List (Nat × Nat)
  | _, _, _, [] => []
  | skip + 1, _, i, c :: cs => p.spansFrom skip (some c) (i + 1) cs
  | 0, prev, i, c :: cs =>
    match p.readAt prev (c :: cs) with
    | some after =>
      let n := cs.length + 1 - after.length
      (i, i + n) :: p.spansFrom (n - 1) (some c) (i + 1) cs
    | none => p.spansFrom 0 (some c) (i + 1) cs

/-- The occurrences of the pattern from left to right without overlaps. -/
def spans (p : Pattern) (s : List Char) : List (Nat × Nat) := p.spansFrom 0 none 0 s

theorem findFrom_eq_some (p : Pattern) {prev : Option Char} {s : List Char} {f : Found}
    (h : p.findFrom prev s = some f) :
    s = f.before ++ f.here ∧ f.here ≠ [] ∧ p.form f.here = some f.after := by
  induction s generalizing prev f with
  | nil => simp [findFrom] at h
  | cons c cs ih =>
    rw [findFrom] at h
    split at h
    · next after e =>
      cases h
      rw [readAt] at e
      split at e
      · simp at e
      · exact ⟨rfl, by simp, e⟩
    · obtain ⟨g, hg, rfl⟩ := Option.map_eq_some_iff.mp h
      obtain ⟨h1, h2, h3⟩ := ih hg
      exact ⟨by simp [← h1], h2, h3⟩

theorem find?_eq_some (p : Pattern) {s : List Char} {f : Found} (h : p.find? s = some f) :
    s = f.before ++ f.here ∧ f.here ≠ [] ∧ p.form f.here = some f.after :=
  p.findFrom_eq_some h

end Pattern
end QueryBlend.Text
