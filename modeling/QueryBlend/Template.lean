import QueryBlend.Text.Classes
/-!
# Texts with variables

A text may name variables of the environment, as `$NAME` or `${NAME}`. Such a text is read into pieces
first; a name without braces goes as far as letters, numbers and underscores go, a name in braces up to
the closing brace or the end of the text, and a dollar without a name stands for itself. The value of a
variable is put in as it is and not read again.

Results:
* `pieces_of_no_dollar`: a text without dollars has no variables.
* `fill_congr`: what pieces give depends only on the variables among them.
-/
namespace QueryBlend.Template
open Text

inductive Piece where
  | char (c : Char)
  | named (name : List Char)
  deriving DecidableEq, Repr

/-- A character of a name without braces. -/
def isNameChar (c : Char) : Bool := isAlphanumeric c || c == '_'

def pieces : List Char → List Piece
  | [] => []
  | c :: cs =>
    if c ≠ '$' then .char c :: pieces cs
    else if cs.head? = some '\x7b' then
      .named (cs.tail.takeWhile (· != '\x7d')) ::
        pieces ((cs.tail.dropWhile (· != '\x7d')).drop 1)
    else if (cs.takeWhile isNameChar).isEmpty then .char '$' :: pieces cs
    else .named (cs.takeWhile isNameChar) :: pieces (cs.dropWhile isNameChar)
termination_by s => s.length
decreasing_by
  · simp
  · have := (List.dropWhile_suffix (l := cs.tail) (· != '\x7d')).length_le
    simp only [List.length_drop, List.length_cons]
    simp only [List.length_tail] at this
    omega
  · simp
  · have := (List.dropWhile_suffix (l := cs) isNameChar).length_le
    simp only [List.length_cons]
    omega

/-- The pieces put together, with the values of variables; the first variable without a value is the
error. -/
def fill (lookup : String → Option String) : List Piece → Except String (List Char)
  | [] => .ok []
  | .char c :: ps => (fill lookup ps).map (c :: ·)
  | .named name :: ps =>
    match lookup (String.ofList name) with
    | none => .error (String.ofList name)
    | some v => (fill lookup ps).map (v.toList ++ ·)

/-- The text with the values of the variables that it names, or the first name without a value. -/
def expand (lookup : String → Option String) (s : String) : Except String String :=
  (fill lookup (pieces s.toList)).map String.ofList

theorem pieces_of_no_dollar {s : List Char} (h : '$' ∉ s) : pieces s = s.map .char := by
  induction s with
  | nil => simp [pieces]
  | cons c cs ih =>
    simp only [List.mem_cons, not_or] at h
    rw [pieces, if_pos (Ne.symm h.1), ih h.2, List.map_cons]

/-- What pieces give depends only on the variables among them. -/
theorem fill_congr {f g : String → Option String} {ps : List Piece}
    (h : ∀ name, .named name ∈ ps → f (String.ofList name) = g (String.ofList name)) :
    fill f ps = fill g ps := by
  induction ps with
  | nil => rfl
  | cons p ps ih =>
    have := ih fun name hn => h name (List.mem_cons_of_mem _ hn)
    cases p with
    | char c => simp [fill, this]
    | named name => simp [fill, this, h name (by simp)]

end QueryBlend.Template
