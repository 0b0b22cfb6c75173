import QueryBlend.Text.Pattern
/-!
# Which characters of a SQL text are code

A scan reads a SQL text one character at a time, with the next one in sight, and knows where it stands:
in code, in one of four kinds of quotes, or in one of two kinds of comments, and how many parentheses
are open. That is all the SQL this library understands, and enough to tell *top-level* code, which
stands outside of quotes, comments and parentheses, from everything else.

A quote ends at its closing mark; in texts between single or double quotes a doubled mark, and there
and between backticks also a mark behind a backslash, belongs to the text. The line feed behind a line
comment is code again. Closing parentheses without an opening one are passed over.

Results:
* `mask_length`, `byteMask_length`: a mask has one entry per character, or per byte.
* `runTo_append`, `maskTo_append`: the scan of a join is the scan of its second part from where the
  scan of the first part ends, the first part being read with the second in sight.
* `step_of_held`: the second character of a pair is passed over.
-/
namespace QueryBlend.Sql
open Text

inductive Mode where
  | code
  | single
  | double
  | backtick
  | bracket
  | lineComment
  | blockComment
  deriving DecidableEq, Repr

/-- Where a scan stands: the kind of text, the open parentheses, and whether the next character is
the second one of a pair that has been read already. -/
structure State where
  mode : Mode := .code
  depth : Nat := 0
  held : Bool := false
  deriving DecidableEq, Repr

namespace State

/-- Inside quotes with the mark `q`, where a backslash and a doubled mark keep the quote open. -/
def inQuote (st : State) (q c : Char) (next : Option Char) : State :=
  if c = '\\' then { st with held := true }
  else if c = q then
    if next = some q then { st with held := true } else { st with mode := .code }
  else st

/-- The state behind the character `c`, with `next` behind it. -/
def step (st : State) (c : Char) (next : Option Char) : State :=
  if st.held then { st with held := false }
  else match st.mode with
  | .code =>
    if c = '\x27' then { st with mode := .single }
    else if c = '\x22' then { st with mode := .double }
    else if c = '\x60' then { st with mode := .backtick }
    else if c = '[' then { st with mode := .bracket }
    else if c = '-' ∧ next = some '-' then { st with mode := .lineComment, held := true }
    else if c = '/' ∧ next = some '*' then { st with mode := .blockComment, held := true }
    else if c = '(' then { st with depth := st.depth + 1 }
    else if c = ')' then { st with depth := st.depth - 1 }
    else st
  | .single => st.inQuote '\x27' c next
  | .double => st.inQuote '\x22' c next
  | .backtick =>
    if c = '\\' then { st with held := true }
    else if c = '\x60' then { st with mode := .code }
    else st
  | .bracket => if c = ']' then { st with mode := .code } else st
  | .lineComment => if c = '\n' then { st with mode := .code } else st
  | .blockComment =>
    if c = '*' ∧ next = some '/' then { st with mode := .code, held := true } else st

/-- Whether the character `c`, with `next` behind it, is code. -/
def isCode (st : State) (c : Char) (next : Option Char) : Bool :=
  if st.held then false
  else match st.mode with
  | .code =>
    !(c == '\x27' || c == '\x22' || c == '\x60' || c == '[' || c == '(' || c == ')' ||
      (c == '-' && next == some '-') || (c == '/' && next == some '*'))
  | .lineComment => c == '\n'
  | _ => false

/-- Whether the scan stands in code outside of all parentheses. -/
def isTop (st : State) : Bool := st.mode == .code && st.depth == 0

end State

/-- The state behind a text that `next` follows. -/
def runTo (next : Option Char) (st : State) : List Char → State
  | [] => st
  | c :: cs => runTo next (st.step c (cs.head?.or next)) cs

/-- For each character of a text that `next` follows whether it is top-level code. -/
def maskTo (next : Option Char) (st : State) : List Char → List Bool
  | [] => []
  | c :: cs =>
    let ahead := cs.head?.or next
    (st.isCode c ahead && st.depth == 0) :: maskTo next (st.step c ahead) cs

/-- The state at the end of a SQL text. -/
def run (sql : List Char) : State := runTo none {} sql

/-- For each character of a SQL text whether it is top-level code. -/
def mask (sql : List Char) : List Bool := maskTo none {} sql

/-- Whether what follows the text stands at top level: in code, outside of parentheses. -/
def endsAtTop (sql : List Char) : Bool := (run sql).isTop

/-- The last occurrence of the pattern that starts in top-level code, as first index and the index
behind the last. -/
def lastAtTop? (p : Pattern) (sql : List Char) : Option (Nat × Nat) :=
  let m := mask sql
  ((p.spans sql).filter fun span => m[span.1]? == some true).getLast?

/-! ## Positions in bytes

Positions are given to the outside as offsets into the UTF-8 form of the text. -/

def byteOffset (sql : List Char) (i : Nat) : Nat := byteCount (sql.take i)

/-- The characters of the first `n` bytes, when a character ends there. -/
def firstBytes? : (n : Nat) → List Char → Option (List Char)
  | 0, _ => some []
  | _ + 1, [] => none
  | n + 1, c :: cs =>
    if c.utf8Size ≤ n + 1 then (firstBytes? (n + 1 - c.utf8Size) cs).map (c :: ·) else none

/-- For each byte whether its character is top-level code. -/
def byteMask (sql : List Char) : List Bool :=
  (sql.zip (mask sql)).flatMap fun (c, b) => List.replicate c.utf8Size b

/-- Whether what starts at a byte offset stands at top level; never inside a character or behind the
end of the text. -/
def isTopAt (sql : List Char) (offset : Nat) : Bool :=
  match firstBytes? offset sql with
  | some before => endsAtTop before
  | none => false

/-! ## Laws -/

theorem maskTo_length (next : Option Char) (st : State) (sql : List Char) :
    (maskTo next st sql).length = sql.length := by
  induction sql generalizing st with
  | nil => rfl
  | cons c cs ih => simp [maskTo, ih]

theorem mask_length (sql : List Char) : (mask sql).length = sql.length := maskTo_length _ _ _

theorem byteMask_length (sql : List Char) : (byteMask sql).length = byteCount sql := by
  have : ∀ (s : List Char) (m : List Bool), m.length = s.length →
      ((s.zip m).flatMap fun (c, b) => List.replicate c.utf8Size b).length = byteCount s := by
    intro s
    induction s with
    | nil => intro m _; simp [byteCount]
    | cons c cs ih =>
      intro m hm
      cases m with
      | nil => simp at hm
      | cons b bs => simp [byteCount, ih bs (by simpa using hm)]
  exact this sql _ (mask_length sql)

private theorem head?_append_or (s t : List Char) (next : Option Char) :
    (s ++ t).head?.or next = s.head?.or (t.head?.or next) := by
  cases s <;> simp

/-- The scan of a join is the scan of the second part from where the scan of the first part ends,
the first part being read with the second in sight. -/
theorem runTo_append (next : Option Char) (st : State) (s t : List Char) :
    runTo next st (s ++ t) = runTo next (runTo (t.head?.or next) st s) t := by
  induction s generalizing st with
  | nil => rfl
  | cons c cs ih => simp only [List.cons_append, runTo, head?_append_or, ih]

theorem maskTo_append (next : Option Char) (st : State) (s t : List Char) :
    maskTo next st (s ++ t) =
      maskTo (t.head?.or next) st s ++ maskTo next (runTo (t.head?.or next) st s) t := by
  induction s generalizing st with
  | nil => rfl
  | cons c cs ih => simp only [List.cons_append, maskTo, runTo, head?_append_or, ih]

theorem step_of_held {st : State} (h : st.held = true) (c : Char) (next : Option Char) :
    st.step c next = { st with held := false } := by
  simp [State.step, h]

end QueryBlend.Sql
