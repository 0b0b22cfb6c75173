import QueryBlend.Text.Basic
/-!
# Texts and numbers of TOML

Readers for the texts between quotes, and the tests for what a number may look like and how large it may
be. A reader of texts answers what it has read and what stands behind it.

Results:
* `isSpaced_of_not_mem`: a text without underscores has none in a wrong place.
-/
namespace QueryBlend.Toml
open Text

/-! ## Texts -/

/-- A character that may stand in a text as it is. -/
def isTextChar (c : Char) : Bool := c == '\t' || (0x20 ≤ c.toNat && c.toNat != 0x7f)

def isInlineBlank (c : Char) : Bool := c == ' ' || c == '\t'

/-- The text behind the line end at the front of a text. -/
def lineEnd? : List Char → Option (List Char)
  | [] => none
  | c :: cs =>
    if c = '\n' then some cs
    else if c = '\r' ∧ cs.head? = some '\n' then some cs.tail
    else none

/-- The character of a code point of `count` hexadecimal digits at the front of a text. -/
def codePoint (count : Nat) (s : List Char) : Option (Char × List Char) :=
  let digits := s.take count
  let n := digitsValue 16 digits
  if digits.length = count ∧ (digits.all fun c => (hexDigit? c).isSome) ∧
      (n < 0xD800 ∨ (0xDFFF < n ∧ n < 0x110000)) then
    some (Char.ofNat n, s.drop count)
  else none

/-- The character of an escape, behind its backslash. -/
def escape : List Char → Option (Char × List Char)
  | [] => none
  | c :: cs =>
    if c = '"' ∨ c = '\\' then some (c, cs)
    else if c = 'b' then some ('\x08', cs)
    else if c = 'e' then some ('\x1b', cs)
    else if c = 't' then some ('\t', cs)
    else if c = 'n' then some ('\n', cs)
    else if c = 'f' then some ('\x0c', cs)
    else if c = 'r' then some ('\r', cs)
    else if c = 'x' then codePoint 2 cs
    else if c = 'u' then codePoint 4 cs
    else if c = 'U' then codePoint 8 cs
    else none

/-- A text of one line between marks `q`, behind the first mark; `escapes` says that a backslash starts
an escape, and `seen` holds what has been read, the last character first. -/
def lineText (q : Char) (escapes : Bool) (seen : List Char) : (fuel : Nat) → List Char →
    Option (List Char × List Char)
  | 0, _ => none
  | _ + 1, [] => none
  | fuel + 1, c :: cs =>
    if c = q then some (seen.reverse, cs)
    else if c = '\\' ∧ escapes then do
      let (d, rest) ← escape cs
      lineText q escapes (d :: seen) fuel rest
    else if isTextChar c then lineText q escapes (c :: seen) fuel cs
    else none

/-- Whether a carriage return stands in front of a line feed. -/
def isPairedReturn (c : Char) (behind : List Char) : Bool := c == '\r' && behind.head? == some '\n'

/-- The text behind the blanks and line ends at its front. -/
def skipWhite : List Char → List Char
  | [] => []
  | c :: cs => if isInlineBlank c || c == '\n' || isPairedReturn c cs then skipWhite cs else c :: cs

/-- The text behind a backslash at the end of a line, and behind all blanks and line ends that follow. -/
def continuation? (s : List Char) : Option (List Char) :=
  (lineEnd? (s.dropWhile isInlineBlank)).map skipWhite

/-- A text of several lines between three marks `q`, behind the first three. Up to two more marks in
front of the last three belong to the text, and so do the line ends as they stand there. -/
def blockText (q : Char) (escapes : Bool) (seen : List Char) : (fuel : Nat) → List Char →
    Option (List Char × List Char)
  | 0, _ => none
  | _ + 1, [] => none
  | fuel + 1, c :: cs =>
    if c = q then
      let marks := (c :: cs).takeWhile (· == q)
      let rest := (c :: cs).dropWhile (· == q)
      if marks.length < 3 then blockText q escapes (marks ++ seen) fuel rest
      else if marks.length ≤ 5 then some (seen.reverse ++ marks.drop 3, rest)
      else none
    else if c = '\\' ∧ escapes then
      match continuation? cs with
      | some rest => blockText q escapes seen fuel rest
      | none => do
        let (d, rest) ← escape cs
        blockText q escapes (d :: seen) fuel rest
    else if isTextChar c || c == '\n' || isPairedReturn c cs then
      blockText q escapes (c :: seen) fuel cs
    else none

/-- A text between quotes, of one line or of several. -/
def quotedText (s : List Char) : Option (List Char × List Char) :=
  match s with
  | [] => none
  | q :: cs =>
    let escapes := q == '"'
    if q = '"' ∨ q = '\x27' then
      match behind? [q, q] cs with
      | some rest => blockText q escapes [] (s.length + 1) ((lineEnd? rest).getD rest)
      | none => lineText q escapes [] (s.length + 1) cs
    else none

/-! ## Numbers -/

def isDigitOf (base : Nat) (c : Char) : Bool := (hexDigit? c).any (· < base)

/-- Digits of a base with any underscores among them. -/
def isRun (base : Nat) (s : List Char) : Bool :=
  s.any (isDigitOf base) && s.all fun c => c == '_' || isDigitOf base c

/-- Whether each underscore stands behind a digit and in front of one; `behind` says whether a digit stands
in front of the text. -/
def isSpaced (isDigit : Char → Bool) (behind : Bool) : List Char → Bool
  | [] => true
  | c :: cs =>
    if c = '_' then behind && cs.head?.any isDigit && isSpaced isDigit false cs
    else isSpaced isDigit (isDigit c) cs

/-- Digits without the underscores between them. -/
def plain (s : List Char) : List Char := s.filter (· != '_')

def isSigned (s : List Char) : Bool := s.head? == some '+' || s.head? == some '-'

def dropSign (s : List Char) : List Char := if isSigned s then s.tail else s

/-- A number with the sign that stands in front of its digits. -/
def withSignOf (s : List Char) (n : Nat) : Int := if s.head? = some '-' then -n else n

/-- Whether a number has no zero in front of other digits. -/
def isUnpadded (s : List Char) : Bool := s == ['0'] || s.head? != some '0'

/-- The number that digits of a base stand for; there is none without digits. -/
def natural? (base : Nat) (s : List Char) : Option Nat :=
  if !s.isEmpty && s.all (isDigitOf base) then some (digitsValue base s) else none

/-- Whether 128 bits hold an integer, with or without a sign bit. -/
def isHeld (n : Int) : Bool := -(Nat.pow 2 127 : Nat) ≤ n && n < (Nat.pow 2 128 : Nat)

/-- The base that the first two characters of a number are the mark of, and what stands behind them. -/
def baseMark? : List Char → Option (Nat × List Char)
  | '0' :: 'x' :: s => some (16, s)
  | '0' :: 'o' :: s => some (8, s)
  | '0' :: 'b' :: s => some (2, s)
  | _ => none

/-- Whether the number behind a mark of its base can be held: without digits it cannot. -/
def marked? (s : List Char) : Option Bool := do
  let (base, ds) ← baseMark? s
  if (ds = [] ∨ isRun base ds) ∧ isSpaced (isDigitOf base) false ds then
    some ((natural? base (plain ds)).any fun n => isHeld n)
  else none

def isExponentMark (c : Char) : Bool := c == 'e' || c == 'E'

/-- Whether the integer that a text is taken for can be held. It is taken for one if it is all digits up
to the first underscore and shows no space and no sign of a fraction; other characters behind an
underscore only keep it from being held. -/
def integer? (s : List Char) : Option Bool :=
  let t := dropSign s
  let rest := t.dropWhile isAsciiDigit
  if t ≠ [] ∧ (rest = [] ∨ rest.head? = some '_') ∧ isUnpadded t ∧
      (rest.all fun c => c != '.' && c != ' ' && !isExponentMark c) ∧
      isSpaced (isDigitOf 16) false t then
    some ((natural? 10 (plain t)).any fun n => isHeld (withSignOf s n))
  else none

/-- The exponent that a text is behind its mark; there is none in an empty text. -/
def exponent? : List Char → Option (Option Int)
  | [] => some none
  | _ :: ds =>
    if isRun 10 (dropSign ds) then
      some (some (withSignOf ds (digitsValue 10 (plain (dropSign ds)))))
    else none

/-- The number with a fraction, an exponent or both that a text is, but for its sign: the number of its
digits, and the power of ten that it is multiplied by. -/
def decimal? (s : List Char) : Option (Nat × Int) := do
  let t := dropSign s
  let e ← exponent? (t.dropWhile (!isExponentMark ·))
  if isSpaced (isDigitOf 10) false t then
    match (t.takeWhile (!isExponentMark ·)).splitOn '.', e with
    | [w], some e => if isRun 10 w && isUnpadded w then some (digitsValue 10 (plain w), e) else none
    | [w, f], e =>
      if isRun 10 w && isUnpadded w && isRun 10 f then
        some (digitsValue 10 (plain (w ++ f)), e.getD 0 - (plain f).length)
      else none
    | _, _ => none
  else none

/-- The least number that is too large for a binary fraction of 64 bits: it is half a step beyond the
largest one. -/
def overflow : Nat := (Nat.pow 2 54 - 1) * Nat.pow 2 970

/-- Whether `digits` times a power of ten is within the binary fractions of 64 bits. The place of the
point decides that for most numbers without working them out. -/
def isFinite (digits : Nat) (power : Int) : Bool :=
  let place := (Nat.toDigits 10 digits).length + power
  if digits = 0 ∨ place < 309 then true
  else if 309 < place then false
  else digits * Nat.pow 10 power.toNat < overflow * Nat.pow 10 (-power).toNat

/-- One of the two numbers without digits. -/
def isWordNumber (s : List Char) : Bool :=
  dropSign s == ['i', 'n', 'f'] || dropSign s == ['n', 'a', 'n']

/-- Whether the number that a text is can be held. -/
def number? (s : List Char) : Option Bool :=
  if isWordNumber s then some true
  else
    ((marked? s).or (integer? s)).or ((decimal? s).map fun (digits, power) => isFinite digits power)

theorem isSpaced_of_not_mem (isDigit : Char → Bool) (behind : Bool) {s : List Char} (h : '_' ∉ s) :
    isSpaced isDigit behind s = true := by
  induction s generalizing behind with
  | nil => rfl
  | cons c cs ih =>
    simp only [List.mem_cons, not_or] at h
    rw [isSpaced, if_neg (Ne.symm h.1), ih _ h.2]

end QueryBlend.Toml
