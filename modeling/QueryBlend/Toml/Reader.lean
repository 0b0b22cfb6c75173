import QueryBlend.Toml.Value
import QueryBlend.Toml.Scalar
/-!
# Reading TOML

A document is read line by line: headers, keys with their values, comments and empty lines. Lists and
tables in braces may go over several lines. There is one kind of failure, a text that is not TOML, or one
that is nested too deeply.

Results:
* `scalarWords_append`: a value without quotes and what stands behind it are the whole text.
-/
namespace QueryBlend.Toml
open Text

/-- The text behind the blanks at its front. -/
def skipBlanks (s : List Char) : List Char := s.dropWhile isInlineBlank

/-- The text behind the comment at its front, if there is one. -/
def skipComment (s : List Char) : Option (List Char) :=
  match s with
  | '#' :: cs =>
    let rest := cs.dropWhile isTextChar
    if rest.isEmpty || (lineEnd? rest).isSome then some rest else none
  | s => some s

/-- The text behind the blanks, comments and line ends at its front. -/
def skipLines : (fuel : Nat) → List Char → Option (List Char)
  | 0, _ => none
  | fuel + 1, s => do
    let s ← skipComment (skipBlanks s)
    match lineEnd? s with
    | some rest => skipLines fuel rest
    | none => some s

/-- The text behind the rest of a line that holds nothing more but a comment. -/
def finishLine (s : List Char) : Option (List Char) := do
  let s ← skipComment (skipBlanks s)
  if s.isEmpty then some [] else lineEnd? s

/-! ## Keys -/

def isKeyChar (c : Char) : Bool := isAsciiAlphanumeric c || c == '_' || c == '-'

def keyPart (s : List Char) : Option (String × List Char) :=
  match s with
  | [] => none
  | c :: cs =>
    if c = '"' ∨ c = '\x27' then
      (lineText c (c == '"') [] (cs.length + 1) cs).map fun (t, rest) => (String.ofList t, rest)
    else
      let name := s.takeWhile isKeyChar
      if name.isEmpty then none else some (String.ofList name, s.dropWhile isKeyChar)

/-- How deeply values may lie within lists and tables, and how many parts a key may have. -/
def maxDepth : Nat := 80

/-- A key of one to `count` parts, with the blanks behind it. -/
def keyParts : (count : Nat) → List Char → Option (List String × List Char)
  | 0, _ => none
  | count + 1, s => do
    let (part, rest) ← keyPart (skipBlanks s)
    match skipBlanks rest with
    | '.' :: rest => do
      let (parts, rest) ← keyParts count rest
      some (part :: parts, rest)
    | rest => some ([part], rest)

/-- A key, with the blanks behind it. -/
def key (s : List Char) : Option (List String × List Char) := keyParts maxDepth s

/-! ## Values -/

/-- The characters that end a word: blanks, line ends, and those that stand around keys, values and
comments. -/
def wordEnds : List Char := ['=', ',', '[', ']', '\x7b', '\x7d', ' ', '\t', '#', '\r', '\n']

def isWordChar (c : Char) : Bool := !wordEnds.contains c

/-- Whether a word starts here that may go on with the word in front of the blanks before it. -/
def startsWord (s : List Char) : Bool :=
  s.head?.any fun c => isWordChar c && c != '"' && c != '\x27' && c != '.'

/-- The value without quotes and brackets at the front of a text: words with the blanks between them, but
not the blanks behind the last one. -/
def scalarWords : List Char → List Char × List Char
  | [] => ([], [])
  | c :: cs =>
    if isWordChar c || isInlineBlank c && startsWord (skipBlanks cs) then
      let (word, rest) := scalarWords cs
      (c :: word, rest)
    else ([], c :: cs)

def scalar (s : List Char) : Option (Value × List Char) :=
  let (word, rest) := scalarWords s
  if word = "true".toList then some (.bool true, rest)
  else if word = "false".toList then some (.bool false, rest)
  else match number? word, moment? word with
    | some held, _ => some (.number held, rest)
    | none, some m => some (.moment m, rest)
    | none, none => none

mutual

/-- A value; `room` is how deeply values may still lie within it. Each part of a value takes characters
of the text, so that the length of the text bounds the number of parts. -/
def value : (fuel room : Nat) → List Char → Option (Value × List Char)
  | 0, _, _ => none
  | _ + 1, _, [] => none
  | fuel + 1, room, c :: cs =>
    if c = '"' ∨ c = '\x27' then
      (quotedText (c :: cs)).map fun (t, rest) => (.text (String.ofList t), rest)
    else if c = '[' then
      match room with
      | 0 => none
      | room + 1 => (items fuel room cs).map fun (vs, rest) => (.array vs, rest)
    else if c = '\x7b' then
      match room with
      | 0 => none
      | room + 1 => (members fuel room [] cs).map fun (es, rest) => (.table es .closed, rest)
    else scalar (c :: cs)

/-- The values of a list behind its opening bracket or a comma, and the closing bracket. -/
def items : (fuel room : Nat) → List Char → Option (List Value × List Char)
  | 0, _, _ => none
  | fuel + 1, room, s => do
    match ← skipLines (s.length + 1) s with
    | ']' :: rest => some ([], rest)
    | s =>
      let (v, rest) ← value fuel room s
      match ← skipLines (rest.length + 1) rest with
      | ']' :: rest => some ([v], rest)
      | ',' :: rest => do
        let (vs, rest) ← items fuel room rest
        some (v :: vs, rest)
      | _ => none

/-- The members of a table in braces behind the opening brace or a comma, put into `es`, and the closing
brace. -/
def members : (fuel room : Nat) → Entries → List Char → Option (Entries × List Char)
  | 0, _, _, _ => none
  | fuel + 1, room, es, s => do
    match ← skipLines (s.length + 1) s with
    | '\x7d' :: rest => some (es, rest)
    | s =>
      let (path, rest) ← key s
      let rest ← behind? ['='] (← skipLines (rest.length + 1) rest)
      let (v, rest) ← value fuel room (← skipLines (rest.length + 1) rest)
      let es ← assign v path es
      match ← skipLines (rest.length + 1) rest with
      | '\x7d' :: rest => some (es, rest)
      | ',' :: rest => members fuel room es rest
      | _ => none

end

/-! ## Documents -/

/-- A document: its tables so far, and the path of the table that keys are put into. -/
structure Draft where
  root : Entries := []
  path : List String := []

/-- The path that a header names, in front of its closing brackets. -/
def headerPath (closing : List Char) (s : List Char) : Option (List String × List Char) := do
  let (path, rest) ← key s
  some (path, ← behind? closing rest)

/-- The document with the table under a path of headers changed by `f`. -/
def Draft.change (d : Draft) (f : Entries → Option Entries) (path : List String) : Option Entries :=
  within .passed (fun _ => f) .opened path d.root

/-- The document with the table of a path made by `add` in the table around it. -/
def Draft.header (d : Draft) (add : String → Entries → Option Entries) (path : List String) :
    Option Draft := do
  let last ← path.getLast?
  some { root := ← d.change (add last) path.dropLast, path := path }

/-- One line that is not empty. -/
def line (d : Draft) (s : List Char) : Option (Draft × List Char) :=
  match s with
  | '[' :: '[' :: cs => do
    let (path, rest) ← headerPath [']', ']'] cs
    some (← d.header appendTable path, rest)
  | '[' :: cs => do
    let (path, rest) ← headerPath [']'] cs
    some (← d.header openTable path, rest)
  | s => do
    let (path, rest) ← key s
    let rest ← behind? ['='] rest
    let (v, rest) ← value (s.length + 1) maxDepth (skipBlanks rest)
    some ({ d with root := ← d.change (assign v path) d.path }, rest)

def documentLines : (fuel : Nat) → Draft → List Char → Option Entries
  | 0, _, _ => none
  | fuel + 1, d, s => do
    match ← skipLines (s.length + 1) s with
    | [] => some d.root
    | s =>
      let (d, rest) ← line d s
      documentLines fuel d (← finishLine rest)

/-- The table that a text is, a byte order mark at its front left out. -/
def read (s : List Char) : Option Entries :=
  let s := (behind? ['\ufeff'] s).getD s
  documentLines (s.length + 1) {} s

theorem scalarWords_append (s : List Char) : (scalarWords s).1 ++ (scalarWords s).2 = s := by
  induction s with
  | nil => rfl
  | cons c cs ih =>
    rw [scalarWords]
    split
    · exact congrArg (c :: ·) ih
    · rfl

end QueryBlend.Toml
