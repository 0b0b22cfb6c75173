import QueryBlend.Text.Basic
/-!
# The tokens of a JSON text

A JSON text is read into tokens first. Reading stops where the text cannot go on; the last token then
says what is wrong there, and otherwise that the text has ended.

A value that somebody wants is held to more than a value that is passed over: an escape for half of a
surrogate pair matters only in a text that is wanted, and a number that breaks off at the end of the
text counts as an end of the text only when it is wanted. Tokens carry both verdicts.

Results:
* `readText_length`, `readNumber_length_lt`: what is left behind a text or a number is shorter than before it.
* `tokens_ne_nil`: there is always a last token.
-/
namespace QueryBlend.Json
open Text

inductive Trouble where
  | endsInside
  | notJson
  deriving DecidableEq, Repr

structure Number where
  negative : Bool := false
  whole : List Char
  fraction : Option (List Char) := none
  /-- Whether the exponent is negative, and its digits. -/
  exponent : Option (Bool × List Char) := none
  deriving DecidableEq, Repr

inductive Token where
  | openList
  | closeList
  | openObject
  | closeObject
  | colon
  | comma
  | null
  | bool (b : Bool)
  | number (n : Number)
  | text (t : List Char)
  /-- A text with an escape for half of a surrogate pair. -/
  | unpaired
  /-- The document cannot be read on: the trouble for one who wants the value and for one who passes
  over it. -/
  | broken (wanted skipped : Trouble)
  /-- The document cannot be read on within a text: the same two troubles. -/
  | brokenText (wanted skipped : Trouble)
  | endOfText
  deriving DecidableEq, Repr

/-! ## Texts -/

/-- The number that four hexadecimal digits at the front of a text stand for. A text of less than four
bytes has ended inside. -/
def hexCode (s : List Char) : Except Trouble Nat :=
  if byteCount s < 4 then .error .endsInside
  else match (s.take 4).mapM hexDigit? with
    | some [a, b, c, d] => .ok (((a * 16 + b) * 16 + c) * 16 + d)
    | _ => .error .notJson

def isLowSurrogate (n : Nat) : Bool := 0xDC00 ≤ n && n ≤ 0xDFFF

def isHighSurrogate (n : Nat) : Bool := 0xD800 ≤ n && n ≤ 0xDBFF

/-- The second half of a surrogate pair, as an escape at the front of a text. -/
def pairedCode : List Char → Except Trouble Nat
  | [] => .error .endsInside
  | c :: cs =>
    if c ≠ '\\' then .error .notJson
    else match cs with
      | [] => .error .endsInside
      | d :: ds =>
        if d ≠ 'u' then .error .notJson
        else match hexCode ds with
          | .ok n => if isLowSurrogate n then .ok n else .error .notJson
          | .error t => .error t

def pairChar (high low : Nat) : Char :=
  Char.ofNat (0x10000 + (high - 0xD800) * 0x400 + (low - 0xDC00))

/-- The character that a short escape stands for. -/
def shortEscape? (c : Char) : Option Char :=
  if c = '"' ∨ c = '\\' ∨ c = '/' then some c
  else if c = 'b' then some '\x08'
  else if c = 'f' then some '\x0c'
  else if c = 'n' then some '\n'
  else if c = 'r' then some '\r'
  else if c = 't' then some '\t'
  else none

/-- The token for a text that cannot be read on; `sound` says that all surrogates so far are paired. -/
def textTrouble (sound : Bool) (t : Trouble) : Token :=
  .brokenText (if sound then t else .notJson) t

/-- The rest of a text behind its opening quote, as a token and what stands behind it; `seen` are the
characters read so far, the last one first, and `sound` says that all surrogates among them are
paired. -/
def readText (sound : Bool) (seen s : List Char) : Token × List Char :=
  match s with
  | [] => (textTrouble sound .endsInside, [])
  | c :: cs =>
    if c = '"' then (if sound then .text seen.reverse else .unpaired, cs)
    else if c = '\\' then
      match cs with
      | [] => (textTrouble sound .endsInside, [])
      | e :: rest =>
        if e = 'u' then
          match hexCode rest with
          | .error t => (textTrouble sound t, [])
          | .ok n =>
            if isLowSurrogate n then readText false seen (rest.drop 4)
            else if isHighSurrogate n then
              match pairedCode (rest.drop 4) with
              | .ok m => readText sound (pairChar n m :: seen) (rest.drop 10)
              | .error .endsInside => readText sound seen (rest.drop 4)
              | .error .notJson => readText false seen (rest.drop 4)
            else readText sound (Char.ofNat n :: seen) (rest.drop 4)
        else match shortEscape? e with
          | some d => readText sound (d :: seen) rest
          | none => (textTrouble sound .notJson, [])
    else if c.toNat < 0x20 then (textTrouble sound .notJson, [])
    else readText sound (c :: seen) cs
termination_by s.length
decreasing_by all_goals (simp only [List.length_cons, List.length_drop]; omega)

/-! ## Numbers and words -/

/-- The token for a number that breaks off in front of `rest`. -/
def brokenNumber (rest : List Char) : Token :=
  .broken (if rest.isEmpty then .endsInside else .notJson) .notJson

/-- A sign of an exponent at the front of a text: whether it is a minus, and what stands behind it. -/
def readSign : List Char → Bool × List Char
  | [] => (false, [])
  | c :: cs => if c = '-' then (true, cs) else if c = '+' then (false, cs) else (false, c :: cs)

/-- The exponent at the front of a text, if there is one. -/
def readExponent : List Char → Except Token (Option (Bool × List Char) × List Char)
  | [] => .ok (none, [])
  | e :: cs =>
    if e = 'e' ∨ e = 'E' then
      let rest := (readSign cs).2
      if (rest.takeWhile isAsciiDigit).isEmpty then .error (brokenNumber rest)
      else .ok (some ((readSign cs).1, rest.takeWhile isAsciiDigit), rest.dropWhile isAsciiDigit)
    else .ok (none, e :: cs)

/-- The digits behind a point at the front of a text, if there is one. -/
def readFraction : List Char → Except Token (Option (List Char) × List Char)
  | [] => .ok (none, [])
  | c :: cs =>
    if c = '.' then
      if (cs.takeWhile isAsciiDigit).isEmpty then .error (brokenNumber cs)
      else .ok (some (cs.takeWhile isAsciiDigit), cs.dropWhile isAsciiDigit)
    else .ok (none, c :: cs)

/-- What follows the whole digits of a number, as the token of the number and what stands behind it. -/
def readNumberEnd (negative : Bool) (whole behind : List Char) : Token × List Char :=
  match readFraction behind with
  | .error t => (t, [])
  | .ok (fraction, behind) =>
    match readExponent behind with
    | .error t => (t, [])
    | .ok (exponent, behind) => (.number ⟨negative, whole, fraction, exponent⟩, behind)

/-- A number behind its sign, as a token and what stands behind it. -/
def readDigits (negative : Bool) (s : List Char) : Token × List Char :=
  let whole := s.takeWhile isAsciiDigit
  if whole.isEmpty then (brokenNumber s, [])
  else if whole.head? == some '0' && 1 < whole.length then (.broken .notJson .notJson, [])
  else readNumberEnd negative whole (s.dropWhile isAsciiDigit)

/-- The number at the front of a text, as a token and what stands behind it. -/
def readNumber : List Char → Token × List Char
  | [] => (brokenNumber [], [])
  | c :: cs => if c = '-' then readDigits true cs else readDigits false (c :: cs)

/-- The rest `word` of a word at the front of a text, as the token `t` of the word and what stands
behind it. -/
def readWord (t : Token) : (word s : List Char) → Token × List Char
  | [], s => (t, s)
  | _ :: _, [] => (.broken .endsInside .endsInside, [])
  | w :: ws, c :: cs => if w = c then readWord t ws cs else (.broken .notJson .notJson, [])

/-! ## Lengths -/

theorem readText_length (sound : Bool) (seen s : List Char) :
    (readText sound seen s).2.length ≤ s.length := by
  fun_induction readText sound seen s <;>
    simp_all only [List.length_cons, List.length_nil, List.length_drop] <;> omega

theorem readSign_length (s : List Char) : (readSign s).2.length ≤ s.length := by
  unfold readSign
  repeat' split
  all_goals simp

theorem dropDigits_length (s : List Char) : (s.dropWhile isAsciiDigit).length ≤ s.length :=
  (List.dropWhile_suffix _).length_le

theorem readExponent_length {s : List Char} {e : Option (Bool × List Char)} {r : List Char}
    (h : readExponent s = .ok (e, r)) : r.length ≤ s.length := by
  cases s with
  | nil => cases h; exact Nat.le_refl _
  | cons c cs =>
    simp only [readExponent] at h
    split at h
    · split at h
      · simp at h
      · simp only [Except.ok.injEq, Prod.mk.injEq] at h
        rw [← h.2]
        exact Nat.le_trans (dropDigits_length _) (Nat.le_trans (readSign_length cs) (Nat.le_succ _))
    · simp only [Except.ok.injEq, Prod.mk.injEq] at h
      exact Nat.le_of_eq (congrArg List.length h.2.symm)

theorem readFraction_length {s : List Char} {f : Option (List Char)} {r : List Char}
    (h : readFraction s = .ok (f, r)) : r.length ≤ s.length := by
  cases s with
  | nil => cases h; exact Nat.le_refl _
  | cons c cs =>
    simp only [readFraction] at h
    split at h
    · split at h
      · simp at h
      · simp only [Except.ok.injEq, Prod.mk.injEq] at h
        rw [← h.2]
        exact Nat.le_trans (dropDigits_length _) (Nat.le_succ _)
    · simp only [Except.ok.injEq, Prod.mk.injEq] at h
      exact Nat.le_of_eq (congrArg List.length h.2.symm)

theorem readNumberEnd_length (negative : Bool) (whole behind : List Char) :
    (readNumberEnd negative whole behind).2.length ≤ behind.length := by
  unfold readNumberEnd
  split
  · simp
  · next h =>
    have hf := readFraction_length h
    split
    · simp
    · next h' =>
      have he := readExponent_length h'
      exact Nat.le_trans he hf

theorem readDigits_length (negative : Bool) (s : List Char) :
    (readDigits negative s).2.length ≤ s.length := by
  unfold readDigits
  simp only []
  split
  · simp
  · split
    · simp
    · exact Nat.le_trans (readNumberEnd_length ..) (dropDigits_length s)

theorem readWord_length (t : Token) (word s : List Char) :
    (readWord t word s).2.length ≤ s.length := by
  induction word generalizing s with
  | nil => exact Nat.le_refl _
  | cons w ws ih =>
    cases s with
    | nil => exact Nat.le_refl _
    | cons c cs =>
      rw [readWord]
      split
      · exact Nat.le_trans (ih cs) (Nat.le_succ _)
      · simp

/-! ## All tokens -/

def isSpace (c : Char) : Bool := c == ' ' || c == '\n' || c == '\t' || c == '\r'

def punctuation? (c : Char) : Option Token :=
  if c = '[' then some .openList
  else if c = ']' then some .closeList
  else if c = '\x7b' then some .openObject
  else if c = '\x7d' then some .closeObject
  else if c = ':' then some .colon
  else if c = ',' then some .comma
  else none

/-- A token that starts with `c`, in front of `cs`, and what stands behind it. -/
def readToken (c : Char) (cs : List Char) : Token × List Char :=
  match punctuation? c with
  | some t => (t, cs)
  | none =>
    if c = '"' then readText true [] cs
    else if c = '-' ∨ isAsciiDigit c then readNumber (c :: cs)
    else if c = 'n' then readWord .null ['u', 'l', 'l'] cs
    else if c = 't' then readWord (.bool true) ['r', 'u', 'e'] cs
    else if c = 'f' then readWord (.bool false) ['a', 'l', 's', 'e'] cs
    else (.broken .notJson .notJson, [])

/-- A token that starts with `c` takes at least `c`, and a number all of its digits. -/
theorem readNumber_length_lt {c : Char} {cs : List Char} (h : c = '-' ∨ isAsciiDigit c = true) :
    (readNumber (c :: cs)).2.length ≤ cs.length := by
  rw [readNumber]
  split
  · exact readDigits_length ..
  · next hc =>
    have hd : isAsciiDigit c = true := h.resolve_left hc
    unfold readDigits
    simp only []
    split
    · simp
    · split
      · simp
      · refine Nat.le_trans (readNumberEnd_length ..) ?_
        rw [List.dropWhile_cons, if_pos hd]
        exact dropDigits_length cs

theorem readToken_length (c : Char) (cs : List Char) :
    (readToken c cs).2.length ≤ cs.length := by
  unfold readToken
  split
  · exact Nat.le_refl _
  · split
    · exact readText_length ..
    · split
      · next h => exact readNumber_length_lt h
      · split
        · exact readWord_length ..
        · split
          · exact readWord_length ..
          · split
            · exact readWord_length ..
            · simp

/-- Whether a token is the last one because the text cannot be read on. -/
def Token.isBroken : Token → Bool
  | .broken _ _ => true
  | .brokenText _ _ => true
  | _ => false

/-- The tokens of a text, up to its end or to where it cannot be read on. -/
def tokens : List Char → List Token
  | [] => [.endOfText]
  | c :: cs =>
    if isSpace c then tokens cs
    else
      let read := readToken c cs
      if read.1.isBroken then [read.1] else read.1 :: tokens read.2
termination_by s => s.length
decreasing_by
  · simp
  · have := readToken_length c cs
    simp only [List.length_cons]
    omega

theorem tokens_ne_nil (s : List Char) : tokens s ≠ [] := by
  induction s with
  | nil => simp [tokens]
  | cons c cs ih =>
    rw [tokens]
    split
    · exact ih
    · simp only []
      split <;> simp

end QueryBlend.Json
