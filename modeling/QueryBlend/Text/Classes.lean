import QueryBlend.Text.Properties
/-!
# Character classes and letter case

The classes by which texts are trimmed, split into words and compared without regard to case. They are
the Unicode classes; each is said outright for ASCII and looked up in `QueryBlend.Text.Properties`
beyond. The words and digits of patterns are those of Unicode 16, and the characters of names those of
Unicode 17.

Results:
* `isBlank_of_isWhitespace`: every blank of ASCII is a blank.
* `isWord_ascii`, `isDecimal_ascii`: below 128 the classes are the familiar ones.
* `fold_fold`: folding twice is folding once.
-/
namespace QueryBlend.Text

/-- White space (the property `White_Space`). -/
def isBlank (c : Char) : Bool :=
  let n := c.toNat
  (9 ≤ n && n ≤ 13) || n == 0x20 || n == 0x85 || n == 0xA0 || n == 0x1680 ||
    (0x2000 ≤ n && n ≤ 0x200A) || n == 0x2028 || n == 0x2029 || n == 0x202F || n == 0x205F ||
    n == 0x3000

def isAsciiLetter (c : Char) : Bool :=
  ('a' ≤ c && c ≤ 'z') || ('A' ≤ c && c ≤ 'Z')

def isAsciiDigit (c : Char) : Bool := '0' ≤ c && c ≤ '9'

def isAsciiAlphanumeric (c : Char) : Bool := isAsciiLetter c || isAsciiDigit c

def hexDigit? (c : Char) : Option Nat :=
  if isAsciiDigit c then some (c.toNat - 48)
  else if 'a' ≤ c ∧ c ≤ 'f' then some (c.toNat - 87)
  else if 'A' ≤ c ∧ c ≤ 'F' then some (c.toNat - 55)
  else none

/-- The number that digits of a base stand for. -/
def digitsValue (base : Nat) (ds : List Char) : Nat :=
  ds.foldl (fun n c => n * base + (hexDigit? c).getD 0) 0

/-- A decimal digit of any script (`Nd`). -/
def isDecimal (c : Char) : Bool :=
  if c.toNat < 128 then isAsciiDigit c else decimals.has c && !newInSeventeen.has c

/-- A character that words are made of: a letter, a mark, a digit, an underscore or another
connector. -/
def isWord (c : Char) : Bool :=
  if c.toNat < 128 then isAsciiAlphanumeric c || c == '_'
  else (letters.has c || marks.has c || decimals.has c || joiners.has c) && !newInSeventeen.has c

/-- A letter or a number of any script. -/
def isAlphanumeric (c : Char) : Bool :=
  if c.toNat < 128 then isAsciiAlphanumeric c
  else letters.has c || decimals.has c || otherNumbers.has c

/-- The small letter of an ASCII capital; every other character is itself. -/
def lowerAscii (c : Char) : Char :=
  if 'A' ≤ c ∧ c ≤ 'Z' then Char.ofNat (c.toNat + 32) else c

/-- The form under which two characters count as the same letter, as far as ASCII letters are
concerned: small letters, with the long s folded to `s` and the Kelvin sign to `k`. -/
def fold (c : Char) : Char :=
  if c = '\u017f' then 's' else if c = '\u212a' then 'k' else lowerAscii c

theorem isBlank_of_isWhitespace (c : Char) (h : c.isWhitespace = true) : isBlank c = true := by
  simp only [Char.isWhitespace, Bool.or_eq_true, decide_eq_true_eq] at h
  rcases h with ((h | h) | h) | h <;> subst h <;> decide

theorem isDecimal_ascii (c : Char) (h : c.toNat < 128) : isDecimal c = isAsciiDigit c := by
  simp [isDecimal, h]

theorem isWord_ascii (c : Char) (h : c.toNat < 128) :
    isWord c = (isAsciiAlphanumeric c || c == '_') := by
  simp [isWord, h]

/-- Each capital by its small letter, the other characters of ASCII unchanged. -/
theorem lowerAscii_table :
    (List.range 128).all (fun n => lowerAscii (lowerAscii (Char.ofNat n)) == lowerAscii (Char.ofNat n) &&
      fold (lowerAscii (Char.ofNat n)) == lowerAscii (Char.ofNat n)) = true := by
  decide +kernel

theorem lowerAscii_of_ge {c : Char} (h : 128 ≤ c.toNat) : lowerAscii c = c := by
  have : ¬ c ≤ 'Z' := by
    intro hz
    have : c.toNat ≤ 'Z'.toNat := hz
    have : 'Z'.toNat = 90 := rfl
    omega
  simp [lowerAscii, this]

theorem fold_lowerAscii_of_lt {c : Char} (h : c.toNat < 128) :
    fold (lowerAscii c) = lowerAscii c := by
  have := List.all_eq_true.mp lowerAscii_table c.toNat (by simpa using h)
  simp only [Char.ofNat_toNat, Bool.and_eq_true, beq_iff_eq] at this
  exact this.2

theorem fold_fold (c : Char) : fold (fold c) = fold c := by
  by_cases hs : c = '\u017f'
  · subst hs; decide
  by_cases hk : c = '\u212a'
  · subst hk; decide
  have hf : fold c = lowerAscii c := by simp [fold, hs, hk]
  rw [hf]
  by_cases h : c.toNat < 128
  · exact fold_lowerAscii_of_lt h
  · rw [lowerAscii_of_ge (Nat.le_of_not_lt h), hf, lowerAscii_of_ge (Nat.le_of_not_lt h)]

end QueryBlend.Text
