import QueryBlend.Text.Basic
/-!
# Dates and times of TOML

A moment is a date, a time of day, or both with perhaps an offset from universal time. The seconds of a
time may be left out, and so may their fraction. Every moment has one form in which it is written: the
date and the time stand around a `T`, seconds are always there, and their fraction has no more than nine
digits and no zero at its end.

Results:
* `padded_length`: a number of no more than the wanted digits is written in just as many.
-/
namespace QueryBlend.Toml
open Text

structure Date where
  year : Nat
  month : Nat
  day : Nat
  deriving DecidableEq, Repr

structure Clock where
  hour : Nat
  minute : Nat
  second : Nat := 0
  nanosecond : Nat := 0
  deriving DecidableEq, Repr

inductive Offset where
  | universal
  /-- Minutes ahead, or behind if negative. -/
  | minutes (n : Int)
  deriving DecidableEq, Repr

inductive Moment where
  | date (d : Date)
  | clock (t : Clock)
  | both (d : Date) (t : Clock) (offset : Option Offset)
  deriving DecidableEq, Repr

/-! ## Reading -/

/-- The number of a fixed count of decimal digits at the front of a text. -/
def fixedNumber (count : Nat) (s : List Char) : Option (Nat × List Char) :=
  let ds := s.take count
  if ds.length = count ∧ ds.all isAsciiDigit then some (digitsValue 10 ds, s.drop count) else none

def daysOfMonth (year month : Nat) : Nat :=
  if month = 2 then if (year % 4 = 0 ∧ year % 100 ≠ 0) ∨ year % 400 = 0 then 29 else 28
  else if month = 4 ∨ month = 6 ∨ month = 9 ∨ month = 11 then 30
  else 31

def readDate (s : List Char) : Option (Date × List Char) := do
  let (year, s) ← fixedNumber 4 s
  let (month, s) ← fixedNumber 2 (← behind? ['-'] s)
  let (day, s) ← fixedNumber 2 (← behind? ['-'] s)
  if 1 ≤ month ∧ month ≤ 12 ∧ 1 ≤ day ∧ day ≤ daysOfMonth year month then
    some (⟨year, month, day⟩, s)
  else none

def readHours (s : List Char) : Option ((Nat × Nat) × List Char) := do
  let (hour, s) ← fixedNumber 2 s
  let (minute, s) ← fixedNumber 2 (← behind? [':'] s)
  if hour ≤ 23 ∧ minute ≤ 59 then some ((hour, minute), s) else none

/-- Nanoseconds of the digits of a fraction; what comes after them is cut off. -/
def nanoseconds (ds : List Char) : Nat :=
  digitsValue 10 (ds.take 9 ++ List.replicate (9 - ds.length) '0')

/-- The fraction of a second at the front of a text, if there is one. -/
def readFraction (s : List Char) : Option (Nat × List Char) :=
  match behind? ['.'] s with
  | none => some (0, s)
  | some rest =>
    if rest.head?.any isAsciiDigit then
      some (nanoseconds (rest.takeWhile isAsciiDigit), rest.dropWhile isAsciiDigit)
    else none

/-- The time of day at the front of a text. The sixtieth second is the one that is put in at times. -/
def readClock (s : List Char) : Option (Clock × List Char) := do
  let ((hour, minute), s) ← readHours s
  match behind? [':'] s with
  | none => some ({ hour, minute }, s)
  | some s => do
    let (second, s) ← fixedNumber 2 s
    let (nanosecond, s) ← readFraction s
    if second ≤ 60 then some (⟨hour, minute, second, nanosecond⟩, s) else none

def offset? : List Char → Option (Option Offset)
  | [] => some none
  | c :: cs =>
    if c = 'Z' ∨ c = 'z' then if cs.isEmpty then some (some .universal) else none
    else if c = '+' ∨ c = '-' then
      match readHours cs with
      | some ((hours, minutes), []) =>
        let n : Nat := hours * 60 + minutes
        some (some (.minutes (if c = '+' then n else -n)))
      | _ => none
    else none

/-- The moment that a text is. -/
def moment? (s : List Char) : Option Moment :=
  match readDate s with
  | none =>
    match readClock s with
    | some (t, []) => some (.clock t)
    | _ => none
  | some (d, []) => some (.date d)
  | some (d, c :: rest) => do
    if c = 'T' ∨ c = 't' ∨ c = ' ' then
      let (t, rest) ← readClock rest
      some (.both d t (← offset? rest))
    else none

/-! ## Writing -/

/-- A number in at least `count` digits. -/
def padded (count n : Nat) : List Char :=
  let ds := Nat.toDigits 10 n
  List.replicate (count - ds.length) '0' ++ ds

def Date.text (d : Date) : List Char :=
  padded 4 d.year ++ '-' :: padded 2 d.month ++ '-' :: padded 2 d.day

/-- A fraction of a second as it is written, without zeros at its end. -/
def fractionText (nanosecond : Nat) : List Char :=
  if nanosecond = 0 then []
  else '.' :: dropEnd (· == '0') (padded 9 nanosecond)

def Clock.text (t : Clock) : List Char :=
  padded 2 t.hour ++ ':' :: padded 2 t.minute ++ ':' :: padded 2 t.second ++
    fractionText t.nanosecond

def Offset.text : Offset → List Char
  | universal => ['Z']
  | minutes n =>
    (if n < 0 then '-' else '+') :: padded 2 (n.natAbs / 60) ++ ':' :: padded 2 (n.natAbs % 60)

def Moment.text : Moment → List Char
  | date d => d.text
  | clock t => t.text
  | both d t offset => d.text ++ 'T' :: t.text ++ (offset.map Offset.text).getD []

theorem padded_length {count n : Nat} (h : (Nat.toDigits 10 n).length ≤ count) :
    (padded count n).length = count := by
  simp only [padded, List.length_append, List.length_replicate]
  omega

end QueryBlend.Toml
