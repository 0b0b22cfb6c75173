import QueryBlend.Json.Token
/-!
# What a JSON number amounts to

A number without fraction and exponent is an integer if 64 bits hold it, with a sign bit if it is
negative; every other number is a binary fraction of 64 bits. A binary fraction is written with the
fewest digits that read back as itself: with a point and without an exponent if the point is near its
digits, and otherwise with a signed exponent.

Results:
* `takeDigits_le`: the digits taken into a significand keep it within 64 bits.
-/
namespace QueryBlend.Json
open Text

inductive Magnitude where
  | integer (n : Int)
  | fraction (f : Float)
  /-- Larger than every binary fraction. -/
  | tooLarge

/-! ## Reading -/

def digitValue (c : Char) : Nat := c.toNat - 48

def twoTo (n : Nat) : Nat := Nat.pow 2 n

def tenTo (n : Nat) : Nat := Nat.pow 10 n

def maxWord : Nat := twoTo 64 - 1

/-- A significand with further digits behind it, as long as 64 bits hold it, and the digits left. -/
def takeDigits (significand : Nat) : List Char → Nat × List Char
  | [] => (significand, [])
  | d :: ds =>
    if significand * 10 + digitValue d ≤ maxWord then takeDigits (significand * 10 + digitValue d) ds
    else (significand, d :: ds)

def powerOfTen (n : Nat) : Float := Float.ofScientific 1 false n

/-- A binary fraction divided by a power of ten, of which 10³⁰⁸ is the largest there is. -/
def divideByPower (f : Float) (n : Nat) : Float :=
  if h : n ≤ 308 then f / powerOfTen n
  else if f == 0 then f
  else divideByPower (f / powerOfTen 308) (n - 308)
termination_by n
decreasing_by omega

/-- A significand times a power of ten. -/
def scaled (negative : Bool) (significand : Nat) (exponent : Int) : Magnitude :=
  let f := (UInt64.ofNat significand).toFloat
  let signed := fun (f : Float) => if negative then -f else f
  if exponent < 0 then .fraction (signed (divideByPower f exponent.natAbs))
  else if exponent ≤ 308 then
    let g := f * powerOfTen exponent.natAbs
    if g.isInf then .tooLarge else .fraction (signed g)
  else if f == 0 then .fraction (signed f)
  else .tooLarge

/-- The largest exponent that is counted with. -/
def maxExponent : Nat := twoTo 31 - 1

namespace Number

/-- An integer, if it is within 64 bits; a negative one has to be within 63 and not be zero. -/
def integerOf (negative : Bool) (n : Nat) : Magnitude :=
  if !negative then .integer n
  else if 0 < n ∧ n ≤ twoTo 63 then .integer (-n)
  else .fraction (-(UInt64.ofNat n).toFloat)

def magnitude (n : Number) : Magnitude :=
  let (significand, left) := takeDigits 0 n.whole
  match n.fraction, n.exponent with
  | none, none =>
    if left.isEmpty then integerOf n.negative significand
    else scaled n.negative significand left.length
  | fraction, exponent =>
    let digits := fraction.getD []
    let (significand, left') := takeDigits significand digits
    let point : Int := (left.length : Int) - (digits.length - left'.length : Nat)
    match exponent with
    | none => scaled n.negative significand point
    | some (negative, ds) =>
      let e := digitsValue 10 ds
      if maxExponent < e then
        if significand ≠ 0 ∧ !negative then .tooLarge
        else .fraction (if n.negative then -0.0 else 0.0)
      else scaled n.negative significand (if negative then point - e else point + e)

end Number

/-! ## Writing -/

/-- A positive decimal: digits and the power of ten of the last one. -/
structure Decimal where
  digits : Nat
  exponent : Int
  deriving DecidableEq, Repr

/-- The values that read back as one binary fraction: from `low` to `high`, around `value`, in parts of
`unit`; the ends belong to them if `closed`. -/
structure Neighbourhood where
  low : Nat
  value : Nat
  high : Nat
  unit : Nat
  closed : Bool

/-- The neighbourhood of the binary fraction `m · 2^q`; below a power of two the fractions lie closer
together. -/
def neighbourhood (m : Nat) (q : Int) (atPower : Bool) : Neighbourhood :=
  let up := twoTo (q - 2).toNat
  { low := (4 * m - (if atPower then 1 else 2)) * up
    value := 4 * m * up
    high := (4 * m + 2) * up
    unit := twoTo (2 - q).toNat
    closed := m % 2 == 0 }

def tenPower (p : Int) : Nat × Nat := (tenTo p.toNat, tenTo (-p).toNat)

def Neighbourhood.has (n : Neighbourhood) (d : Nat) (p : Int) : Bool :=
  let (up, down) := tenPower p
  let x := d * up * n.unit
  if n.closed then n.low * down ≤ x && x ≤ n.high * down
  else n.low * down < x && x < n.high * down

/-- The power of ten of the first digit of the value. -/
def Neighbourhood.leading (n : Neighbourhood) : Int :=
  if n.unit ≤ n.value then ((Nat.toDigits 10 (n.value / n.unit)).length : Int) - 1
  else match (List.range 400).find? fun k => n.unit ≤ n.value * tenTo k with
    | some k => -(k : Int)
    | none => -400

/-- A decimal of at most `count` digits with a zero at its end taken into the exponent. -/
def Decimal.trimmed (count digits : Nat) (exponent : Int) : Decimal :=
  if digits = tenTo count then ⟨tenTo (count - 1), exponent + 1⟩ else ⟨digits, exponent⟩

/-- A decimal of `count` digits in the neighbourhood: of two the one nearer to the value, and the even
one if they are equally near. -/
def Neighbourhood.withDigits? (n : Neighbourhood) (count : Nat) : Option Decimal :=
  let p := n.leading - count + 1
  let (up, down) := tenPower p
  let d := n.value * down / (n.unit * up)
  match n.has d p, n.has (d + 1) p with
  | true, true =>
    let twice := 2 * n.value * down
    let middle := (2 * d + 1) * up * n.unit
    if twice < middle ∨ (twice = middle ∧ d % 2 = 0) then some ⟨d, p⟩
    else some (.trimmed count (d + 1) p)
  | true, false => some ⟨d, p⟩
  | false, true => some (.trimmed count (d + 1) p)
  | false, false => none

/-- The decimal of the fewest digits in the neighbourhood. -/
def Neighbourhood.shortest (n : Neighbourhood) : Decimal :=
  ((List.range 17).findSome? fun k => n.withDigits? (k + 1)).getD ⟨n.value / n.unit, 0⟩

/-- A decimal without an exponent and with a point. -/
def Decimal.positional (d : Decimal) : List Char :=
  let ds := Nat.toDigits 10 d.digits
  let places := (-d.exponent).toNat
  if places = 0 then ds ++ List.replicate d.exponent.toNat '0' ++ ['.', '0']
  else if places < ds.length then ds.take (ds.length - places) ++ '.' :: ds.drop (ds.length - places)
  else '0' :: '.' :: (List.replicate (places - ds.length) '0' ++ ds)

/-- The place of the point: the number of digits in front of it, or less than one for zeros behind
it. -/
def Decimal.pointPlace (d : Decimal) : Int := (Nat.toDigits 10 d.digits).length + d.exponent

/-- A decimal with one digit in front of the point, no point if there are no more digits, and the power
of ten with its sign. -/
def Decimal.exponential (d : Decimal) : List Char :=
  let ds := Nat.toDigits 10 d.digits
  let power := d.pointPlace - 1
  let point := if ds.length = 1 then [] else ['.']
  let sign := if power < 0 then '-' else '+'
  ds.take 1 ++ point ++ ds.drop 1 ++ 'e' :: sign :: Nat.toDigits 10 power.natAbs

/-- Whether the point of a decimal is near its digits: at most four zeros behind the point, and at most
sixteen digits in front of it. -/
def Decimal.isNear (d : Decimal) : Prop := -5 < d.pointPlace ∧ d.pointPlace ≤ 16

instance (d : Decimal) : Decidable d.isNear := inferInstanceAs (Decidable (_ ∧ _))

def Decimal.text (d : Decimal) : List Char := if d.isNear then d.positional else d.exponential

/-- A binary fraction with the fewest digits that read back as itself. -/
def fractionText (f : Float) : List Char :=
  let bits : Nat := f.toBits.toNat
  let sign := if bits / twoTo 63 = 1 then ['-'] else []
  let e : Nat := bits / twoTo 52 % twoTo 11
  let m : Nat := bits % twoTo 52
  if e = 0 ∧ m = 0 then sign ++ ['0', '.', '0']
  else
    let n := if e = 0 then neighbourhood m (-1074) false
      else neighbourhood (m + twoTo 52) ((e : Int) - 1075) (m == 0 && 1 < e)
    sign ++ n.shortest.text

theorem takeDigits_le (significand : Nat) (ds : List Char) (h : significand ≤ maxWord) :
    (takeDigits significand ds).1 ≤ maxWord := by
  induction ds generalizing significand with
  | nil => exact h
  | cons d ds ih =>
    rw [takeDigits]
    split
    · next h' => exact ih _ h'
    · exact h

end QueryBlend.Json
