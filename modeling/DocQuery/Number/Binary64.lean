/-
  IEEE 754 binary64 numbers, by their bits.

  A number is its 64-bit word; every operation decodes words to exact fractions, works on those
  and rounds once.  So the order, the rounding and the arithmetic are plain facts about `Nat`
  and `Int`.

  1. the word: sign, magnitude, NaN and infinity;
  2. the value of a finite word as a fraction of two naturals;
  3. rounding a fraction to the nearest word, ties to the even one;
  4. the two orders: by value (none for NaN), and total by word;
  5. arithmetic, and conversions from integers and decimals.
-/
namespace DocQuery

/-- A binary64 number. -/
structure Binary64 where
  /-- sign, eleven exponent bits, fifty-two fraction bits -/
  bits : UInt64
deriving DecidableEq, Repr, Inhabited

namespace Binary64

/-! ## The word -/

/-- Weight of the sign bit. -/
def signWeight : Nat := Nat.pow 2 63

/-- Weight of the lowest exponent bit. -/
def exponentWeight : Nat := Nat.pow 2 52

/-- Magnitude of the infinities; every larger magnitude is a NaN. -/
def infinityMagnitude : Nat := 2047 * exponentWeight

/-- The word without its sign. -/
def magnitude (x : Binary64) : Nat :=
  x.bits.toNat % signWeight

/-- The sign bit. -/
def negative (x : Binary64) : Bool :=
  signWeight ≤ x.bits.toNat

/-- The word with the given sign and magnitude. -/
def ofMagnitude (negative : Bool) (m : Nat) : Binary64 :=
  ⟨UInt64.ofNat ((if negative then signWeight else 0) + m)⟩

def zero (negative : Bool) : Binary64 := ofMagnitude negative 0
def infinity (negative : Bool) : Binary64 := ofMagnitude negative infinityMagnitude
def nan (negative : Bool) : Binary64 :=
  ofMagnitude negative (infinityMagnitude + exponentWeight / 2)

def isNaN (x : Binary64) : Bool := infinityMagnitude < x.magnitude
def isInfinite (x : Binary64) : Bool := x.magnitude == infinityMagnitude
def isFinite (x : Binary64) : Bool := x.magnitude < infinityMagnitude
def isZero (x : Binary64) : Bool := x.magnitude == 0

/-! ## Values -/

/-- A finite magnitude is `significand * 2 ^ (exponent - 1074)`. -/
def significand (x : Binary64) : Nat :=
  let e := x.magnitude / exponentWeight
  let f := x.magnitude % exponentWeight
  if e = 0 then f else exponentWeight + f

/-- The exponent counted from the smallest one. -/
def exponent (x : Binary64) : Nat :=
  x.magnitude / exponentWeight - 1

/-- The magnitude of a finite number as a fraction. -/
def fraction (x : Binary64) : Nat × Nat :=
  if 1074 ≤ x.exponent then (x.significand * Nat.pow 2 (x.exponent - 1074), 1)
  else (x.significand, Nat.pow 2 (1074 - x.exponent))

/-! ## Rounding -/

/-- Nearest natural number to `num / den`; a half goes to the even neighbour. -/
def roundDiv (num den : Nat) : Nat :=
  let q := num / den
  let r := num % den
  if 2 * r < den then q
  else if den < 2 * r then q + 1
  else if q % 2 = 0 then q else q + 1

/-- `num / den * 2 ^ (-e)` as a fraction. -/
def scaleDown (num den : Nat) (e : Int) : Nat × Nat :=
  match e with
  | .ofNat n => (num, den * Nat.pow 2 n)
  | .negSucc n => (num * Nat.pow 2 (n + 1), den)

/-- The nearest number to `num / den` with the given sign; beyond the largest, infinity.

With `e` chosen so that the scaled fraction lies in `[2 ^ 52, 2 ^ 53)` (or `e = -1074` for the
small ones), the rounded significand added to the exponent field is the word: a carry out of
the significand runs into the exponent, which is where it belongs. -/
def ofFraction (negative : Bool) (num den : Nat) : Binary64 :=
  if num = 0 then zero negative
  else
    let low : Int := (num.log2 : Int) - (den.log2 : Int) - 53
    let (n, d) := scaleDown num den low
    let e : Int := if 2 * exponentWeight * d ≤ n then low + 1 else low
    let e : Int := if e < -1074 then -1074 else e
    let (n, d) := scaleDown num den e
    let word := roundDiv n d + (e + 1074).toNat * exponentWeight
    ofMagnitude negative (min word infinityMagnitude)

/-! ## Order -/

/-- Signed magnitude: the two zeros share the key zero. -/
def key (x : Binary64) : Int :=
  if x.negative then -(x.magnitude : Int) else x.magnitude

/-- Order by value; a NaN compares with nothing. -/
def compare? (x y : Binary64) : Option Ordering :=
  if x.isNaN || y.isNaN then none else some (compare x.key y.key)

/-- Key of the total order: as `key`, with the negative zero just below the positive one. -/
def totalKey (x : Binary64) : Int :=
  if x.negative then -(x.magnitude : Int) - 1 else x.magnitude

/-- Total order of all words: negative NaNs first, positive NaNs last. -/
def totalCompare (x y : Binary64) : Ordering :=
  compare x.totalKey y.totalKey

/-- Equal as numbers: zeros agree, a NaN equals nothing. -/
def same (x y : Binary64) : Bool :=
  x.compare? y == some .eq

/-! ## Arithmetic -/

/-- The number with the other sign. -/
def neg (x : Binary64) : Binary64 :=
  ofMagnitude (!x.negative) x.magnitude

/-- Rounded product. -/
def mul (x y : Binary64) : Binary64 :=
  let negative := x.negative != y.negative
  if x.isNaN || y.isNaN then nan false
  else if x.isInfinite || y.isInfinite then
    if x.isZero || y.isZero then nan false else infinity negative
  else
    ofFraction negative (x.fraction.1 * y.fraction.1) (x.fraction.2 * y.fraction.2)

/-- Rounded quotient. -/
def div (x y : Binary64) : Binary64 :=
  let negative := x.negative != y.negative
  if x.isNaN || y.isNaN then nan false
  else if x.isInfinite then
    if y.isInfinite then nan false else infinity negative
  else if y.isInfinite then zero negative
  else if y.isZero then
    if x.isZero then nan false else infinity negative
  else
    ofFraction negative (x.fraction.1 * y.fraction.2) (x.fraction.2 * y.fraction.1)

/-- The exact value of a finite number over a given denominator. -/
def signed (x : Binary64) (n : Nat) : Int :=
  if x.negative then -(n : Int) else n

/-- Rounded sum. -/
def add (x y : Binary64) : Binary64 :=
  if x.isNaN || y.isNaN then nan false
  else if x.isInfinite then
    if y.isInfinite && x.negative != y.negative then nan false else x
  else if y.isInfinite then y
  else
    let num := x.signed (x.fraction.1 * y.fraction.2) + y.signed (y.fraction.1 * x.fraction.2)
    if num = 0 then zero (x.negative && y.negative)
    else ofFraction (num < 0) num.natAbs (x.fraction.2 * y.fraction.2)

/-! ## Conversions -/

/-- Nearest number to a natural number. -/
def ofNat (n : Nat) : Binary64 :=
  ofFraction false n 1

/-- Nearest number to an integer. -/
def ofInt (n : Int) : Binary64 :=
  ofFraction (n < 0) n.natAbs 1

/-- Nearest number to `coefficient * 10 ^ e`.  The early exits keep the powers small: above
`10 ^ 400` everything is infinite, below `10 ^ -400` everything is zero. -/
def ofDecimal (negative : Bool) (coefficient : Nat) (e : Int) : Binary64 :=
  if coefficient = 0 then zero negative
  else if 400 < e then infinity negative
  else if e < -(400 + (coefficient.log2 : Int)) then zero negative
  else
    match e with
    | .ofNat n => ofFraction negative (coefficient * Nat.pow 10 n) 1
    | .negSucc n => ofFraction negative coefficient (Nat.pow 10 (n + 1))

example : ofDecimal false 1 (-1) = ⟨0x3fb999999999999a⟩ := by decide +kernel
example : ofDecimal false 5 (-324) = ⟨1⟩ := by decide +kernel
example : ofInt (-9007199254740993) = ⟨0xc340000000000000⟩ := by decide +kernel

end Binary64

end DocQuery
