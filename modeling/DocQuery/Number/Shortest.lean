/-
  The shortest decimal that reads back as a given binary64 number.

  A positive finite number `v` stands for every real in an interval around it, the reals that
  round to it.  On the grid of decimals with `n` significant digits only the two neighbours of
  `v` can lie in that interval if anything on the grid does, so for `n = 1, 2, …, 17` those two
  are tested in exact arithmetic.  The first grid with a hit gives the digits; of two hits the
  nearer wins, and a `Tie` says which of two that are equally near.  Seventeen digits always
  suffice.
-/
import DocQuery.Number.Binary64
import DocQuery.Text.Digits

namespace DocQuery

/-- A positive decimal `coefficient * 10 ^ exponent`. -/
structure Decimal where
  coefficient : Nat
  exponent : Int
deriving DecidableEq, Repr

namespace Decimal

/-- Move trailing zeros of the coefficient into the exponent; `fuel` bounds their number. -/
def stripZeros : Nat → Decimal → Decimal
  | 0, d => d
  | fuel + 1, d =>
    if d.coefficient ≠ 0 ∧ d.coefficient % 10 = 0 then
      stripZeros fuel ⟨d.coefficient / 10, d.exponent + 1⟩
    else d

/-- The decimal digits of the coefficient. -/
def digits (d : Decimal) : List Char :=
  Text.natChars d.coefficient

/-- Exponent in scientific notation, with one digit in front of the point. -/
def scientificExponent (d : Decimal) : Int :=
  d.exponent + (d.digits.length : Int) - 1

end Decimal

namespace Binary64

/-- The reals that round to a number, and the number itself, over one denominator. -/
structure Interval where
  low : Nat
  value : Nat
  high : Nat
  den : Nat
  /-- whether the two ends round to the number as well -/
  closed : Bool

/-- The interval of a finite nonzero number.  Below a power of two the neighbours are half as
far away, unless the exponent is already the smallest. -/
def interval (x : Binary64) : Interval :=
  let m := x.significand
  let below := if m = exponentWeight ∧ 0 < x.exponent then 1 else 2
  let (scale, den) :=
    if 1076 ≤ x.exponent then (Nat.pow 2 (x.exponent - 1076), 1)
    else (1, Nat.pow 2 (1076 - x.exponent))
  { low := (4 * m - below) * scale
    value := 4 * m * scale
    high := (4 * m + 2) * scale
    den := den
    closed := m % 2 = 0 }

/-- `coefficient * 10 ^ e` as a fraction. -/
def decimalFraction (coefficient : Nat) (e : Int) : Nat × Nat :=
  match e with
  | .ofNat n => (coefficient * Nat.pow 10 n, 1)
  | .negSucc n => (coefficient, Nat.pow 10 (n + 1))

/-- Whether `coefficient * 10 ^ e` lies in the interval. -/
def Interval.contains (i : Interval) (coefficient : Nat) (e : Int) : Bool :=
  let (n, d) := decimalFraction coefficient e
  if i.closed then i.low * d ≤ n * i.den && n * i.den ≤ i.high * d
  else i.low * d < n * i.den && n * i.den < i.high * d

/-- The number of digits in front of the decimal point of `num / den`, or minus the number of
zeros behind it. -/
def decimalPoint (num den : Nat) : Int :=
  if den ≤ num then (Text.natChars (num / den)).length
  else 1 - (leading 400 1 (num * 10) : Int)
where
  /-- The least `k` with `den ≤ num * 10 ^ k`, searched from `k` on. -/
  leading : Nat → Nat → Nat → Nat
    | 0, k, _ => k
    | fuel + 1, k, scaled => if den ≤ scaled then k else leading fuel (k + 1) (scaled * 10)

/-- Which of two decimals that are equally near a number stands for it. -/
inductive Tie where
  /-- the one with an even last digit -/
  | even
  /-- the greater one -/
  | greater
deriving DecidableEq, Repr

/-- The hit on the grid of unit `10 ^ e`, if there is one. -/
def Interval.hit? (i : Interval) (tie : Tie) (e : Int) : Option Nat :=
  let (un, ud) := decimalFraction 1 e
  let c := i.value * ud / (i.den * un)
  match i.contains c e, i.contains (c + 1) e with
  | false, false => none
  | true, false => some c
  | false, true => some (c + 1)
  | true, true =>
    let twice := 2 * i.value * ud
    let middle := (2 * c + 1) * un * i.den
    if twice < middle then some c
    else if middle < twice then some (c + 1)
    else if tie = .even ∧ c % 2 = 0 then some c else some (c + 1)

/-- Search the grids with `n` and more digits. -/
def Interval.search (i : Interval) (tie : Tie) (point : Int) : Nat → Nat → Decimal
  | 0, n => ⟨i.value / i.den, n⟩
  | fuel + 1, n =>
    match i.hit? tie (point - n) with
    | some c => ⟨c, point - n⟩
    | none => i.search tie point fuel (n + 1)

/-- The shortest decimal that rounds to the magnitude of a finite nonzero number. -/
def shortest (tie : Tie) (x : Binary64) : Decimal :=
  let i := x.interval
  ((i.search tie (decimalPoint i.value i.den) 17 1)).stripZeros 20

example : (ofDecimal false 3 (-1)).shortest .even = ⟨3, -1⟩ := by decide +kernel
example : (⟨1⟩ : Binary64).shortest .even = ⟨5, -324⟩ := by decide +kernel

end Binary64

end DocQuery
