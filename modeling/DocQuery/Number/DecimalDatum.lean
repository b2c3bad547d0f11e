/-
  Decimal data of 34 digits.

  A datum is kept as written: `1.0` and `1.00` differ, and so do the many zeros.  Reading
  never rounds away a digit other than zero.

  1. the type and its text;
  2. reading;
  3. conversion to binary64.
-/
import DocQuery.Number.Binary64
import DocQuery.Text.Digits

namespace DocQuery

/-- What a decimal number of up to 34 digits says. -/
inductive DecimalDatum where
  | nan (negative signaling : Bool)
  | infinity (negative : Bool)
  /-- `coefficient * 10 ^ exponent`, negated if `negative` -/
  | finite (negative : Bool) (coefficient : Nat) (exponent : Int)
deriving DecidableEq, Repr, Inhabited

namespace DecimalDatum

/-- Digits a coefficient may have. -/
def maxDigits : Nat := 34

/-- First coefficient with too many digits. -/
def coefficientBound : Nat := Nat.pow 10 maxDigits

/-- Smallest exponent of a coefficient. -/
def minExponent : Int := -6176

/-- Largest exponent of a coefficient. -/
def maxExponent : Int := 6111

/-! ## Text -/

/-- Text of a finite magnitude: positional unless the exponent is positive or the number is
below `1e-6`. -/
def magnitudeText (coefficient : Nat) (exponent : Int) : List Char :=
  let ds := Text.natChars coefficient
  let scientific := exponent + (ds.length : Int) - 1
  if exponent ≤ 0 ∧ -6 ≤ scientific then
    if exponent = 0 then ds
    else
      let places := exponent.natAbs
      if ds.length ≤ places then
        '0' :: '.' :: (List.replicate (places - ds.length) '0' ++ ds)
      else ds.take (ds.length - places) ++ '.' :: ds.drop (ds.length - places)
  else
    let tail := if ds.length ≤ 1 then [] else '.' :: ds.drop 1
    let sign := if 0 < scientific then ['+'] else []
    ds.take 1 ++ tail ++ 'E' :: (sign ++ (Text.ofInt scientific).toList)

/-- Text of a number; a NaN shows neither sign nor kind. -/
def text : DecimalDatum → String
  | nan _ _ => "NaN"
  | infinity n => (if n then "-" else "") ++ "Infinity"
  | finite n c e => (if n then "-" else "") ++ String.ofList (magnitudeText c e)

/-! ## Reading -/

/-- Keep the first `n` characters if all that follows is zeros. -/
def dropZeros (n : Nat) (cs : List Char) : Option (List Char) :=
  if n ≤ cs.length ∧ (cs.drop n).all (· == '0') then some (cs.take n) else none

/-- An exponent of sixteen bits. -/
def inRange (e : Int) : Option Int :=
  if -32768 ≤ e ∧ e ≤ 32767 then some e else none

/-- Bring digits and exponent into range without losing a digit other than zero. -/
def fit (negative : Bool) (digits : List Char) (e : Int) : Option DecimalDatum := do
  let digits := match digits.dropWhile (· == '0') with
    | [] => ['0']
    | ds => ds
  let (digits, e) ←
    if digits.length ≤ maxDigits then some (digits, e)
    else do
      let kept ← dropZeros maxDigits digits
      let e ← inRange (e + ((digits.length - maxDigits : Nat) : Int))
      some (kept, e)
  let (digits, e) ←
    if minExponent ≤ e then some (digits, e)
    else if digits = ['0'] then some (digits, minExponent)
    else do
      let excess := (minExponent - e).toNat
      if digits.length < excess then none
      else do
        let kept ← dropZeros (digits.length - excess) digits
        some (kept, minExponent)
  let (digits, e) ←
    if e ≤ maxExponent then some (digits, e)
    else if digits = ['0'] then some (digits, maxExponent)
    else
      let missing := (e - maxExponent).toNat
      if maxDigits < digits.length + missing then none
      else some (digits ++ List.replicate missing '0', maxExponent)
  let coefficient ← Text.readNat coefficientBound digits
  some (finite negative coefficient e)

/-- Read a finite magnitude: digits with at most one point, then perhaps an exponent. -/
def readFinite (negative : Bool) (cs : List Char) : Option DecimalDatum := do
  let mantissa := cs.takeWhile (· ≠ 'e')
  let exponent ←
    match cs.dropWhile (· ≠ 'e') with
    | [] => some 0
    | _ :: e => (Text.readInt (-32768) 32767 e).toOption
  let whole := mantissa.takeWhile (· ≠ '.')
  match mantissa.dropWhile (· ≠ '.') with
  | [] => fit negative whole exponent
  | _ :: places => do
    if 32767 < places.length then none
    else do
      let e ← inRange (exponent - (places.length : Int))
      fit negative (whole ++ places) e

/-- Read a number, with an optional sign; words and the exponent mark in either case. -/
def ofText? (s : String) : Option DecimalDatum :=
  let (negative, rest) := match s.toList with
    | '-' :: r => (true, r)
    | '+' :: r => (false, r)
    | cs => (false, cs)
  let cs := rest.map Text.lowerChar
  if cs = "nan".toList then some (nan negative false)
  else if cs = "snan".toList then some (nan negative true)
  else if cs = "infinity".toList ∨ cs = "inf".toList then some (infinity negative)
  else readFinite negative cs

/-! ## Conversion -/

/-- The nearest binary64 number; a NaN loses its sign. -/
def toBinary64 : DecimalDatum → Binary64
  | nan _ _ => Binary64.nan false
  | infinity n => Binary64.infinity n
  | finite n c e => Binary64.ofDecimal n c e

example : (ofText? "-12.50").map text = some "-12.50" := by decide +kernel
example : (ofText? "1e3").map text = some "1E+3" := by decide +kernel

end DecimalDatum

end DocQuery
