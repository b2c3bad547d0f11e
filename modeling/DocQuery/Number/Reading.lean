/-
  Reading binary64 numbers from text.

  Digits with at most one point and at least one digit, then perhaps an exponent; or one of the
  words for infinity and NaN in any case.  The nearest number is taken.
-/
import DocQuery.Number.Binary64
import DocQuery.Text.Digits

namespace DocQuery.Binary64

/-- Exponents beyond this size leave no finite number but zero. -/
def exponentBound : Nat := 1000000000000000000

/-- The exponent behind its mark. -/
def readExponent (cs : List Char) : Option Int :=
  let (down, ds) := match cs with
    | '+' :: rest => (false, rest)
    | '-' :: rest => (true, rest)
    | _ => (false, cs)
  (Text.readDigits ds).map fun n =>
    let e : Int := min n exponentBound
    if down then -e else e

/-- A number without its sign, digits only. -/
def readMagnitude (negative : Bool) (cs : List Char) : Option Binary64 := do
  let whole := cs.takeWhile Text.isDigit
  let rest := cs.dropWhile Text.isDigit
  let (places, rest) := match rest with
    | '.' :: r => (r.takeWhile Text.isDigit, r.dropWhile Text.isDigit)
    | _ => ([], rest)
  let e ← match rest with
    | [] => some 0
    | c :: r => if c = 'e' ∨ c = 'E' then readExponent r else none
  if (whole ++ places).isEmpty then none
  else some (ofDecimal negative (Text.digitsValue (whole ++ places)) (e - (places.length : Int)))

/-- The number a text denotes. -/
def ofChars? (cs : List Char) : Option Binary64 :=
  let (negative, rest) := match cs with
    | '-' :: r => (true, r)
    | '+' :: r => (false, r)
    | _ => (false, cs)
  let word := rest.map Text.lowerChar
  if word = "inf".toList ∨ word = "infinity".toList then some (infinity negative)
  else if word = "nan".toList then some (nan negative)
  else readMagnitude negative rest

example : ofChars? "-.5e1".toList = some (ofInt (-5)) := by decide +kernel
example : ofChars? ".".toList = none := by decide +kernel

end DocQuery.Binary64
