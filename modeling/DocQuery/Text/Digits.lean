/-
  Numerals in text.

  1. `ofNat`, `ofInt`: decimal digits of a number, most significant first;
  2. `readNat`, `readInt`: the inverse, with an optional sign and nothing else around it;
  3. hexadecimal digits and bytes.
-/
import DocQuery.Text.Blank

namespace DocQuery.Text

/-! ## Decimal -/

/-- The character of a digit below sixteen, in lower case. -/
def digitChar (n : Nat) : Char :=
  if n < 10 then Char.ofNat (48 + n) else Char.ofNat (87 + n)

/-- The value of a decimal digit. -/
def digitValue (c : Char) : Nat :=
  c.toNat - 48

/-- Digits of `n` in front of `acc`; `fuel` bounds their number. -/
def digitsInto (base : Nat) : Nat → Nat → List Char → List Char
  | 0, _, acc => acc
  | fuel + 1, n, acc =>
    let acc := digitChar (n % base) :: acc
    if n / base = 0 then acc else digitsInto base fuel (n / base) acc

/-- Decimal digits of `n`, most significant first; a single zero for zero. -/
def natChars (n : Nat) : List Char :=
  digitsInto 10 (n.log2 + 1) n []

/-- Decimal text of `n`. -/
def ofNat (n : Nat) : String :=
  String.ofList (natChars n)

/-- Decimal text of `n`, with a minus sign when negative. -/
def ofInt (n : Int) : String :=
  if n < 0 then "-" ++ ofNat n.natAbs else ofNat n.natAbs

/-- Decimal text of `n`, filled up with zeros on the left to at least `width` digits. -/
def padNat (width n : Nat) : String :=
  let ds := natChars n
  String.ofList (List.replicate (width - ds.length) '0' ++ ds)

/-- The number that a list of decimal digits denotes. -/
def digitsValue (cs : List Char) : Nat :=
  cs.foldl (fun n c => n * 10 + digitValue c) 0

/-- One or more decimal digits and nothing else. -/
def readDigits (cs : List Char) : Option Nat :=
  if !cs.isEmpty && cs.all isDigit then some (digitsValue cs) else none

/-- Decimal digits after an optional plus sign, at most `limit`. -/
def readNat (limit : Nat) (cs : List Char) : Option Nat := do
  let n ← match cs with
    | '+' :: rest => readDigits rest
    | _ => readDigits cs
  if n ≤ limit then some n else none

/-- Why a text is no integer of the range asked for. -/
inductive IntFault where
  | noDigits | aboveRange | belowRange
deriving DecidableEq, Repr

/-- Decimal digits after an optional sign, between `low` and `high`. -/
def readInt (low high : Int) (cs : List Char) : Except IntFault Int :=
  let (negative, ds) := match cs with
    | '-' :: rest => (true, rest)
    | '+' :: rest => (false, rest)
    | _ => (false, cs)
  match readDigits ds with
  | none => .error .noDigits
  | some n =>
    let v : Int := if negative then -(n : Int) else n
    if high < v then .error .aboveRange
    else if v < low then .error .belowRange
    else .ok v

/-! ## Hexadecimal -/

/-- The value of a hexadecimal digit of either case. -/
def hexValue (c : Char) : Option Nat :=
  if isDigit c then some (c.toNat - 48)
  else if 'a' ≤ c ∧ c ≤ 'f' then some (c.toNat - 87)
  else if 'A' ≤ c ∧ c ≤ 'F' then some (c.toNat - 55)
  else none

/-- Hexadecimal digits of `n`, lower case, most significant first. -/
def hexChars (n : Nat) : List Char :=
  digitsInto 16 (n.log2 + 1) n []

/-- Two hexadecimal digits for each byte. -/
def hexOfBytes (bytes : List UInt8) : String :=
  String.ofList (bytes.flatMap fun b => [digitChar (b.toNat / 16), digitChar (b.toNat % 16)])

/-- Read bytes from pairs of hexadecimal digits. -/
def bytesOfHex : List Char → Option (List UInt8)
  | [] => some []
  | [_] => none
  | h :: l :: rest => do
    let high ← hexValue h
    let low ← hexValue l
    let bytes ← bytesOfHex rest
    some (UInt8.ofNat (high * 16 + low) :: bytes)

example : ofInt (-120) = "-120" ∧ ofNat 0 = "0" := by decide
example : (readInt (-128) 127 "+7".toList).toOption = some 7 := by decide

end DocQuery.Text
