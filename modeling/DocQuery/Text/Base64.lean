/-
  Base64 with the standard alphabet.

  Text comes in groups of four digits.  The last group is filled up with equality signs, and the
  bits that it has to spare are zero, in what is written and in what is read.
-/
import DocQuery.Text.Digits

namespace DocQuery.Text.Base64

/-- The digit of a number below sixty-four. -/
def digit (n : Nat) : Char :=
  if n < 26 then Char.ofNat (65 + n)
  else if n < 52 then Char.ofNat (71 + n)
  else if n < 62 then Char.ofNat (n - 4)
  else if n = 62 then '+' else '/'

/-- The number of a digit. -/
def value (c : Char) : Option Nat :=
  if 'A' ≤ c ∧ c ≤ 'Z' then some (c.toNat - 65)
  else if 'a' ≤ c ∧ c ≤ 'z' then some (c.toNat - 71)
  else if isDigit c then some (c.toNat + 4)
  else if c = '+' then some 62
  else if c = '/' then some 63
  else none

/-- Four digits for every three bytes, the last group padded. -/
def encode : List UInt8 → List Char
  | [] => []
  | [a] =>
    let n := a.toNat * 16
    [digit (n / 64), digit (n % 64), '=', '=']
  | [a, b] =>
    let n := (a.toNat * 256 + b.toNat) * 4
    [digit (n / 4096), digit (n / 64 % 64), digit (n % 64), '=']
  | a :: b :: c :: rest =>
    let n := (a.toNat * 256 + b.toNat) * 256 + c.toNat
    digit (n / 262144) :: digit (n / 4096 % 64) :: digit (n / 64 % 64) :: digit (n % 64)
      :: encode rest

/-- Base64 text of some bytes. -/
def text (bytes : List UInt8) : String :=
  String.ofList (encode bytes)

/-- The byte of a group that begins with two digits and is filled up. -/
def oneByte (a b : Nat) : Option (List UInt8) :=
  if b % 16 = 0 then some [UInt8.ofNat (a * 4 + b / 16)] else none

/-- The bytes of a group that begins with three digits and is filled up. -/
def twoBytes (a b c : Nat) : Option (List UInt8) :=
  if c % 4 = 0 then some [UInt8.ofNat (a * 4 + b / 16), UInt8.ofNat (b % 16 * 16 + c / 4)]
  else none

/-- Bytes of base64 text. -/
def decode : List Char → Option (List UInt8)
  | [] => some []
  | [a, b, '=', '='] => do oneByte (← value a) (← value b)
  | [a, b, c, '='] => do twoBytes (← value a) (← value b) (← value c)
  | a :: b :: c :: d :: rest => do
    let n := ((← value a) * 64 + (← value b)) * 64 + (← value c)
    let low ← value d
    let n := n * 64 + low
    let bytes ← decode rest
    some (UInt8.ofNat (n / 65536) :: UInt8.ofNat (n / 256 % 256) :: UInt8.ofNat (n % 256) :: bytes)
  | _ => none

example : text [1, 2, 3] = "AQID" ∧ decode "AQI=".toList = some [1, 2] := by decide
example : decode "AQI".toList = none ∧ decode "AQJ=".toList = none := by decide

end DocQuery.Text.Base64
