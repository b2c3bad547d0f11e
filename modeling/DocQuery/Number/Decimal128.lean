/-
  Decimal numbers as words of 128 bits.

  From the lowest bit on, a word has 113 bits of coefficient, 14 bits of exponent, counted from
  the smallest one, and the sign.  Exponents that begin with four ones mark what is not finite.
  Many words say the same, and they are different numbers all the same: a NaN or an infinity may
  carry a payload, and a coefficient of more than 34 digits counts as zero.

  1. `datum`: what a word says, and its text;
  2. `encode`: the word of a datum, and `canonical`: the word that the text of a word reads as;
  3. bytes.
-/
import DocQuery.Number.DecimalDatum

namespace DocQuery

/-- A decimal number of 128 bits. -/
structure Decimal128 where
  word : BitVec 128
deriving DecidableEq, Repr, Inhabited

namespace Decimal128

/-- Bits of a coefficient. -/
def coefficientBits : Nat := 113

/-! ## What a word says -/

/-- A finite number whose exponent stands in front of `bits` bits of coefficient. -/
def finiteDatum (negative : Bool) (word bits : Nat) : DecimalDatum :=
  let coefficient := word % Nat.pow 2 bits
  let exponent := word / Nat.pow 2 bits % Nat.pow 2 14
  let wide := bits ≠ coefficientBits ∨ DecimalDatum.coefficientBound ≤ coefficient
  .finite negative (if wide then 0 else coefficient) (exponent + DecimalDatum.minExponent)

/-- What a word says.  Two ones in front of an exponent mark that it stands two bits lower, in
front of a coefficient that is too wide. -/
def datum (d : Decimal128) : DecimalDatum :=
  let word := d.word.toNat
  let negative := word / Nat.pow 2 127 % 2 = 1
  if word / Nat.pow 2 122 % 32 = 31 then .nan negative (word / Nat.pow 2 121 % 2 = 1)
  else if word / Nat.pow 2 123 % 16 = 15 then .infinity negative
  else if word / Nat.pow 2 125 % 4 = 3 then finiteDatum negative word (coefficientBits - 2)
  else finiteDatum negative word coefficientBits

def text (d : Decimal128) : String :=
  d.datum.text

def toBinary64 (d : Decimal128) : Binary64 :=
  d.datum.toBinary64

/-! ## Words of data -/

/-- The word of a datum, without a payload. -/
def encode (d : DecimalDatum) : Decimal128 :=
  let sign (negative : Bool) := if negative then Nat.pow 2 127 else 0
  ⟨BitVec.ofNat 128 (match d with
    | .nan n s => sign n + Nat.pow 2 122 * 31 + (if s then Nat.pow 2 121 else 0)
    | .infinity n => sign n + Nat.pow 2 123 * 15
    | .finite n c e =>
      sign n + Nat.pow 2 coefficientBits * (e - DecimalDatum.minExponent).toNat + c)⟩

/-- Read a number, with an optional sign; words and the exponent mark in either case. -/
def ofText? (s : String) : Option Decimal128 :=
  (DecimalDatum.ofText? s).map encode

/-- The word that the text of a number reads as: payloads are gone, and so are sign and kind of
a NaN. -/
def canonical (d : Decimal128) : Decimal128 :=
  match d.datum with
  | .nan _ _ => encode (.nan false false)
  | x => encode x

/-! ## Bytes -/

/-- The sixteen bytes of a number, the lowest first. -/
def bytes (d : Decimal128) : List UInt8 :=
  (List.range 16).map fun i => UInt8.ofNat (d.word.toNat / Nat.pow 256 i)

/-- The number of sixteen bytes. -/
def ofBytes? (bytes : List UInt8) : Option Decimal128 :=
  if bytes.length = 16 then
    some ⟨BitVec.ofNat 128 (bytes.foldr (fun b n => n * 256 + b.toNat) 0)⟩
  else none

example : (ofText? "1.5").bind (fun d => ofBytes? d.bytes) = ofText? "1.5" := by decide +kernel
example : (ofText? "-12.50").bind (fun d => ofText? d.text) = ofText? "-12.50" := by decide +kernel
example : (ofText? "-sNaN").map canonical = ofText? "NaN" := by decide +kernel

end Decimal128

end DocQuery
