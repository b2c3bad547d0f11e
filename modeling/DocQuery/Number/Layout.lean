/-
  Written forms of binary64 numbers.

  All of them print the shortest decimal that reads back; they differ in where positional
  notation ends, in whether an integral number keeps a `.0`, in the exponent's sign, and in which
  of two equally near decimals they print.  A `Layout` record says which.
-/
import DocQuery.Number.Shortest

namespace DocQuery.Binary64

/-- How a finite number is laid out. -/
structure Layout where
  /-- scientific exponents from `least` to `greatest` are written positionally; `none` for all -/
  positional : Option (Int × Int)
  /-- an integral number ends in `.0` -/
  pointZero : Bool
  /-- a positive exponent carries a plus sign -/
  plusSign : Bool
  /-- which of two equally near decimals is printed -/
  tie : Tie

/-- Plain text: always positional, integers without a point. -/
def Layout.plain : Layout := ⟨none, false, false, .greater⟩

/-- JSON: positional from `1e-5` up to `1e16`, integers with `.0`. -/
def Layout.json : Layout := ⟨some (-5, 15), true, true, .even⟩

/-- Structural text: positional from `1e-4` up to `1e16`, integers with `.0`. -/
def Layout.structural : Layout := ⟨some (-4, 15), true, false, .greater⟩

/-- Digits with the point after the first `point` of them (`point` may lie outside). -/
def layPositional (ds : List Char) (point : Int) (pointZero : Bool) : List Char :=
  match point with
  | .negSucc n => '0' :: '.' :: (List.replicate (n + 1) '0' ++ ds)
  | .ofNat 0 => '0' :: '.' :: ds
  | .ofNat n =>
    if ds.length ≤ n then
      ds ++ List.replicate (n - ds.length) '0' ++ (if pointZero then ['.', '0'] else [])
    else ds.take n ++ '.' :: ds.drop n

/-- One digit, the others behind a point, and the exponent. -/
def layScientific (ds : List Char) (e : Int) (plusSign : Bool) : List Char :=
  let head := match ds with
    | [] => []
    | [d] => [d]
    | d :: rest => d :: '.' :: rest
  let sign := if plusSign && 0 ≤ e then ['+'] else []
  head ++ 'e' :: (sign ++ (Text.ofInt e).toList)

/-- The magnitude of a finite number. -/
def layMagnitude (n : Layout) (x : Binary64) : List Char :=
  if x.isZero then (if n.pointZero then ['0', '.', '0'] else ['0'])
  else
    let d := x.shortest n.tie
    let e := d.scientificExponent
    let positional := match n.positional with
      | none => true
      | some (least, greatest) => least ≤ e && e ≤ greatest
    if positional then layPositional d.digits (e + 1) n.pointZero
    else layScientific d.digits e n.plusSign

/-- A number in the given layout; `NaN` bears no sign, an infinity is `inf`. -/
def write (n : Layout) (x : Binary64) : String :=
  if x.isNaN then "NaN"
  else
    let sign := if x.negative then "-" else ""
    if x.isInfinite then sign ++ "inf"
    else sign ++ String.ofList (layMagnitude n x)

example : write .plain (ofInt (-120)) = "-120" := by decide +kernel
example : write .json (ofDecimal false 15 20) = "1.5e+21" := by decide +kernel
example : write .structural (ofInt 2) = "2.0" := by decide +kernel
example : write .plain ⟨0x4300000000000002⟩ = "562949953421312.3" := by decide +kernel
example : write .json ⟨0x4300000000000002⟩ = "562949953421312.2" := by decide +kernel

end DocQuery.Binary64
