/-
  Values with their decimal numbers in canonical form.

  A decimal number is written as its text.  So what a record holds once it is written is what the
  texts of its decimal numbers read as, on every level; all other values are kept.
-/
import DocQuery.Value

namespace DocQuery

mutual

/-- The value with its decimal numbers in canonical form. -/
def Value.canonical : Value → Value
  | .decimal d => .decimal d.canonical
  | .array xs => .array (canonicalItems xs)
  | .doc fs => .doc (canonicalFields fs)
  | .scopedCode s scope => .scopedCode s (canonicalFields scope)
  | v => v

/-- The items with their decimal numbers in canonical form. -/
def canonicalItems : List Value → List Value
  | [] => []
  | x :: xs => x.canonical :: canonicalItems xs

/-- The fields with their decimal numbers in canonical form. -/
def canonicalFields : List (String × Value) → List (String × Value)
  | [] => []
  | (k, v) :: fs => (k, v.canonical) :: canonicalFields fs

end

/-- The record with its decimal numbers in canonical form. -/
def Document.canonical (d : Document) : Document :=
  canonicalFields d

end DocQuery
