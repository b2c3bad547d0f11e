/-
  Comparing values.

  Two integers compare exactly and any other two numbers after rounding, which does not fit
  together: `2 ^ 53` and `2 ^ 53 + 1` differ, but both equal the double `2 ^ 53`.  So neither
  equality nor order is transitive on numbers of several types, and what needs a total order to
  sort by says so.

  1. numbers: two integers compare exactly, anything else as binary64;
  2. `Value.equals`: equality that widens numbers at the top;
  3. `Value.order`: the order of sorted results, by value within numbers, texts and truth
     values, by rank of the type otherwise;
  4. `Document.order`: lexicographic by sort keys, a missing value before any present one;
  5. stable sorting, and when it is what a library does.
-/
import DocQuery.Value

namespace DocQuery

/-! ## Numbers -/

namespace Value

def isNumber : Value → Bool
  | int32 _ | int64 _ | double _ | decimal _ => true
  | _ => false

/-- The exact value of an integer. -/
def int? : Value → Option Int
  | int32 n => some n.toInt
  | int64 n => some n.toInt
  | _ => none

/-- The nearest binary64 number; NaN for what is no number. -/
def toBinary64 : Value → Binary64
  | int32 n => Binary64.ofInt n.toInt
  | int64 n => Binary64.ofInt n.toInt
  | double x => x
  | decimal d => d.toBinary64
  | _ => Binary64.nan false

/-- Order of two numbers by value; none if one of them is NaN. -/
def compareNumbers? (a b : Value) : Option Ordering :=
  match a.int?, b.int? with
  | some m, some n => some (compare m n)
  | _, _ => a.toBinary64.compare? b.toBinary64

/-! ## Equality and order -/

/-- Equality with numeric widening: `5`, `5.0` and a wide `5` are equal, but only at the top. -/
def equals (a b : Value) : Bool :=
  if a.isNumber && b.isNumber then a.compareNumbers? b == some .eq
  else a.same b

/-- Whether `<` and its kin are defined on two values. -/
def comparable : Value → Value → Bool
  | text _, text _ => true
  | bool _, bool _ => true
  | a, b => a.isNumber && b.isNumber

/-- Order of the types. -/
def rank : Value → Nat
  | null => 0
  | bool _ => 1
  | int32 _ | int64 _ | double _ | decimal _ => 2
  | text _ => 3
  | array _ => 4
  | doc _ => 5
  | date _ | timestamp _ _ => 6
  | _ => 7

/-- Order of texts by code point. -/
def orderChars : List Char → List Char → Ordering
  | [], [] => .eq
  | [], _ :: _ => .lt
  | _ :: _, [] => .gt
  | a :: as, b :: bs => (compare a.toNat b.toNat).then (orderChars as bs)

/-- Order of truth values: false first. -/
def orderBool (a b : Bool) : Ordering :=
  compare a.toNat b.toNat

/-- The order of sorted results. -/
def order (a b : Value) : Ordering :=
  match a, b with
  | text s, text t => orderChars s.toList t.toList
  | bool x, bool y => orderBool x y
  | a, b =>
    if a.isNumber && b.isNumber then
      (a.compareNumbers? b).getD (a.toBinary64.totalCompare b.toBinary64)
    else compare a.rank b.rank

end Value

/-! ## Sort keys -/

inductive Direction where
  | ascending | descending
deriving DecidableEq, Repr

namespace Direction

/-- Turn an ordering around when descending. -/
def apply : Direction → Ordering → Ordering
  | ascending, o => o
  | descending, o => o.swap

end Direction

/-- A missing value sorts before any present one. -/
def orderMissing : Option Value → Option Value → Ordering
  | none, none => .eq
  | none, some _ => .lt
  | some _, none => .gt
  | some a, some b => a.order b

/-- Lexicographic order by the values at some paths. -/
def Document.order (keys : List (List String × Direction)) (a b : Document) : Ordering :=
  match keys with
  | [] => .eq
  | (path, direction) :: rest =>
    (direction.apply (orderMissing (a.atPath path) (b.atPath path))).then
      (Document.order rest a b)

/-! ## Sorting -/

/-- Put `x` behind the last element of a sorted list, given in reverse, that does not come
strictly after it. -/
def insertReversed {α : Type} (cmp : α → α → Ordering) (x : α) : List α → List α
  | [] => [x]
  | y :: ys => if cmp x y = .lt then y :: insertReversed cmp x ys else x :: y :: ys

/-- Stable insertion sort.

On a list that the comparison orders, which is to say totally preorders, this is what every stable
sort leaves.  On any other a library may leave the elements in another order, or give up.  So what
is said of sorted results is said of lists that are ordered by their sort, or it holds in whatever
order they come, or it compares two results of one sort. -/
def sortBy {α : Type} (cmp : α → α → Ordering) (xs : List α) : List α :=
  (xs.foldl (fun sorted x => insertReversed cmp x sorted) []).reverse

example : sortBy (fun a b : Nat × Nat => compare a.1 b.1) [(2, 0), (1, 1), (2, 2), (1, 3)]
    = [(1, 1), (1, 3), (2, 0), (2, 2)] := by decide

end DocQuery
