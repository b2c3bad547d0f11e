/-
  Select queries: what a text of the dialect means.

  A query asks for all records or for their number, perhaps under a condition and in an order.
  Conditions are made of comparisons, memberships and calls by `NOT`, `AND` and `OR`.
-/
import DocQuery.Dialect.Token
import DocQuery.Value.Order
import DocQuery.Criteria

namespace DocQuery.Dialect

/-- What a comparison compares. -/
inductive Operand where
  /-- the field at a path below the root -/
  | path (segments : List String)
  | parameter (name : String)
  | literal (v : Value)
deriving Repr, Inhabited

inductive Condition where
  /-- an operand that is a truth value -/
  | operand (o : Operand)
  | not (c : Condition)
  | and (a b : Condition)
  | or (a b : Condition)
  | compare (left : Operand) (op : Comparison) (right : Operand)
  | oneOf (target : Operand) (values : List Operand)
  | call (f : Function) (arguments : List Operand)
deriving Repr, Inhabited

/-- What is delivered. -/
inductive Projection where
  /-- the records -/
  | all
  /-- one record that holds their number under a name -/
  | count (name : String)
deriving DecidableEq, Repr

/-- A query of the dialect. -/
structure Select where
  projection : Projection
  condition : Option Condition
  order : List (List String × Direction)
deriving Repr

end DocQuery.Dialect
