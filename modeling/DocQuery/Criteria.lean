/-
  Criteria: filters over the fields of a document.

  Every leaf is about one field.  Criteria may be what no query can be made of, groups without
  children or leaves about a blank field; these are faults of rendering and not of the type.
  Functions on trees come in pairs, one for a tree and one for a list of trees, and so do the
  inductions about them.

  1. the tree: leaves name a field, groups hold children;
  2. its parts, the same for every node: kind, subject, operands, children;
  3. counting operands, looking for subjects;
  4. the value to which a filter pins a field.
-/
import DocQuery.Value

namespace DocQuery

/-! ## The tree -/

inductive Comparison where
  | eq | ne | gt | ge | lt | le
deriving DecidableEq, Repr

/-- A filter. -/
inductive Criteria where
  | all
  | compare (op : Comparison) (field : String) (operand : Value)
  | oneOf (field : String) (values : List Value)
  | startsWith (field beginning : String)
  | contains (field part : String)
  | isNull (field : String)
  | isNotNull (field : String)
  | and (children : List Criteria)
  | or (children : List Criteria)
  | not (child : Criteria)
deriving Repr, Inhabited

namespace Criteria

/-- Clauses that must all hold; a single one stands for itself. -/
def ofClauses : List Criteria → Criteria
  | [] => all
  | [c] => c
  | cs => and cs

/-! ## Parts of a node -/

inductive Kind where
  | all | equal | notEqual | greaterThan | greaterThanEqual | lessThan | lessThanEqual
  | oneOf | startsWith | contains | isNull | isNotNull | and | or | not
deriving DecidableEq, Repr

namespace Kind

/-- Name of the kind. -/
def name : Kind → String
  | all => "All"
  | equal => "Equal"
  | notEqual => "NotEqual"
  | greaterThan => "GreaterThan"
  | greaterThanEqual => "GreaterThanEqual"
  | lessThan => "LessThan"
  | lessThanEqual => "LessThanEqual"
  | oneOf => "In"
  | startsWith => "StartsWith"
  | contains => "Contains"
  | isNull => "IsNull"
  | isNotNull => "IsNotNull"
  | and => "And"
  | or => "Or"
  | not => "Not"

def isCombinator : Kind → Bool
  | and | or | not => true
  | _ => false

/-- The comparison of a kind that has an operator between its operands. -/
def comparison? : Kind → Option Comparison
  | equal => some .eq
  | notEqual => some .ne
  | greaterThan => some .gt
  | greaterThanEqual => some .ge
  | lessThan => some .lt
  | lessThanEqual => some .le
  | _ => none

/-- Operands of a node; none where any number will do. -/
def arity? : Kind → Option Nat
  | oneOf => none
  | all | isNull | isNotNull | and | or | not => some 0
  | _ => some 1

end Kind

end Criteria

namespace Comparison

/-- The operator between the operands. -/
def operator : Comparison → String
  | eq => "="
  | ne => "!="
  | gt => ">"
  | ge => ">="
  | lt => "<"
  | le => "<="

def kind : Comparison → Criteria.Kind
  | eq => .equal
  | ne => .notEqual
  | gt => .greaterThan
  | ge => .greaterThanEqual
  | lt => .lessThan
  | le => .lessThanEqual

end Comparison

namespace Criteria

def kind : Criteria → Kind
  | all => .all
  | compare op _ _ => op.kind
  | oneOf _ _ => .oneOf
  | startsWith _ _ => .startsWith
  | contains _ _ => .contains
  | isNull _ => .isNull
  | isNotNull _ => .isNotNull
  | and _ => .and
  | or _ => .or
  | not _ => .not

/-- The field a leaf is about. -/
def subject? : Criteria → Option String
  | compare _ f _ | oneOf f _ | startsWith f _ | contains f _ | isNull f | isNotNull f => some f
  | _ => none

/-- The operands of a leaf. -/
def operands : Criteria → List Value
  | compare _ _ v => [v]
  | oneOf _ vs => vs
  | startsWith _ s | contains _ s => [.text s]
  | _ => []

/-- The children of a group. -/
def children : Criteria → List Criteria
  | and cs | or cs => cs
  | not c => [c]
  | _ => []

/-! ## Whole trees -/

mutual

/-- Operands of all leaves, from left to right. -/
def allOperands : Criteria → List Value
  | and cs => allOperandsList cs
  | or cs => allOperandsList cs
  | not c => c.allOperands
  | compare _ _ v => [v]
  | oneOf _ vs => vs
  | startsWith _ s => [.text s]
  | contains _ s => [.text s]
  | all => []
  | isNull _ => []
  | isNotNull _ => []

/-- Operands of some trees, from left to right. -/
def allOperandsList : List Criteria → List Value
  | [] => []
  | c :: cs => c.allOperands ++ allOperandsList cs

end

/-- The number of operands of all leaves. -/
def operandCount (c : Criteria) : Nat :=
  c.allOperands.length

mutual

/-- Whether a leaf is about `field`. -/
def mentions (field : String) : Criteria → Bool
  | and cs => mentionsList field cs
  | or cs => mentionsList field cs
  | not c => c.mentions field
  | compare _ f _ => f == field
  | oneOf f _ => f == field
  | startsWith f _ => f == field
  | contains f _ => f == field
  | isNull f => f == field
  | isNotNull f => f == field
  | all => false

/-- Whether a leaf of some tree is about `field`. -/
def mentionsList (field : String) : List Criteria → Bool
  | [] => false
  | c :: cs => c.mentions field || mentionsList field cs

end

mutual

/-- The value that every match holds in `field`: an equality with one value, at the root or
below conjunctions only; of several the first. -/
def pinned? (field : String) : Criteria → Option Value
  | and cs => pinnedList? field cs
  | compare .eq f v => if f = field then some v else none
  | oneOf f [v] => if f = field then some v else none
  | _ => none

/-- The first value that one of some trees pins. -/
def pinnedList? (field : String) : List Criteria → Option Value
  | [] => none
  | c :: cs => (c.pinned? field).or (pinnedList? field cs)

end

end Criteria

end DocQuery
