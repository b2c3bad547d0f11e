/-
  The query of the dialect that a query means.

  Statements are texts, and a store reads them.  This module says without any text which query
  the store must arrive at.

  Both ends of the development refer to it.  The reader of a statement arrives at this query
  (`Reading`), and its meaning is that of the criteria (`Truth`).  Nothing is said here about how
  either is shown; the definitions only fix how a group becomes a chain of two-sided connectives,
  what becomes of a group without children, and which number each operand has.

  1. `Condition.chain`: the children of a group, gathered from the left;
  2. `Criteria.condition`: the condition of some criteria, whose operands are parameters,
     numbered in the order in which they stand;
  3. `Query.select`: projection, condition and order.
-/
import DocQuery.Dialect.Select
import DocQuery.Statement

namespace DocQuery

/-! ## Conditions -/

namespace Dialect

/-- Conditions gathered from the left by a connective.  A single one stands for itself; without
any there is nothing to gather, and `unit` is left. -/
def Condition.chain (join : Condition → Condition → Condition) (unit : Condition) :
    List Condition → Condition
  | [] => unit
  | c :: cs => cs.foldl join c

/-- What conditions hold, gathered like them, is held by the whole. -/
theorem Condition.collect_chain {α : Type} (collect : Condition → List α)
    {join : Condition → Condition → Condition} {unit : Condition}
    (hjoin : ∀ a b, collect (join a b) = collect a ++ collect b) (hunit : collect unit = [])
    (cs : List Condition) : collect (chain join unit cs) = cs.flatMap collect := by
  have hfold : ∀ (cs : List Condition) (a : Condition),
      collect (cs.foldl join a) = collect a ++ cs.flatMap collect := by
    intro cs
    induction cs with
    | nil => exact fun a => (List.append_nil _).symm
    | cons c cs ih =>
      intro a
      rw [List.foldl_cons, ih, hjoin, List.append_assoc, List.flatMap_cons]
  cases cs with
  | nil => exact hunit
  | cons c cs => exact hfold cs c

/-- A truth value as a condition. -/
def Condition.constant (b : Bool) : Condition :=
  .operand (.literal (.bool b))

/-- The field at a path with dots between its segments. -/
def Operand.field (path : String) : Operand :=
  .path (segments path)

/-- The parameter with a number. -/
def Operand.numbered (n : Nat) : Operand :=
  .parameter (Statement.parameterName n)

end Dialect

namespace Criteria

open Dialect (Condition Operand)

mutual

/-- The condition that some criteria mean, where their first operand has the number `next`. -/
def condition (next : Nat) : Criteria → Condition
  | all => .constant true
  | compare op f _ => .compare (.field f) op (.numbered next)
  | oneOf f vs => .oneOf (.field f) ((List.range' next vs.length).map Operand.numbered)
  | startsWith f _ => .call .startsWith [.field f, .numbered next]
  | contains f _ => .call .contains [.field f, .numbered next]
  | isNull f => .call .isNull [.field f]
  | isNotNull f => .not (.call .isNull [.field f])
  | and cs => .chain .and (.constant true) (conditions next cs)
  | or cs => .chain .or (.constant false) (conditions next cs)
  | not c => .not (c.condition next)

/-- The conditions of some criteria; the numbers of their operands go on from one to the next. -/
def conditions (next : Nat) : List Criteria → List Condition
  | [] => []
  | c :: cs => c.condition next :: conditions (next + c.operandCount) cs

end

end Criteria

/-! ## Queries -/

open Dialect (Condition Projection Select)

/-- What is delivered in a shape. -/
def Statement.Shape.projection : Statement.Shape → Projection
  | find => .all
  | count => .count Statement.countAlias

/-- A sort key as an entry of the order. -/
def SortKey.entry (k : SortKey) : List String × Direction :=
  (segments k.field, k.direction)

/-- The condition of a whole query; none where every record is wanted. -/
def Criteria.rootCondition : Criteria → Option Condition
  | all => none
  | c => some (c.condition 0)

/-- Criteria that do not take every record are the condition of their query. -/
theorem rootCondition_of_ne_all {c : Criteria} (h : c ≠ .all) :
    c.rootCondition = some (c.condition 0) := by
  cases c <;> first | exact absurd rfl h | rfl

/-- The query of the dialect that a query means.  A number of records has no order. -/
def Query.select (q : Query) (shape : Statement.Shape) : Select where
  projection := shape.projection
  condition := q.criteria.rootCondition
  order := match shape with
    | .find => q.effectiveSort.map SortKey.entry
    | .count => []

end DocQuery
