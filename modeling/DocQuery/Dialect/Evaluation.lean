/-
  Evaluating conditions on documents.

  A condition is true, false or undefined.  What a document lacks has no value, and a comparison
  with nothing, or of values that have no order, is undefined.  `NOT`, `AND` and `OR` follow
  Kleene: undefined is what may still become either.  A parameter without a value is a fault.

  Both sides of `AND` and `OR` are evaluated, and so are both sides of a comparison, so a
  parameter without a value is a fault even where it could not matter.  Membership is different:
  its values are looked at only if there is something to look for, and only up to the first that
  equals it.
-/
import DocQuery.Dialect.Select

namespace DocQuery.Dialect

/-! ## Three truth values -/

/-- False if either is false, true if both are true. -/
def andThree : Option Bool → Option Bool → Option Bool
  | some false, _ => some false
  | _, some false => some false
  | some true, some true => some true
  | _, _ => none

/-- True if either is true, false if both are false. -/
def orThree : Option Bool → Option Bool → Option Bool
  | some true, _ => some true
  | _, some true => some true
  | some false, some false => some false
  | _, _ => none

/-- The outcome of a comparison.  Equality is always defined, order only between numbers,
between texts and between truth values. -/
def compareThree (op : Comparison) (a b : Value) : Option Bool :=
  match op with
  | .eq => some (a.equals b)
  | .ne => some (!a.equals b)
  | .gt => if a.comparable b then some (a.order b == .gt) else none
  | .ge => if a.comparable b then some (a.order b != .lt) else none
  | .lt => if a.comparable b then some (a.order b == .lt) else none
  | .le => if a.comparable b then some (a.order b != .gt) else none

/-- The outcome of a call.  Only null itself is null, not what is missing. -/
def Function.apply : Function → List (Option Value) → Option Bool
  | isNull, [some .null] => some true
  | isNull, [_] => some false
  | startsWith, [some (.text s), some (.text t)] => some (Text.startsWith s t)
  | contains, [some (.text s), some (.text t)] => some (Text.contains s t)
  | _, _ => none

/-! ## Evaluation -/

/-- A parameter that has no value. -/
structure Unbound where
  name : String
deriving DecidableEq, Repr

def Unbound.message (u : Unbound) : String :=
  "parameter " ++ u.name ++ " is not bound"

/-- What conditions are evaluated on: a document, and the values of the parameters. -/
structure Scope where
  document : Document
  parameter? : String → Option Value

/-- The value of an operand. -/
def Operand.value? (s : Scope) : Operand → Except Unbound (Option Value)
  | .path segments => .ok (s.document.atPath segments)
  | .literal v => .ok (some v)
  | .parameter name =>
    match s.parameter? name with
    | some v => .ok (some v)
    | none => .error ⟨name⟩

/-- Whether a value equals one of some operands; those behind the first match do not matter. -/
def Operand.among (s : Scope) (v : Value) : List Operand → Except Unbound Bool
  | [] => .ok false
  | o :: os => do
    match ← o.value? s with
    | some w => if v.equals w then .ok true else among s v os
    | none => among s v os

/-- The values of some operands. -/
def Operand.values (s : Scope) : List Operand → Except Unbound (List (Option Value))
  | [] => .ok []
  | o :: os => do
    let v ← o.value? s
    let vs ← values s os
    .ok (v :: vs)

/-- Whether a condition holds: true, false or undefined. -/
def Condition.eval (s : Scope) : Condition → Except Unbound (Option Bool)
  | operand o => do
    match ← o.value? s with
    | some (.bool b) => .ok (some b)
    | _ => .ok none
  | not c => do
    let x ← c.eval s
    .ok (x.map (!·))
  | and a b => do
    let x ← a.eval s
    let y ← b.eval s
    .ok (andThree x y)
  | or a b => do
    let x ← a.eval s
    let y ← b.eval s
    .ok (orThree x y)
  | compare left op right => do
    match ← left.value? s with
    | none => do
      let _ ← right.value? s
      .ok none
    | some v => do
      match ← right.value? s with
      | none => .ok none
      | some w => .ok (compareThree op v w)
  | oneOf target values => do
    match ← target.value? s with
    | none => .ok none
    | some v => do
      let found ← Operand.among s v values
      .ok (some found)
  | call f arguments => do
    let vs ← Operand.values s arguments
    .ok (f.apply vs)

/-- Whether a document is a match: only what is true matches. -/
def Select.accepts (q : Select) (parameter? : String → Option Value) (d : Document) :
    Except Unbound Bool :=
  match q.condition with
  | none => .ok true
  | some c => do
    let x ← c.eval ⟨d, parameter?⟩
    .ok (x == some true)

/-- The matches among some documents. -/
def Select.matching (q : Select) (parameter? : String → Option Value) :
    List Document → Except Unbound (List Document)
  | [] => .ok []
  | d :: ds => do
    let accepted ← q.accepts parameter? d
    let rest ← q.matching parameter? ds
    .ok (if accepted then d :: rest else rest)

end DocQuery.Dialect
