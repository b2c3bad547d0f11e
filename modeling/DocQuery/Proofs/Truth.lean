/-
  When a document meets some criteria.

  The meaning of criteria is given on the tree itself: a leaf looks at one field, and a group
  asks for members of the list of what its children say.  Statements go another way, over a
  condition in which connectives take two sides and operands stand in a table of parameters.

  There are two gaps to bridge.  One is shape: a group of any size is written as a chain of
  connectives with two sides, nested to the left, and conjunction of three truth values is
  associative, so the chain says what the group says.  The other is operands: in the condition
  they are numbers, and what a number stands for depends on what was bound before.  `Scope.Binds`
  says that from some number on the parameters have the values of some operands, and can be split
  where a tree splits.

  1. `Criteria.truth`: true, false or undefined;
  2. groups of two sides, gathered from the left, against groups of any size;
  3. `condition_eval`: the condition of criteria has the truth value of the criteria;
  4. `matching_written`: the matches of a statement are the documents that meet the criteria.
-/
import DocQuery.Dialect.Evaluation
import DocQuery.Proofs.Reading

namespace DocQuery

open Dialect

/-! ## The meaning of criteria -/

/-- True if all are, false if one is false, undefined otherwise. -/
def allThree (ts : List (Option Bool)) : Option Bool :=
  if some false ∈ ts then some false else if none ∈ ts then none else some true

/-- True if one is, false if all are false, undefined otherwise. -/
def anyThree (ts : List (Option Bool)) : Option Bool :=
  if some true ∈ ts then some true else if none ∈ ts then none else some false

def Value.text? : Value → Option String
  | text s => some s
  | _ => none

def Value.isNull : Value → Bool
  | null => true
  | _ => false

/-- The value of the field that criteria name. -/
def Document.field? (d : Document) (path : String) : Option Value :=
  d.atPath (segments path)

namespace Criteria

mutual

/-- What a document says to criteria.  A leaf over a field that is not there is undefined, but for
the tests for null; so is an order of values that have none, and a part of what is no text. -/
def truth (d : Document) : Criteria → Option Bool
  | all => some true
  | compare op f v => (d.field? f).bind fun w => compareThree op w v
  | oneOf f vs => (d.field? f).map fun w => vs.any w.equals
  | startsWith f t => ((d.field? f).bind Value.text?).map fun s => Text.startsWith s t
  | contains f t => ((d.field? f).bind Value.text?).map fun s => Text.contains s t
  | isNull f => some ((d.field? f).any Value.isNull)
  | isNotNull f => some (!(d.field? f).any Value.isNull)
  | and cs => allThree (truths d cs)
  | or cs => anyThree (truths d cs)
  | not c => (c.truth d).map (!·)

/-- What a document says to each of some criteria. -/
def truths (d : Document) : List Criteria → List (Option Bool)
  | [] => []
  | c :: cs => c.truth d :: truths d cs

end

/-- Only what is true meets criteria. -/
def meets (c : Criteria) (d : Document) : Bool :=
  c.truth d == some true

end Criteria

/-! ## Groups -/

namespace Dialect

theorem allThree_gather (t u : Option Bool) (ts : List (Option Bool)) :
    allThree (andThree t u :: ts) = allThree (t :: u :: ts) := by
  rcases t with _ | _ | _ <;> rcases u with _ | _ | _ <;> simp [andThree, allThree]

theorem anyThree_gather (t u : Option Bool) (ts : List (Option Bool)) :
    anyThree (orThree t u :: ts) = anyThree (t :: u :: ts) := by
  rcases t with _ | _ | _ <;> rcases u with _ | _ | _ <;> simp [orThree, anyThree]

/-- A conjunction gathered from the left, as the parser nests it, is that of the group. -/
theorem foldl_andThree (t : Option Bool) (ts : List (Option Bool)) :
    ts.foldl andThree t = allThree (t :: ts) := by
  induction ts generalizing t with
  | nil => rcases t with _ | _ | _ <;> rfl
  | cons u ts ih => rw [List.foldl_cons, ih, allThree_gather]

/-- A disjunction gathered from the left is that of the group. -/
theorem foldl_orThree (t : Option Bool) (ts : List (Option Bool)) :
    ts.foldl orThree t = anyThree (t :: ts) := by
  induction ts generalizing t with
  | nil => rcases t with _ | _ | _ <;> rfl
  | cons u ts ih => rw [List.foldl_cons, ih, anyThree_gather]

variable {scope : Scope}

/-- What is gathered from the left has the value gathered from the left. -/
theorem foldl_eval {join : Condition → Condition → Condition}
    {combine : Option Bool → Option Bool → Option Bool}
    (hjoin : ∀ {a b t u}, a.eval scope = .ok t → b.eval scope = .ok u →
      (join a b).eval scope = .ok (combine t u))
    {cs : List Condition} {ts : List (Option Bool)}
    (h : Paired (fun (c : Condition) t => c.eval scope = .ok t) cs ts) :
    ∀ {a t}, a.eval scope = .ok t → (cs.foldl join a).eval scope = .ok (ts.foldl combine t) := by
  induction h with
  | nil =>
    intro a t ha
    exact ha
  | cons hb _ ih =>
    intro a t ha
    exact ih (hjoin ha hb)

/-- A conjunction has the truth value of its sides put together.  No side is skipped when the other
decides, which is why both must have one. -/
theorem and_eval {a b : Condition} {t u : Option Bool} (ha : a.eval scope = .ok t)
    (hb : b.eval scope = .ok u) : (Condition.and a b).eval scope = .ok (andThree t u) := by
  rw [Condition.eval, ha, hb]
  rfl

theorem or_eval {a b : Condition} {t u : Option Bool} (ha : a.eval scope = .ok t)
    (hb : b.eval scope = .ok u) : (Condition.or a b).eval scope = .ok (orThree t u) := by
  rw [Condition.eval, ha, hb]
  rfl

theorem not_eval {a : Condition} {t : Option Bool} (ha : a.eval scope = .ok t) :
    (Condition.not a).eval scope = .ok (t.map (!·)) := by
  rw [Condition.eval, ha]
  rfl

/-! ## Operands -/

/-- The parameters from a number on have the values of some operands. -/
def Scope.Binds (scope : Scope) (next : Nat) (vs : List Value) : Prop :=
  ∀ k v, vs[k]? = some v → scope.parameter? (Statement.parameterName (next + k)) = some v

/-- Operands in front of others are bound from the same number. -/
theorem Scope.Binds.left {next : Nat} {vs ws : List Value} (h : scope.Binds next (vs ++ ws)) :
    scope.Binds next vs := by
  intro k v hk
  have hlt : k < vs.length := (List.getElem?_eq_some_iff.mp hk).1
  exact h k v (by rw [List.getElem?_append_left hlt, hk])

/-- Operands behind others are bound from where those end. -/
theorem Scope.Binds.right {next : Nat} {vs ws : List Value} (h : scope.Binds next (vs ++ ws)) :
    scope.Binds (next + vs.length) ws := by
  intro k v hk
  have hget : (vs ++ ws)[vs.length + k]? = some v := by
    rw [List.getElem?_append_right (by omega), Nat.add_sub_cancel_left, hk]
  rw [Nat.add_assoc]
  exact h _ v hget

/-- The first of some bound operands is the value of the parameter with the first number. -/
theorem Scope.Binds.head {next : Nat} {v : Value} {vs : List Value}
    (h : scope.Binds next (v :: vs)) :
    (Operand.numbered next).value? scope = .ok (some v) := by
  have hv : scope.parameter? (Statement.parameterName next) = some v := h 0 v rfl
  rw [Operand.numbered, Operand.value?, hv]

theorem Scope.Binds.tail {next : Nat} {v : Value} {vs : List Value}
    (h : scope.Binds next (v :: vs)) : scope.Binds (next + 1) vs := by
  have hsplit : scope.Binds next ([v] ++ vs) := h
  exact hsplit.right

/-- The search among parameters finds a value exactly if one of the operands equals it. -/
theorem among_numbered {next : Nat} {vs : List Value} (h : scope.Binds next vs) (w : Value) :
    Operand.among scope w ((List.range' next vs.length).map .numbered) = .ok (vs.any w.equals) := by
  induction vs generalizing next with
  | nil => rfl
  | cons v vs ih =>
    rw [List.length_cons, List.range'_succ, List.map_cons, Operand.among, h.head]
    show (if w.equals v = true then _ else _) = _
    rw [ih h.tail, List.any_cons]
    cases w.equals v <;> rfl

/-- A leaf that compares its field with its operand. -/
theorem compare_eval {next : Nat} {f : String} {v : Value} (op : Comparison)
    (h : scope.Binds next [v]) :
    (Condition.compare (.field f) op (.numbered next)).eval scope
      = .ok ((scope.document.field? f).bind fun w => compareThree op w v) := by
  have hfield : (Operand.field f).value? scope = .ok (scope.document.field? f) := rfl
  rw [Condition.eval, hfield, h.head]
  cases scope.document.field? f <;> rfl

/-- A test for membership, as written, is true of a value that equals an operand, and undefined
without the field. -/
theorem oneOf_eval {next : Nat} {f : String} {vs : List Value} (h : scope.Binds next vs) :
    (Condition.oneOf (.field f) ((List.range' next vs.length).map .numbered)).eval scope
      = .ok ((scope.document.field? f).map fun w => vs.any w.equals) := by
  have hfield : (Operand.field f).value? scope = .ok (scope.document.field? f) := rfl
  rw [Condition.eval, hfield]
  cases scope.document.field? f with
  | none => rfl
  | some w =>
    show (Operand.among scope w _ >>= fun found => .ok (some found)) = _
    rw [among_numbered h]
    rfl

/-- A leaf that looks for its operand in the text of its field. -/
theorem textCall_eval {next : Nat} {f t : String} {fn : Function} (test : String → String → Bool)
    (hfn : ∀ v, fn.apply [v, some (.text t)] = (v.bind Value.text?).map fun s => test s t)
    (h : scope.Binds next [.text t]) :
    (Condition.call fn [.field f, .numbered next]).eval scope
      = .ok (((scope.document.field? f).bind Value.text?).map fun s => test s t) := by
  have hvalues : Operand.values scope [.field f, .numbered next]
      = .ok [scope.document.field? f, some (.text t)] := by
    rw [Operand.values, Operand.values, h.head]
    rfl
  rw [Condition.eval, hvalues, ← hfn]
  rfl

/-- A test for null has a truth value in every document: a missing field is not null. -/
theorem isNull_eval (f : String) :
    (Condition.call .isNull [.field f]).eval scope
      = .ok (some ((scope.document.field? f).any Value.isNull)) := by
  have hvalues : Operand.values scope [.field f] = .ok [scope.document.field? f] := rfl
  rw [Condition.eval, hvalues]
  cases scope.document.field? f with
  | none => rfl
  | some w => cases w <;> rfl

/-! ## Trees -/

mutual

/-- **The condition of criteria has their truth value**, if the parameters have the values of their
operands.  Induction on the criteria; each leaf meets the operands that its number points at. -/
theorem condition_eval : ∀ (c : Criteria) (next : Nat), scope.Binds next c.allOperands →
    (c.condition next).eval scope = .ok (c.truth scope.document)
  | .all, _, _ => rfl
  | .compare op f v, next, h => compare_eval op h
  | .oneOf f vs, next, h => oneOf_eval h
  | .startsWith f t, next, h =>
    textCall_eval Text.startsWith (fun v => by cases v with
      | none => rfl
      | some v => cases v <;> rfl) h
  | .contains f t, next, h =>
    textCall_eval Text.contains (fun v => by cases v with
      | none => rfl
      | some v => cases v <;> rfl) h
  | .isNull f, _, _ => isNull_eval f
  | .isNotNull f, _, _ => not_eval (isNull_eval f)
  | .not c, next, h => not_eval (condition_eval c next h)
  -- a group of two sides says of its children what a group of any size says
  | .and [], _, _ => rfl
  | .and (c :: cs), next, h => by
    have hpaired := conditions_eval cs (next + c.operandCount) h.right
    have hgathered := foldl_eval and_eval hpaired (condition_eval c next h.left)
    rw [foldl_andThree] at hgathered
    exact hgathered
  | .or [], _, _ => rfl
  | .or (c :: cs), next, h => by
    have hpaired := conditions_eval cs (next + c.operandCount) h.right
    have hgathered := foldl_eval or_eval hpaired (condition_eval c next h.left)
    rw [foldl_orThree] at hgathered
    exact hgathered

/-- `condition_eval` for a list of trees. -/
theorem conditions_eval : ∀ (cs : List Criteria) (next : Nat),
    scope.Binds next (Criteria.allOperandsList cs) →
      Paired (fun (c : Condition) t => c.eval scope = .ok t) (Criteria.conditions next cs)
        (Criteria.truths scope.document cs)
  | [], _, _ => .nil
  | c :: cs, next, h =>
    .cons (condition_eval c next h.left) (conditions_eval cs (next + c.operandCount) h.right)

end

/-! ## Matches -/

/-- A compiled statement accepts a document exactly if the document meets the criteria. -/
theorem accepts_written {shape : Statement.Shape} {q : Query} {s : Statement}
    (h : Statement.ofQuery shape q = .ok s) (d : Document) :
    (q.select shape).accepts s.parameter? d = .ok (q.criteria.meets d) := by
  have hbinds : (Scope.mk d s.parameter?).Binds 0 q.criteria.allOperands := by
    intro k v hk
    rw [Nat.zero_add, ← hk]
    exact parameter?_written h k
  have heval := condition_eval q.criteria 0 hbinds
  rw [Select.accepts]
  -- without criteria there is no condition, and everything is accepted
  by_cases hall : q.criteria = .all
  · have hnone : (q.select shape).condition = none := congrArg Criteria.rootCondition hall
    rw [hnone, hall]
    rfl
  · have hsome : (q.select shape).condition = some (q.criteria.condition 0) :=
      rootCondition_of_ne_all hall
    rw [hsome]
    show ((q.criteria.condition 0).eval ⟨d, s.parameter?⟩ >>= _) = _
    rw [heval]
    rfl

/-- The matches of a statement are the documents that meet the criteria, in their order. -/
theorem matching_written {shape : Statement.Shape} {q : Query} {s : Statement}
    (h : Statement.ofQuery shape q = .ok s) (ds : List Document) :
    (q.select shape).matching s.parameter? ds = .ok (ds.filter q.criteria.meets) := by
  induction ds with
  | nil => rfl
  | cons d ds ih =>
    rw [Select.matching, accepts_written h, ih, List.filter_cons]
    rfl

end Dialect

end DocQuery
