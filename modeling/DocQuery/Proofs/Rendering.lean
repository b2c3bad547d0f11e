/-
  The renderer without its state.

  The renderer carries the parameters from node to node, so what it writes for a tree seems to hang
  on all that was written before.  It does not: the text hangs on the number of the parameters so
  far, and on nothing else about them, and what is bound are the operands of the tree, in their
  order, numbered on from there.  So text and parameters can each be said by themselves, the one
  as a function of the number of the next parameter, the other as a list; and it is in this form
  that the text is read back, that its faults are found, and that it is compared with another.

  1. `numbered`, `predicate`, `whereChars`: parameters and text, each by itself;
  2. `Renders`: a renderer that comes to a text and binds some operands, step by step;
  3. `renders_render`: the renderer of a tree does, by induction on the tree;
  4. `ofQuery_eq`: the statement of a query, from the two.
-/
import DocQuery.Proofs.Outcome
import DocQuery.Statement

namespace DocQuery.Statement

/-! ## Parameters and text -/

/-- Operands with their names, the first with the number `next`. -/
def numbered (next : Nat) : List Value → List (String × Value)
  | [] => []
  | v :: vs => (parameterName next, v) :: numbered (next + 1) vs

/-- `count` parameters from `next` on. -/
def parameterList (next : Nat) : Nat → List (List Char)
  | 0 => []
  | count + 1 => parameterChars next :: parameterList (next + 1) count

mutual

/-- The predicate of some criteria, whose first operand has the number `next`. -/
def predicate (next : Nat) : Criteria → Except QueryFault (List Char)
  | .all => .ok "true".toList
  | .and [] => .error (.emptyGroup .and)
  | .and (c :: cs) => do
    let parts ← predicates next (c :: cs)
    .ok ('(' :: (joinChars " AND ".toList parts ++ [')']))
  | .or [] => .error (.emptyGroup .or)
  | .or (c :: cs) => do
    let parts ← predicates next (c :: cs)
    .ok ('(' :: (joinChars " OR ".toList parts ++ [')']))
  | .not c => do
    let part ← predicate next c
    .ok ("NOT (".toList ++ part ++ [')'])
  | .compare op f _ => do
    let field ← leafField op.kind f
    .ok (field ++ ' ' :: (op.operator.toList ++ ' ' :: parameterChars next))
  | .oneOf f vs => do
    let field ← leafField .oneOf f
    if vs.isEmpty then .error (.noValues f)
    else
      .ok (field ++ " IN (".toList
        ++ joinChars ", ".toList (parameterList next vs.length) ++ [')'])
  | .startsWith f _ => do
    let field ← leafField .startsWith f
    .ok (callChars "STARTSWITH" [field, parameterChars next])
  | .contains f _ => do
    let field ← leafField .contains f
    .ok (callChars "CONTAINS" [field, parameterChars next])
  | .isNull f => do
    let field ← leafField .isNull f
    .ok (callChars "IS_NULL" [field])
  | .isNotNull f => do
    let field ← leafField .isNotNull f
    .ok ("NOT ".toList ++ callChars "IS_NULL" [field])

/-- The predicates of some criteria; operands are numbered on from one to the next. -/
def predicates (next : Nat) : List Criteria → Except QueryFault (List (List Char))
  | [] => .ok []
  | c :: cs => do
    let part ← predicate next c
    let parts ← predicates (next + c.operandCount) cs
    .ok (part :: parts)

end

/-- The condition; none where every record is wanted. -/
def whereChars : Criteria → Except QueryFault (List Char)
  | .all => .ok []
  | c => do
    let p ← predicate 0 c
    .ok (" WHERE ".toList ++ p)

/-- Operands behind others are numbered on. -/
theorem numbered_append (next : Nat) (vs ws : List Value) :
    numbered next (vs ++ ws) = numbered next vs ++ numbered (next + vs.length) ws := by
  induction vs generalizing next with
  | nil => rfl
  | cons v vs ih =>
    have hnext : next + 1 + vs.length = next + (v :: vs).length := by
      rw [List.length_cons]
      omega
    rw [List.cons_append, numbered, ih, numbered, List.cons_append, hnext]

theorem length_numbered (next : Nat) (vs : List Value) :
    (numbered next vs).length = vs.length := by
  induction vs generalizing next with
  | nil => rfl
  | cons v vs ih => rw [numbered, List.length_cons, List.length_cons, ih]

/-! ## Rendering step by step -/

/-- A renderer comes to `text`, a function of the number of the next parameter, and binds the
operands `vs` behind the parameters that it is given. -/
def Renders {α : Type} (r : Renderer α) (text : Nat → Except QueryFault α) (vs : List Value) :
    Prop :=
  ∀ parameters, r.run parameters = (text parameters.length).map fun t =>
    (t, parameters ++ numbered parameters.length vs)

namespace Renders

variable {α β : Type} {r : Renderer α} {text : Nat → Except QueryFault α} {vs ws : List Value}

protected theorem pure (a : α) : Renders (pure a) (fun _ => .ok a) [] := by
  intro parameters
  rw [numbered, List.append_nil]
  rfl

/-- A fault is the end of it, whatever there would have been to bind. -/
theorem fault (f : QueryFault) (vs : List Value) :
    Renders (throw f : Renderer α) (fun _ => .error f) vs :=
  fun _ => rfl

/-- A check binds nothing. -/
theorem checked (x : Except QueryFault α) : Renders (liftM x) (fun _ => x) [] := by
  intro parameters
  rw [numbered, List.append_nil]
  cases x <;> rfl

/-- One more parameter. -/
theorem bindValue (v : Value) : Renders (bindValue v) (fun n => .ok (parameterChars n)) [v] :=
  fun _ => rfl

/-- Steps one after the other: the second numbers on behind the first. -/
theorem bind {k : α → Renderer β} {text' : α → Nat → Except QueryFault β}
    (h : Renders r text vs) (hk : ∀ a, Renders (k a) (text' a) ws) :
    Renders (r >>= k) (fun n => text n >>= fun a => text' a (n + vs.length)) (vs ++ ws) := by
  intro parameters
  show (r >>= k).run parameters
    = (text parameters.length >>= fun a => text' a (parameters.length + vs.length)).map _
  rw [StateT.run_bind, h parameters]
  cases text parameters.length with
  | error f => rfl
  | ok a =>
    have hlength : (parameters ++ numbered parameters.length vs).length
        = parameters.length + vs.length := by
      rw [List.length_append, length_numbered]
    show (k a).run (parameters ++ numbered parameters.length vs) = _
    rw [hk a, hlength, List.append_assoc, ← numbered_append]
    rfl

/-- A last step that binds nothing more. -/
theorem andPure (h : Renders r text vs) (f : α → β) :
    Renders (r >>= fun a => pure (f a)) (fun n => text n >>= fun a => .ok (f a)) vs := by
  have hboth := h.bind fun a => Renders.pure (f a)
  rwa [List.append_nil] at hboth

/-- Values are bound one after the other. -/
theorem bindValues (vs : List Value) :
    Renders (vs.mapM Statement.bindValue) (fun n => .ok (parameterList n vs.length)) vs := by
  induction vs with
  | nil => exact Renders.pure []
  | cons v vs ih =>
    rw [List.mapM_cons]
    exact (Renders.bindValue v).bind fun p => ih.andPure (p :: ·)

end Renders

/-! ## Rendering a tree -/

mutual

/-- **The renderer of a tree writes its predicate, and binds its operands.**  Induction on the
tree; in a group each child numbers on behind those before it. -/
theorem renders_render : ∀ c : Criteria, Renders (render c) (fun n => predicate n c) c.allOperands
  | .all => .pure _
  | .and [] => .fault _ _
  | .and (c :: cs) => by
    rw [render]
    exact (renders_renderAll (c :: cs)).andPure _
  | .or [] => .fault _ _
  | .or (c :: cs) => by
    rw [render]
    exact (renders_renderAll (c :: cs)).andPure _
  | .not c => by
    rw [render]
    exact (renders_render c).andPure _
  | .compare op f v => by
    rw [render]
    -- the field is checked first, and nothing is bound where it is at fault
    exact (Renders.checked _).bind fun _ => (Renders.bindValue v).andPure _
  | .oneOf f [] => by
    rw [render]
    exact (Renders.checked _).bind fun _ => .fault (.noValues f) []
  | .oneOf f (v :: vs) => by
    rw [render]
    exact (Renders.checked _).bind fun _ => (Renders.bindValues (v :: vs)).andPure _
  | .startsWith f s => by
    rw [render]
    exact (Renders.checked _).bind fun _ => (Renders.bindValue (.text s)).andPure _
  | .contains f s => by
    rw [render]
    exact (Renders.checked _).bind fun _ => (Renders.bindValue (.text s)).andPure _
  | .isNull f => by
    rw [render]
    exact (Renders.checked _).andPure _
  | .isNotNull f => by
    rw [render]
    exact (Renders.checked _).andPure _

/-- `renders_render` for the children of a node: each renders with the parameters of those before it
bound already. -/
theorem renders_renderAll : ∀ cs : List Criteria,
    Renders (renderAll cs) (fun n => predicates n cs) (Criteria.allOperandsList cs)
  | [] => .pure []
  | c :: cs => by
    rw [renderAll]
    exact (renders_render c).bind fun part => (renders_renderAll cs).andPure (part :: ·)

end

/-! ## Statements -/

/-- A condition with nothing before it. -/
theorem renderWhere_run (c : Criteria) :
    (renderWhere c).run [] = (whereChars c).map fun text => (text, numbered 0 c.allOperands) := by
  by_cases hall : c = .all
  · rw [hall]
    rfl
  · have hwhere : whereChars c = (predicate 0 c >>= fun p => .ok (" WHERE ".toList ++ p)) := by
      cases c <;> first | exact absurd rfl hall | rfl
    have hrender : renderWhere c = (render c >>= fun p => pure (" WHERE ".toList ++ p)) := by
      cases c <;> first | exact absurd rfl hall | rfl
    rw [hwhere, hrender]
    exact (renders_render c).andPure _ []

/-- **The statement of a query**, text and parameters each by itself: the parameters are the
operands of the criteria, numbered from nought. -/
theorem ofQuery_eq (shape : Shape) (q : Query) : ofQuery shape q = (do
    let condition ← whereChars q.criteria
    let order ← match shape with
      | .find => orderChars q.effectiveSort
      | .count => .ok []
    .ok ⟨String.ofList (projection shape ++ condition ++ order),
      numbered 0 q.criteria.allOperands⟩) := by
  rw [ofQuery, renderWhere_run]
  cases whereChars q.criteria <;> rfl

end DocQuery.Statement
