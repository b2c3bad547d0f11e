/-
  The parameters of a query, and the operands that they stand for.

  Operands are bound one after the other, each under the next number, and the text of a statement
  names a parameter wherever an operand belongs.  Names of fields may look like parameters, but in
  the text they stand in quotes, where no reader takes them for one.

  That a parameter has a value when it is looked up is an induction on the criteria, and that the
  text names it where its operand belongs is one on the grammar; they meet in the condition that
  the text is read as.  A text is searched as tokens and not as characters: between quotes an at
  sign is part of a name, and only the lexer can tell.

  1. `Condition.parameters` and `Select.matching_ok`: the parameters that a query needs;
  2. `parametersIn_condition`: tokens that spell a condition name its parameters, by induction on
     the grammar;
  3. `Criteria.parameters_condition`: those of criteria have the numbers of their operands, by
     induction on the tree;
  4. `Criteria.operandsOfNodes`: operands node by node, and `allOperands_eq`;
  5. `Statement.parameters_ofQuery`: what is bound, and where the text names it.
-/
import DocQuery.Dialect.Evaluation
import DocQuery.Proofs.Compilation
import DocQuery.Proofs.Reading

namespace DocQuery

namespace Dialect

/-! ## The parameters of a query -/

/-- The parameters that an operand needs. -/
def Operand.parameters : Operand → List String
  | parameter name => [name]
  | _ => []

/-- The parameters that a condition needs. -/
def Condition.parameters : Condition → List String
  | operand o => o.parameters
  | not c => c.parameters
  | and a b | or a b => a.parameters ++ b.parameters
  | compare left _ right => left.parameters ++ right.parameters
  | oneOf target values => target.parameters ++ values.flatMap Operand.parameters
  | call _ arguments => arguments.flatMap Operand.parameters

/-- The parameters that a query needs. -/
def Select.parameters (q : Select) : List String :=
  match q.condition with
  | none => []
  | some c => c.parameters

/-- Whether some names all have values. -/
def Bound (parameter? : String → Option Value) (names : List String) : Prop :=
  ∀ name ∈ names, (parameter? name).isSome = true

theorem Bound.left {parameter? : String → Option Value} {names more : List String}
    (h : Bound parameter? (names ++ more)) : Bound parameter? names :=
  fun name hname => h name (List.mem_append_left more hname)

theorem Bound.right {parameter? : String → Option Value} {names more : List String}
    (h : Bound parameter? (names ++ more)) : Bound parameter? more :=
  fun name hname => h name (List.mem_append_right names hname)

variable {s : Scope}

/-- An operand whose parameter has a value has an outcome, be that a value or none. -/
theorem Operand.value?_ok {o : Operand} (h : Bound s.parameter? o.parameters) :
    ∃ v, o.value? s = .ok v := by
  cases o with
  | path segments => exact ⟨_, rfl⟩
  | literal v => exact ⟨_, rfl⟩
  | parameter name =>
    obtain ⟨v, hv⟩ := Option.isSome_iff_exists.mp (h name (List.mem_singleton_self name))
    refine ⟨some v, ?_⟩
    rw [value?, hv]

/-- The search for a value among operands has an outcome if all their parameters are bound. -/
theorem Operand.among_ok {v : Value} {os : List Operand}
    (h : Bound s.parameter? (os.flatMap Operand.parameters)) :
    ∃ b, Operand.among s v os = .ok b := by
  induction os with
  | nil => exact ⟨false, rfl⟩
  | cons o os ih =>
    rw [List.flatMap_cons] at h
    obtain ⟨w, hw⟩ := Operand.value?_ok h.left
    obtain ⟨b, hb⟩ := ih h.right
    rw [among, hw]
    cases w with
    | none => exact ⟨b, hb⟩
    | some w =>
      show ∃ b, (if v.equals w then Except.ok true else among s v os) = .ok b
      split
      · exact ⟨true, rfl⟩
      · exact ⟨b, hb⟩

/-- And so have the arguments of a function. -/
theorem Operand.values_ok {os : List Operand}
    (h : Bound s.parameter? (os.flatMap Operand.parameters)) :
    ∃ vs, Operand.values s os = .ok vs := by
  induction os with
  | nil => exact ⟨[], rfl⟩
  | cons o os ih =>
    rw [List.flatMap_cons] at h
    obtain ⟨v, hv⟩ := Operand.value?_ok h.left
    obtain ⟨vs, hvs⟩ := ih h.right
    refine ⟨v :: vs, ?_⟩
    rw [values, hv, hvs]
    rfl

/-- A condition whose parameters all have values has an outcome. -/
theorem Condition.eval_ok {c : Condition} (h : Bound s.parameter? c.parameters) :
    ∃ t, c.eval s = .ok t := by
  induction c with
  | operand o =>
    obtain ⟨v, hv⟩ := Operand.value?_ok h
    rw [eval, hv]
    -- an operand alone is undefined unless it is a truth value, but it has an outcome
    rcases v with _ | v
    · exact ⟨none, rfl⟩
    · cases v <;> exact ⟨_, rfl⟩
  | not c ih =>
    obtain ⟨t, ht⟩ := ih h
    refine ⟨t.map (!·), ?_⟩
    rw [eval, ht]
    rfl
  | and a b iha ihb =>
    -- the parameters of a condition are those of its sides, one behind the other
    obtain ⟨t, ht⟩ := iha h.left
    obtain ⟨u, hu⟩ := ihb h.right
    refine ⟨andThree t u, ?_⟩
    rw [eval, ht, hu]
    rfl
  | or a b iha ihb =>
    obtain ⟨t, ht⟩ := iha h.left
    obtain ⟨u, hu⟩ := ihb h.right
    refine ⟨orThree t u, ?_⟩
    rw [eval, ht, hu]
    rfl
  | compare left op right =>
    obtain ⟨v, hv⟩ := Operand.value?_ok h.left
    obtain ⟨w, hw⟩ := Operand.value?_ok h.right
    rw [eval, hv, hw]
    cases v <;> cases w <;> exact ⟨_, rfl⟩
  | oneOf target values =>
    obtain ⟨v, hv⟩ := Operand.value?_ok h.left
    rw [eval, hv]
    cases v with
    | none => exact ⟨none, rfl⟩
    | some v =>
      obtain ⟨b, hb⟩ := Operand.among_ok (v := v) h.right
      refine ⟨some b, ?_⟩
      show (Operand.among s v values).bind (fun found => .ok (some found)) = .ok (some b)
      rw [hb]
      rfl
  | call f arguments =>
    obtain ⟨vs, hvs⟩ := Operand.values_ok h
    refine ⟨f.apply vs, ?_⟩
    rw [eval, hvs]
    rfl

/-- **A query whose parameters all have values has its matches.** -/
theorem Select.matching_ok {q : Select} {parameter? : String → Option Value}
    (h : Bound parameter? q.parameters) (ds : List Document) :
    ∃ matched, q.matching parameter? ds = .ok matched := by
  have haccepts : ∀ d, ∃ b, q.accepts parameter? d = .ok b := by
    intro d
    rw [parameters] at h
    rw [accepts]
    cases hc : q.condition with
    | none => exact ⟨true, rfl⟩
    | some c =>
      rw [hc] at h
      obtain ⟨t, ht⟩ := Condition.eval_ok (s := ⟨d, parameter?⟩) h
      refine ⟨t == some true, ?_⟩
      dsimp only
      rw [ht]
      rfl
  induction ds with
  | nil => exact ⟨[], rfl⟩
  | cons d ds ih =>
    obtain ⟨b, hb⟩ := haccepts d
    obtain ⟨matched, hmatched⟩ := ih
    refine ⟨if b then d :: matched else matched, ?_⟩
    rw [matching, hb, hmatched]
    rfl

/-! ## Parameters in a text -/

/-- The name of a parameter. -/
def Token.parameter? : Token → Option String
  | parameter name => some name
  | _ => none

/-- The parameters that some tokens name, in order. -/
def parametersIn (ts : List Token) : List String :=
  ts.filterMap Token.parameter?

variable {ts us : List Token}

/-- Tokens behind others name theirs behind those. -/
theorem parametersIn_append (ts us : List Token) :
    parametersIn (ts ++ us) = parametersIn ts ++ parametersIn us :=
  List.filterMap_append

/-- A word names no parameter, even if it contains the mark of one. -/
theorem parametersIn_word (w : String) (ts : List Token) :
    parametersIn (.word w :: ts) = parametersIn ts :=
  rfl

theorem parametersIn_symbol (s : Symbol) (ts : List Token) :
    parametersIn (.symbol s :: ts) = parametersIn ts :=
  rfl

/-- Whatever the names of fields are, a path names no parameter. -/
theorem parametersIn_path {path : List String} (h : SpellsPath ts path) : parametersIn ts = [] := by
  induction h with
  | nil => rfl
  | plain w _ ih => exact ih
  | bracketed s _ ih => exact ih

/-- Tokens that spell an operand name the parameter that it is, if it is one. -/
theorem parametersIn_operand {o : Operand} (h : SpellsOperand ts o) :
    parametersIn ts = o.parameters := by
  cases h with
  | path hpath _ =>
    rw [parametersIn_word, parametersIn_path hpath]
    rfl
  | _ => rfl

/-- A list of operands names its parameters from left to right. -/
theorem parametersIn_list {os : List Operand} (h : SpellsList ts os) :
    parametersIn ts = os.flatMap Operand.parameters := by
  induction h with
  | nil => rfl
  | one ho => rw [parametersIn_operand ho, List.flatMap_singleton]
  | cons ho _ ih =>
    rw [parametersIn_append, parametersIn_symbol, parametersIn_operand ho, ih]
    rfl

/-- What stands in parentheses. -/
theorem parametersIn_parens (ts : List Token) :
    parametersIn (.symbol .leftParen :: (ts ++ [.symbol .rightParen])) = parametersIn ts := by
  have hclose : parametersIn [.symbol .rightParen] = [] := rfl
  rw [parametersIn_symbol, parametersIn_append, hclose, List.append_nil]

/-- **Tokens that spell a condition name its parameters**, in its order.  Induction on the
derivation, one case for each rule. -/
theorem parametersIn_condition {l : Level} {c : Condition} (h : Spells l ts c) :
    parametersIn ts = c.parameters := by
  induction h with
  | operand ho => exact parametersIn_operand ho
  | compare op ha hb =>
    rw [parametersIn_append, parametersIn_symbol, parametersIn_operand ha, parametersIn_operand hb]
    rfl
  | oneOf _ ha hos =>
    rw [parametersIn_append, parametersIn_word, parametersIn_parens, parametersIn_operand ha,
      parametersIn_list hos]
    rfl
  | call f _ hos _ =>
    rw [parametersIn_word, parametersIn_parens, parametersIn_list hos]
    rfl
  | group _ ih => rw [parametersIn_parens, ih]
  | atom _ ih => exact ih
  | not _ _ ih => exact ih
  | negation _ ih => exact ih
  | and _ _ _ iha ihb =>
    rw [parametersIn_append, parametersIn_word, iha, ihb]
    rfl
  | conjunction _ ih => exact ih
  | or _ _ _ iha ihb =>
    rw [parametersIn_append, parametersIn_word, iha, ihb]
    rfl

/-- Without a condition no parameter is named; else it names its own. -/
theorem parametersIn_where {c : Option Condition} (h : SpellsWhere ts c) :
    parametersIn ts = (c.map Condition.parameters).getD [] := by
  cases h with
  | none => rfl
  | condition hspell =>
    rw [parametersIn_word, parametersIn_condition hspell]
    rfl

/-- A sort entry names no parameter. -/
theorem parametersIn_entry {e : List String × Direction} (h : SpellsEntry ts e) :
    parametersIn ts = [] := by
  cases h with
  | bare ho => exact parametersIn_operand ho
  | ascending _ ho =>
    rw [parametersIn_append, parametersIn_operand ho]
    rfl
  | descending _ ho =>
    rw [parametersIn_append, parametersIn_operand ho]
    rfl

/-- An order is made of paths. -/
theorem parametersIn_order {es : List (List String × Direction)} (h : SpellsOrder ts es) :
    parametersIn ts = [] := by
  induction h with
  | one he => exact parametersIn_entry he
  | cons he _ ih =>
    rw [parametersIn_append, parametersIn_symbol, parametersIn_entry he, ih]
    rfl

/-- so neither does what stands behind the condition. -/
theorem parametersIn_end {es : List (List String × Direction)} (h : SpellsEnd ts es) :
    parametersIn ts = [] := by
  cases h with
  | none => rfl
  | order hspell => rw [parametersIn_word, parametersIn_word, parametersIn_order hspell]

end Dialect

/-! ## Parameters of criteria -/

namespace Criteria

open Dialect (Condition Operand)

/-- The names of `count` parameters, the first with the number `next`. -/
def parameterNames (next count : Nat) : List String :=
  (List.range' next count).map Statement.parameterName

/-- Names go on where others end. -/
theorem parameterNames_append (next m n : Nat) :
    parameterNames next (m + n) = parameterNames next m ++ parameterNames (next + m) n := by
  rw [parameterNames, ← List.range'_append_1, List.map_append]
  rfl

/-- A parameter needs itself. -/
theorem parameters_numbered (ns : List Nat) :
    (ns.map Operand.numbered).flatMap Operand.parameters = ns.map Statement.parameterName := by
  rw [List.flatMap_map, List.map_eq_flatMap]
  rfl

mutual

/-- **The condition of criteria has a parameter for each operand**, numbered in their order. -/
theorem parameters_condition : ∀ (c : Criteria) (next : Nat),
    (c.condition next).parameters = parameterNames next c.operandCount
  | .all, _ => rfl
  | .compare _ _ _, _ => rfl
  | .oneOf f vs, next => parameters_numbered (List.range' next vs.length)
  | .startsWith _ _, _ => rfl
  | .contains _ _, _ => rfl
  | .isNull _, _ => rfl
  | .isNotNull _, _ => rfl
  | .not c, next => parameters_condition c next
  | .and cs, next => by
    rw [condition, Condition.collect_chain Condition.parameters (fun _ _ => rfl) rfl,
      parameters_conditions cs next]
    rfl
  | .or cs, next => by
    rw [condition, Condition.collect_chain Condition.parameters (fun _ _ => rfl) rfl,
      parameters_conditions cs next]
    rfl

/-- `parameters_condition` for a list of trees, each numbered from where the one before it ended. -/
theorem parameters_conditions : ∀ (cs : List Criteria) (next : Nat),
    (conditions next cs).flatMap Condition.parameters
      = parameterNames next (allOperandsList cs).length
  | [], _ => rfl
  | c :: cs, next => by
    rw [conditions, List.flatMap_cons, parameters_condition c next, parameters_conditions cs,
      allOperandsList, List.length_append, parameterNames_append]
    rfl

end

/-! ## Operands -/

/-- The operands of the nodes of a tree, depth first and from left to right. -/
def operandsOfNodes (c : Criteria) : List Value :=
  c.nodes.flatMap operands

mutual

/-- **Operands from left to right are the operands of the nodes**, depth first.  Induction on the
tree. -/
theorem allOperands_eq : ∀ c : Criteria, c.allOperands = c.operandsOfNodes
  | .all => rfl
  | .compare _ _ _ => rfl
  | .oneOf _ vs => (List.append_nil vs).symm
  | .startsWith _ _ => rfl
  | .contains _ _ => rfl
  | .isNull _ => rfl
  | .isNotNull _ => rfl
  | .not c => allOperands_eq c
  | .and cs => allOperandsList_eq cs
  | .or cs => allOperandsList_eq cs

theorem allOperandsList_eq : ∀ cs : List Criteria,
    allOperandsList cs = (nodesList cs).flatMap operands
  | [] => rfl
  | c :: cs => by
    rw [allOperandsList, nodesList, List.flatMap_append, allOperands_eq c, allOperandsList_eq cs]
    rfl

end

end Criteria

/-! ## Statements -/

namespace Statement

open Dialect (tokens parametersIn)

/-- The name of a parameter is its mark and the usual numeral. -/
theorem parameterName_eq (n : Nat) : parameterName n = "@p" ++ Nat.repr n := by
  rw [parameterName, Text.ofNat_eq_repr]

/-- The operand in a place is bound to the number of that place. -/
theorem numbered_getElem? (next : Nat) (vs : List Value) (k : Nat) :
    (numbered next vs)[k]? = vs[k]?.map fun v => (parameterName (next + k), v) := by
  induction vs generalizing next k with
  | nil => rfl
  | cons v vs ih =>
    cases k with
    | zero => rfl
    | succ k =>
      have hnumber : next + 1 + k = next + (k + 1) := by omega
      rw [numbered, List.getElem?_cons_succ, List.getElem?_cons_succ, ih, hnumber]

/-- The text of a statement names its parameters in order. -/
theorem parametersIn_ofQuery {shape : Shape} {q : Query} {s : Statement}
    (h : ofQuery shape q = .ok s) : ∃ ts, tokens s.text.toList = .ok ts
      ∧ parametersIn ts = Criteria.parameterNames 0 q.criteria.operandCount := by
  obtain ⟨ts, us, htokens, hwhere, hend⟩ := Dialect.tokens_ofQuery h
  refine ⟨_, htokens, ?_⟩
  have hfront : parametersIn (Dialect.projectionTokens shape) = [] := by cases shape <;> rfl
  rw [Dialect.parametersIn_append, Dialect.parametersIn_append, hfront,
    Dialect.parametersIn_where hwhere, Dialect.parametersIn_end hend, List.append_nil,
    List.nil_append]
  -- without criteria there is neither condition nor operand
  by_cases hall : q.criteria = .all
  · have hnone : (q.select shape).condition = none := congrArg Criteria.rootCondition hall
    rw [hnone, hall]
    rfl
  · have hsome : (q.select shape).condition = some (q.criteria.condition 0) :=
      rootCondition_of_ne_all hall
    rw [hsome]
    exact Criteria.parameters_condition q.criteria 0

/-- **Every operand is bound once, in order.**  There are as many parameters as operands; the one
with the number `k` is called so, and has the operand with that number for its value, also when it
is looked up by its name; and in the text the parameters stand in their order, each once. -/
theorem parameters_ofQuery {shape : Shape} {q : Query} {s : Statement}
    (h : ofQuery shape q = .ok s) :
    s.parameters.length = q.criteria.operandCount
    ∧ q.criteria.operandCount = q.criteria.operandsOfNodes.length
    ∧ (∀ k, s.parameters[k]?
      = q.criteria.operandsOfNodes[k]?.map fun v => ("@p" ++ Nat.repr k, v))
    ∧ (∀ k, s.parameter? ("@p" ++ Nat.repr k) = q.criteria.operandsOfNodes[k]?)
    ∧ ∃ ts, tokens s.text.toList = .ok ts
      ∧ ts.filterMap Dialect.Token.parameter?
        = (List.range q.criteria.operandCount).map fun k => "@p" ++ Nat.repr k := by
  obtain ⟨_, _, _, _, hs⟩ := Dialect.ofQuery_parts h
  have hparameters : s.parameters = numbered 0 q.criteria.allOperands := congrArg parameters hs
  have hoperands := Criteria.allOperands_eq q.criteria
  refine ⟨?_, congrArg List.length hoperands, fun k => ?_, fun k => ?_, ?_⟩
  · rw [hparameters, length_numbered]
    rfl
  · rw [hparameters, numbered_getElem?, hoperands, Nat.zero_add, parameterName_eq]
  · rw [← parameterName_eq, Dialect.parameter?_written h, hoperands]
  · obtain ⟨ts, htokens, hnames⟩ := parametersIn_ofQuery h
    refine ⟨ts, htokens, ?_⟩
    rw [List.range_eq_range', ← funext parameterName_eq]
    exact hnames

/-- Fields that are called like parameters, and more than ten operands. -/
def lookalikes : Query where
  criteria := .and [.compare .eq "@p0" (.text "@p1"), .not (.or [.isNull "@p2.r",
    .oneOf "a.@p1 = @p3" [.int32 0, .int32 1, .int32 2, .int32 3, .int32 4, .int32 5, .int32 6,
      .int32 7, .int32 8]]), .startsWith "p10" "@", .contains "\"@p4" ""]
  sort := [⟨"@p12", .ascending⟩]

/-- Fields and operands that read like parameters are not taken for one, and twelve of them reach
numbers of two digits. -/
theorem parameters_ofQuery_lookalikes : ∃ s, ofQuery .find lookalikes = .ok s
    ∧ s.parameters.length = 12 ∧ s.parameter? "@p0" = some (.text "@p1")
    ∧ s.parameter? "@p10" = some (.text "@") ∧ s.parameter? "@p12" = none
    ∧ ∃ ts, tokens s.text.toList = .ok ts ∧ ts.filterMap Dialect.Token.parameter?
      = ["@p0", "@p1", "@p2", "@p3", "@p4", "@p5", "@p6", "@p7", "@p8", "@p9", "@p10",
        "@p11"] := by
  obtain ⟨s, hs⟩ : ∃ s, ofQuery .find lookalikes = .ok s := ⟨_, rfl⟩
  obtain ⟨hlength, -, -, hlookup, htokens⟩ := parameters_ofQuery hs
  exact ⟨s, hs, hlength, hlookup 0, hlookup 10, hlookup 12, htokens⟩

end Statement

end DocQuery
