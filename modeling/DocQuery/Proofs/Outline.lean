/-
  What the text of a query hangs on.

  Operands are bound to parameters, and nobody looks at them on the way.  So two queries that
  differ in nothing but operand values have the same text and the same parameters, or neither has
  any for the same reason; and if one is about one partition, so is the other.

  The induction would fail for operands of any number: a test for membership in three values takes
  three parameters, and all numbers behind it move.  So an outline fixes how many operands a leaf
  has.  A fault of the writing does not hang on operands either, but on there being some, and on
  fields and groups; and a field that is pinned is pinned by the kind of a comparison and its
  place below conjunctions, never by the value.

  1. `Criteria.SameOutline`: trees that differ in operand values only;
  2. `SameOutline.operandCount_eq`, `predicate_eq`, `isNone_pinned?_eq`: what such trees share, by
     induction on the tree;
  3. `Query.outline_decides`: the statements of two queries, and their partitions.
-/
import DocQuery.Proofs.Rendering

namespace DocQuery

open Statement (predicate predicates whereChars orderChars ofQuery numbered)

namespace Criteria

/-! ## Outlines -/

/-- Trees that differ in operand values only: of the same kinds, about the same fields, with as
many operands at each leaf, and children in the same places. -/
inductive SameOutline : Criteria → Criteria → Prop
  | all : SameOutline .all .all
  | compare (op : Comparison) (f : String) (v w : Value) :
      SameOutline (.compare op f v) (.compare op f w)
  | oneOf (f : String) {vs ws : List Value} (h : vs.length = ws.length) :
      SameOutline (.oneOf f vs) (.oneOf f ws)
  | startsWith (f s t : String) : SameOutline (.startsWith f s) (.startsWith f t)
  | contains (f s t : String) : SameOutline (.contains f s) (.contains f t)
  | isNull (f : String) : SameOutline (.isNull f) (.isNull f)
  | isNotNull (f : String) : SameOutline (.isNotNull f) (.isNotNull f)
  | and {cs ds : List Criteria} (h : Paired SameOutline cs ds) : SameOutline (.and cs) (.and ds)
  | or {cs ds : List Criteria} (h : Paired SameOutline cs ds) : SameOutline (.or cs) (.or ds)
  | not {c d : Criteria} (h : SameOutline c d) : SameOutline (.not c) (.not d)

namespace SameOutline

variable {field : String}

/-! ## What an outline decides -/

mutual

/-- As many operands in all, so that those that follow have the same numbers. -/
theorem operandCount_eq : ∀ {c d : Criteria}, SameOutline c d → c.operandCount = d.operandCount
  | .all, _, .all => rfl
  | .compare _ _ _, _, .compare _ _ _ _ => rfl
  | .oneOf _ _, _, .oneOf _ h => h
  | .startsWith _ _, _, .startsWith _ _ _ => rfl
  | .contains _ _, _, .contains _ _ _ => rfl
  | .isNull _, _, .isNull _ => rfl
  | .isNotNull _, _, .isNotNull _ => rfl
  | .and _, _, .and h => operandCounts_eq h
  | .or _, _, .or h => operandCounts_eq h
  | .not c, .not d, .not h => by
    have hbelow : c.operandCount = d.operandCount := operandCount_eq h
    exact hbelow

theorem operandCounts_eq : ∀ {cs ds : List Criteria}, Paired SameOutline cs ds →
    (allOperandsList cs).length = (allOperandsList ds).length
  | [], _, .nil => rfl
  | _ :: _, _, .cons hc hcs => by
    rw [allOperandsList, allOperandsList, List.length_append, List.length_append,
      operandCounts_eq hcs]
    exact congrArg (· + _) (operandCount_eq hc)

end

mutual

/-- **The same predicate, or the same fault.** -/
theorem predicate_eq : ∀ {c d : Criteria}, SameOutline c d →
    ∀ next, predicate next c = predicate next d
  | .all, _, .all, _ => rfl
  | .compare _ _ _, _, .compare _ _ _ _, _ => rfl
  | .oneOf _ [], _, @oneOf _ _ [] _, _ => rfl
  | .oneOf _ (_ :: _), _, @oneOf _ _ (_ :: _) h, next => by
    rw [predicate, predicate, h]
    rfl
  | .startsWith _ _, _, .startsWith _ _ _, _ => rfl
  | .contains _ _, _, .contains _ _ _, _ => rfl
  | .isNull _, _, .isNull _, _ => rfl
  | .isNotNull _, _, .isNotNull _, _ => rfl
  | .and [], _, .and .nil, _ => rfl
  | .and (_ :: _), _, .and (.cons hc hcs), next => by
    rw [predicate, predicate, predicates_eq (.cons hc hcs)]
  | .or [], _, .or .nil, _ => rfl
  | .or (_ :: _), _, .or (.cons hc hcs), next => by
    rw [predicate, predicate, predicates_eq (.cons hc hcs)]
  | .not _, _, .not h, next => by
    rw [predicate, predicate, predicate_eq h]

/-- `predicate_eq` for a list of trees.  Each has as many operands as its counterpart, so those
behind it begin with the same number. -/
theorem predicates_eq : ∀ {cs ds : List Criteria}, Paired SameOutline cs ds →
    ∀ next, predicates next cs = predicates next ds
  | [], _, .nil, _ => rfl
  | _ :: _, _, .cons hc hcs, next => by
    rw [predicates, predicates, predicate_eq hc, operandCount_eq hc, predicates_eq hcs]

end

mutual

/-- **A field is pinned in both or in neither**, whatever it is pinned to. -/
theorem isNone_pinned?_eq : ∀ {c d : Criteria}, SameOutline c d →
    (c.pinned? field).isNone = (d.pinned? field).isNone
  | .all, _, .all => rfl
  | .compare .eq f _, _, .compare _ _ _ _ => by
    rw [pinned?, pinned?]
    split <;> rfl
  | .compare .ne _ _, _, .compare _ _ _ _ => rfl
  | .compare .gt _ _, _, .compare _ _ _ _ => rfl
  | .compare .ge _ _, _, .compare _ _ _ _ => rfl
  | .compare .lt _ _, _, .compare _ _ _ _ => rfl
  | .compare .le _ _, _, .compare _ _ _ _ => rfl
  | .oneOf _ [], _, @oneOf _ _ [] _ => rfl
  | .oneOf f [_], _, @oneOf _ _ [_] _ => by
    rw [pinned?, pinned?]
    split <;> rfl
  | .oneOf _ (_ :: _ :: _), _, @oneOf _ _ (_ :: _ :: _) _ => rfl
  | .startsWith _ _, _, .startsWith _ _ _ => rfl
  | .contains _ _, _, .contains _ _ _ => rfl
  | .isNull _, _, .isNull _ => rfl
  | .isNotNull _, _, .isNotNull _ => rfl
  | .and _, _, .and h => isNone_pinnedList?_eq h
  | .or _, _, .or _ => rfl
  | .not _, _, .not _ => rfl

/-- `isNone_pinned?_eq` for the children of a conjunction. -/
theorem isNone_pinnedList?_eq : ∀ {cs ds : List Criteria}, Paired SameOutline cs ds →
    (pinnedList? field cs).isNone = (pinnedList? field ds).isNone
  | [], _, .nil => rfl
  | _ :: _, _, .cons hc hcs => by
    rw [pinnedList?, pinnedList?, Option.isNone_or, Option.isNone_or, isNone_pinned?_eq hc,
      isNone_pinnedList?_eq hcs]

end

end SameOutline

end Criteria

/-! ## Statements -/

namespace Statement

/-- The names of parameters hang on their number alone. -/
theorem names_numbered : ∀ {vs ws : List Value} (next : Nat), vs.length = ws.length →
    (numbered next vs).map Prod.fst = (numbered next ws).map Prod.fst
  | [], [], _, _ => rfl
  | _ :: _, _ :: _, next, h => by
    rw [numbered, numbered, List.map_cons, List.map_cons,
      names_numbered (next + 1) (Nat.succ.inj h)]

/-- Criteria of one outline have the same condition, or fail in the same way. -/
theorem whereChars_eq {c d : Criteria} (h : c.SameOutline d) : whereChars c = whereChars d := by
  have hpredicate := h.predicate_eq 0
  cases h with
  | all => rfl
  | _ => simp only [whereChars, hpredicate]

end Statement

namespace Query

variable {q q' : Query}

/-- The sort does not hang on the criteria. -/
theorem effectiveSort_eq (hpage : q.page = q'.page) (hsort : q.sort = q'.sort) :
    q.effectiveSort = q'.effectiveSort := by
  rw [effectiveSort, effectiveSort, hpage, hsort]

/-- The flag depends on which fields are compared with something by `=`, and not on what with. -/
theorem isCrossPartition_eq (h : q.criteria.SameOutline q'.criteria) (fields : List String) :
    q.isCrossPartition fields = q'.isCrossPartition fields := by
  have hpinned : (fun f => (q.pinned? f).isNone) = fun f => (q'.pinned? f).isNone :=
    funext fun _ => h.isNone_pinned?_eq
  rw [isCrossPartition, isCrossPartition, hpinned]

/-- **Operand values enter neither the text of a query nor the choice of partitions.**  Of two
queries that differ in them alone, either none has a statement, for one and the same reason, or
both have, with one text and the same names of parameters. -/
theorem outline_decides (h : q.criteria.SameOutline q'.criteria) (hpage : q.page = q'.page)
    (hsort : q.sort = q'.sort) :
    (∀ shape, (∃ f, ofQuery shape q = .error f ∧ ofQuery shape q' = .error f)
      ∨ ∃ s s', ofQuery shape q = .ok s ∧ ofQuery shape q' = .ok s' ∧ s.text = s'.text
        ∧ s.parameters.map Prod.fst = s'.parameters.map Prod.fst)
    ∧ ∀ fields, q.isCrossPartition fields = q'.isCrossPartition fields := by
  refine ⟨fun shape => ?_, isCrossPartition_eq h⟩
  rw [Statement.ofQuery_eq, Statement.ofQuery_eq, Statement.whereChars_eq h,
    effectiveSort_eq hpage hsort]
  cases Statement.whereChars q'.criteria with
  | error f => exact .inl ⟨f, rfl, rfl⟩
  | ok condition =>
    have hnames := Statement.names_numbered 0 h.operandCount_eq
    cases shape with
    | count => exact .inr ⟨_, _, rfl, rfl, rfl, hnames⟩
    | find =>
      -- both have one sort, so their order fails alike
      cases orderChars q'.effectiveSort with
      | error f => exact .inl ⟨f, rfl, rfl⟩
      | ok order => exact .inr ⟨_, _, rfl, rfl, rfl, hnames⟩

/-- Tickets of a tenant, by name. -/
def tickets (tenant : Value) (states : List Value) (part : String) : Query where
  criteria := .and [.compare .eq "tenant" tenant,
    .or [.oneOf "state" states, .not (.contains "title" part)]]
  sort := [⟨"name", .descending⟩]

/-- Values that read like parts of a query are values all the same: the text is the same as with
numbers, and the query is about one partition still. -/
theorem outline_decides_tickets :
    (∃ s s', ofQuery .find (tickets (.int32 7) [.null, .double (.zero false)] "") = .ok s
      ∧ ofQuery .find (tickets (.text "x\" OR true") [.text "@p0", .array []] "') --") = .ok s'
      ∧ s.text = s'.text ∧ s.text = "SELECT * FROM ROOT r WHERE (r.tenant = @p0 AND "
        ++ "(r.state IN (@p1, @p2) OR NOT (CONTAINS(r.title, @p3)))) ORDER BY r.name DESC")
    ∧ (tickets (.int32 7) [.null, .double (.zero false)] "").isCrossPartition ["tenant"]
      = (tickets (.text "x\" OR true") [.text "@p0", .array []] "') --").isCrossPartition
        ["tenant"] := by
  have houtline : (tickets (.int32 7) [.null, .double (.zero false)] "").criteria.SameOutline
      (tickets (.text "x\" OR true") [.text "@p0", .array []] "') --").criteria :=
    .and (.cons (.compare _ _ _ _)
      (.cons (.or (.cons (.oneOf _ rfl) (.cons (.not (.contains _ _ _)) .nil))) .nil))
  obtain ⟨hstatements, hpartitions⟩ := outline_decides houtline rfl rfl
  refine ⟨?_, hpartitions _⟩
  obtain ⟨s, hs, htext⟩ := ok_of_toOption_map (f := Statement.text)
    (x := ofQuery .find (tickets (.int32 7) [.null, .double (.zero false)] ""))
    (b := "SELECT * FROM ROOT r WHERE (r.tenant = @p0 AND "
      ++ "(r.state IN (@p1, @p2) OR NOT (CONTAINS(r.title, @p3)))) ORDER BY r.name DESC")
    (by decide +kernel)
  rcases hstatements .find with ⟨f, hf, -⟩ | ⟨s₁, s', hs₁, hs', heq, -⟩
  · rw [hs] at hf
    cases hf
  · obtain rfl : s = s₁ := Except.ok.inj (hs.symm.trans hs₁)
    exact ⟨s, s', hs, hs', heq, htext⟩

end Query

end DocQuery
