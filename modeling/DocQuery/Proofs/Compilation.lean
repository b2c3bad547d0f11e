/-
  Which queries have a statement.

  The checks stand where the text is written: at the groups, at the leaves, at the references to
  fields.  Writing stops at the first that fails.  Each check is about one node alone, so together
  they ask for nothing but nodes that are sound one by one, and what stops the writing is the first
  node that is not, depth first and from left to right.  The sort comes behind the tree.

  The text of a tree, and the numbers in it, have to be got out of the way, since faults hang on
  neither.  A step is looked at through `faultOf?`, which forgets the result and keeps the fault;
  a sequence of steps then has the first fault of its steps, and what a node adds is the fault of
  its own check in front of, or behind, those of its children.

  1. `Criteria.nodes`, `Criteria.Sound`, `SoundPath`: the nodes of a tree, and what each must be;
  2. `Criteria.nodeFault?`, `pathFault?`: what is wrong with one that is not;
  3. `faultOf?`: the fault of a step, and of a sequence of steps;
  4. `faultOf?_predicate`: the fault of a predicate is that of the first node that has one, by
     induction on the tree;
  5. `Statement.compiles_iff_sound`: which queries compile, and with which fault the others do not.
-/
import DocQuery.AccessError
import DocQuery.Proofs.Rendering

namespace DocQuery

open Statement (fieldChars leafField predicate predicates whereChars orderEntry orderChars ofQuery)

/-! ## Sound nodes -/

/-- A path to a field: not blank, and something on both sides of every dot. -/
def SoundPath (path : String) : Prop :=
  Text.isBlank path = false ∧ "" ∉ segments path

namespace Criteria

mutual

/-- The nodes of a tree, depth first and from left to right. -/
def nodes : Criteria → List Criteria
  | and cs => and cs :: nodesList cs
  | or cs => or cs :: nodesList cs
  | not c => not c :: c.nodes
  | compare op f v => [compare op f v]
  | oneOf f vs => [oneOf f vs]
  | startsWith f s => [startsWith f s]
  | contains f s => [contains f s]
  | isNull f => [isNull f]
  | isNotNull f => [isNotNull f]
  | all => [all]

def nodesList : List Criteria → List Criteria
  | [] => []
  | c :: cs => c.nodes ++ nodesList cs

end

/-- What a query asks of a node, whatever stands below it. -/
structure Sound (c : Criteria) : Prop where
  /-- a group has children -/
  children : c.kind = .and ∨ c.kind = .or → c.children ≠ []
  /-- a membership test has values -/
  values : c.kind = .oneOf → c.operands ≠ []
  /-- a leaf is about a field -/
  subject : ∀ f, c.subject? = some f → SoundPath f

end Criteria

/-! ## Faults -/

/-- What is wrong with a path to sort by. -/
def pathFault? (path : String) : Option QueryFault :=
  if Text.isBlank path then some .emptyPath
  else if "" ∈ segments path then some (.emptySegment path)
  else none

namespace Criteria

/-- What is wrong with the field of a leaf. -/
def subjectFault? (kind : Kind) (f : String) : Option QueryFault :=
  if Text.isBlank f then some (.noSubject kind) else pathFault? f

/-- What is wrong with a node, whatever stands below it.  A field is looked at before values. -/
def nodeFault? : Criteria → Option QueryFault
  | and [] => some (.emptyGroup .and)
  | or [] => some (.emptyGroup .or)
  | oneOf f vs => (subjectFault? .oneOf f).or (if vs.isEmpty then some (.noValues f) else none)
  | c => c.subject?.bind (subjectFault? c.kind)

end Criteria

/-- Nothing is wrong with a sound path, and only with such. -/
theorem pathFault?_eq_none_iff {path : String} : pathFault? path = none ↔ SoundPath path := by
  rw [pathFault?, SoundPath]
  cases Text.isBlank path <;> simp

namespace Criteria

/-- A leaf of any kind has a faultless field exactly if the path of it is sound; the kinds differ
only in which fault a blank one is. -/
theorem subjectFault?_eq_none_iff {kind : Kind} {f : String} :
    subjectFault? kind f = none ↔ SoundPath f := by
  rw [subjectFault?]
  cases hblank : Text.isBlank f with
  | false => exact pathFault?_eq_none_iff
  | true => simp [SoundPath, hblank]

/-- A leaf with a fixed number of operands: its field is all that can be wrong. -/
theorem sound_leaf_iff {c : Criteria} {f : String} (hsubject : c.subject? = some f)
    (hand : c.kind ≠ .and) (hor : c.kind ≠ .or) (hone : c.kind ≠ .oneOf) :
    c.Sound ↔ SoundPath f := by
  refine ⟨fun hc => hc.subject f hsubject, fun hf => ?_⟩
  refine ⟨fun h => absurd h (not_or.mpr ⟨hand, hor⟩), fun h => absurd h hone, ?_⟩
  intro g hg
  rw [hsubject] at hg
  rw [← Option.some.inj hg]
  exact hf

/-- A group, whose children are all that it can lack. -/
theorem sound_group {c : Criteria} (hsubject : c.subject? = none) (hone : c.kind ≠ .oneOf)
    (hchildren : c.children ≠ []) : c.Sound := by
  refine ⟨fun _ => hchildren, fun h => absurd h hone, ?_⟩
  intro f hf
  rw [hsubject] at hf
  cases hf

/-- **A node without fault is sound.** -/
theorem nodeFault?_eq_none_iff (c : Criteria) : c.nodeFault? = none ↔ c.Sound := by
  have hleaf : ∀ {c : Criteria} {f : String}, c.subject? = some f → c.kind ≠ .and →
      c.kind ≠ .or → c.kind ≠ .oneOf → (subjectFault? c.kind f = none ↔ c.Sound) := by
    intro c f hsubject hand hor hone
    rw [subjectFault?_eq_none_iff, sound_leaf_iff hsubject hand hor hone]
  cases c with
  | all => exact iff_of_true rfl ⟨nofun, nofun, nofun⟩
  -- the plain leaves are sound as their fields are; groups and membership tests ask for more
  | compare op f v => cases op <;> exact hleaf rfl nofun nofun nofun
  | startsWith f s => exact hleaf rfl nofun nofun nofun
  | contains f s => exact hleaf rfl nofun nofun nofun
  | isNull f => exact hleaf rfl nofun nofun nofun
  | isNotNull f => exact hleaf rfl nofun nofun nofun
  | oneOf f vs =>
    rw [nodeFault?, Option.or_eq_none_iff, subjectFault?_eq_none_iff]
    constructor
    · rintro ⟨hf, hvs⟩
      refine ⟨nofun, ?_, ?_⟩
      · rintro _ rfl
        cases hvs
      · rintro g ⟨⟩
        exact hf
    · intro hc
      have hvs : vs ≠ [] := hc.values rfl
      exact ⟨hc.subject f rfl, by simp [hvs]⟩
  | and cs =>
    cases cs with
    | nil => exact iff_of_false nofun fun hc => hc.children (.inl rfl) rfl
    | cons c cs => exact iff_of_true rfl (sound_group rfl nofun (List.cons_ne_nil c cs))
  | or cs =>
    cases cs with
    | nil => exact iff_of_false nofun fun hc => hc.children (.inr rfl) rfl
    | cons c cs => exact iff_of_true rfl (sound_group rfl nofun (List.cons_ne_nil c cs))
  | not c => exact iff_of_true rfl (sound_group rfl nofun (List.cons_ne_nil c []))

end Criteria

/-! ## Steps that stop at a fault -/

section Steps

variable {ε α β : Type}

/-- The fault that a step ends with. -/
def faultOf? : Except ε α → Option ε
  | .ok _ => none
  | .error e => some e

/-- What has no fault has a result. -/
theorem faultOf?_eq_none_iff {x : Except ε α} : faultOf? x = none ↔ ∃ a, x = .ok a := by
  cases x <;> simp [faultOf?]

/-- What has one has failed with it. -/
theorem faultOf?_eq_some_iff {x : Except ε α} {e : ε} : faultOf? x = some e ↔ x = .error e := by
  cases x <;> simp [faultOf?]

/-- The first fault of two steps, where that of the second does not hang on the first. -/
theorem faultOf?_bind {x : Except ε α} {f : α → Except ε β} {r : Option ε}
    (h : ∀ a, faultOf? (f a) = r) : faultOf? (x >>= f) = (faultOf? x).or r := by
  cases x with
  | error e => rfl
  | ok a => exact h a

/-- What is done to a result makes no fault. -/
theorem faultOf?_bind_ok {x : Except ε α} {g : α → β} :
    faultOf? (x >>= fun a => .ok (g a)) = faultOf? x := by
  rw [faultOf?_bind (r := none) fun _ => rfl, Option.or_none]

/-- A sequence over a list has the fault of the first element that has one. -/
theorem faultOf?_mapM {f : α → Except ε β} {as : List α} :
    faultOf? (as.mapM f) = as.findSome? fun a => faultOf? (f a) := by
  induction as with
  | nil => rfl
  | cons a as ih =>
    have hrest : ∀ b, faultOf? (as.mapM f >>= fun bs => pure (b :: bs)) = faultOf? (as.mapM f) :=
      fun _ => faultOf?_bind_ok
    rw [List.mapM_cons, faultOf?_bind hrest, ih, List.findSome?_cons]
    cases faultOf? (f a) <;> rfl

end Steps

/-! ## Writing -/

namespace Statement

/-- The reference to a field stops at what is wrong with its path. -/
theorem faultOf?_fieldChars (path : String) : faultOf? (fieldChars path) = pathFault? path := by
  have hempty : ((Text.pieces (· == '.') path.toList).any List.isEmpty = true)
      ↔ "" ∈ segments path := by
    rw [segments, Text.split, List.mem_map, List.any_eq_true]
    refine exists_congr fun p => and_congr_right fun _ => ?_
    rw [List.isEmpty_iff, ← String.ofList_inj]
  rw [fieldChars, pathFault?]
  split
  · rfl
  · dsimp only
    simp only [hempty]
    split <;> rfl

/-- Writing the field of a leaf stops at the fault of its path, a blank one being a fault of the
leaf and not of the path. -/
theorem faultOf?_leafField (kind : Criteria.Kind) (f : String) :
    faultOf? (leafField kind f) = Criteria.subjectFault? kind f := by
  rw [leafField, Criteria.subjectFault?]
  split
  · rfl
  · exact faultOf?_fieldChars f

open Criteria (nodes nodesList nodeFault?)

mutual

/-- **What stops the writing of a predicate is the first node with a fault.**  Induction on the
tree: a group writes its children in order, and has a fault of its own only if it has none. -/
theorem faultOf?_predicate : ∀ (c : Criteria) (next : Nat),
    faultOf? (predicate next c) = c.nodes.findSome? nodeFault?
  | .all, _ => rfl
  | .and [], _ => rfl
  | .and (c :: cs), next => by
    rw [predicate, faultOf?_bind_ok, faultOf?_predicates (c :: cs) next]
    rfl
  | .or [], _ => rfl
  | .or (c :: cs), next => by
    rw [predicate, faultOf?_bind_ok, faultOf?_predicates (c :: cs) next]
    rfl
  | .not c, next => by
    rw [predicate, faultOf?_bind_ok, faultOf?_predicate c next]
    rfl
  | .compare op f v, next => by
    rw [predicate, faultOf?_bind_ok, faultOf?_leafField, nodes, List.findSome?_singleton]
    rfl
  | .oneOf f vs, next => by
    rw [predicate, nodes, List.findSome?_singleton, nodeFault?, ← faultOf?_leafField]
    refine faultOf?_bind fun _ => ?_
    split <;> rfl
  | .startsWith f s, next => by
    rw [predicate, faultOf?_bind_ok, faultOf?_leafField, nodes, List.findSome?_singleton]
    rfl
  | .contains f s, next => by
    rw [predicate, faultOf?_bind_ok, faultOf?_leafField, nodes, List.findSome?_singleton]
    rfl
  | .isNull f, next => by
    rw [predicate, faultOf?_bind_ok, faultOf?_leafField, nodes, List.findSome?_singleton]
    rfl
  | .isNotNull f, next => by
    rw [predicate, faultOf?_bind_ok, faultOf?_leafField, nodes, List.findSome?_singleton]
    rfl

/-- `faultOf?_predicate` for a list of trees. -/
theorem faultOf?_predicates : ∀ (cs : List Criteria) (next : Nat),
    faultOf? (predicates next cs) = (nodesList cs).findSome? nodeFault?
  | [], _ => rfl
  | c :: cs, next => by
    rw [predicates, faultOf?_bind (r := (nodesList cs).findSome? nodeFault?)
      fun _ => faultOf?_bind_ok.trans (faultOf?_predicates cs _), faultOf?_predicate c next,
      nodesList, List.findSome?_append]

end

/-- The condition of a statement stops at its first faulty node.  A query for every record writes no
condition, and has no node that could be at fault. -/
theorem faultOf?_whereChars (c : Criteria) :
    faultOf? (whereChars c) = c.nodes.findSome? nodeFault? := by
  by_cases hall : c = .all
  · rw [hall]
    rfl
  · have hwhere : whereChars c = (predicate 0 c >>= fun p => .ok (" WHERE ".toList ++ p)) := by
      cases c <;> first | exact absurd rfl hall | rfl
    rw [hwhere, faultOf?_bind_ok, faultOf?_predicate]

/-- The order stops at the first field with a fault. -/
theorem faultOf?_orderChars (keys : List SortKey) :
    faultOf? (orderChars keys) = keys.findSome? fun k => pathFault? k.field := by
  have hentry : ∀ k : SortKey, faultOf? (orderEntry k) = pathFault? k.field :=
    fun k => faultOf?_bind_ok.trans (faultOf?_fieldChars k.field)
  cases keys with
  | nil => rfl
  | cons k keys =>
    rw [orderChars, faultOf?_bind_ok, faultOf?_mapM]
    · simp only [hentry]
    · exact nofun

/-! ## Statements -/

/-- What is wrong with a query in a shape.  A number of records has no order to look at. -/
def queryFault? (shape : Shape) (q : Query) : Option QueryFault :=
  (q.criteria.nodes.findSome? nodeFault?).or (match shape with
    | .find => q.effectiveSort.findSome? fun k => pathFault? k.field
    | .count => none)

/-- **What stops a statement is the first fault of its query.** -/
theorem faultOf?_ofQuery (shape : Shape) (q : Query) :
    faultOf? (ofQuery shape q) = queryFault? shape q := by
  rw [ofQuery_eq, queryFault?.eq_def, ← faultOf?_whereChars]
  refine faultOf?_bind fun condition => ?_
  cases shape with
  | find => exact faultOf?_bind_ok.trans (faultOf?_orderChars _)
  | count => rfl

/-- No node has a fault exactly if all are sound. -/
theorem nodeFaults_eq_none_iff {c : Criteria} :
    c.nodes.findSome? nodeFault? = none ↔ ∀ n ∈ c.nodes, n.Sound := by
  simp only [List.findSome?_eq_none_iff, Criteria.nodeFault?_eq_none_iff]

/-- For its matches a query asks for sound criteria and a sound sort. -/
theorem find_ok_iff {q : Query} : (∃ s, ofQuery .find q = .ok s) ↔
    (∀ c ∈ q.criteria.nodes, c.Sound) ∧ ∀ k ∈ q.effectiveSort, SoundPath k.field := by
  have hsort : (q.effectiveSort.findSome? fun k => pathFault? k.field) = none ↔
      ∀ k ∈ q.effectiveSort, SoundPath k.field := by
    simp only [List.findSome?_eq_none_iff, pathFault?_eq_none_iff]
  rw [← faultOf?_eq_none_iff, faultOf?_ofQuery, queryFault?, Option.or_eq_none_iff,
    nodeFaults_eq_none_iff, hsort]

/-- **A query compiles exactly if all its parts are sound.**  For the number of its matches these
are the nodes of its tree; for the matches also the fields of its sort.  Otherwise the fault is that
of the first node that is not sound, or, if all are, of the first such field. -/
theorem compiles_iff_sound (q : Query) :
    ((∃ s, ofQuery .count q = .ok s) ↔ ∀ c ∈ q.criteria.nodes, c.Sound)
    ∧ ((∃ s, ofQuery .find q = .ok s) ↔
      (∀ c ∈ q.criteria.nodes, c.Sound) ∧ ∀ k ∈ q.effectiveSort, SoundPath k.field)
    ∧ ∀ shape e, (ofQuery shape q).mapError AccessError.queryCompilation = .error e ↔
      ∃ f, queryFault? shape q = some f ∧ e = .queryCompilation f := by
  refine ⟨?_, find_ok_iff, ?_⟩
  · rw [← faultOf?_eq_none_iff, faultOf?_ofQuery, queryFault?, Option.or_none,
      nodeFaults_eq_none_iff]
  · intro shape e
    constructor
    · intro h
      obtain ⟨f, hf, rfl⟩ := error_of_mapError h
      exact ⟨f, by rw [← faultOf?_ofQuery, hf]; rfl, rfl⟩
    · rintro ⟨f, hf, rfl⟩
      rw [← faultOf?_ofQuery, faultOf?_eq_some_iff] at hf
      rw [hf]
      rfl

/-- The empty group comes before the membership test without values, and both before the sort. -/
example : queryFault? .find ⟨.and [.isNull "a", .not (.or []), .oneOf "b.c" []], none,
    [⟨"d.", .ascending⟩]⟩ = some (.emptyGroup .or) := by decide

end Statement

end DocQuery
