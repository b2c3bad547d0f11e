/-
  Filters that say the same.

  Undefined is a third truth value, so the laws of two values need not hold: a document may meet
  neither a filter nor its negation.  The laws below do, whatever a document holds.  Each is about
  truth values alone; how a filter is written, read again and run has no part in it.

  1. `allThree_append`, `not_allThree`: groups of truth values;
  2. `Comparison.opposite`, `anyThree_equals`: comparisons, and tests for membership;
  3. `Criteria.Equivalent`: the laws, in any surrounding tree;
  4. `Equivalent.truth_eq`, `Equivalent.allSound_iff`: a law changes neither the meaning of a tree
     nor whether it can be written, by induction on the derivation;
  5. `Client.find_equivalent`: what is found and counted for equivalent filters, for clauses, and
     for a filter and its negation.
-/
import DocQuery.Proofs.Agreement
import DocQuery.Proofs.Compilation
import DocQuery.Proofs.Pinning

namespace DocQuery

open Dialect (andThree orThree compareThree)

/-! ## Groups of truth values -/

section Groups

variable (t u v : Option Bool) (ts us : List (Option Bool))

/-- `AND` with three truth values is associative. -/
theorem andThree_assoc : andThree (andThree t u) v = andThree t (andThree u v) := by
  rcases t with _ | _ | _ <;> rcases u with _ | _ | _ <;> rcases v with _ | _ | _ <;> rfl

/-- `OR` with three truth values is associative. -/
theorem orThree_assoc : orThree (orThree t u) v = orThree t (orThree u v) := by
  rcases t with _ | _ | _ <;> rcases u with _ | _ | _ <;> rcases v with _ | _ | _ <;> rfl

/-- The negation of a conjunction is the disjunction of the negations, also where a side is
undefined. -/
theorem not_andThree : (andThree t u).map (!·) = orThree (t.map (!·)) (u.map (!·)) := by
  rcases t with _ | _ | _ <;> rcases u with _ | _ | _ <;> rfl

/-- And the other way around. -/
theorem not_orThree : (orThree t u).map (!·) = andThree (t.map (!·)) (u.map (!·)) := by
  rcases t with _ | _ | _ <;> rcases u with _ | _ | _ <;> rfl

/-- Negating twice is nothing, and undefined stays undefined. -/
theorem not_not_three : (t.map (!·)).map (!·) = t := by
  rcases t with _ | _ | _ <;> rfl

/-- A group is its first member and the rest. -/
theorem allThree_cons : allThree (t :: ts) = andThree t (allThree ts) := by
  induction ts generalizing t with
  | nil => rcases t with _ | _ | _ <;> rfl
  | cons u ts ih => rw [← Dialect.allThree_gather, ih, ih, andThree_assoc]

theorem anyThree_cons : anyThree (t :: ts) = orThree t (anyThree ts) := by
  induction ts generalizing t with
  | nil => rcases t with _ | _ | _ <;> rfl
  | cons u ts ih => rw [← Dialect.anyThree_gather, ih, ih, orThree_assoc]

/-- The conjunction of two groups put together is that of their conjunctions. -/
theorem allThree_append : allThree (ts ++ us) = andThree (allThree ts) (allThree us) := by
  induction ts with
  | nil =>
    rw [List.nil_append]
    rcases allThree us with _ | _ | _ <;> rfl
  | cons t ts ih => rw [List.cons_append, allThree_cons, ih, allThree_cons, andThree_assoc]

theorem anyThree_append : anyThree (ts ++ us) = orThree (anyThree ts) (anyThree us) := by
  induction ts with
  | nil =>
    rw [List.nil_append]
    rcases anyThree us with _ | _ | _ <;> rfl
  | cons t ts ih => rw [List.cons_append, anyThree_cons, ih, anyThree_cons, orThree_assoc]

/-- De Morgan for groups: the negation of a conjunction is the disjunction of the negations. -/
theorem not_allThree : (allThree ts).map (!·) = anyThree (ts.map (·.map (!·))) := by
  induction ts with
  | nil => rfl
  | cons t ts ih => rw [allThree_cons, not_andThree, ih, List.map_cons, anyThree_cons]

/-- De Morgan for the disjunction of a group. -/
theorem not_anyThree : (anyThree ts).map (!·) = allThree (ts.map (·.map (!·))) := by
  induction ts with
  | nil => rfl
  | cons t ts ih => rw [anyThree_cons, not_orThree, ih, List.map_cons, allThree_cons]

variable {ts us}

/-- A group asks which values there are, and not where. -/
theorem allThree_perm (h : ts.Perm us) : allThree ts = allThree us := by
  simp only [allThree, h.mem_iff]

/-- The order within a disjunction does not matter either. -/
theorem anyThree_perm (h : ts.Perm us) : anyThree ts = anyThree us := by
  simp only [anyThree, h.mem_iff]

end Groups

/-! ## Leaves -/

/-- The comparison that is true where another is false. -/
def Comparison.opposite : Comparison → Comparison
  | eq => ne
  | ne => eq
  | gt => le
  | ge => lt
  | lt => ge
  | le => gt

/-- Where values have no order, neither a comparison nor its opposite is defined. -/
theorem compareThree_opposite (op : Comparison) (v w : Value) :
    compareThree op.opposite v w = (compareThree op v w).map (!·) := by
  cases op with
  | eq => rfl
  | ne => exact congrArg some (Bool.not_not _).symm
  | gt | ge | lt | le =>
    simp only [compareThree, Comparison.opposite]
    cases v.comparable w <;> simp [bne]

/-- A test for membership asks for equality with one value after the other. -/
theorem anyThree_equals (w : Value) (vs : List Value) :
    anyThree (vs.map fun v => some (w.equals v)) = some (vs.any w.equals) := by
  induction vs with
  | nil => rfl
  | cons v vs ih =>
    rw [List.map_cons, anyThree_cons, ih, List.any_cons]
    cases w.equals v <;> cases vs.any w.equals <;> rfl

/-- Of nothing but undefined values none is true. -/
theorem anyThree_undefined {vs : List Value} (h : vs ≠ []) :
    anyThree (vs.map fun _ => none) = none := by
  obtain ⟨v, vs, rfl⟩ := List.exists_cons_of_ne_nil h
  simp [anyThree]

namespace Criteria

/-- The truth values of some criteria, one by one. -/
theorem truths_eq_map (d : Document) (cs : List Criteria) : truths d cs = cs.map (truth d) := by
  induction cs with
  | nil => rfl
  | cons c cs ih => rw [truths, ih, List.map_cons]

/-! ## Laws -/

/-- Trees that are one when the laws of filters are used anywhere in them. -/
inductive Equivalent : Criteria → Criteria → Prop
  | refl (a : Criteria) : Equivalent a a
  | symm {a b : Criteria} (h : Equivalent a b) : Equivalent b a
  | trans {a b c : Criteria} (h : Equivalent a b) (h' : Equivalent b c) : Equivalent a c
  -- connectives
  | notNot (a : Criteria) : Equivalent (.not (.not a)) a
  | notAnd (cs : List Criteria) : Equivalent (.not (.and cs)) (.or (cs.map .not))
  | notOr (cs : List Criteria) : Equivalent (.not (.or cs)) (.and (cs.map .not))
  | andPerm {cs ds : List Criteria} (h : cs.Perm ds) : Equivalent (.and cs) (.and ds)
  | orPerm {cs ds : List Criteria} (h : cs.Perm ds) : Equivalent (.or cs) (.or ds)
  | andFlatten (before behind : List Criteria) {cs : List Criteria} (h : cs ≠ []) :
    Equivalent (.and (before ++ .and cs :: behind)) (.and (before ++ (cs ++ behind)))
  | orFlatten (before behind : List Criteria) {cs : List Criteria} (h : cs ≠ []) :
    Equivalent (.or (before ++ .or cs :: behind)) (.or (before ++ (cs ++ behind)))
  | clauses (c : Criteria) (cs : List Criteria) :
    Equivalent (ofClauses (c :: cs)) (.and (c :: cs))
  -- leaves
  | oneOf (f : String) {vs : List Value} (h : vs ≠ []) :
    Equivalent (.oneOf f vs) (.or (vs.map (.compare .eq f)))
  | opposite (op : Comparison) (f : String) (v : Value) :
    Equivalent (.compare op.opposite f v) (.not (.compare op f v))
  | isNotNull (f : String) : Equivalent (.isNotNull f) (.not (.isNull f))
  -- surrounding trees
  | inNot {a b : Criteria} (h : Equivalent a b) : Equivalent (.not a) (.not b)
  | inAnd (before behind : List Criteria) {a b : Criteria} (h : Equivalent a b) :
    Equivalent (.and (before ++ a :: behind)) (.and (before ++ b :: behind))
  | inOr (before behind : List Criteria) {a b : Criteria} (h : Equivalent a b) :
    Equivalent (.or (before ++ a :: behind)) (.or (before ++ b :: behind))

/-! ## Meaning -/

section Meaning

variable (d : Document)

/-- A conjunction is true if all its children are, and false if one is. -/
theorem truth_and (cs : List Criteria) : (and cs).truth d = allThree (cs.map (truth d)) := by
  rw [truth, truths_eq_map]

/-- A disjunction is true if one of its children is, and false if all are. -/
theorem truth_or (cs : List Criteria) : (or cs).truth d = anyThree (cs.map (truth d)) := by
  rw [truth, truths_eq_map]

/-- A negation turns its child around. -/
theorem truth_not (c : Criteria) : c.not.truth d = (c.truth d).map (!·) := by
  rw [truth]

/-- Negated children have negated truth values. -/
theorem truth_map_not (cs : List Criteria) :
    (cs.map not).map (truth d) = (cs.map (truth d)).map (·.map (!·)) := by
  rw [List.map_map, List.map_map]
  exact List.map_congr_left fun c _ => truth_not d c

/-- Clauses mean their conjunction; a single one has no group around it. -/
theorem truth_ofClauses (c : Criteria) (cs : List Criteria) :
    (ofClauses (c :: cs)).truth d = (and (c :: cs)).truth d := by
  cases cs with
  | nil =>
    rw [truth_and, List.map_singleton]
    show c.truth d = _
    rcases c.truth d with _ | _ | _ <;> rfl
  | cons c' cs => rfl

/-- A test for membership means a disjunction of equalities.  Without the field all of them are
undefined, and so is the test. -/
theorem truth_oneOf (f : String) {vs : List Value} (h : vs ≠ []) :
    (oneOf f vs).truth d = (or (vs.map (compare .eq f))).truth d := by
  have hleaves : (vs.map (compare .eq f)).map (truth d)
      = vs.map fun v => (d.field? f).bind fun w => compareThree .eq w v := by
    rw [List.map_map]
    exact List.map_congr_left fun v _ => by rw [Function.comp_apply, truth]
  rw [truth_or, hleaves, truth]
  -- without the field every equality is undefined
  cases d.field? f with
  | none => exact (anyThree_undefined h).symm
  | some w => exact (anyThree_equals w vs).symm

/-- The opposite comparison means the negation.  Where the sides do not compare both are undefined.
-/
theorem truth_opposite (op : Comparison) (f : String) (v : Value) :
    (compare op.opposite f v).truth d = ((compare op f v).not).truth d := by
  rw [truth_not, truth, truth]
  cases d.field? f with
  | none => rfl
  | some w => exact compareThree_opposite op w v

/-- **A law keeps the truth value of a tree**, on every document. -/
theorem Equivalent.truth_eq {a b : Criteria} (h : Equivalent a b) : a.truth d = b.truth d := by
  induction h with
  | refl => rfl
  | symm _ ih => exact ih.symm
  | trans _ _ ih ih' => exact ih.trans ih'
  | notNot => rw [truth_not, truth_not, not_not_three]
  | notAnd => rw [truth_not, truth_and, truth_or, truth_map_not, not_allThree]
  | notOr => rw [truth_not, truth_or, truth_and, truth_map_not, not_anyThree]
  | andPerm h => rw [truth_and, truth_and, allThree_perm (h.map _)]
  | orPerm h => rw [truth_or, truth_or, anyThree_perm (h.map _)]
  | andFlatten =>
    rw [truth_and, truth_and, List.map_append, List.map_append, List.map_append, List.map_cons,
      truth_and, allThree_append, allThree_append, allThree_append, allThree_cons]
  | orFlatten =>
    rw [truth_or, truth_or, List.map_append, List.map_append, List.map_append, List.map_cons,
      truth_or, anyThree_append, anyThree_append, anyThree_append, anyThree_cons]
  | clauses c cs => exact truth_ofClauses d c cs
  | oneOf f h => exact truth_oneOf d f h
  | opposite op f v => exact truth_opposite d op f v
  | isNotNull => rfl
  | inNot _ ih => rw [truth_not, truth_not, ih]
  | inAnd _ _ _ ih =>
    rw [truth_and, truth_and, List.map_append, List.map_append, List.map_cons, List.map_cons, ih]
  | inOr _ _ _ ih =>
    rw [truth_or, truth_or, List.map_append, List.map_append, List.map_cons, List.map_cons, ih]

/-- No document meets a filter and its negation. -/
theorem meets_not {c : Criteria} (h : c.meets d = true) : c.not.meets d = false := by
  have htrue : c.truth d = some true := eq_of_beq h
  rw [meets, truth_not, htrue]
  rfl

/-- A document meets clauses if it meets each. -/
theorem meets_ofClauses (cs : List Criteria) :
    (ofClauses cs).meets d = cs.all fun c => c.meets d := by
  cases cs with
  | nil => rfl
  | cons c cs =>
    rw [Bool.eq_iff_iff, List.all_eq_true, meets, beq_iff_eq, truth_ofClauses, truth_and,
      allThree_eq_true_iff, List.forall_mem_map]
    exact forall₂_congr fun c _ => beq_iff_eq.symm

end Meaning

/-! ## Soundness -/

/-- All that a query asks of its criteria. -/
def AllSound (c : Criteria) : Prop :=
  ∀ n ∈ c.nodes, n.Sound

/-- The nodes of some trees, tree by tree. -/
theorem nodesList_eq_flatMap (cs : List Criteria) : nodesList cs = cs.flatMap nodes := by
  induction cs with
  | nil => rfl
  | cons c cs ih => rw [nodesList, ih, List.flatMap_cons]

/-- A group must have children, and be sound below. -/
theorem allSound_group {c : Criteria} (hkind : c.kind = .and ∨ c.kind = .or)
    (hnodes : c.nodes = c :: nodesList c.children) (hsubject : c.subject? = none) :
    c.AllSound ↔ c.children ≠ [] ∧ ∀ b ∈ c.children, b.AllSound := by
  have hone : c.kind ≠ .oneOf := by
    rintro h
    rw [h] at hkind
    exact hkind.elim nofun nofun
  have hbelow : (∀ n ∈ nodesList c.children, n.Sound) ↔ ∀ b ∈ c.children, b.AllSound := by
    rw [nodesList_eq_flatMap]
    exact List.forall_mem_flatMap
  rw [AllSound, hnodes, List.forall_mem_cons, hbelow]
  exact and_congr_left fun _ =>
    ⟨fun h => h.children hkind, fun h => sound_group hsubject hone h⟩

/-- A conjunction must have children, and those must be sound. -/
theorem allSound_and {cs : List Criteria} :
    (and cs).AllSound ↔ cs ≠ [] ∧ ∀ c ∈ cs, c.AllSound :=
  allSound_group (.inl rfl) rfl rfl

theorem allSound_or {cs : List Criteria} : (or cs).AllSound ↔ cs ≠ [] ∧ ∀ c ∈ cs, c.AllSound :=
  allSound_group (.inr rfl) rfl rfl

/-- A negation is as sound as its child. -/
theorem allSound_not {c : Criteria} : c.not.AllSound ↔ c.AllSound := by
  have hthis : c.not.Sound := sound_group rfl nofun (List.cons_ne_nil c [])
  rw [AllSound, nodes, List.forall_mem_cons]
  exact and_iff_right hthis

/-- Leaves with a fixed number of operands are as sound as their fields. -/
theorem allSound_compare {op : Comparison} {f : String} {v : Value} :
    (compare op f v).AllSound ↔ SoundPath f := by
  rw [AllSound, nodes, List.forall_mem_singleton]
  cases op <;> exact sound_leaf_iff rfl nofun nofun nofun

/-- A test for null is as sound as the path of its field. -/
theorem allSound_isNull {f : String} : (isNull f).AllSound ↔ SoundPath f := by
  rw [AllSound, nodes, List.forall_mem_singleton]
  exact sound_leaf_iff rfl nofun nofun nofun

theorem allSound_isNotNull {f : String} : (isNotNull f).AllSound ↔ SoundPath f := by
  rw [AllSound, nodes, List.forall_mem_singleton]
  exact sound_leaf_iff rfl nofun nofun nofun

/-- A test for membership is as sound as the path of its field, if there is a value to be a member
of. -/
theorem allSound_oneOf {f : String} {vs : List Value} (h : vs ≠ []) :
    (oneOf f vs).AllSound ↔ SoundPath f := by
  rw [AllSound, nodes, List.forall_mem_singleton]
  exact ⟨fun hc => hc.subject f rfl, fun hf => ⟨nofun, fun _ => h, by rintro _ ⟨⟩; exact hf⟩⟩

/-- The equalities that a test for membership stands for are as sound as the path they share. -/
theorem allSound_equals {f : String} {vs : List Value} (h : vs ≠ []) :
    (or (vs.map (compare .eq f))).AllSound ↔ SoundPath f := by
  obtain ⟨v, hv⟩ := List.exists_mem_of_ne_nil vs h
  rw [allSound_or, List.forall_mem_map]
  simp only [allSound_compare]
  exact ⟨fun hc => hc.2 v hv, fun hf => ⟨mt List.map_eq_nil_iff.mp h, fun _ _ => hf⟩⟩

/-- Clauses are as sound as their conjunction. -/
theorem allSound_ofClauses (c : Criteria) (cs : List Criteria) :
    (ofClauses (c :: cs)).AllSound ↔ (and (c :: cs)).AllSound := by
  cases cs with
  | nil =>
    rw [allSound_and, List.forall_mem_singleton]
    exact (and_iff_right (List.cons_ne_nil c [])).symm
  | cons => rfl

/-- Each of some sound clauses is sound. -/
theorem allSound_of_ofClauses {cs : List Criteria} (h : (ofClauses cs).AllSound) :
    ∀ c ∈ cs, c.AllSound := by
  cases cs with
  | nil => exact fun _ hc => absurd hc List.not_mem_nil
  | cons c cs => exact (allSound_and.mp ((allSound_ofClauses c cs).mp h)).2

/-- **A law keeps the soundness of a tree.** -/
theorem Equivalent.allSound_iff {a b : Criteria} (h : Equivalent a b) :
    a.AllSound ↔ b.AllSound := by
  induction h with
  | refl => rfl
  | symm _ ih => exact ih.symm
  | trans _ _ ih ih' => exact ih.trans ih'
  | notNot => rw [allSound_not, allSound_not]
  | notAnd => simp only [allSound_not, allSound_and, allSound_or, List.map_eq_nil_iff, ne_eq,
      List.forall_mem_map]
  | notOr => simp only [allSound_not, allSound_and, allSound_or, List.map_eq_nil_iff, ne_eq,
      List.forall_mem_map]
  | andPerm h => simp only [allSound_and, ne_eq, ← List.length_eq_zero_iff, h.length_eq, h.mem_iff]
  | orPerm h => simp only [allSound_or, ne_eq, ← List.length_eq_zero_iff, h.length_eq, h.mem_iff]
  | andFlatten before behind h => simp [allSound_and, or_imp, forall_and, h]
  | orFlatten before behind h => simp [allSound_or, or_imp, forall_and, h]
  | clauses c cs => exact allSound_ofClauses c cs
  | oneOf f h => rw [allSound_oneOf h, allSound_equals h]
  | opposite => rw [allSound_not, allSound_compare, allSound_compare]
  | isNotNull => rw [allSound_not, allSound_isNull, allSound_isNotNull]
  | inNot _ ih => rw [allSound_not, allSound_not, ih]
  | inAnd _ _ _ ih => simp [allSound_and, or_imp, forall_and, ih]
  | inOr _ _ _ ih => simp [allSound_or, or_imp, forall_and, ih]

end Criteria

/-! ## What is found -/

namespace Client

open Store (Settings found sorted)

variable {settings : Settings} {database : String} {metrics : Bool} {s : Store} {name : String}
variable {q : Query} {statement : Statement} {coll : Collection}

/-- A query delivers some records, each read as an entity of any type without partitions: these and
in this order if its sort orders them, these in some order whenever it finds a list at all; and as
many are counted. -/
def Delivers (settings : Settings) (database : String) (metrics : Bool) (s : Store)
    (name : String) (q : Query) (ds : List Document) : Prop :=
  ∀ (α : Type) (e : EntityType α) (m : Metadata),
    Metadata.ofDeclaration e.toEntityDeclaration = .ok m → m.partitionField = none →
    (q.Orders ds → ((ofStore settings database metrics).find e name q).Settles s
      ((ds.mapM e.read).mapError .mapping))
    ∧ (∀ list, ((ofStore settings database metrics).find e name q).Settles s (.ok list) →
      ∃ ds' : List Document, ds'.Perm ds ∧ ds'.mapM e.read = .ok list)
    ∧ ((ofStore settings database metrics).count e name q).Settles s (.ok ds.length)

/-- Only the order of a query sorts. -/
theorem sorted_congr {q q' : Dialect.Select} (h : q.order = q'.order) (ds : List Document) :
    sorted q ds = sorted q' ds := by
  rw [sorted, sorted, h]

/-- Finding comes to the matches as they are sorted, and counting to their number. -/
theorem outcomes {α : Type} {e : EntityType α} {m : Metadata} (hmemory : s.FitsMemory)
    (hcap : ∀ n, settings.maxItems = some n → 1 ≤ n)
    (hm : Metadata.ofDeclaration e.toEntityDeclaration = .ok m) (hpart : m.partitionField = none)
    (hc : s.collection? name = some coll) (hname : Text.isBlank name = false)
    (hst : Statement.ofQuery .find q = .ok statement) :
    ((ofStore settings database metrics).find e name q).Settles s
      (((sorted (q.select .find) (coll.records.filter q.criteria.meets)).mapM e.read).mapError
        .mapping)
    ∧ ((ofStore settings database metrics).count e name q).Settles s
      (.ok (coll.records.filter q.criteria.meets).length) := by
  have hf : found s name q.criteria (fansOut m q)
      = .ok (coll.records.filter q.criteria.meets) := by
    rw [fansOut_of_unpartitioned hpart]
    exact found_all hc
  obtain ⟨counting, hcounting⟩ := ofQuery_count hst
  have hsize := Store.length_le_of_found hmemory hf
  exact ⟨find_settles hname hm hst hcap hsize hf, count_settles hname hm hcounting hsize hf⟩

/-- A query delivers its matches. -/
theorem delivers (hmemory : s.FitsMemory) (hcap : ∀ n, settings.maxItems = some n → 1 ≤ n)
    (hc : s.collection? name = some coll) (hname : Text.isBlank name = false)
    (hst : Statement.ofQuery .find q = .ok statement) :
    Delivers settings database metrics s name q
      (sorted (q.select .find) (coll.records.filter q.criteria.meets)) := by
  intro α e m hm hpart
  obtain ⟨hfind, hcount⟩ : ((ofStore settings database metrics).find e name q).Settles s _
      ∧ ((ofStore settings database metrics).count e name q).Settles s _ :=
    outcomes hmemory hcap hm hpart hc hname hst
  refine ⟨fun _ => hfind, fun list hlist => ⟨_, .refl _, ?_⟩, ?_⟩
  · exact ok_of_mapError (hfind.unique hlist)
  · rw [length_sorted]
    exact hcount

/-- What finding and counting come to depends on the sort, and on which records meet the
criteria; also where there is nothing to find. -/
theorem outcomes_of_meets {α : Type} {e : EntityType α} {m : Metadata} (hmemory : s.FitsMemory)
    (hcap : ∀ n, settings.maxItems = some n → 1 ≤ n)
    (hm : Metadata.ofDeclaration e.toEntityDeclaration = .ok m) (hpart : m.partitionField = none)
    (name : String) (keys : List SortKey) (test : Document → Bool) :
    ∃ r n, ∀ (q : Query) (statement : Statement), Statement.ofQuery .find q = .ok statement →
      q.effectiveSort = keys → q.criteria.meets = test →
      ((ofStore settings database metrics).find e name q).Settles s r
      ∧ ((ofStore settings database metrics).count e name q).Settles s n := by
  cases hname : Text.isBlank name with
  | true =>
    -- the name is looked at before anything else
    have hcheck : requireText "collection name" name = .error (.blank "collection name") := by
      rw [requireText, if_pos hname]
    refine ⟨.error (.invalidArgument (.blank "collection name")),
      .error (.invalidArgument (.blank "collection name")), fun q st _ _ _ => ?_⟩
    rw [find, count, hcheck]
    exact ⟨.bind_error (.checking _), .bind_error (.checking _)⟩
  | false =>
    cases hc : s.collection? name with
    | none =>
      let f := Store.Fault.noCollection name
      refine ⟨AccessError.recover .find [] (.error (.translate .find f.error)),
        .error (.translate .count f.error), fun q st hst _ _ => ?_⟩
      have hf : found s name q.criteria (fansOut m q) = .error (.noCollection name) := by
        rw [found, hc]
      obtain ⟨counting, hcounting⟩ := ofQuery_count hst
      exact ⟨find_fault hname hm hst hf, count_fault hname hm hcounting hf⟩
    | some coll =>
      -- any query of this order sorts like the others
      let ordered : Dialect.Select := ⟨.all, none, keys.map SortKey.entry⟩
      refine ⟨((sorted ordered (coll.records.filter test)).mapM e.read).mapError .mapping,
        .ok (coll.records.filter test).length, fun q st hst hsort hmeets => ?_⟩
      have horder : (q.select .find).order = ordered.order :=
        congrArg (List.map SortKey.entry) hsort
      have hboth : ((ofStore settings database metrics).find e name q).Settles s _
          ∧ ((ofStore settings database metrics).count e name q).Settles s _ :=
        outcomes hmemory hcap hm hpart hc hname hst
      rw [hmeets, sorted_congr horder] at hboth
      exact hboth

/-- **Equivalent filters find the same.**  Where one compiles so does the other, and finding and
counting come to the same for both, under whatever name they are asked for.  Clauses deliver the
records that each of them delivers, and no record is delivered for a filter and for its negation;
what is delivered comes in the order of the sort if that orders it. -/
theorem find_equivalent (hmemory : s.FitsMemory)
    (hcap : ∀ n, settings.maxItems = some n → 1 ≤ n)
    (hst : Statement.ofQuery .find q = .ok statement) :
    (∀ c, q.criteria.Equivalent c →
      (∃ statement', Statement.ofQuery .find { q with criteria := c } = .ok statement')
      ∧ ∀ (α : Type) (e : EntityType α) (m : Metadata),
        Metadata.ofDeclaration e.toEntityDeclaration = .ok m → m.partitionField = none →
        ∃ r n, ∀ q' ∈ [q, { q with criteria := c }],
          ((ofStore settings database metrics).find e name q').Settles s r
          ∧ ((ofStore settings database metrics).count e name q').Settles s n)
    ∧ ∀ coll, s.collection? name = some coll → Text.isBlank name = false →
      (∀ cs, q.criteria = .ofClauses cs →
        Delivers settings database metrics s name q
          (sorted (q.select .find) (coll.records.filter fun d => cs.all fun c => c.meets d))
        ∧ ∀ c ∈ cs, Delivers settings database metrics s name { q with criteria := c }
          (sorted (q.select .find) (coll.records.filter c.meets)))
      ∧ ∃ ds es, Delivers settings database metrics s name q ds
        ∧ Delivers settings database metrics s name { q with criteria := .not q.criteria } es
        ∧ ∀ d ∈ ds, d ∉ es := by
  obtain ⟨hsound, hsort⟩ := Statement.find_ok_iff.mp ⟨statement, hst⟩
  have hcompiles : ∀ c : Criteria, c.AllSound →
      ∃ statement', Statement.ofQuery .find { q with criteria := c } = .ok statement' :=
    fun c hc => Statement.find_ok_iff.mpr ⟨hc, hsort⟩
  refine ⟨fun c h => ?_, fun coll hc hname => ⟨?_, ?_⟩⟩
  · obtain ⟨statement', hst'⟩ := hcompiles c (h.allSound_iff.mp hsound)
    refine ⟨⟨statement', hst'⟩, fun α e m hm hpart => ?_⟩
    -- the outcomes hang on the criteria only by what meets them
    obtain ⟨r, n, hboth⟩ :=
      outcomes_of_meets hmemory hcap hm hpart name q.effectiveSort q.criteria.meets
    have hmeets : c.meets = q.criteria.meets :=
      funext fun d => congrArg (· == some true) (h.truth_eq d).symm
    refine ⟨r, n, List.forall_mem_cons.mpr ⟨hboth q statement hst rfl rfl, ?_⟩⟩
    exact List.forall_mem_singleton.mpr (hboth _ statement' hst' rfl hmeets)
  · intro cs hcs
    have hmeets : q.criteria.meets = fun d => cs.all fun c => c.meets d := by
      rw [hcs]
      exact funext fun d => Criteria.meets_ofClauses d cs
    refine ⟨?_, fun c hmem => ?_⟩
    · rw [← hmeets]
      exact delivers hmemory hcap hc hname hst
    · rw [hcs] at hsound
      obtain ⟨statement', hst'⟩ := hcompiles c (Criteria.allSound_of_ofClauses hsound c hmem)
      exact delivers hmemory hcap hc hname hst'
  · obtain ⟨negated, hnegated⟩ := hcompiles (.not q.criteria) (Criteria.allSound_not.mpr hsound)
    refine ⟨_, _, delivers hmemory hcap hc hname hst, delivers hmemory hcap hc hname hnegated, ?_⟩
    -- what makes the criteria true makes their negation false
    intro d hd hd'
    have hmeets := (List.mem_filter.mp ((sorted_perm _ _).mem_iff.mp hd)).2
    have hmeets' := (List.mem_filter.mp ((sorted_perm _ _).mem_iff.mp hd')).2
    rw [Criteria.meets_not d hmeets] at hmeets'
    cases hmeets'

/-- The query for adults with its negation pushed to the leaves. -/
def spelledOut : Query :=
  { adults with criteria := .ofClauses [.compare .ge "age" (.int32 18), .isNotNull "id"] }

/-- Two laws below the root, and one at the root. -/
theorem spelledOut_equivalent : spelledOut.criteria.Equivalent adults.criteria := by
  have hleft : Criteria.Equivalent spelledOut.criteria
      (.and [.not (.compare .lt "age" (.int32 18)), .isNotNull "id"]) :=
    .inAnd [] _ (.opposite .lt "age" (.int32 18))
  have hright : Criteria.Equivalent
      (.and [.not (.compare .lt "age" (.int32 18)), .isNotNull "id"])
      (.and [.not (.compare .lt "age" (.int32 18)), .not (.isNull "id")]) :=
    .inAnd [.not (.compare .lt "age" (.int32 18))] [] (.isNotNull "id")
  exact (hleft.trans hright).trans (.symm (.notOr [.compare .lt "age" (.int32 18), .isNull "id"]))

/-- People of unknown age are neither adults nor the opposite.  The ages are integers, so they are
in order. -/
theorem find_equivalent_adults :
    (∃ r n, ∀ q ∈ [spelledOut, adults],
      ((ofStore oneByOne "db" false).find (.records { name := "Record" }) "people" q).Settles
        (Store.put {} "people" people) r
      ∧ ((ofStore oneByOne "db" false).count (.records { name := "Record" }) "people" q).Settles
        (Store.put {} "people" people) n)
    ∧ spelledOut.Orders [[("id", .text "f"), ("age", .int32 41)],
      [("id", .text "a"), ("age", .int32 30)], [("id", .text "e"), ("age", .int64 30)]]
    ∧ Delivers oneByOne "db" false (Store.put {} "people" people) "people" spelledOut
      [[("id", .text "f"), ("age", .int32 41)], [("id", .text "a"), ("age", .int32 30)],
        [("id", .text "e"), ("age", .int64 30)]]
    ∧ ∃ ds es, Delivers oneByOne "db" false (Store.put {} "people" people) "people" spelledOut ds
      ∧ Delivers oneByOne "db" false (Store.put {} "people" people) "people"
        { spelledOut with criteria := .not spelledOut.criteria } es
      ∧ ∀ d ∈ ds, d ∉ es := by
  obtain ⟨statement, hst⟩ : ∃ statement, Statement.ofQuery .find spelledOut = .ok statement :=
    ⟨_, rfl⟩
  obtain ⟨hlaws, hrest⟩ := @find_equivalent oneByOne "db" false _ "people" spelledOut statement
    fitsMemory_people oneByOne_allows hst
  obtain ⟨hclauses, hnegation⟩ := hrest people rfl rfl
  obtain ⟨-, houtcomes⟩ := hlaws adults.criteria spelledOut_equivalent
  obtain ⟨hboth, -⟩ := hclauses [.compare .ge "age" (.int32 18), .isNotNull "id"] rfl
  refine ⟨houtcomes _ (.records { name := "Record" }) _ rfl rfl, ?_, hboth, hnegation⟩
  refine Query.orders_of_exact fun d hd k hk v hv => ?_
  obtain rfl := List.mem_singleton.mp hk
  simp only [List.mem_cons, List.not_mem_nil, or_false] at hd
  rcases hd with rfl | rfl | rfl <;> cases hv <;> rfl

end Client

end DocQuery
