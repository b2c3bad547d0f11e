/-
  Refused arguments, and what is left behind.

  An argument is refused before anything is called, and no call is refused as an argument.  There is
  one exception: to delete by a query the matches must be known first, and one of them may lack the
  field of its partition.  Then the matches were asked for, but nothing was deleted.

  A step never rejects, or it is early, or it is neither; a sequence of an early step and one that
  never rejects is early, and that is how the operations are built, checks in front and calls
  behind.  Deleting by a query is the one that is not.  There the checks behind the first calls
  are those of the plan, so what is shown is that the calls by then were queries, which leave the
  store alone, and that the record without a plan is a match that the store really holds.

  1. `Access.Never`: steps that do not fail with some errors, calls among them;
  2. `Access.Early`: steps that refuse an argument only while nothing was reported;
  3. `find_early` to `deleteCollection_early`: operations of one kind each;
  4. `delete_refuses`: the exception, and `follow_held`: what a store answers with is what it holds;
  5. `Request.refused_untouched`: all requests to a store.
-/
import DocQuery.Proofs.Requests

namespace DocQuery

variable {σ α β : Type}

/-- The arguments of an operation were refused, be it that they make no query. -/
def AccessError.IsRejection : AccessError → Prop
  | .invalidArgument _ | .queryCompilation _ => True
  | _ => False

/-- What the backend answered with is no rejection: a rejection is raised by the library, in front
of all calls. -/
theorem AccessError.not_isRejection_translate (op : Operation) (f : BackendError) :
    ¬ (translate op f).IsRejection := by
  rw [translate]
  split
  · exact id
  · split <;> exact id

/-! ## Steps that do not refuse an argument -/

/-- However a step fails, it is with none of these errors. -/
def Access.Never (errs : AccessError → Prop) (x : Access σ α) : Prop :=
  ∀ s err s', x.run s = (.error err, s') → ¬ errs err

namespace Access.Never

variable {errs : AccessError → Prop} {x : Access σ α} {f : α → Access σ β}

/-- A sequence raises an error only if one of its steps does. -/
theorem bind (h : x.Never errs) (h' : ∀ a, (f a).Never errs) : (x >>= f).Never errs := by
  intro s err s' hrun
  rcases error_of_run_bind hrun with hx | ⟨a, s₁, -, hf⟩
  · exact h s err s' hx
  · exact h' a s₁ err s' hf

/-- A step without a call raises what its outcome says, and no other error. -/
theorem silent {r : Except AccessError α} (hx : x.Silent r)
    (h : ∀ err, r = .error err → ¬ errs err) : x.Never errs := by
  intro s err s' hrun
  obtain ⟨hr, -, -⟩ := (hx s.backend).of_run hrun
  exact h err hr.symm

theorem pure (a : α) : (Pure.pure a : Access σ α).Never errs :=
  silent (.pure a) nofun

theorem rounds (c : Client σ) :
    (modifyGet fun s => (c.backend.rounds s.backend, s) : Access σ Nat).Never errs := by
  intro s err s' hrun
  cases (Prod.mk.inj hrun).1

/-- Behind a step whose error is taken as a value: it is none of these. -/
theorem attempt {f : Except AccessError α → Access σ β} (hx : x.Never errs)
    (h : ∀ r, (∀ err, r = .error err → ¬ errs err) → (f r).Never errs) :
    (Access.attempt x >>= f).Never errs := by
  intro s err s' hrun
  have hattempt : (Access.attempt x).run s = (.ok (x.run s).1, (x.run s).2) := rfl
  rw [run_bind hattempt] at hrun
  refine h (x.run s).1 (fun err' herr' => hx s err' (x.run s).2 ?_) _ err s' hrun
  rw [← herr']
  rfl

/-- What is taken for an answer is no error, and what is not is as it was. -/
theorem recovered (op : Operation) (empty : α) {r : Except AccessError α}
    (h : ∀ err, r = .error err → ¬ errs err) :
    Access.Never errs (ExceptT.mk (Pure.pure (AccessError.recover op empty r)) : Access σ α) := by
  refine silent (.given _) fun err hrecover => h err ?_
  unfold AccessError.recover at hrecover
  split at hrecover
  · split at hrecover
    · cases hrecover
    · exact hrecover
  · exact hrecover

variable (herrs : ∀ err, errs err → err.IsRejection)

include herrs

/-- Reading a record as an entity refuses with a mapping fault at most, which is no argument. -/
theorem mapped (r : Except MappingFault α) : (Access.mapped r : Access σ α).Never errs := by
  refine silent (.mapped r) fun err h hin => ?_
  obtain ⟨f, -, rfl⟩ := error_of_mapError h
  exact herrs _ hin

theorem mapEach (read : Document → Except MappingFault α) (ds : List Document) :
    (Access.mapEach read ds : Access σ (List α)).Never errs := by
  refine silent (.mapEach read ds) fun err h hin => ?_
  obtain ⟨f, -, rfl⟩ := error_of_mapError h
  exact herrs _ hin

/-- No call is refused as an argument. -/
theorem call {ρ : Type} (c : Client σ) (op : Operation) (collection : String)
    (observe : ρ → Observation) (f : BackendCall σ ρ) :
    (c.call op collection observe f).Never errs := by
  intro s err s' hrun hin
  obtain ⟨h, -, -⟩ := (Yields.call c op collection observe f s.backend).of_run hrun
  obtain ⟨fault, -, rfl⟩ := error_of_mapError h.symm
  exact AccessError.not_isRejection_translate op fault (herrs _ hin)

end Access.Never

/-! ## Steps that refuse arguments first -/

/-- If a step refuses an argument, it has reported nothing. -/
def Access.Early (x : Access σ α) : Prop :=
  ∀ s err s', x.run s = (.error err, s') → err.IsRejection → s'.diagnostics = s.diagnostics

namespace Access.Early

variable {x : Access σ α} {f : α → Access σ β}

/-- What never rejects is early: there is no rejection that could come late. -/
theorem of_never (h : x.Never AccessError.IsRejection) : x.Early :=
  fun s err s' hrun hrejected => absurd hrejected (h s err s' hrun)

/-- Behind a step without a call there may be more to refuse. -/
theorem after {r : Except AccessError α} (hx : x.Silent r) (h : ∀ a, (f a).Early) :
    (x >>= f).Early := by
  intro s err s' hrun hrejected
  rcases error_of_run_bind hrun with hx' | ⟨a, s₁, hx', hf⟩
  · obtain ⟨-, -, hsame⟩ := (hx s.backend).of_run hx'
    rw [hsame, List.append_nil]
  · obtain ⟨-, -, hsame⟩ := (hx s.backend).of_run hx'
    rw [h a s₁ err s' hf hrejected, hsame, List.append_nil]

/-- Behind a step with calls there must not be. -/
theorem bind (hx : x.Early) (h : ∀ a, (f a).Never AccessError.IsRejection) : (x >>= f).Early := by
  intro s err s' hrun hrejected
  rcases error_of_run_bind hrun with hx' | ⟨a, s₁, -, hf⟩
  · exact hx s err s' hx' hrejected
  · exact absurd hrejected (h a s₁ err s' hf)

/-- A step without a call is early: when it refuses, nothing was asked yet. -/
theorem silent {r : Except AccessError α} (hx : x.Silent r) : x.Early := by
  intro s err s' hrun _
  obtain ⟨-, -, hsame⟩ := (hx s.backend).of_run hrun
  rw [hsame, List.append_nil]

end Access.Early

namespace Client

open Access (Never Early)

variable {c : Client σ} {e : EntityType α} {name : String} {q : Query}
  {errs : AccessError → Prop}

section Steps

variable (herrs : ∀ err, errs err → err.IsRejection)

include herrs

/-- One query answers or fails as the backend does, with no check of its own. -/
theorem query_never (op : Operation) (statement : Statement) (o : QueryOptions) :
    (c.query op name statement o).Never errs :=
  .call herrs c op name QueryAnswer.observed _

/-- Going through the answers of a query refuses nothing.  Induction on the answers allowed. -/
theorem follow_never (op : Operation) (statement : Statement) :
    ∀ (rounds : Nat) (o : QueryOptions), (c.follow op name statement rounds o).Never errs := by
  intro rounds
  induction rounds with
  | zero => exact fun _ => .pure []
  | succ rounds ih =>
    intro o
    rw [follow]
    refine .attempt (query_never herrs op statement o) fun answer hanswer => ?_
    refine .bind (.recovered op {} hanswer) fun response => ?_
    cases response.continuation with
    | none => exact .pure _
    | some token => exact .bind (ih _) fun _ => .pure _

theorem queryAll_never (op : Operation) (statement : Statement) (cross : Bool) :
    (c.queryAll op name statement cross).Never errs :=
  .bind (.rounds c) fun rounds => follow_never herrs op statement rounds _

/-- Running a count refuses nothing: the statement is written by then. -/
theorem countStatement_never (statement : Statement) (cross : Bool) :
    (c.countStatement name statement cross).Never errs := by
  refine .bind (query_never herrs .count statement _) fun response => ?_
  refine .silent (.given _) fun err herr hin => ?_
  -- a number that is none was delivered by the backend
  unfold countOf at herr
  dsimp only at herr
  split at herr
  · cases herr
  · rw [← Except.error.inj herr] at hin
    exact herrs _ hin

/-- Deleting by plan refuses nothing.  The plan was made, and its arguments checked, before. -/
theorem deleteEach_never : ∀ plan : List (String × Placement),
    (c.deleteEach name plan).Never errs := by
  intro plan
  induction plan with
  | nil => exact .pure ()
  | cons p plan ih => exact .bind (.call herrs c .delete name RecordAnswer.observed _) fun _ => ih

/-- Once it is asked for, a page is not refused. -/
theorem paging_never (e : EntityType α) (finding counting : Statement) (state : PageState)
    (options : QueryOptions) (cross : Bool) : Never errs (do
      let answer ← Access.attempt (c.query .paginate name finding options)
      let response ← ExceptT.mk (pure (AccessError.recover .paginate {} answer))
      let content ← Access.mapEach e.read (response.records.take state.size)
      let total ←
        if content.isEmpty && response.continuation.isNone && state.continuation.isNone then pure 0
        else c.countStatement name counting cross
      pure ⟨content, state, response.continuation, total⟩ : Access σ (Page α)) := by
  refine .attempt (query_never herrs .paginate finding _) fun answer hanswer =>
    .bind (.recovered .paginate {} hanswer) fun response =>
    .bind (.mapEach herrs e.read _) fun content => ?_
  dsimp only
  split
  · exact .bind (.pure 0) fun _ => .pure _
  · exact .bind (countStatement_never herrs counting _) fun _ => .pure _

end Steps

/-! ## Operations of one kind each -/

/-- No call is refused as an argument. -/
theorem never_rejection : ∀ err, AccessError.IsRejection err → AccessError.IsRejection err :=
  fun _ => id

/-- `find` checks its name, its declaration and its query before the first call. -/
theorem find_early : (c.find e name q).Early :=
  .after (.checked _) fun _ => .after (.metadata _) fun _ => .after (.compiled _) fun statement =>
    .of_never (.bind (queryAll_never never_rejection .find statement _) fun records =>
      .mapEach never_rejection e.read records)

/-- `findByIds` is `find` by a query for the ids. -/
theorem findByIds_early (ids : List String) : (c.findByIds e name ids).Early := by
  refine .after (.checked _) fun _ => ?_
  split
  · exact .of_never (.pure [])
  · exact find_early

/-- Looking for an id in all partitions checks name and id first. -/
theorem findByIdIn_early (id : String) : (c.findByIdIn e name id).Early := by
  refine .after (.checked _) fun _ => .after (.checked _) fun _ => .after (.compiled _)
    fun statement => .of_never (.bind (queryAll_never never_rejection _ statement true)
    fun records => ?_)
  cases records with
  | nil => exact .pure none
  | cons d ds => exact .bind (.mapped never_rejection (e.read d)) fun _ => .pure _

/-- `findById` checks before its point read, or before the query that it becomes without a key. -/
theorem findById_early (id : String) (key : Option PartitionKey) :
    (c.findById e id key).Early := by
  refine .after (.checked _) fun _ => .after (.collectionName _) fun name => ?_
  cases key with
  | none => exact findByIdIn_early id
  | some k =>
    refine .of_never (.attempt (.call never_rejection c _ _ _ _) fun answer hanswer =>
      .bind (.recovered .findById none fun err herr => hanswer err (error_of_map herr))
      fun record => ?_)
    cases record with
    | none => exact .pure none
    | some d => exact .bind (.mapped never_rejection (e.read d)) fun _ => .pure _

theorem exists_early : (c.exists? e name q).Early :=
  .after (.checked _) fun _ => .after (.metadata _) fun _ => .after (.compiled _) fun statement =>
    .of_never (.attempt (query_never never_rejection .exists statement _) fun _ hanswer =>
      .recovered .exists false fun err herr => hanswer err (error_of_map herr))

theorem countAll_early : (c.countAll name).Early :=
  .after (.checked _) fun _ => .after (.compiled _) fun statement =>
    .of_never (countStatement_never never_rejection statement true)

theorem count_early : (c.count e name q).Early :=
  .after (.checked _) fun _ => .after (.metadata _) fun _ => .after (.compiled _) fun statement =>
    .of_never (countStatement_never never_rejection statement _)

/-- `paginate` runs up to two queries, and both were written before the first of them is sent. -/
theorem paginate_early : (c.paginate e name q).Early :=
  .after (.checked _) fun _ => .after (.checked _) fun state => .after (.metadata _) fun _ =>
    .after (.compiled _) fun finding => .after (.compiled _) fun counting =>
    .of_never (paging_never never_rejection e finding counting state _ _)

/-- A write checks the name, the id and the placement of its record before its one call. -/
theorem writeInto_early (mode : WriteMode) (a : α) (key : Option PartitionKey) :
    (c.writeInto e mode name a key).Early :=
  .after (.checked _) fun _ => .after (.metadata _) fun _ => .after (.mapped _) fun record =>
    .after (.checked _) fun _ => .after (.checked _) fun _ =>
    .of_never (.bind (.call never_rejection c _ _ _ _) fun response =>
      .mapped never_rejection (e.read (response.record.getD record)))

theorem write_early (mode : WriteMode) (a : α) (key : Option PartitionKey) :
    (c.write e mode a key).Early :=
  .after (.collectionName _) fun _ => writeInto_early mode a key

/-- A deletion by id checks name and id before its one call. -/
theorem deleteById_early (id : String) (key : Option PartitionKey) :
    (c.deleteById name id key).Early :=
  .after (.checked _) fun _ => .after (.checked _) fun _ =>
    .of_never (.bind (.call never_rejection c _ _ _ _) fun _ => .pure ())

/-- A deletion of an entity writes it as a record first, to find its id and place. -/
theorem deleteEntity_early (a : α) (key : Option PartitionKey) :
    (c.deleteEntity e a key).Early :=
  .after (.metadata _) fun _ => .after (.mapped _) fun _ => .after (.checked _) fun _ =>
    .after (.checked _) fun _ =>
    .of_never (.bind (.call never_rejection c _ _ _ _) fun _ => .pure ())

theorem createCollection_early (m : Metadata) : (c.createCollection m).Early :=
  .of_never (.bind (.call never_rejection c _ _ _ _) fun _ => .pure _)

theorem deleteCollection_early : (c.deleteCollection name).Early :=
  .after (.checked _) fun _ =>
    .of_never (.bind (.call never_rejection c _ _ _ _) fun _ => .pure ())

/-! ## Deleting by a query -/

/-- A record lacks its partition: the type has a partition field, and there is nothing in it. -/
def Unplaced (m : Metadata) (d : Document) : Prop :=
  ∃ f, m.partitionField = some f ∧ (d.fieldAt f = none ∨ d.fieldAt f = some .null)

/-- What has no plan for the fault of an argument lacks its partition. -/
theorem unplaced_of_aim {m : Metadata} {d : Document} {err : AccessError}
    (h : aim m name d = .error err) (hrejected : err.IsRejection) : Unplaced m d := by
  rw [aim] at h
  split at h
  · cases h
    exact hrejected.elim
  · obtain ⟨f, hplacement, -⟩ := error_of_mapError (error_of_map h)
    rcases error_of_bind hplacement with hkey | ⟨_, -, hkey⟩
    · rw [Metadata.partitionKey] at hkey
      split at hkey
      · cases hkey
      · rename_i field hfield
        split at hkey
        · rename_i hnone
          exact ⟨field, hfield, .inl hnone⟩
        · rename_i hnull
          exact ⟨field, hfield, .inr hnull⟩
        · cases hkey
    · cases hkey

/-- **A deletion is refused for its arguments, or for a match that lacks its partition**; then the
matches are known, and nothing else was done. -/
theorem delete_refuses {err : AccessError} {s s' : Session σ}
    (hrun : (c.delete e name q).run s = (.error err, s')) (hrejected : err.IsRejection) :
    s'.diagnostics = s.diagnostics
      ∨ ∃ m statement records s₀ s₁, Text.isBlank name = false
        ∧ Metadata.ofDeclaration e.toEntityDeclaration = .ok m
        ∧ Statement.ofQuery .find q = .ok statement ∧ s₀.backend = s.backend
        ∧ (c.queryAll .find name statement (fansOut m q)).run s₀ = (.ok records, s₁)
        ∧ records.mapM (aim m name) = .error err := by
  rw [delete] at hrun
  rcases (Access.Silent.checked _).of_bind hrun with
    ⟨_, -, -, -, hsame⟩ | ⟨_, s₁, hname, hs₁, hd₁, hrun⟩
  · exact .inl hsame
  rcases (Access.Silent.metadata _).of_bind hrun with
    ⟨_, -, -, -, hsame⟩ | ⟨m, s₂, hm, hs₂, hd₂, hrun⟩
  · exact .inl (hsame.trans hd₁)
  rcases (Access.Silent.compiled _).of_bind hrun with
    ⟨_, -, -, -, hsame⟩ | ⟨statement, s₃, hst, hs₃, hd₃, hrun⟩
  · exact .inl (hsame.trans (hd₂.trans hd₁))
  rcases Access.error_of_run_bind hrun with hrun | ⟨records, s₄, hall, hrun⟩
  · exact absurd hrejected (queryAll_never never_rejection _ _ _ _ _ _ hrun)
  rcases (planned_silent m name records).of_bind hrun with
    ⟨err', hplan, herr, -, -⟩ | ⟨plan, s₅, -, -, -, hrun⟩
  · cases herr
    exact .inr ⟨m, statement, records, s₃, s₄, requireText_ok_iff.mp (ok_of_mapError hname),
      ok_of_mapError hm, ok_of_mapError hst, hs₃.trans (hs₂.trans hs₁), hall, hplan⟩
  -- whatever fails behind the plans is no fault of an argument
  · have hrest : Never AccessError.IsRejection (do
        let entities ← Access.mapEach e.read records
        c.deleteEach name plan
        pure entities : Access σ (List α)) :=
      .bind (.mapEach never_rejection e.read records) fun _ =>
        .bind (deleteEach_never never_rejection plan) fun _ => .pure _
    exact absurd hrejected (hrest _ _ _ hrun)

/-! ## What a store answers with -/

open Store (Settings)

variable {settings : Settings} {database : String} {metrics : Bool} {s : Store}
  {statement : Statement}

/-- A record of a collection that meets some criteria. -/
def Held (s : Store) (name : String) (criteria : Criteria) (d : Document) : Prop :=
  ∃ c, s.collection? name = some c ∧ d ∈ c.records ∧ criteria.meets d = true

/-- All records of an answer are held by the store and meet the criteria. -/
theorem held_of_query {a : QueryAnswer} {options : QueryOptions}
    (hst : Statement.ofQuery .find q = .ok statement)
    (h : Store.query settings name statement options s = .ok a) :
    ∀ d ∈ a.records, Held s name q.criteria d := by
  rw [Store.query, Dialect.ofText_written hst] at h
  obtain ⟨select, hselect, h⟩ := ok_of_bind h
  cases hselect
  split at h
  · cases h
  · rename_i coll hc
    obtain ⟨matched, hmatching, h⟩ := ok_of_bind h
    rw [Store.matching, Dialect.matching_written hst] at hmatching
    cases hmatching
    split at h
    · cases h
    · obtain ⟨part, hdeliver, h⟩ := ok_of_bind h
      obtain ⟨place, -, hpart⟩ := ok_of_bind hdeliver
      cases h
      cases hpart
      -- what is delivered is a part of what was sorted, and that is what was matched
      intro d hd
      have hsorted := List.mem_of_mem_take (List.mem_of_mem_drop hd)
      obtain ⟨hmem, hmeets⟩ := List.mem_filter.mp ((sorted_perm _ _).mem_iff.mp hsorted)
      exact ⟨coll, hc, hmem, hmeets⟩

/-- **What is gathered from a store is held in it.**  Induction on the answers allowed. -/
theorem follow_held (hst : Statement.ofQuery .find q = .ok statement) :
    ∀ (rounds : Nat) (options : QueryOptions) {session session' : Session Store}
      {records : List Document}, session.backend = s →
      ((ofStore settings database metrics).follow .find name statement rounds options).run session
        = (.ok records, session') → ∀ d ∈ records, Held s name q.criteria d := by
  intro rounds
  induction rounds with
  | zero =>
    intro options session session' records hs hrun
    cases (Prod.mk.inj hrun).1
    exact fun d hd => absurd hd List.not_mem_nil
  | succ rounds ih =>
    intro options session session' records hs hrun
    subst hs
    rw [follow] at hrun
    obtain ⟨answer, s₁, hanswer, hs₁, hrun⟩ :=
      Access.Settles.of_bind (.attempt (settles_query _ _ _ _ _ _ _ _)) hrun
    obtain ⟨response, s₂, hresponse, hs₂, hrun⟩ := Access.Settles.of_bind (.given _) hrun
    -- what came in this answer, if anything: a missing collection counts as an empty one
    have hheld : ∀ d ∈ response.records, Held session.backend name q.criteria d := by
      obtain rfl := Except.ok.inj hanswer
      cases hquery : Store.query settings name statement options session.backend with
      | ok a =>
        rw [hquery] at hresponse
        cases hresponse
        exact held_of_query hst hquery
      | error f =>
        rw [hquery] at hresponse
        change AccessError.recover _ _ (.error (.translate .find f.error)) = _ at hresponse
        rw [recover_translate rfl] at hresponse
        split at hresponse
        · cases hresponse
          exact fun d hd => absurd hd List.not_mem_nil
        · cases hresponse
    split at hrun
    · cases (Prod.mk.inj hrun).1
      exact hheld
    · obtain ⟨rest, s₃, hrest, hrun⟩ := Access.ok_of_run_bind hrun
      cases (Prod.mk.inj hrun).1
      intro d hd
      rcases List.mem_append.mp hd with hd | hd
      · exact hheld d hd
      · exact ih _ (hs₂.trans hs₁) hrest d hd

/-- Queries leave a store as it is. -/
theorem still_of_queries {s' : Store} {exchanges : List Exchange}
    (h : Trace (Store.backend settings) s exchanges s')
    (hqueries : ∀ call ∈ exchanges.map Exchange.call, ∃ n st o, call = .query n st o) :
    s' = s := by
  induction h with
  | done s => rfl
  | @next s s' call exchanges rest ih =>
    obtain ⟨hcall, hrest⟩ := List.forall_mem_cons.mp hqueries
    obtain ⟨n, st, o, rfl⟩ := hcall
    exact ih hrest

/-! ## All requests -/

namespace Request

/-- What a request deletes by a query; none if it does no such thing. -/
def deletes? : Request α → Option (String × Query)
  | delete name q => some (name, q)
  | deleteAll name => some (name, { criteria := .all })
  | _ => none

/-- Other requests refuse arguments before they call. -/
theorem early {r : Request α} (h : r.deletes? = none) : (r.run c e).Early := by
  cases r with
  | read r =>
    refine .bind ?_ fun _ => .pure _
    cases r with
    | find name q => exact .bind find_early fun _ => .pure _
    | findAllIn name => exact .bind find_early fun _ => .pure _
    | findById id key => exact .bind (findById_early id key) fun _ => .pure _
    | findByIdIn name id => exact .bind (findByIdIn_early id) fun _ => .pure _
    | findByIds name ids => exact .bind (findByIds_early ids) fun _ => .pure _
    | «exists» name q => exact .bind exists_early fun _ => .pure _
    | paginate name q => exact .bind paginate_early fun _ => .pure _
    | findAllPaged name state => exact .bind paginate_early fun _ => .pure _
  | findAll =>
    exact .bind (.after (.collectionName _) fun _ => find_early) fun _ => .pure _
  | collectionName => exact .bind (.silent (.collectionName _)) fun _ => .pure _
  | count name q => exact .bind count_early fun _ => .pure _
  | countAll name => exact .bind countAll_early fun _ => .pure _
  | write mode a key => exact .bind (write_early mode a key) fun _ => .pure _
  | writeInto mode name a key => exact .bind (writeInto_early mode a key) fun _ => .pure _
  | deleteById name id key => exact .bind (deleteById_early id key) fun _ => .pure _
  | deleteEntity a key => exact .bind (deleteEntity_early a key) fun _ => .pure _
  | delete name q => cases h
  | deleteAll name => cases h
  | createCollection m => exact .bind (createCollection_early m) fun _ => .pure _
  | createCollectionFor =>
    exact .bind (.after (.metadata _) fun m => createCollection_early m) fun _ => .pure _
  | deleteCollection name => exact .bind deleteCollection_early fun _ => .pure _

/-- Where nothing was reported nothing was called. -/
theorem quiet_of_unreported {r : Request α} {outcome : Except AccessError (Reply α)}
    {session session' : Session σ} (terms : PromptTerms)
    (hrun : (r.run c e).run session = (outcome, session'))
    (hsame : session'.diagnostics = session.diagnostics) :
    session'.backend = session.backend
      ∧ (r.run (c.watched terms) e).Leads (.past session.backend []) outcome
        (.past session.backend []) := by
  have hobserved : Access.Observed c terms r.Makes (r.run c e) (r.run (c.watched terms) e) :=
    r.observed
  obtain ⟨o, exchanges, reports, state, hcourse⟩ := hobserved session.backend
  obtain ⟨rfl, hstate, hreports⟩ := hcourse.yields.of_run hrun
  obtain rfl : reports = [] := List.append_right_eq_self.mp (hreports.symm.trans hsame)
  obtain ⟨rfl, hseen⟩ := hcourse.quiet
  exact ⟨hstate, hseen []⟩

/-- A request that deletes by a query runs `delete` and answers with its list. -/
theorem run_of_deletes {r : Request α} (h : r.deletes? = some (name, q)) :
    r.run c e = (do
      let list ← c.delete e name q
      pure (.answer (.entities list))) := by
  cases r with
  | delete name' q' =>
    cases h
    rfl
  | deleteAll name' =>
    cases h
    rfl
  | _ => cases h

/-- A match of a query in a store lacks its partition. -/
def Stray (s : Store) (m : Metadata) (name : String) (criteria : Criteria) : Prop :=
  ∃ d, Held s name criteria d ∧ Unplaced m d

/-- Gathering the records of a query from a store makes queries, and changes nothing. -/
theorem queryAll_calls {cross : Bool} {records : List Document} {session session' : Session Store}
    (terms : PromptTerms)
    (hrun : ((ofStore settings database metrics).queryAll .find name statement cross).run session
      = (.ok records, session')) :
    ∃ calls, (∀ call ∈ calls, ∃ o, call = .query name statement o)
      ∧ ((ofStore settings database metrics).queryAll .find name statement cross).Leads
        session.backend (.ok records) session.backend
      ∧ (((ofStore settings database metrics).watched terms).queryAll .find name statement
          cross).Leads (.past session.backend []) (.ok records) (.past session.backend calls) := by
  have hobserved : Access.Observed (ofStore settings database metrics) terms
      (fun _ call => ∃ o, call = .query name statement o)
      ((ofStore settings database metrics).queryAll .find name statement cross)
      (((ofStore settings database metrics).watched terms).queryAll .find name statement cross) :=
    queryAll_observed (fun o => ⟨o, rfl⟩) cross
  obtain ⟨r, exchanges, reports, state, hcourse⟩ := hobserved session.backend
  obtain ⟨rfl, -, -⟩ := hcourse.yields.of_run hrun
  have hcalls : ∀ call ∈ exchanges.map Exchange.call, ∃ o, call = .query name statement o := by
    intro call hcall
    obtain ⟨x, hx, rfl⟩ := List.mem_map.mp hcall
    exact hcourse.reported.forall_left (fun _ _ h => h.operation) x hx
  obtain rfl := still_of_queries hcourse.trace fun call hcall =>
    ⟨name, statement, hcalls call hcall⟩
  exact ⟨_, hcalls, hcourse.yields.leads, hcourse.seen []⟩

/-- **A deletion from a store is refused before a call, or for a stray match.**  Then all calls were
queries for the matches. -/
theorem delete_refused_by_store {err : AccessError} {session session' : Session Store}
    (terms : PromptTerms)
    (hrun : ((ofStore settings database metrics).delete e name q).run session
      = (.error err, session')) (hrejected : err.IsRejection) :
    session'.diagnostics = session.diagnostics
      ∨ ∃ m statement calls, Metadata.ofDeclaration e.toEntityDeclaration = .ok m
        ∧ Statement.ofQuery .find q = .ok statement ∧ Stray session.backend m name q.criteria
        ∧ session'.backend = session.backend
        ∧ (∀ call ∈ calls, ∃ o, call = .query name statement o)
        ∧ (((ofStore settings database metrics).watched terms).delete e name q).Leads
          (.past session.backend []) (.error err) (.past session.backend calls) := by
  rcases delete_refuses hrun hrejected with
    hsame | ⟨m, statement, records, s₀, s₁, hname, hm, hst, hs₀, hall, hplan⟩
  · exact .inl hsame
  obtain ⟨calls, hcalls, hfound, hwatched⟩ := queryAll_calls terms hall
  rw [hs₀] at hfound hwatched
  have hdelete := delete_unplanned hname hm hst hfound hplan
  obtain ⟨s₂, hrun₂, hs₂⟩ := hdelete session rfl
  obtain ⟨-, rfl⟩ := Prod.mk.inj (hrun₂.symm.trans hrun)
  -- one of the matches is the one without a plan
  obtain ⟨d, hd, haim⟩ := error_of_mapM hplan
  have hheld : Held s₀.backend name q.criteria d := by
    obtain ⟨rounds, s₃, -, hs₃, hfollow⟩ := Access.Settles.of_bind (.rounds _) hall
    exact follow_held hst rounds _ hs₃ hfollow d hd
  rw [hs₀] at hheld
  exact .inr ⟨m, statement, calls, hm, hst, ⟨d, hheld, unplaced_of_aim haim hrejected⟩, hs₂, hcalls,
    delete_unplanned hname hm hst hwatched hplan⟩

/-- **Refused arguments have no effect.**  Whatever is asked of a store, if it is refused for an
argument or for a query that cannot be written, the store is as it was.  Nothing was called then and
nothing reported, but for one case: a match of a query for deletion lacks its partition.  All calls
were queries for the matches then. -/
theorem refused_untouched {r : Request α} {session session' : Session Store} {err : AccessError}
    (hrun : (r.run (ofStore settings database metrics) e).run session = (.error err, session'))
    (hrejected : err.IsRejection) :
    session'.backend = session.backend
    ∧ ∀ terms, (session'.diagnostics = session.diagnostics
        ∧ (r.run ((ofStore settings database metrics).watched terms) e).Leads
          (.past session.backend []) (.error err) (.past session.backend []))
      ∨ ∃ name q m statement calls, r.deletes? = some (name, q)
        ∧ Metadata.ofDeclaration e.toEntityDeclaration = .ok m
        ∧ Statement.ofQuery .find q = .ok statement ∧ Stray session.backend m name q.criteria
        ∧ (∀ call ∈ calls, ∃ o, call = .query name statement o)
        ∧ (r.run ((ofStore settings database metrics).watched terms) e).Leads
          (.past session.backend []) (.error err) (.past session.backend calls) := by
  cases hdeletes : r.deletes? with
  | none =>
    have hsame := early hdeletes session err session' hrun hrejected
    exact ⟨(quiet_of_unreported ⟨.zero false, 0⟩ hrun hsame).1,
      fun terms => .inl ⟨hsame, (quiet_of_unreported terms hrun hsame).2⟩⟩
  | some deleted =>
    obtain ⟨name, q⟩ := deleted
    have hdelete : ((ofStore settings database metrics).delete e name q).run session
        = (.error err, session') := by
      rw [run_of_deletes hdeletes] at hrun
      rcases Access.error_of_run_bind hrun with hrun | ⟨_, _, -, hrun⟩
      · exact hrun
      · cases (Prod.mk.inj hrun).1
    constructor
    · -- what becomes of the store has nothing to do with the probe, so any will do
      rcases delete_refused_by_store ⟨.zero false, 0⟩ hdelete hrejected with
        hsame | ⟨_, _, _, -, -, -, hstill, -⟩
      · exact (quiet_of_unreported ⟨.zero false, 0⟩ hrun hsame).1
      · exact hstill
    · intro terms
      rcases delete_refused_by_store terms hdelete hrejected with
        hsame | ⟨m, statement, calls, hm, hst, hstray, -, hcalls, hseen⟩
      · exact .inl ⟨hsame, (quiet_of_unreported terms hrun hsame).2⟩
      · refine .inr ⟨name, q, m, statement, calls, rfl, hm, hst, hstray, hcalls, ?_⟩
        rw [run_of_deletes hdeletes]
        exact hseen.bind_error

/-- Of the deliveries one goes nowhere yet, so they are not deleted together, and a probe sees
queries at most. -/
theorem refused_untouched_dispatch : ∃ err session',
    ((Request.delete "deliveries" { criteria := .all }).run (ofStore oneByOne "db" false)
      delivery).run { backend := Store.after oneByOne dispatch {} } = (.error err, session')
    ∧ err.IsRejection ∧ session'.backend = Store.after oneByOne dispatch {}
    ∧ ∀ terms, ∃ calls, (∀ call ∈ calls, ∃ n st o, call = .query n st o)
      ∧ ((Request.delete "deliveries" { criteria := .all }).run
          ((ofStore oneByOne "db" false).watched terms) delivery).Leads
        (.past (Store.after oneByOne dispatch {}) []) (.error err)
        (.past (Store.after oneByOne dispatch {}) calls) := by
  obtain ⟨st, hst⟩ : ∃ st, Statement.ofQuery .find { criteria := .all } = .ok st := ⟨_, rfl⟩
  have hc : (Store.after oneByOne dispatch {}).collection? "deliveries" = some deliveries := rfl
  have hm : Metadata.ofDeclaration delivery.toEntityDeclaration = .ok deliveryMetadata := rfl
  have hfound : ((ofStore oneByOne "db" false).queryAll .find "deliveries" st
      (fansOut deliveryMetadata { criteria := .all })).Leads (Store.after oneByOne dispatch {})
        (.ok (sortedMatches deliveries { criteria := .all })) (Store.after oneByOne dispatch {}) :=
    queryAll_matches hst oneByOne_allows (by decide) hc deliveries_splitBy
  have hplan : (sortedMatches deliveries { criteria := .all }).mapM
        (aim deliveryMetadata "deliveries")
      = .error (.invalidArgument (.noPartitionField "to.city" "deliveries")) := rfl
  obtain ⟨session', hrun, -⟩ := (delete_unplanned rfl hm hst hfound hplan).bind_error
    (f := fun list => pure (Reply.answer (Answer.entities list)))
    { backend := Store.after oneByOne dispatch {} } rfl
  obtain ⟨hstill, hseen⟩ := refused_untouched
    (r := .delete "deliveries" { criteria := .all }) (e := delivery) hrun trivial
  refine ⟨_, session', hrun, trivial, hstill, fun terms => ?_⟩
  rcases hseen terms with ⟨-, hnone⟩ | ⟨n, q, m, st, calls, -, -, -, -, hcalls, hqueries⟩
  · exact ⟨[], fun call hcall => absurd hcall List.not_mem_nil, hnone⟩
  · exact ⟨calls, fun call hcall => ⟨n, st, hcalls call hcall⟩, hqueries⟩

end Request

end Client

end DocQuery
