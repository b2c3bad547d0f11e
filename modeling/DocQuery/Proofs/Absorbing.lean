/-
  Reading where there is nothing.

  That there is no such collection, or no such record, is an answer to a read, and an empty one.
  Every call of a read takes it for one, except the count behind a page: so whoever asks for a
  later page of a collection that is gone is told that it was not found.

  The first half asks nothing of the store.  A step spares its caller a `notFound` if its outcome
  is a check, a mapping, or an answer that went through `recover`, and a sequence does if both of
  its steps do.  Only the count behind a page is none of these: in a collection that exists no
  fault of it has that status, and behind a first page without a match it is not made at all.  The
  second half is read off what finding settles with, for an empty list of matches.

  1. `Access.Spares`: steps that never end with `notFound`;
  2. `follow_spares` to `paginate_spares`: the steps of reads, and reads of one kind each;
  3. `queryAll_vacant` to `paginate_vacant`: reads of one kind each, where nothing is to be found;
  4. `Read`: the reads, and `Answer`: what they come to;
  5. `Read.absorbs`: all of them together.
-/
import DocQuery.Proofs.Agreement

namespace DocQuery

/-! ## Steps that never end with nothing found -/

/-- No such thing was found. -/
def IsNotFound {α : Type} (r : Except AccessError α) : Prop :=
  ∃ op cause, r = .error (.notFound op cause)

namespace AccessError

variable {α : Type}

/-- A success says of nothing that it was not found. -/
theorem not_isNotFound_ok (a : α) : ¬ IsNotFound (.ok a) := by
  rintro ⟨op, cause, h⟩
  cases h

/-- Errors of another sort. -/
theorem not_isNotFound_mapError {ε : Type} {g : ε → AccessError}
    (hg : ∀ e op cause, g e ≠ .notFound op cause) (r : Except ε α) :
    ¬ IsNotFound (r.mapError g) := by
  rintro ⟨op, cause, h⟩
  obtain ⟨e, -, he⟩ := error_of_mapError h
  exact hg e op cause he

/-- What is taken for an answer is no error any more. -/
theorem not_isNotFound_recover {op : Operation} (hop : op.recoversNotFound = true) (empty : α)
    (r : Except AccessError α) : ¬ IsNotFound (recover op empty r) := by
  rintro ⟨op', cause, h⟩
  unfold recover at h
  split at h
  · rw [if_pos hop] at h
    cases h
  · rename_i hother
    exact hother op' cause h

/-- Another status is another error. -/
theorem translate_ne_notFound {op at' : Operation} {e cause : BackendError}
    (h : e.status ≠ BackendError.notFound) : translate op e ≠ .notFound at' cause := by
  intro heq
  rw [translate, if_neg h] at heq
  split at heq <;> cases heq

end AccessError

open AccessError (not_isNotFound_ok not_isNotFound_mapError not_isNotFound_recover
  translate_ne_notFound)

variable {σ α β : Type}

/-- On every session over a state of the backend a step leaves that state, and ends with anything
but that something was not found. -/
def Access.Spares (x : Access σ α) (state : σ) : Prop :=
  ∀ s : Session σ, s.backend = state →
    ∃ r, ∃ s' : Session σ, x.run s = (r, s') ∧ s'.backend = state ∧ ¬ IsNotFound r

namespace Access

variable {x : Access σ α} {f : α → Access σ β} {state : σ}

/-- A step spares those who may not be told so if its one outcome is another. -/
theorem Settles.spares {r : Except AccessError α} (h : x.Settles state r) (hr : ¬ IsNotFound r) :
    x.Spares state := by
  intro s hs
  obtain ⟨s', hx, hs'⟩ := h s hs
  exact ⟨r, s', hx, hs', hr⟩

namespace Spares

/-- Behind a step that has run. -/
theorem behind {r : Except AccessError α} {s s₁ : Session σ} (hx : x.run s = (r, s₁))
    (hs₁ : s₁.backend = state) (hr : ¬ IsNotFound r)
    (h' : ∀ a, r = .ok a → (f a).Spares state) :
    ∃ r', ∃ s' : Session σ,
      (x >>= f).run s = (r', s') ∧ s'.backend = state ∧ ¬ IsNotFound r' := by
  rw [run_bind hx]
  cases r with
  | error e =>
    refine ⟨.error e, s₁, rfl, hs₁, ?_⟩
    rintro ⟨op, cause, heq⟩
    cases heq
    exact hr ⟨op, cause, rfl⟩
  | ok a => exact h' a rfl s₁ hs₁

/-- A sequence does if both of its steps do. -/
theorem bind (h : x.Spares state) (h' : ∀ a, (f a).Spares state) : (x >>= f).Spares state := by
  intro s hs
  obtain ⟨r, s₁, hx, hs₁, hr⟩ := h s hs
  exact behind hx hs₁ hr fun a _ => h' a

/-- Behind a step whose outcome is known. -/
theorem after {r : Except AccessError α} (h : x.Settles state r) (hr : ¬ IsNotFound r)
    (h' : ∀ a, r = .ok a → (f a).Spares state) : (x >>= f).Spares state := by
  intro s hs
  obtain ⟨s₁, hx, hs₁⟩ := h s hs
  exact behind hx hs₁ hr h'

/-- A result says nothing of the kind. -/
theorem pure (a : α) : (Pure.pure a : Access σ α).Spares state :=
  (Settles.pure a).spares (not_isNotFound_ok a)

/-- Reading a record as an entity may fail, but not with that. -/
theorem mapped (r : Except MappingFault α) : (Access.mapped r : Access σ α).Spares state :=
  (Settles.mapped r).spares (not_isNotFound_mapError (fun _ _ _ h => by cases h) r)

/-- Reading records as entities fails with a `MappingFault` at most, which no operation takes for
"not found". -/
theorem mapEach (read : Document → Except MappingFault α) (ds : List Document) :
    (Access.mapEach read ds : Access σ (List α)).Spares state :=
  (Settles.mapEach read ds).spares (not_isNotFound_mapError (fun _ _ _ h => by cases h) _)

/-- Behind a check of an argument. -/
theorem checked {r : Except ArgumentFault α} (h : ∀ a, r = .ok a → (f a).Spares state) :
    (Access.checked r >>= f).Spares state := by
  refine after (.checking r) (not_isNotFound_mapError (fun _ _ _ h => by cases h) r) ?_
  exact fun a ha => h a (ok_of_mapError ha)

/-- Behind the compilation of a query. -/
theorem compiled {r : Except QueryFault α} (h : ∀ a, r = .ok a → (f a).Spares state) :
    (Access.compiled r >>= f).Spares state := by
  refine after (.compiling r) (not_isNotFound_mapError (fun _ _ _ h => by cases h) r) ?_
  exact fun a ha => h a (ok_of_mapError ha)

/-- Behind the metadata of an entity type. -/
theorem metadata {d : EntityDeclaration} {f : Metadata → Access σ β}
    (h : ∀ m, Metadata.ofDeclaration d = .ok m → (f m).Spares state) :
    (Client.metadata d >>= f).Spares state := by
  refine after (.declaring d) (not_isNotFound_mapError (fun _ _ _ h => by cases h) _) ?_
  exact fun m hm => h m (ok_of_mapError hm)

/-- An outcome that is taken for an answer where nothing was found. -/
theorem recovered {op : Operation} (hop : op.recoversNotFound = true) (empty : α)
    (r : Except AccessError α) :
    Access.Spares (ExceptT.mk (Pure.pure (AccessError.recover op empty r)) : Access σ α) state :=
  (Settles.given _).spares (not_isNotFound_recover hop empty r)

end Spares

end Access

namespace Client

open Store (Settings found sorted placeOf)

variable {settings : Settings} {database : String} {metrics : Bool} {s : Store}
variable {q : Query} {statement : Statement} {name : String} {α : Type}
variable {e : EntityType α} {m : Metadata}

/-! ## Reads of one kind each -/

/-- The loop over the answers of a query: every one of them is taken for an empty answer where there
is no such collection.  Induction on the answers allowed. -/
theorem follow_spares {op : Operation} (hop : op.recoversNotFound = true) :
    ∀ (rounds : Nat) (options : QueryOptions),
      ((ofStore settings database metrics).follow op name statement rounds options).Spares s := by
  intro rounds
  induction rounds with
  | zero => exact fun _ => .pure []
  | succ rounds ih =>
    intro options
    rw [follow]
    refine .after (.attempt (settles_query _ _ _ _ _ _ _ _)) (not_isNotFound_ok _) fun answer _ => ?_
    refine .bind (.recovered hop {} answer) fun response => ?_
    cases response.continuation with
    | none => exact .pure _
    | some token => exact .bind (ih _) fun rest => .pure _

/-- All records of a query, from one answer to the next. -/
theorem queryAll_spares {op : Operation} (hop : op.recoversNotFound = true) (cross : Bool) :
    ((ofStore settings database metrics).queryAll op name statement cross).Spares s :=
  .after (.rounds _) (not_isNotFound_ok _) fun rounds _ => follow_spares hop rounds _

/-- Finding never ends with `notFound`. -/
theorem find_spares : ((ofStore settings database metrics).find e name q).Spares s := by
  rw [find]
  refine .checked fun _ _ => .metadata fun m _ => .compiled fun statement _ => ?_
  exact .bind (queryAll_spares rfl _) fun records => .mapEach e.read records

/-- `findByIds` is `find` by a query for the ids, so it never ends with `notFound` either. -/
theorem findByIds_spares (ids : List String) :
    ((ofStore settings database metrics).findByIds e name ids).Spares s := by
  rw [findByIds]
  refine .checked fun _ _ => ?_
  split
  · exact .pure []
  · exact find_spares

/-- Looking for an id in all partitions goes through the answers of a query, and those absorb a
missing collection. -/
theorem findByIdIn_spares (id : String) :
    ((ofStore settings database metrics).findByIdIn e name id).Spares s := by
  rw [findByIdIn]
  refine .checked fun _ _ => .checked fun _ _ => .compiled fun statement _ => ?_
  refine .bind (queryAll_spares rfl _) fun records => ?_
  cases records with
  | nil => exact .pure none
  | cons d ds => exact .bind (.mapped (e.read d)) fun a => .pure _

/-- A call that reads a record. -/
theorem settles_read (op : Operation) (id : String) (key : PartitionKey) :
    ((ofStore settings database metrics).call op name RecordAnswer.observed
      ((ofStore settings database metrics).backend.read name id key)).Settles s
        ((Store.reported (Store.read name id key s)).mapError (AccessError.translate op)) := by
  intro session hs
  subst hs
  exact ⟨_, rfl, rfl⟩

/-- `findById` never ends with `notFound`: with a key it is a point read that absorbs it, without
one the query of `findByIdIn`. -/
theorem findById_spares (id : String) (key : Option PartitionKey) :
    ((ofStore settings database metrics).findById e id key).Spares s := by
  rw [findById]
  refine .checked fun _ _ => .bind (.metadata fun m _ => .pure _) fun name => ?_
  cases key with
  | none => exact findByIdIn_spares id
  | some key =>
    refine .after (.attempt (settles_read _ _ _)) (not_isNotFound_ok _) fun answer _ => ?_
    refine .bind (.recovered rfl none _) fun record => ?_
    cases record with
    | none => exact .pure none
    | some d => exact .bind (.mapped (e.read d)) fun a => .pure _

/-- `exists?` never ends with `notFound`. -/
theorem exists_spares : ((ofStore settings database metrics).exists? e name q).Spares s := by
  rw [exists?]
  refine .checked fun _ _ => .metadata fun m _ => .compiled fun statement _ => ?_
  refine .after (.attempt (settles_query _ _ _ _ _ _ _ _)) (not_isNotFound_ok _) fun answer _ => ?_
  exact .recovered rfl false _

/-- Counting knows no such answer, but in a collection that exists it needs none. -/
theorem countStatement_spares {c : Collection} (hc : s.collection? name = some c) (cross : Bool) :
    ((ofStore settings database metrics).countStatement name statement cross).Spares s := by
  rw [countStatement]
  refine .after (settles_query _ _ _ _ _ _ _ _) ?_ fun response _ => ?_
  · rintro ⟨op, cause, h⟩
    obtain ⟨err, herr, htranslate⟩ := error_of_mapError h
    cases hquery : Store.query settings name statement
        { crossPartition := cross, metrics := metrics } s with
    | ok a =>
      rw [hquery] at herr
      cases herr
    | error f =>
      rw [hquery] at herr
      cases herr
      refine translate_ne_notFound ?_ htranslate
      show f.status ≠ BackendError.notFound
      rw [Store.status_of_query settings hc hquery]
      decide
  · refine Access.Settles.spares (.given _) ?_
    rintro ⟨op, cause, h⟩
    unfold countOf at h
    dsimp only at h
    split at h <;> cases h

/-- In a collection that is missing nothing can be found, whatever the query. -/
theorem found_missing (hc : s.collection? name = none) (cross : Bool) :
    found s name q.criteria cross = .error (.noCollection name) := by
  rw [found, hc]

/-- A page that is delivered is the page that the query asks for. -/
theorem page_of_requestedPage {state : PageState} (h : requestedPage q = .ok state) :
    q.page = some state := by
  rw [requestedPage] at h
  split at h
  · cases h
  · rename_i state' hpage
    split at h
    · cases h
    · rw [hpage, Except.ok.inj h]

/-- A page may be asked for at its place, if there is such a collection; and at the front. -/
theorem paginate_spares
    (h : s.collection? name = none → ∀ state, q.page = some state → state.continuation = none) :
    ((ofStore settings database metrics).paginate e name q).Spares s := by
  cases hc : s.collection? name with
  | some c =>
    rw [paginate]
    refine .checked fun _ _ => .checked fun state _ => .metadata fun m _ =>
      .compiled fun finding _ => .compiled fun counting _ => ?_
    refine .after (.attempt (settles_query _ _ _ _ _ _ _ _)) (not_isNotFound_ok _) fun answer _ => ?_
    refine .bind (.recovered rfl {} answer) fun response => ?_
    refine .bind (.mapEach e.read _) fun content => ?_
    dsimp only
    split
    · -- an empty first page is not counted; behind all others the count has a collection to look in
      exact .bind (.pure 0) fun total => .pure _
    · exact .bind (countStatement_spares hc _) fun total => .pure _
  | none =>
    rw [paginate]
    refine .checked fun _ hname => .checked fun state hrequested => .metadata fun m hm =>
      .compiled fun finding hst => .compiled fun counting _ => ?_
    -- without the collection the page must be a first one, so that it is not counted
    have hfirst : state.continuation = none := h hc state (page_of_requestedPage hrequested)
    have hf : found s name q.criteria (fansOut m q) = .error (.noCollection name) :=
      found_missing hc _
    refine .after (.attempt (query_settles_fault .paginate hst hf)) (not_isNotFound_ok _) ?_
    rintro _ ⟨⟩
    rw [recover_noCollection rfl]
    refine .after (.given _) (not_isNotFound_ok _) ?_
    rintro _ ⟨⟩
    have hnothing : (Access.mapEach e.read (List.take state.size []) : Access Store _).Settles s
        (.ok []) := by
      rw [List.take_nil]
      exact .mapEach e.read []
    refine .after hnothing (not_isNotFound_ok _) ?_
    rintro _ ⟨⟩
    rw [hfirst]
    exact .bind (.pure 0) fun total => .pure _

/-! ## Where nothing is to be found -/

/-- No record of a collection meets some criteria, or there is no such collection. -/
def NothingMeets (s : Store) (name : String) (c : Criteria) : Prop :=
  ∀ coll, s.collection? name = some coll → ∀ d ∈ coll.records, c.meets d = false

section Vacant

variable (hvacant : NothingMeets s name q.criteria)

include hvacant

/-- Where nothing meets the criteria nothing is found. -/
theorem found_vacant {c : Collection} (hc : s.collection? name = some c) (cross : Bool) :
    found s name q.criteria cross = .ok [] := by
  have hnil : c.records.filter q.criteria.meets = [] := by
    rw [List.filter_eq_nil_iff]
    intro d hd hmeets
    rw [hvacant c hc d hd] at hmeets
    cases hmeets
  have hspan : Store.spansPartitions c [] = false := rfl
  rw [found, hc]
  dsimp only
  rw [hnil, hspan, Bool.and_false]
  rfl

/-- A query for records then settles with none, be it that the collection has no matches or that
there is no collection. -/
theorem queryAll_vacant {op : Operation} (hop : op.recoversNotFound = true)
    (hcap : ∀ n, settings.maxItems = some n → 1 ≤ n)
    (hst : Statement.ofQuery .find q = .ok statement) (cross : Bool) :
    ((ofStore settings database metrics).queryAll op name statement cross).Settles s
      (.ok []) := by
  cases hc : s.collection? name with
  | some c =>
    have hsettles : ((ofStore settings database metrics).queryAll op name statement
        cross).Settles s _ :=
      queryAll_settles hcap (Nat.zero_le _) hst (found_vacant hvacant hc cross)
    rw [(sorted_perm (q.select .find) []).eq_nil] at hsettles
    exact hsettles
  | none =>
    have hsettles : ((ofStore settings database metrics).follow op name statement (s.size + 1)
        { crossPartition := cross, metrics }).Settles s _ :=
      follow_fault s.size hop hst (found_missing hc cross)
    rw [recover_noCollection hop] at hsettles
    exact .bind (.rounds _) hsettles

/-- On a vacant query, `find` settles with an empty list. -/
theorem find_vacant (hcap : ∀ n, settings.maxItems = some n → 1 ≤ n)
    (hname : Text.isBlank name = false)
    (hm : Metadata.ofDeclaration e.toEntityDeclaration = .ok m)
    (hst : Statement.ofQuery .find q = .ok statement) :
    ((ofStore settings database metrics).find e name q).Settles s (.ok []) := by
  rw [find]
  exact .bind (.checked (requireText_ok_iff.mpr hname)) (.bind (.metadata hm)
    (.bind (.compiled hst) (.bind (queryAll_vacant hvacant rfl hcap hst _) (.mapEach e.read []))))

/-- On a vacant query, `exists?` settles with `false`. -/
theorem exists_vacant (hcap : ∀ n, settings.maxItems = some n → 1 ≤ n)
    (hname : Text.isBlank name = false)
    (hm : Metadata.ofDeclaration e.toEntityDeclaration = .ok m)
    (hst : Statement.ofQuery .find q = .ok statement) :
    ((ofStore settings database metrics).exists? e name q).Settles s (.ok false) := by
  cases hc : s.collection? name with
  | some c => exact exists_settles hcap hname hm hst (found_vacant hvacant hc _)
  | none =>
    have hsettles : ((ofStore settings database metrics).exists? e name q).Settles s _ :=
      exists_fault hname hm hst (found_missing hc _)
    rw [recover_noCollection rfl] at hsettles
    exact hsettles

/-- A page of nothing, at any place of a collection that exists, or at the front. -/
theorem paginate_vacant {state : PageState} (hcap : ∀ n, settings.maxItems = some n → 1 ≤ n)
    (hname : Text.isBlank name = false)
    (hm : Metadata.ofDeclaration e.toEntityDeclaration = .ok m)
    (hst : Statement.ofQuery .find q = .ok statement) (hpage : q.page = some state)
    (hpos : 1 ≤ state.size)
    (hplace : state.continuation = none
      ∨ (s.collection? name ≠ none ∧ ∃ place, placeOf state.continuation = .ok place)) :
    ∃ place, ((ofStore settings database metrics).paginate e name q).Settles s
      (.ok (pageAt settings [] state place)) := by
  cases hc : s.collection? name with
  | some c =>
    have hsorted : (sorted (q.select .find) []).mapM e.read = .ok [] := by
      rw [(sorted_perm (q.select .find) []).eq_nil]
      rfl
    have hlists : Lists s e m name q statement [] [] :=
      ⟨hname, hm, hst, found_vacant hvacant hc _, Nat.zero_le _, hsorted⟩
    obtain ⟨place, hp⟩ : ∃ place, placeOf state.continuation = .ok place := by
      rcases hplace with hfirst | ⟨-, hp⟩
      · exact ⟨0, by rw [hfirst]; rfl⟩
      · exact hp
    exact ⟨place, paginate_settles hlists hcap hpage hpos hp⟩
  | none =>
    have hfirst : state.continuation = none := hplace.resolve_right fun h => h.1 hc
    exact ⟨0, paginate_missing hname hm hst (found_missing hc _) hpage hpos hfirst⟩

end Vacant

/-- The criteria of an id can always be written. -/
theorem written_id (id : String) : ∃ statement, Statement.ofQuery .find
    { criteria := .compare .eq idField (.text id) } = .ok statement :=
  ⟨_, rfl⟩

/-- An id that no record carries is not found in any partition, and that is no error. -/
theorem findByIdIn_vacant {id : String} (hcap : ∀ n, settings.maxItems = some n → 1 ≤ n)
    (hvacant : NothingMeets s name (.compare .eq idField (.text id)))
    (hname : Text.isBlank name = false) (hid : Text.isBlank id = false) :
    ((ofStore settings database metrics).findByIdIn e name id).Settles s (.ok none) := by
  obtain ⟨statement, hst⟩ := written_id id
  have hall : ((ofStore settings database metrics).queryAll .findById name statement
      true).Settles s _ := queryAll_vacant hvacant rfl hcap hst true
  rw [findByIdIn]
  exact .bind (.checked (requireText_ok_iff.mpr hname)) (.bind
    (.checked (requireText_ok_iff.mpr hid)) (.bind (.compiled hst) (.bind hall (.pure none))))

/-- The record of an id in a partition is not there. -/
theorem findById_vacant {id : String} {key : PartitionKey}
    (hm : Metadata.ofDeclaration e.toEntityDeclaration = .ok m)
    (hid : Text.isBlank id = false)
    (hvacant : ∀ c, s.collection? m.collection = some c → c.find? id key = none) :
    ((ofStore settings database metrics).findById e id (some key)).Settles s (.ok none) := by
  have hcall : ((ofStore settings database metrics).call .findById m.collection
      RecordAnswer.observed
      ((ofStore settings database metrics).backend.read m.collection id key)).Settles s _ :=
    settles_read .findById id key
  rw [findById]
  refine .bind (.checked (requireText_ok_iff.mpr hid))
    (.bind (.bind (.metadata hm) (.pure m.collection)) (.bind (.attempt hcall) ?_))
  -- neither a missing collection nor a missing record is an error
  cases hc : s.collection? m.collection with
  | none =>
    rw [Store.read, hc]
    exact .bind (.given (.ok none)) (.pure none)
  | some c =>
    rw [Store.read, hc]
    dsimp only
    rw [hvacant c hc]
    exact .bind (.given (.ok none)) (.pure none)

/-! ## All reads -/

/-- A read of entities. -/
inductive Read where
  | find (collection : String) (q : Query)
  | findAllIn (collection : String)
  | findById (id : String) (key : Option PartitionKey)
  | findByIdIn (collection id : String)
  | findByIds (collection : String) (ids : List String)
  | exists (collection : String) (q : Query)
  | paginate (collection : String) (q : Query)
  | findAllPaged (collection : String) (state : PageState)

/-- What a read comes to. -/
inductive Answer (α : Type) where
  | entities (list : List α)
  | entity (a? : Option α)
  | truth (b : Bool)
  | page (p : Page α)

/-- An answer that says that there is nothing. -/
def Answer.IsEmpty : Answer α → Prop
  | entities list => list = []
  | entity a? => a? = none
  | truth b => b = false
  | page p => p.content = [] ∧ p.continuation = none ∧ p.totalElements = 0

namespace Read

/-- Carry a read out. -/
def run {σ : Type} (c : Client σ) (e : EntityType α) : Read → Access σ (Answer α)
  | find name q => do
    let list ← c.find e name q
    pure (.entities list)
  | findAllIn name => do
    let list ← c.findAllIn e name
    pure (.entities list)
  | findById id key => do
    let a? ← c.findById e id key
    pure (.entity a?)
  | findByIdIn name id => do
    let a? ← c.findByIdIn e name id
    pure (.entity a?)
  | findByIds name ids => do
    let list ← c.findByIds e name ids
    pure (.entities list)
  | .exists name q => do
    let b ← c.exists? e name q
    pure (.truth b)
  | paginate name q => do
    let p ← c.paginate e name q
    pure (.page p)
  | findAllPaged name state => do
    let p ← c.findAllPaged e name state
    pure (.page p)

/-- The collection that a read is about: the one given, or that of the entity type. -/
def collection (m : Metadata) : Read → String
  | findById _ _ => m.collection
  | find name _ | findAllIn name | findByIdIn name _ | findByIds name _ | .exists name _
  | paginate name _ | findAllPaged name _ => name

/-- What a read looks for. -/
def query : Read → Query
  | find _ q | .exists _ q | paginate _ q => q
  | findAllIn _ => { criteria := .all }
  | findById id _ | findByIdIn _ id => { criteria := .compare .eq idField (.text id) }
  | findByIds _ ids => { criteria := .oneOf idField (ids.map .text) }
  | findAllPaged _ state => { criteria := .all, page := some state }

/-- The id that a read looks for. -/
def id? : Read → Option String
  | findById id _ | findByIdIn _ id => some id
  | _ => none

/-- The page that a read asks for; none where it asks for no page. -/
def page? : Read → Option (Option PageState)
  | paginate _ q => some q.page
  | findAllPaged _ state => some (some state)
  | _ => none

/-- Where a read goes on; nowhere but in pages. -/
def continuation (r : Read) : Option String :=
  (r.page?.join).bind PageState.continuation

/-- Whether a read asks for nothing at all. -/
def isIdle : Read → Bool
  | findByIds _ ids => ids.isEmpty
  | _ => false

/-- The arguments of a read are such as it takes. -/
structure Proper (e : EntityType α) (m : Metadata) (r : Read) : Prop where
  declared : Metadata.ofDeclaration e.toEntityDeclaration = .ok m
  named : Text.isBlank (r.collection m) = false
  identified : ∀ id, r.id? = some id → Text.isBlank id = false
  written : r.isIdle = true ∨ ∃ statement, Statement.ofQuery .find r.query = .ok statement
  paged : ∀ page?, r.page? = some page? → ∃ state, page? = some state ∧ 1 ≤ state.size

/-- There is nothing to be found: no such collection, or no such record in it. -/
def Vacant (s : Store) (m : Metadata) : Read → Prop
  | findById id (some key) => ∀ c, s.collection? m.collection = some c → c.find? id key = none
  | r => NothingMeets s (r.collection m) r.query.criteria

/-- A read goes on where there is something: it begins at the front, or there is a collection,
and the continuation names a place. -/
def Placed (s : Store) (m : Metadata) (r : Read) : Prop :=
  r.continuation = none
    ∨ (s.collection? (r.collection m) ≠ none ∧ ∃ place, placeOf r.continuation = .ok place)

variable {r : Read}

/-- No read ends with nothing found, unless it goes on in a collection that is gone. -/
theorem run_spares
    (h : r.continuation = none ∨ ∃ m : Metadata, s.collection? (r.collection m) ≠ none) :
    (r.run (ofStore settings database metrics) e).Spares s := by
  have hpage : ∀ {name : String} {q : Query}, (∀ m, r.collection m = name) →
      r.page? = some q.page → s.collection? name = none →
      ∀ state, q.page = some state → state.continuation = none := by
    intro name q hcollection hpage hc state hstate
    rcases h with h | ⟨m, hm⟩
    · rw [continuation, hpage, hstate] at h
      exact h
    · rw [hcollection] at hm
      exact absurd hc hm
  cases r with
  | find name q => exact .bind find_spares fun _ => .pure _
  | findAllIn name => exact .bind find_spares fun _ => .pure _
  | findById id key => exact .bind (findById_spares id key) fun _ => .pure _
  | findByIdIn name id => exact .bind (findByIdIn_spares id) fun _ => .pure _
  | findByIds name ids => exact .bind (findByIds_spares ids) fun _ => .pure _
  | «exists» name q => exact .bind exists_spares fun _ => .pure _
  | paginate name q => exact .bind (paginate_spares (hpage (fun _ => rfl) rfl)) fun _ => .pure _
  | findAllPaged name state =>
    exact .bind (paginate_spares (hpage (q := { criteria := .all, page := some state })
      (fun _ => rfl) rfl))
      fun _ => .pure _

/-- Where there is nothing the answer is empty. -/
theorem run_vacant (hcap : ∀ n, settings.maxItems = some n → 1 ≤ n) (hproper : r.Proper e m)
    (hvacant : r.Vacant s m) (hplaced : r.Placed s m) :
    ∃ a, (r.run (ofStore settings database metrics) e).Settles s (.ok a) ∧ a.IsEmpty := by
  obtain ⟨hm, hname, hid, hwritten, hpaged⟩ := hproper
  -- the two ways to ask for a page differ in the query alone
  have hpage : ∀ {name : String} {q : Query}, Text.isBlank name = false →
      (∃ statement, Statement.ofQuery .find q = .ok statement) → NothingMeets s name q.criteria →
      (∃ state, q.page = some state ∧ 1 ≤ state.size) →
      (∀ state, q.page = some state → state.continuation = none
        ∨ (s.collection? name ≠ none ∧ ∃ place, placeOf state.continuation = .ok place)) →
      ∃ p : Page α, ((ofStore settings database metrics).paginate e name q).Settles s (.ok p)
        ∧ (Answer.page p).IsEmpty := by
    rintro name q hname ⟨statement, hst⟩ hvacant ⟨state, hstate, hpos⟩ hplaced
    obtain ⟨place, hsettles⟩ : ∃ place, ((ofStore settings database metrics).paginate e name
        q).Settles s (.ok (pageAt settings [] state place)) :=
      paginate_vacant hvacant hcap hname hm hst hstate hpos (hplaced state hstate)
    rw [pageAt_nil] at hsettles
    exact ⟨_, hsettles, rfl, rfl, rfl⟩
  cases r with
  | find name q =>
    obtain ⟨statement, hst⟩ := hwritten.resolve_left nofun
    exact ⟨_, .bind (find_vacant hvacant hcap hname hm hst) (.pure _), rfl⟩
  | findAllIn name =>
    obtain ⟨statement, hst⟩ := hwritten.resolve_left nofun
    exact ⟨_, .bind (find_vacant hvacant hcap hname hm hst) (.pure _), rfl⟩
  | findById id key =>
    have hblank : Text.isBlank id = false := hid id rfl
    cases key with
    | some key => exact ⟨_, .bind (findById_vacant hm hblank hvacant) (.pure _), rfl⟩
    | none =>
      have hfind : ((ofStore settings database metrics).findById e id none).Settles s _ :=
        .bind (.checked (requireText_ok_iff.mpr hblank)) (.bind (.bind (.metadata hm) (.pure _))
          (findByIdIn_vacant hcap hvacant hname hblank))
      exact ⟨_, .bind hfind (.pure _), rfl⟩
  | findByIdIn name id =>
    exact ⟨_, .bind (findByIdIn_vacant hcap hvacant hname (hid id rfl)) (.pure _), rfl⟩
  | findByIds name ids =>
    have hcheck : requireText "collection name" name = .ok () := requireText_ok_iff.mpr hname
    refine ⟨.entities [], .bind ?_ (.pure _), rfl⟩
    rw [Client.findByIds]
    refine .bind (.checked hcheck) ?_
    -- without ids nothing is asked for, so there need not be a query that can be written
    cases hids : ids.isEmpty with
    | true =>
      rw [if_pos rfl]
      exact .pure []
    | false =>
      obtain ⟨statement, hst⟩ := hwritten.resolve_left fun h => by
        rw [isIdle, hids] at h
        cases h
      rw [if_neg Bool.false_ne_true]
      exact find_vacant hvacant hcap hname hm hst
  | «exists» name q =>
    obtain ⟨statement, hst⟩ := hwritten.resolve_left nofun
    exact ⟨_, .bind (exists_vacant hvacant hcap hname hm hst) (.pure _), rfl⟩
  | paginate name q =>
    have hplace : ∀ state, q.page = some state → state.continuation = none
        ∨ (s.collection? name ≠ none ∧ ∃ place, placeOf state.continuation = .ok place) := by
      intro state hstate
      have hcontinuation : (paginate name q).continuation = state.continuation := by
        rw [continuation, page?, hstate]
        rfl
      rw [Placed, hcontinuation] at hplaced
      exact hplaced
    obtain ⟨p, hp, hempty⟩ := hpage hname (hwritten.resolve_left nofun) hvacant (hpaged _ rfl) hplace
    exact ⟨_, .bind hp (.pure _), hempty⟩
  | findAllPaged name state =>
    obtain ⟨p, hp, hempty⟩ := hpage (q := { criteria := .all, page := some state }) hname
      (hwritten.resolve_left nofun) hvacant (hpaged _ rfl) (by rintro _ ⟨⟩; exact hplaced)
    exact ⟨_, .bind hp (.pure _), hempty⟩

/-- A later page of a collection that is gone. -/
theorem run_gone (hproper : r.Proper e m) (hc : s.collection? (r.collection m) = none)
    (hlater : r.continuation ≠ none) :
    ∃ cause, (r.run (ofStore settings database metrics) e).Settles s
      (.error (.notFound .count cause)) := by
  obtain ⟨hm, hname, -, hwritten, hpaged⟩ := hproper
  have hpage : ∀ {name : String} {q : Query}, Text.isBlank name = false →
      s.collection? name = none → (∃ statement, Statement.ofQuery .find q = .ok statement) →
      (∃ state, q.page = some state ∧ 1 ≤ state.size) →
      q.page.bind PageState.continuation ≠ none →
      ∃ cause, ((ofStore settings database metrics).paginate e name q).Settles s
        (.error (.notFound .count cause)) := by
    rintro name q hname hc ⟨statement, hst⟩ ⟨state, hstate, hpos⟩ hlater
    have hsettles : ((ofStore settings database metrics).paginate e name q).Settles s _ :=
      paginate_noCollection hname hm hst (found_missing hc _) hstate hpos
    rw [hstate] at hlater
    change state.continuation ≠ none at hlater
    cases htoken : state.continuation with
    | none => exact absurd htoken hlater
    | some token =>
      rw [htoken] at hsettles
      exact ⟨_, hsettles⟩
  cases r with
  | paginate name q =>
    obtain ⟨cause, h⟩ := hpage hname hc (hwritten.resolve_left nofun) (hpaged _ rfl) hlater
    exact ⟨cause, .bind_error h⟩
  | findAllPaged name state =>
    obtain ⟨cause, h⟩ := hpage (q := { criteria := .all, page := some state }) hname hc
      (hwritten.resolve_left nofun) (hpaged _ rfl) hlater
    exact ⟨cause, .bind_error h⟩
  | _ => exact absurd rfl hlater

/-- **Which reads absorb that something is not there.**  A read ends with `notFound` only if it
goes on in a collection that is gone, and if its arguments are proper it then does, for the count
behind the page.  In all other cases a read of proper arguments that finds neither a collection
nor a record is answered with an empty list, nothing, false or an empty page. -/
theorem absorbs {session session' : Session Store} {outcome : Except AccessError (Answer α)}
    (hcap : ∀ n, settings.maxItems = some n → 1 ≤ n)
    (hrun : (r.run (ofStore settings database metrics) e).run session = (outcome, session')) :
    (IsNotFound outcome → r.continuation ≠ none
      ∧ ∀ m : Metadata, session.backend.collection? (r.collection m) = none)
    ∧ ∀ m, r.Proper e m →
      (r.continuation ≠ none → session.backend.collection? (r.collection m) = none →
        ∃ cause, outcome = .error (.notFound .count cause))
      ∧ (r.Vacant session.backend m → r.Placed session.backend m →
        ∃ a, outcome = .ok a ∧ a.IsEmpty) := by
  -- what settles, or spares its caller, does so on this run
  have hthis : ∀ o, (r.run (ofStore settings database metrics) e).Settles session.backend o →
      outcome = o := by
    intro o hsettles
    obtain ⟨s₁, hrun₁, -⟩ := hsettles session rfl
    exact (Prod.mk.inj (hrun.symm.trans hrun₁)).1
  have hspared : (r.run (ofStore settings database metrics) e).Spares session.backend →
      ¬ IsNotFound outcome := by
    intro hspares
    obtain ⟨o, s₁, hrun₁, -, ho⟩ := hspares session rfl
    obtain rfl := (Prod.mk.inj (hrun.symm.trans hrun₁)).1
    exact ho
  refine ⟨fun hnot => ⟨fun hfront => ?_, fun m => ?_⟩,
    fun m hproper => ⟨fun hlater hc => ?_, fun hvacant hplaced => ?_⟩⟩
  · exact hspared (run_spares (.inl hfront)) hnot
  · cases hc : session.backend.collection? (r.collection m) with
    | none => rfl
    | some c =>
      have hsome : session.backend.collection? (r.collection m) ≠ none := by
        rw [hc]
        exact nofun
      exact absurd hnot (hspared (run_spares (.inr ⟨m, hsome⟩)))
  · have hgone : ∃ cause, (r.run (ofStore settings database metrics) e).Settles session.backend
        (.error (.notFound .count cause)) := run_gone hproper hc hlater
    obtain ⟨cause, hsettles⟩ := hgone
    exact ⟨cause, hthis _ hsettles⟩
  · have hempty : ∃ a, (r.run (ofStore settings database metrics) e).Settles session.backend
        (.ok a) ∧ a.IsEmpty := run_vacant hcap hproper hvacant hplaced
    obtain ⟨a, hsettles, hempty⟩ := hempty
    exact ⟨a, hthis _ hsettles, hempty⟩

/-- The first page of a collection that is not there is empty. -/
theorem absorbs_ghosts : ∃ a session',
    ((Read.findAllPaged "ghosts" (.first 2)).run (ofStore oneByOne "db" false)
      (.records { name := "Record" })).run { backend := {} } = (.ok a, session')
    ∧ a.IsEmpty := by
  generalize hrun : ((Read.findAllPaged "ghosts" (.first 2)).run (ofStore oneByOne "db" false)
    (.records { name := "Record" })).run { backend := {} } = p
  obtain ⟨outcome, session'⟩ := p
  have hproper : ∃ m, (Read.findAllPaged "ghosts" (.first 2)).Proper
      (EntityType.records { name := "Record" }) m := by
    refine ⟨_, rfl, by decide, nofun, .inr ⟨_, rfl⟩, ?_⟩
    rintro _ ⟨⟩
    exact ⟨_, rfl, by decide⟩
  obtain ⟨m, hproper⟩ := hproper
  have hvacant : (Read.findAllPaged "ghosts" (.first 2)).Vacant {} m := nofun
  obtain ⟨-, hanswer⟩ := absorbs oneByOne_allows hrun
  obtain ⟨-, hempty⟩ := hanswer m hproper
  obtain ⟨a, rfl, ha⟩ := hempty hvacant (.inl rfl)
  exact ⟨a, session', rfl, ha⟩

/-- The request for a second page of two. -/
def secondPage : PageState where
  number := 1
  size := 2
  offset := 2
  continuation := some "mem:2"
  sort := []

/-- **But a later page is not**: of a collection that is not there, whoever asks for it is told that
it was not found. -/
theorem not_absorbs_later_page : ∃ cause session',
    ((Read.findAllPaged "ghosts" secondPage).run (ofStore oneByOne "db" false)
      (.records { name := "Record" })).run { backend := {} }
        = (.error (.notFound .count cause), session') := by
  have hproper : ∃ m, (Read.findAllPaged "ghosts" secondPage).Proper
      (EntityType.records { name := "Record" }) m := by
    refine ⟨_, rfl, by decide, nofun, .inr ⟨_, rfl⟩, ?_⟩
    rintro _ ⟨⟩
    exact ⟨_, rfl, by decide⟩
  obtain ⟨m, hproper⟩ := hproper
  have hgone : ∃ cause, ((Read.findAllPaged "ghosts" secondPage).run (ofStore oneByOne "db" false)
      (.records { name := "Record" })).Settles ({} : Store) (.error (.notFound .count cause)) :=
    run_gone hproper rfl (by decide)
  obtain ⟨cause, hsettles⟩ := hgone
  obtain ⟨session', hrun, -⟩ := hsettles { backend := {} } rfl
  exact ⟨cause, session', hrun⟩

end Read

end Client

end DocQuery
