/-
  Everything that may be asked of a client.

  Whatever is asked, the client makes calls one after the other, and each of them is reported once.
  The operations are built from a few steps, so the law goes from the steps to the operations, and
  from them to all requests.

  For every operation the statement is the same, and it has one parameter: for which operation a
  call is reported, which is not always the one that was asked for.  A page is counted under
  `count`, a search for an id runs queries, and to find a set of ids is to find.  The tables
  `Read.operation?` and `Request.operation?` collect these, and the theorem about all requests has
  a case for each of them.

  1. `follow_observed` to `deleteEach_observed`: the loops, by induction;
  2. `find_observed` to `deleteCollection_observed`: operations of one kind each;
  3. `Request` and `Reply`: all that may be asked, and `Request.operation?`: which operation a call
     is made for;
  4. `Request.observed`: all of them together.
-/
import DocQuery.Proofs.Observing

namespace DocQuery.Client

open Access (Observed)

variable {σ α : Type} {c : Client σ} {terms : PromptTerms}
  {makes : Operation → RecordedCall → Prop} {e : EntityType α} {name : String} {q : Query}

/-! ## Loops -/

/-- One query is one call, with the statement and the options of the query. -/
theorem query_observed {op : Operation} {statement : Statement} {o : QueryOptions}
    (hop : makes op (.query name statement o)) :
    Observed c terms makes (c.query op name statement o)
      ((c.watched terms).query op name statement o) :=
  .call (Prompt.queryAnswer terms) hop rfl (fun _ => rfl) (fun _ => rfl)

/-- A call about one record. -/
theorem recordCall_observed {op : Operation} {call : RecordedCall} {f : BackendCall σ RecordAnswer}
    (hop : makes op call) (hanswer : c.backend.answer call = f.answering .record) :
    Observed c terms makes (c.call op call.collection RecordAnswer.observed f)
      ((c.watched terms).call op call.collection RecordAnswer.observed
        (Backend.watched call (Prompt.recordAnswer terms) f)) := by
  refine .call (Prompt.recordAnswer terms) hop hanswer ?_ fun _ => rfl
  rintro ⟨_ | d, charge⟩ <;> rfl

/-- **Following continuations.**  Induction on the answers allowed. -/
theorem follow_observed {op : Operation} {statement : Statement}
    (hop : ∀ o, makes op (.query name statement o)) : ∀ (rounds : Nat) (o : QueryOptions),
    Observed c terms makes (c.follow op name statement rounds o)
      ((c.watched terms).follow op name statement rounds o) := by
  intro rounds
  induction rounds with
  | zero => exact fun _ => .pure []
  | succ rounds ih =>
    intro o
    rw [follow, follow]
    refine .bind (.attempt (query_observed (hop o))) fun answer => ?_
    refine .bind (.given _) fun response => ?_
    cases response.continuation with
    | none => exact .pure _
    | some token => exact .bind (ih _) fun rest => .pure _

/-- Following the answers of a query makes queries, and those with the one statement. -/
theorem queryAll_observed {op : Operation} {statement : Statement}
    (hop : ∀ o, makes op (.query name statement o)) (cross : Bool) :
    Observed c terms makes (c.queryAll op name statement cross)
      ((c.watched terms).queryAll op name statement cross) :=
  .bind .rounds fun rounds => follow_observed hop rounds _

/-- Planning is done without a call. -/
theorem planned_eq (m : Metadata) (name : String) (ds : List Document) :
    (planned m name ds : Access σ _) = ExceptT.mk (pure (ds.mapM (aim m name))) := by
  induction ds with
  | nil => rfl
  | cons d ds ih =>
    rw [planned, List.mapM_cons, aim]
    cases d.id? with
    | none => rfl
    | some id =>
      dsimp only
      rw [Access.checked_eq, Access.given_bind, ih]
      cases m.placement d none with
      | error f => rfl
      | ok target =>
        show (ExceptT.mk (pure _) >>= _ : Access σ (List (String × Placement))) = _
        rw [Access.given_bind]
        cases ds.mapM (aim m name) <;> rfl

/-- Planning deletions is done on the records at hand, without a call. -/
theorem planned_silent (m : Metadata) (name : String) (ds : List Document) :
    (planned m name ds : Access σ _).Silent (ds.mapM (aim m name)) := by
  rw [planned_eq]
  exact .given _

/-- **Deleting one record after the other.**  Induction on the plan. -/
theorem deleteEach_observed (hop : ∀ id target, makes .delete (.delete name id target)) :
    ∀ plan : List (String × Placement),
      Observed c terms makes (c.deleteEach name plan) ((c.watched terms).deleteEach name plan) := by
  intro plan
  induction plan with
  | nil => exact .pure ()
  | cons p plan ih =>
    rw [deleteEach, deleteEach]
    exact .bind (recordCall_observed (hop p.1 p.2) rfl) fun _ => ih

/-! ## Operations of one kind each -/

theorem collectionName_observed (d : EntityDeclaration) :
    Observed c terms makes (collectionName d) (collectionName d) :=
  .silent (.collectionName d) (.collectionName d)

/-- `find` makes queries. -/
theorem find_observed (hop : ∀ statement o, makes .find (.query name statement o)) :
    Observed c terms makes (c.find e name q) ((c.watched terms).find e name q) :=
  .bind (.checked _) fun _ => .bind (.metadata _) fun _ => .bind (.compiled _) fun statement =>
    .bind (queryAll_observed (hop statement) _) fun records => .mapEach e.read records

/-- `findByIds` makes the queries of `find`. -/
theorem findByIds_observed (ids : List String)
    (hop : ∀ statement o, makes .find (.query name statement o)) :
    Observed c terms makes (c.findByIds e name ids) ((c.watched terms).findByIds e name ids) := by
  refine .bind (.checked _) fun _ => ?_
  split
  · exact .pure []
  · exact find_observed hop

/-- Looking for an id in all partitions makes queries, reported as `findById`. -/
theorem findByIdIn_observed (id : String)
    (hop : ∀ statement o, makes .findById (.query name statement o)) :
    Observed c terms makes (c.findByIdIn e name id) ((c.watched terms).findByIdIn e name id) := by
  refine .bind (.checked _) fun _ => .bind (.checked _) fun _ => .bind (.compiled _)
    fun statement => .bind (queryAll_observed (hop statement) true) fun records => ?_
  cases records with
  | nil => exact .pure none
  | cons d ds => exact .bind (.mapped (e.read d)) fun a => .pure _

/-- `findById` makes one point read if it has a key, and queries if it has none. -/
theorem findById_observed (id : String) (key : Option PartitionKey)
    (hquery : key = none → ∀ name statement o, makes .findById (.query name statement o))
    (hread : ∀ k, key = some k → ∀ name, makes .findById (.read name id k)) :
    Observed c terms makes (c.findById e id key) ((c.watched terms).findById e id key) := by
  refine .bind (.checked _) fun _ => .bind (collectionName_observed _) fun name => ?_
  cases key with
  | none => exact findByIdIn_observed id (hquery rfl name)
  | some k =>
    refine .bind (.attempt (recordCall_observed (hread k rfl name) rfl)) fun _ =>
      .bind (.given _) fun record => ?_
    cases record with
    | none => exact .pure none
    | some d => exact .bind (.mapped (e.read d)) fun a => .pure _

theorem exists_observed (hop : ∀ statement o, makes .exists (.query name statement o)) :
    Observed c terms makes (c.exists? e name q) ((c.watched terms).exists? e name q) :=
  .bind (.checked _) fun _ => .bind (.metadata _) fun _ => .bind (.compiled _) fun statement =>
    .bind (.attempt (query_observed (hop statement _))) fun _ => .given _

/-- A count makes queries without a limit on the answer. -/
theorem countStatement_observed {statement : Statement} (cross : Bool)
    (hop : ∀ o, o.maxItems = none → makes .count (.query name statement o)) :
    Observed c terms makes (c.countStatement name statement cross)
      ((c.watched terms).countStatement name statement cross) :=
  .bind (query_observed (hop _ rfl)) fun _ => .given _

theorem countAll_observed (hop : ∀ statement o, makes .count (.query name statement o)) :
    Observed c terms makes (c.countAll name) ((c.watched terms).countAll name) :=
  .bind (.checked _) fun _ => .bind (.compiled _) fun statement =>
    countStatement_observed true fun o _ => hop statement o

theorem count_observed (hop : ∀ statement o, makes .count (.query name statement o)) :
    Observed c terms makes (c.count e name q) ((c.watched terms).count e name q) :=
  .bind (.checked _) fun _ => .bind (.metadata _) fun _ => .bind (.compiled _) fun statement =>
    countStatement_observed _ fun o _ => hop statement o

/-- `paginate` makes one query with a limit, its page, and then the queries of a count, without one.
-/
theorem paginate_observed
    (hpage : ∀ statement o, o.maxItems ≠ none → makes .paginate (.query name statement o))
    (hcount : ∀ statement o, o.maxItems = none → makes .count (.query name statement o)) :
    Observed c terms makes (c.paginate e name q) ((c.watched terms).paginate e name q) := by
  refine .bind (.checked _) fun _ => .bind (.checked _) fun state => .bind (.metadata _) fun m =>
    .bind (.compiled _) fun finding => .bind (.compiled _) fun counting =>
    .bind (.attempt (query_observed (hpage finding _ nofun))) fun answer =>
    .bind (.given _) fun response => .bind (.mapEach e.read _) fun content => ?_
  dsimp only
  split
  · exact .bind (.pure 0) fun total => .pure _
  · exact .bind (countStatement_observed _ (hcount counting)) fun total => .pure _

/-- The call that writes a record. -/
def WriteMode.recorded (mode : WriteMode) (name : String) (d : Document) (target : Placement) :
    RecordedCall :=
  match mode with
  | insert => .create name d target
  | upsert => .upsert name d target

/-- A write makes one call of its own mode. -/
theorem writeInto_observed {mode : WriteMode} (a : α) (key : Option PartitionKey)
    (hop : ∀ name d target, makes mode.operation (mode.recorded name d target)) :
    Observed c terms makes (c.writeInto e mode name a key)
      ((c.watched terms).writeInto e mode name a key) := by
  refine .bind (.checked _) fun _ => .bind (.metadata _) fun m => .bind (.mapped _) fun record =>
    .bind (.checked _) fun _ => .bind (.checked _) fun target => .bind ?_ fun response => .mapped _
  cases mode with
  | insert => exact recordCall_observed (hop name record target) rfl
  | upsert => exact recordCall_observed (hop name record target) rfl

theorem write_observed {mode : WriteMode} (a : α) (key : Option PartitionKey)
    (hop : ∀ name d target, makes mode.operation (mode.recorded name d target)) :
    Observed c terms makes (c.write e mode a key) ((c.watched terms).write e mode a key) :=
  .bind (collectionName_observed _) fun _ => writeInto_observed a key hop

/-- A deletion by id makes one deletion. -/
theorem deleteById_observed (id : String) (key : Option PartitionKey)
    (hop : ∀ name id target, makes .deleteById (.delete name id target)) :
    Observed c terms makes (c.deleteById name id key) ((c.watched terms).deleteById name id key) :=
  .bind (.checked _) fun _ => .bind (.checked _) fun _ =>
    .bind (recordCall_observed (hop name id _) rfl) fun _ => .pure ()

/-- A deletion of an entity makes one deletion, of the id and place that its record has. -/
theorem deleteEntity_observed (a : α) (key : Option PartitionKey)
    (hop : ∀ name id target, makes .deleteById (.delete name id target)) :
    Observed c terms makes (c.deleteEntity e a key) ((c.watched terms).deleteEntity e a key) :=
  .bind (.metadata _) fun m => .bind (.mapped _) fun _ => .bind (.checked _) fun id =>
    .bind (.checked _) fun target =>
    .bind (recordCall_observed (hop m.collection id target) rfl) fun _ => .pure ()

/-- `delete` makes the queries of a `find`, and one deletion for each record planned for. -/
theorem delete_observed (hquery : ∀ statement o, makes .find (.query name statement o))
    (hdelete : ∀ id target, makes .delete (.delete name id target)) :
    Observed c terms makes (c.delete e name q) ((c.watched terms).delete e name q) :=
  .bind (.checked _) fun _ => .bind (.metadata _) fun m => .bind (.compiled _) fun statement =>
    .bind (queryAll_observed (hquery statement) _) fun records =>
    .bind (.silent (planned_silent m name records) (planned_silent m name records)) fun plan =>
    .bind (.mapEach e.read records) fun _ =>
    .bind (deleteEach_observed hdelete plan) fun _ => .pure _

theorem createCollection_observed (m : Metadata)
    (hop : ∀ properties, makes .createCollection (.createCollection properties)) :
    Observed c terms makes (c.createCollection m) ((c.watched terms).createCollection m) :=
  .bind (.call (Prompt.collectionAnswer terms m.collection) (hop m.properties) rfl (fun _ => rfl)
    fun _ => rfl) fun _ => .pure _

theorem deleteCollection_observed
    (hop : makes .deleteCollection (.deleteCollection name)) :
    Observed c terms makes (c.deleteCollection name) ((c.watched terms).deleteCollection name) :=
  .bind (.checked _) fun _ =>
    .bind (.call (Prompt.collectionAnswer terms name) hop rfl (fun _ => rfl) fun _ => rfl)
      fun _ => .pure ()

/-! ## All requests -/

/-- What may be asked of a client about entities of a type. -/
inductive Request (α : Type) where
  | read (r : Read)
  | findAll
  | collectionName
  | count (collection : String) (q : Query)
  | countAll (collection : String)
  | write (mode : WriteMode) (a : α) (key : Option PartitionKey)
  | writeInto (mode : WriteMode) (collection : String) (a : α) (key : Option PartitionKey)
  | deleteById (collection id : String) (key : Option PartitionKey)
  | deleteEntity (a : α) (key : Option PartitionKey)
  | delete (collection : String) (q : Query)
  | deleteAll (collection : String)
  | createCollection (m : Metadata)
  | createCollectionFor
  | deleteCollection (collection : String)

/-- What a request comes to. -/
inductive Reply (α : Type) where
  | answer (a : Answer α)
  | entity (a : α)
  | number (n : Nat)
  | name (s : String)
  | properties (p : CollectionProperties)
  | done

/-- The operation that a read makes a call for; none if it makes no such call. -/
def Read.operation? : Read → RecordedCall → Option Operation
  | find _ _, .query _ _ _ | findAllIn _, .query _ _ _ | findByIds _ _, .query _ _ _ => some .find
  | findById _ none, .query _ _ _ | findByIdIn _ _, .query _ _ _ => some .findById
  | findById _ (some _), .read _ _ _ => some .findById
  | .exists _ _, .query _ _ _ => some .exists
  -- behind a page the matches are counted
  | paginate _ _, .query _ _ o | findAllPaged _ _, .query _ _ o =>
    if o.maxItems.isSome then some .paginate else some .count
  | _, _ => none

namespace Request

/-- The operation that a request makes a call for; none if it makes no such call. -/
def operation? : Request α → RecordedCall → Option Operation
  | read r, call => r.operation? call
  | findAll, .query _ _ _ => some .find
  | count _ _, .query _ _ _ | countAll _, .query _ _ _ => some .count
  | write .insert _ _, .create _ _ _ | writeInto .insert _ _ _, .create _ _ _ => some .insert
  | write .upsert _ _, .upsert _ _ _ | writeInto .upsert _ _ _, .upsert _ _ _ => some .upsert
  | deleteById _ _ _, .delete _ _ _ | deleteEntity _ _, .delete _ _ _ => some .deleteById
  | delete _ _, .query _ _ _ | deleteAll _, .query _ _ _ => some .find
  | delete _ _, .delete _ _ _ | deleteAll _, .delete _ _ _ => some .delete
  | createCollection _, .createCollection _ | createCollectionFor, .createCollection _ =>
    some .createCollection
  | deleteCollection _, .deleteCollection _ => some .deleteCollection
  | _, _ => none

/-- A request makes a call for an operation. -/
def Makes (r : Request α) (op : Operation) (call : RecordedCall) : Prop :=
  r.operation? call = some op

/-- Carry a request out. -/
def run {σ : Type} (c : Client σ) (e : EntityType α) : Request α → Access σ (Reply α)
  | read r => do
    let a ← r.run c e
    pure (.answer a)
  | findAll => do
    let list ← c.findAll e
    pure (.answer (.entities list))
  | collectionName => do
    let s ← Client.collectionName e.toEntityDeclaration
    pure (.name s)
  | count name q => do
    let n ← c.count e name q
    pure (.number n)
  | countAll name => do
    let n ← c.countAll name
    pure (.number n)
  | write mode a key => do
    let a ← c.write e mode a key
    pure (.entity a)
  | writeInto mode name a key => do
    let a ← c.writeInto e mode name a key
    pure (.entity a)
  | deleteById name id key => do
    c.deleteById name id key
    pure .done
  | deleteEntity a key => do
    c.deleteEntity e a key
    pure .done
  | delete name q => do
    let list ← c.delete e name q
    pure (.answer (.entities list))
  | deleteAll name => do
    let list ← c.deleteAll e name
    pure (.answer (.entities list))
  | createCollection m => do
    let p ← c.createCollection m
    pure (.properties p)
  | createCollectionFor => do
    let p ← c.createCollectionFor e.toEntityDeclaration
    pure (.properties p)
  | deleteCollection name => do
    c.deleteCollection name
    pure .done

end Request

/-- A read makes only calls that are reported under an operation of its own kind. -/
theorem Read.observed (r : Read) : Observed c terms (fun op call => r.operation? call = some op)
    (r.run c e) (r.run (c.watched terms) e) := by
  cases r with
  | find name q => exact .bind (find_observed fun _ _ => rfl) fun _ => .pure _
  | findAllIn name => exact .bind (find_observed fun _ _ => rfl) fun _ => .pure _
  | findById id key =>
    refine .bind (findById_observed id key ?_ ?_) fun _ => .pure _
    · rintro rfl name statement o
      rfl
    · rintro k rfl name
      rfl
  | findByIdIn name id => exact .bind (findByIdIn_observed id fun _ _ => rfl) fun _ => .pure _
  | findByIds name ids => exact .bind (findByIds_observed ids fun _ _ => rfl) fun _ => .pure _
  | «exists» name q => exact .bind (exists_observed fun _ _ => rfl) fun _ => .pure _
  | paginate name q =>
    refine .bind (paginate_observed (fun _ o ho => ?_) fun _ o ho => ?_) fun _ => .pure _
    · exact if_pos (Option.isSome_iff_ne_none.mpr ho)
    · exact if_neg (by rw [ho]; exact Bool.false_ne_true)
  | findAllPaged name state =>
    refine .bind (paginate_observed (fun _ o ho => ?_) fun _ o ho => ?_) fun _ => .pure _
    · exact if_pos (Option.isSome_iff_ne_none.mpr ho)
    · exact if_neg (by rw [ho]; exact Bool.false_ne_true)

/-- **Every call is reported once**, whatever is asked, over any backend. -/
theorem Request.observed (r : Request α) :
    Observed c terms r.Makes (r.run c e) (r.run (c.watched terms) e) := by
  cases r with
  | read r => exact .bind r.observed fun _ => .pure _
  | findAll =>
    refine .bind (.bind (collectionName_observed _) fun name => ?_) fun _ => .pure _
    exact find_observed fun _ _ => rfl
  | collectionName => exact .bind (collectionName_observed _) fun _ => .pure _
  | count name q => exact .bind (count_observed fun _ _ => rfl) fun _ => .pure _
  | countAll name => exact .bind (countAll_observed fun _ _ => rfl) fun _ => .pure _
  | write mode a key =>
    refine .bind (write_observed a key ?_) fun _ => .pure _
    cases mode with
    | insert => exact fun _ _ _ => rfl
    | upsert => exact fun _ _ _ => rfl
  | writeInto mode name a key =>
    refine .bind (writeInto_observed a key ?_) fun _ => .pure _
    cases mode with
    | insert => exact fun _ _ _ => rfl
    | upsert => exact fun _ _ _ => rfl
  | deleteById name id key =>
    exact .bind (deleteById_observed id key fun _ _ _ => rfl) fun _ => .pure _
  | deleteEntity a key =>
    exact .bind (deleteEntity_observed a key fun _ _ _ => rfl) fun _ => .pure _
  | delete name q =>
    exact .bind (delete_observed (fun _ _ => rfl) fun _ _ => rfl) fun _ => .pure _
  | deleteAll name =>
    exact .bind (delete_observed (fun _ _ => rfl) fun _ _ => rfl) fun _ => .pure _
  | createCollection m =>
    exact .bind (createCollection_observed m fun _ => rfl) fun _ => .pure _
  | createCollectionFor =>
    refine .bind (.bind (.metadata _) fun m => ?_) fun _ => .pure _
    exact createCollection_observed m fun _ => rfl
  | deleteCollection name => exact .bind (deleteCollection_observed rfl) fun _ => .pure _

end DocQuery.Client
