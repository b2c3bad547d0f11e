/-
  One report for every call.

  A client reports each call of its backend when the answer is there, whatever becomes of the
  operation that made it.  So the reports that an operation adds are, one by one and in order, those
  of the calls that a probe around the backend sees.

  Three things have to be followed at once: the calls and answers as the backend sees them, the
  reports in the session, and the same operation run over a backend with a probe.  `Course` puts
  them into one statement about a step from a state, and is closed under sequencing.  From there
  on an operation is observed because its steps are; what remains for each of them is to name the
  calls it may make, and under which operation they are reported.

  1. `Access.Yields`: outcome, state and reports of a step, and `Access.Silent`: steps without a
     call;
  2. `Exchange` and `Trace`: calls with what was answered, one after the other;
  3. `Exchange.ReportedAs`: what a report says of a call;
  4. `Access.Observed`: a step beside the same step with a probe around the backend, sequences and
     calls.
-/
import DocQuery.Proofs.Absorbing
import DocQuery.Proofs.Batches

namespace DocQuery

variable {σ α β : Type}

namespace AccessError

/-- An error tells which operation was refused, and why. -/
theorem refused?_translate (op : Operation) (f : BackendError) :
    (translate op f).refused? = some (op, f) := by
  rw [translate]
  split
  · rfl
  · split <;> rfl

/-- `translate` keeps the fault it translates: what the backend refused with can be told from the
error. -/
theorem translate_injective {op : Operation} {f f' : BackendError}
    (h : translate op f = translate op f') : f = f' := by
  have hrefused := congrArg refused? h
  rw [refused?_translate, refused?_translate] at hrefused
  exact congrArg Prod.snd (Option.some.inj hrefused)

end AccessError

/-! ## What a step reports -/

namespace Access

/-- On every session over a state of the backend a step has this outcome, leaves that state, and
adds these reports. -/
def Yields (x : Access σ α) (state : σ) (r : Except AccessError α) (reports : List Diagnostic)
    (state' : σ) : Prop :=
  ∀ s : Session σ, s.backend = state → ∃ s' : Session σ,
    x.run s = (r, s') ∧ s'.backend = state' ∧ s'.diagnostics = s.diagnostics ++ reports

/-- A step that has this outcome in any state, leaves the state, and reports nothing. -/
def Silent (x : Access σ α) (r : Except AccessError α) : Prop :=
  ∀ state, x.Yields state r [] state

namespace Yields

variable {x : Access σ α} {f : α → Access σ β} {state state₁ state' : σ}
  {reports reports' : List Diagnostic}

/-- What a step yields it leads to, whatever it reports. -/
theorem leads {r : Except AccessError α} (h : x.Yields state r reports state') :
    x.Leads state r state' := by
  intro s hs
  obtain ⟨s', hx, hs', -⟩ := h s hs
  exact ⟨s', hx, hs'⟩

/-- A run has this outcome and adds these reports. -/
theorem of_run {r r' : Except AccessError α} {s s' : Session σ}
    (h : x.Yields s.backend r reports state') (hrun : x.run s = (r', s')) :
    r' = r ∧ s'.backend = state' ∧ s'.diagnostics = s.diagnostics ++ reports := by
  obtain ⟨s₁, hx, hs₁, hreports⟩ := h s rfl
  obtain ⟨rfl, rfl⟩ := Prod.mk.inj (hx.symm.trans hrun)
  exact ⟨rfl, hs₁, hreports⟩

/-- A sequence adds the reports of its first step, and then those of its second. -/
theorem bind {a : α} {r : Except AccessError β} (h : x.Yields state (.ok a) reports state₁)
    (h' : (f a).Yields state₁ r reports' state') :
    (x >>= f).Yields state r (reports ++ reports') state' := by
  intro s hs
  obtain ⟨s₁, hx, hs₁, hreports⟩ := h s hs
  obtain ⟨s₂, hf, hs₂, hreports'⟩ := h' s₁ hs₁
  refine ⟨s₂, (run_bind hx).trans hf, hs₂, ?_⟩
  rw [hreports', hreports, List.append_assoc]

/-- A step without a call adds nothing to what comes before it. -/
theorem behind {a : α} {r : Except AccessError β} (h : x.Yields state (.ok a) reports state')
    (h' : (f a).Silent r) : (x >>= f).Yields state r reports state' := by
  have hboth := h.bind (h' state')
  rw [List.append_nil] at hboth
  exact hboth

/-- A sequence that ends with its first step adds the reports of that. -/
theorem bind_error {err : AccessError} (h : x.Yields state (.error err) reports state') :
    (x >>= f).Yields state (.error err) reports state' := by
  intro s hs
  obtain ⟨s₁, hx, hs₁, hreports⟩ := h s hs
  exact ⟨s₁, run_bind hx, hs₁, hreports⟩

/-- What is done to a result is not reported. -/
theorem map {r : Except AccessError α} (h : x.Yields state r reports state') (g : α → β) :
    (x >>= fun a => Pure.pure (g a)).Yields state (r.map g) reports state' := by
  intro s hs
  obtain ⟨s₁, hx, hs₁, hreports⟩ := h s hs
  refine ⟨s₁, (run_bind hx).trans ?_, hs₁, hreports⟩
  cases r <;> rfl

/-- A sequence that succeeds went on behind its first step. -/
theorem ok_of_bind {r : Except AccessError α} {b : β} {s s' : Session σ}
    (h : x.Yields s.backend r reports state') (hrun : (x >>= f).run s = (.ok b, s')) :
    ∃ a s₁, r = .ok a ∧ s₁.backend = state' ∧ s₁.diagnostics = s.diagnostics ++ reports
      ∧ (f a).run s₁ = (.ok b, s') := by
  obtain ⟨s₁, hx, hs₁, hreports⟩ := h s rfl
  rw [run_bind hx] at hrun
  cases r with
  | error e => cases (Prod.mk.inj hrun).1
  | ok a => exact ⟨a, s₁, rfl, hs₁, hreports, hrun⟩

/-- An outcome that is taken as a value is reported like any other. -/
theorem attempt {r : Except AccessError α} (h : x.Yields state r reports state') :
    (Access.attempt x).Yields state (.ok r) reports state' := by
  intro s hs
  obtain ⟨s₁, hx, hs₁, hreports⟩ := h s hs
  refine ⟨s₁, ?_, hs₁, hreports⟩
  show ((.ok (x.run s).1, (x.run s).2) : Except AccessError _ × Session σ) = _
  rw [hx]

/-- A call adds the report of what was answered. -/
theorem call {ρ : Type} (c : Client σ) (op : Operation) (collection : String)
    (observe : ρ → Observation) (f : BackendCall σ ρ) (state : σ) :
    (c.call op collection observe f).Yields state ((f state).1.mapError (AccessError.translate op))
      [c.report op collection observe (f state).1] (f state).2 := by
  intro s hs
  subst hs
  exact ⟨_, rfl, rfl, rfl⟩

/-- A call that was answered is reported with the answer. -/
theorem call_ok {ρ : Type} {c : Client σ} {op : Operation} {collection : String}
    {observe : ρ → Observation} {f : BackendCall σ ρ} {a : ρ}
    (h : (c.call op collection observe f).Leads state (.ok a) state') :
    (c.call op collection observe f).Yields state (.ok a)
      [.success c.database op collection (observe a)] state' := by
  have hcall := call c op collection observe f state
  obtain ⟨hr, hstate⟩ := hcall.leads.unique h
  rw [hr, hstate, ok_of_mapError hr] at hcall
  exact hcall

/-- A call that was refused is reported with the fault. -/
theorem call_error {ρ : Type} {c : Client σ} {op : Operation} {collection : String}
    {observe : ρ → Observation} {f : BackendCall σ ρ} {fault : BackendError}
    (h : (c.call op collection observe f).Leads state (.error (.translate op fault)) state') :
    (c.call op collection observe f).Yields state (.error (.translate op fault))
      [.failure c.database op collection fault] state' := by
  have hcall := call c op collection observe f state
  obtain ⟨hr, hstate⟩ := hcall.leads.unique h
  obtain ⟨fault', hfault, heq⟩ := error_of_mapError hr
  obtain rfl := AccessError.translate_injective heq
  rw [hr, hstate, hfault] at hcall
  exact hcall

/-- Asking a backend how many answers may follow is no call. -/
theorem rounds (c : Client σ) (state : σ) :
    (modifyGet fun s => (c.backend.rounds s.backend, s) : Access σ Nat).Yields state
      (.ok (c.backend.rounds state)) [] state := by
  intro s hs
  refine ⟨s, ?_, hs, (List.append_nil _).symm⟩
  rw [← hs]
  rfl

end Yields

/-! ### Steps without a call -/

/-- An outcome that is given goes on, or ends the sequence. -/
theorem given_bind (r : Except AccessError α) (f : α → Access σ β) :
    ((ExceptT.mk (pure r) : Access σ α) >>= f)
      = match r with
        | .ok a => f a
        | .error e => ExceptT.mk (pure (.error e)) := by
  cases r <;> rfl

/-- A check of arguments is an outcome that is given, with no call to any backend. -/
theorem checked_eq (r : Except ArgumentFault α) :
    (Access.checked r : Access σ α) = ExceptT.mk (pure (r.mapError .invalidArgument)) := by
  cases r <;> rfl

theorem compiled_eq (r : Except QueryFault α) :
    (Access.compiled r : Access σ α) = ExceptT.mk (pure (r.mapError .queryCompilation)) := by
  cases r <;> rfl

theorem mapped_eq (r : Except MappingFault α) :
    (Access.mapped r : Access σ α) = ExceptT.mk (pure (r.mapError .mapping)) := by
  cases r <;> rfl

/-- Reading several records is still one given outcome: that of the first which cannot be read, or
all entities. -/
theorem mapEach_eq (read : Document → Except MappingFault α) (ds : List Document) :
    (Access.mapEach read ds : Access σ (List α))
      = ExceptT.mk (pure ((ds.mapM read).mapError .mapping)) := by
  induction ds with
  | nil => rfl
  | cons d ds ih =>
    rw [mapEach, mapped_eq, given_bind, ih, List.mapM_cons]
    cases read d with
    | error e => rfl
    | ok a =>
      show (ExceptT.mk (pure _) >>= _ : Access σ (List α)) = _
      rw [given_bind]
      cases ds.mapM read <;> rfl

namespace Silent

/-- A given outcome reports nothing and leaves the state. -/
theorem given (r : Except AccessError α) :
    Access.Silent (ExceptT.mk (Pure.pure r) : Access σ α) r :=
  fun _ s hs => ⟨s, rfl, hs, (List.append_nil _).symm⟩

theorem pure (a : α) : (Pure.pure a : Access σ α).Silent (.ok a) :=
  given (.ok a)

/-- What reports nothing and leaves the state settles. -/
theorem settles {x : Access σ α} {r : Except AccessError α} (h : x.Silent r) (state : σ) :
    x.Settles state r :=
  (h state).leads

/-- What is done to a result stays unreported. -/
theorem map {x : Access σ α} {r : Except AccessError α} (h : x.Silent r) (f : α → β) :
    (x >>= fun a => Pure.pure (f a)).Silent (r.map f) := by
  intro state
  cases r with
  | error e => exact (h state).bind_error
  | ok a => exact (h state).bind (pure (f a) state)

/-- A step without a call adds nothing to what comes behind it. -/
theorem bind_yields {x : Access σ α} {f : α → Access σ β} {a : α} {r : Except AccessError β}
    {state state' : σ} {reports : List Diagnostic} (h : x.Silent (.ok a))
    (h' : (f a).Yields state r reports state') : (x >>= f).Yields state r reports state' :=
  (h state).bind h'

/-- A sequence of two steps without a call is one. -/
theorem bind {x : Access σ α} {f : α → Access σ β} {a : α} {r : Except AccessError β}
    (h : x.Silent (.ok a)) (h' : (f a).Silent r) : (x >>= f).Silent r :=
  fun state => h.bind_yields (h' state)

/-- What follows a step without a call begins where the step began. -/
theorem of_bind {x : Access σ α} {f : α → Access σ β} {r : Except AccessError α}
    {r' : Except AccessError β} {s s' : Session σ} (h : x.Silent r)
    (hrun : (x >>= f).run s = (r', s')) :
    (∃ e, r = .error e ∧ r' = .error e ∧ s'.backend = s.backend
        ∧ s'.diagnostics = s.diagnostics)
      ∨ ∃ a s₁, r = .ok a ∧ s₁.backend = s.backend ∧ s₁.diagnostics = s.diagnostics
        ∧ (f a).run s₁ = (r', s') := by
  obtain ⟨s₁, hx, hs₁, hreports⟩ := h s.backend s rfl
  rw [run_bind hx] at hrun
  rw [List.append_nil] at hreports
  cases r with
  | error e =>
    obtain ⟨rfl, rfl⟩ := Prod.mk.inj hrun
    exact .inl ⟨e, rfl, rfl, hs₁, hreports⟩
  | ok a => exact .inr ⟨a, s₁, rfl, hs₁, hreports, hrun⟩

/-- A sequence that succeeds went through a step without a call. -/
theorem ok_of_bind {x : Access σ α} {f : α → Access σ β} {r : Except AccessError α} {b : β}
    {s s' : Session σ} (h : x.Silent r) (hrun : (x >>= f).run s = (.ok b, s')) :
    ∃ a s₁, r = .ok a ∧ s₁.backend = s.backend ∧ s₁.diagnostics = s.diagnostics
      ∧ (f a).run s₁ = (.ok b, s') := by
  rcases h.of_bind hrun with ⟨e, -, herror, -⟩ | hok
  · cases herror
  · exact hok

/-- A check of arguments makes no call. -/
theorem checked (r : Except ArgumentFault α) :
    (Access.checked r : Access σ α).Silent (r.mapError .invalidArgument) := by
  rw [checked_eq]
  exact given _

/-- Compiling a query makes no call. -/
theorem compiled (r : Except QueryFault α) :
    (Access.compiled r : Access σ α).Silent (r.mapError .queryCompilation) := by
  rw [compiled_eq]
  exact given _

/-- Reading a record as an entity makes no call. -/
theorem mapped (r : Except MappingFault α) :
    (Access.mapped r : Access σ α).Silent (r.mapError .mapping) := by
  rw [mapped_eq]
  exact given _

theorem mapEach (read : Document → Except MappingFault α) (ds : List Document) :
    (Access.mapEach read ds : Access σ (List α)).Silent ((ds.mapM read).mapError .mapping) := by
  rw [mapEach_eq]
  exact given _

/-- Looking up metadata changes what is kept, but calls nothing. -/
theorem metadata (d : EntityDeclaration) : (Client.metadata d : Access σ Metadata).Silent
    ((Metadata.ofDeclaration d).mapError .invalidArgument) := by
  intro state s hs
  refine ⟨{ s with cache := (s.cache.get d).2 }, ?_, hs, (List.append_nil _).symm⟩
  rw [← MetadataCache.get_fst d s.cache]
  rfl

/-- The name of the collection of a type is had without a call. -/
theorem collectionName (d : EntityDeclaration) : (Client.collectionName d : Access σ String).Silent
    (((Metadata.ofDeclaration d).mapError .invalidArgument).map Metadata.collection) :=
  (metadata d).map Metadata.collection

end Silent

end Access

/-! ## Calls with what was answered -/

/-- The collection that a call is about. -/
def RecordedCall.collection : RecordedCall → String
  | .query name _ _ | .create name _ _ | .upsert name _ _ | .read name _ _ | .delete name _ _
  | .deleteCollection name => name
  | .createCollection properties => properties.name

/-- An answer of any kind. -/
inductive BackendAnswer where
  | records (a : QueryAnswer)
  | record (a : RecordAnswer)
  | collection (a : CollectionAnswer)

namespace BackendAnswer

/-- How many records an answer holds. -/
def returned : BackendAnswer → Nat
  | records a => a.records.length
  | record a => if a.record.isSome then 1 else 0
  | collection _ => 0

/-- Whether there is more where an answer comes from. -/
def goesOn : BackendAnswer → Bool
  | records a => a.continuation.isSome
  | _ => false

end BackendAnswer

/-- A call that is answered in one of three ways. -/
def BackendCall.answering {ρ : Type} (wrap : ρ → BackendAnswer) (f : BackendCall σ ρ) :
    BackendCall σ BackendAnswer := fun s =>
  ((f s).1.map wrap, (f s).2)

/-- Send a call to a backend, for the answer. -/
def Backend.answer (b : Backend σ) : RecordedCall → BackendCall σ BackendAnswer
  | .query name statement options => (b.query name statement options).answering .records
  | .create name d target => (b.create name d target).answering .record
  | .upsert name d target => (b.upsert name d target).answering .record
  | .read name id key => (b.read name id key).answering .record
  | .delete name id target => (b.delete name id target).answering .record
  | .createCollection properties => (b.createCollection properties).answering .collection
  | .deleteCollection name => (b.deleteCollection name).answering .collection

/-- A call with what was answered. -/
structure Exchange where
  call : RecordedCall
  answer : Except BackendError BackendAnswer

/-- Calls of a backend one after the other, each with the answer that the backend gives in the
state that the calls before it have left. -/
inductive Trace (b : Backend σ) : σ → List Exchange → σ → Prop
  | done (s : σ) : Trace b s [] s
  | next {s s' : σ} {call : RecordedCall} {exchanges : List Exchange}
      (rest : Trace b (b.answer call s).2 exchanges s') :
      Trace b s (⟨call, (b.answer call s).1⟩ :: exchanges) s'

/-- Exchanges go on from where others end. -/
theorem Trace.append {b : Backend σ} {s s₁ s' : σ} {before behind : List Exchange}
    (h : Trace b s before s₁) (h' : Trace b s₁ behind s') : Trace b s (before ++ behind) s' := by
  induction h with
  | done s => exact h'
  | next rest ih => exact .next (ih h')

/-- A trace without calls goes nowhere. -/
theorem Trace.eq_of_nil {b : Backend σ} {s s' : σ} (h : Trace b s [] s') : s' = s := by
  cases h
  rfl

/-! ## What a report says of a call -/

namespace Exchange

/-- 200, or the status of the fault. -/
def status (x : Exchange) : Nat :=
  match x.answer with
  | .ok _ => 200
  | .error f => f.status

/-- How many records the call returned. -/
def returned (x : Exchange) : Nat :=
  match x.answer with
  | .ok a => a.returned
  | .error _ => 0

def goesOn (x : Exchange) : Bool :=
  match x.answer with
  | .ok a => a.goesOn
  | .error _ => false

/-- What the fault says, if there was one. -/
def fault? (x : Exchange) : Option String :=
  match x.answer with
  | .ok _ => none
  | .error f => some f.message

/-- A report that says of a call what was called, for an operation that makes such calls, and what
came of it. -/
structure ReportedAs (database : String) (makes : Operation → RecordedCall → Prop) (x : Exchange)
    (d : Diagnostic) : Prop where
  database : d.database = database
  operation : makes d.operation x.call
  collection : d.collection = x.call.collection
  status : d.status = x.status
  items : d.observation.items = x.returned
  goesOn : d.observation.hasContinuation = x.goesOn
  error : d.error = x.fault?

end Exchange

/-- Two lists that are paired may be put behind two others. -/
theorem Paired.append {α β : Type} {R : α → β → Prop} {as as' : List α} {bs bs' : List β}
    (h : Paired R as bs) (h' : Paired R as' bs') : Paired R (as ++ as') (bs ++ bs') := by
  induction h with
  | nil => exact h'
  | cons hab _ ih => exact .cons hab ih

/-! ## A step beside the step with a probe -/

variable {c : Client σ} {terms : PromptTerms} {makes : Operation → RecordedCall → Prop}

/-- What a step comes to from a state of the backend: an outcome, calls with their answers, and a
report for each of them; and with a probe around the backend it comes to the same, and the probe
sees those calls. -/
structure Course (c : Client σ) (terms : PromptTerms) (makes : Operation → RecordedCall → Prop)
    (x : Access σ α) (y : Access (Probed σ) α) (state : σ) (r : Except AccessError α)
    (exchanges : List Exchange) (reports : List Diagnostic) (state' : σ) : Prop where
  yields : x.Yields state r reports state'
  trace : Trace c.backend state exchanges state'
  reported : Paired (Exchange.ReportedAs c.database makes) exchanges reports
  seen : ∀ calls, y.Leads (.past state calls) r
    (.past state' (calls ++ exchanges.map Exchange.call))

/-- From every state a step reports the calls that it makes, one by one. -/
def Access.Observed (c : Client σ) (terms : PromptTerms)
    (makes : Operation → RecordedCall → Prop) (x : Access σ α) (y : Access (Probed σ) α) : Prop :=
  ∀ state, ∃ r exchanges reports state', Course c terms makes x y state r exchanges reports state'

namespace Course

variable {x : Access σ α} {y : Access (Probed σ) α} {f : α → Access σ β}
  {g : α → Access (Probed σ) β} {state state₁ state' : σ} {exchanges exchanges' : List Exchange}
  {reports reports' : List Diagnostic}

/-- A sequence: the exchanges of the first step come before those of the second, in the probe as in
the reports. -/
theorem bind {a : α} {r : Except AccessError β}
    (h : Course c terms makes x y state (.ok a) exchanges reports state₁)
    (h' : Course c terms makes (f a) (g a) state₁ r exchanges' reports' state') :
    Course c terms makes (x >>= f) (y >>= g) state r (exchanges ++ exchanges')
      (reports ++ reports') state' := by
  refine ⟨h.yields.bind h'.yields, h.trace.append h'.trace, h.reported.append h'.reported, ?_⟩
  intro calls
  rw [List.map_append, ← List.append_assoc]
  exact (h.seen calls).bind (h'.seen _)

/-- What reports nothing calls nothing, and leaves the backend as it was. -/
theorem quiet {r : Except AccessError α}
    (h : Course c terms makes x y state r exchanges [] state') :
    state' = state ∧ ∀ calls, y.Leads (.past state calls) r (.past state calls) := by
  obtain rfl : exchanges = [] := by
    cases h.reported
    rfl
  obtain rfl := h.trace.eq_of_nil
  refine ⟨rfl, fun calls => ?_⟩
  have hseen := h.seen calls
  rw [List.map_nil, List.append_nil] at hseen
  exact hseen

/-- A sequence that ends with its first step. -/
theorem bind_error {e : AccessError}
    (h : Course c terms makes x y state (.error e) exchanges reports state') :
    Course c terms makes (x >>= f) (y >>= g) state (.error e) exchanges reports state' :=
  ⟨h.yields.bind_error, h.trace, h.reported, fun calls => (h.seen calls).bind_error⟩

end Course

namespace Access.Observed

variable {x : Access σ α} {y : Access (Probed σ) α} {f : α → Access σ β}
  {g : α → Access (Probed σ) β}

/-- A sequence reports what its steps do. -/
theorem bind (h : Observed c terms makes x y) (h' : ∀ a, Observed c terms makes (f a) (g a)) :
    Observed c terms makes (x >>= f) (y >>= g) := by
  intro state
  obtain ⟨r, exchanges, reports, state₁, hx⟩ := h state
  cases r with
  | error e => exact ⟨.error e, exchanges, reports, state₁, hx.bind_error⟩
  | ok a =>
    obtain ⟨r, exchanges', reports', state', hf⟩ := h' a state₁
    exact ⟨r, exchanges ++ exchanges', reports ++ reports', state', hx.bind hf⟩

/-- An outcome that is taken as a value was observed all the same. -/
theorem attempt (h : Observed c terms makes x y) :
    Observed c terms makes (Access.attempt x) (Access.attempt y) := by
  intro state
  obtain ⟨r, exchanges, reports, state', hx⟩ := h state
  exact ⟨.ok r, exchanges, reports, state', hx.yields.attempt, hx.trace, hx.reported,
    fun calls => (hx.seen calls).attempt⟩

/-- A call is reported once, whether it is answered or refused. -/
theorem call {ρ : Type} {op : Operation} {observe : ρ → Observation} {call : RecordedCall}
    {wrap : ρ → BackendAnswer} {f : BackendCall σ ρ}
    (prompted : Prompt → Except BackendError ρ) (hop : makes op call)
    (hanswer : c.backend.answer call = f.answering wrap)
    (hitems : ∀ a, (observe a).items = (wrap a).returned)
    (hgoesOn : ∀ a, (observe a).hasContinuation = (wrap a).goesOn) :
    Observed c terms makes (c.call op call.collection observe f)
      ((c.watched terms).call op call.collection observe (Backend.watched call prompted f)) := by
  intro state
  refine ⟨_, [⟨call, (c.backend.answer call state).1⟩], _, (f state).2,
    .call c op call.collection observe f state, ?_, .cons ?_ .nil, fun calls => ?_⟩
  · have hstate : (f state).2 = (c.backend.answer call state).2 := by rw [hanswer]; rfl
    rw [hstate]
    exact .next (.done _)
  · rw [hanswer, BackendCall.answering]
    cases (f state).1 with
    | ok a => exact ⟨rfl, hop, rfl, rfl, hitems a, hgoesOn a, rfl⟩
    | error e => exact ⟨rfl, hop, rfl, rfl, rfl, rfl, rfl⟩
  · have hcall := Access.Leads.call (c.watched terms) op call.collection observe
      (Backend.watched call prompted f) (.past state calls)
    have hwatched : Backend.watched call prompted f (.past state calls)
        = ((f state).1, .past (f state).2 (calls ++ [call])) :=
      Backend.watched_past rfl call prompted calls
    rw [hwatched] at hcall
    exact hcall

/-- A probe lets the number of answers pass, and sees nothing of it. -/
theorem rounds : Observed c terms makes
    (modifyGet fun s => (c.backend.rounds s.backend, s) : Access σ Nat)
    (modifyGet fun s => ((c.watched terms).backend.rounds s.backend, s)) := by
  intro state
  refine ⟨_, [], [], state, .rounds c state, .done state, .nil, fun calls => ?_⟩
  have hrounds : (c.watched terms).backend.rounds (.past state calls) = c.backend.rounds state :=
    Nat.zero_add _
  have hsettles : (modifyGet fun s => ((c.watched terms).backend.rounds s.backend, s)
      : Access (Probed σ) Nat).Settles (.past state calls) _ := .rounds (c.watched terms)
  rw [hrounds] at hsettles
  rw [List.map_nil, List.append_nil]
  exact hsettles

/-! ### Steps without a call -/

/-- Two steps without a call, of one outcome. -/
theorem silent {r : Except AccessError α} (hx : x.Silent r) (hy : y.Silent r) :
    Observed c terms makes x y := by
  intro state
  refine ⟨r, [], [], state, hx state, .done state, .nil, fun calls => ?_⟩
  rw [List.map_nil, List.append_nil]
  exact (hy (.past state calls)).leads

/-- An outcome that is given is the same beside a probe. -/
theorem given (r : Except AccessError α) :
    Observed c terms makes (ExceptT.mk (Pure.pure r)) (ExceptT.mk (Pure.pure r)) :=
  silent (.given r) (.given r)

theorem pure (a : α) : Observed c terms makes (Pure.pure a) (Pure.pure a) :=
  given (.ok a)

theorem checked (r : Except ArgumentFault α) :
    Observed c terms makes (Access.checked r) (Access.checked r) :=
  silent (.checked r) (.checked r)

theorem compiled (r : Except QueryFault α) :
    Observed c terms makes (Access.compiled r) (Access.compiled r) :=
  silent (.compiled r) (.compiled r)

theorem mapped (r : Except MappingFault α) :
    Observed c terms makes (Access.mapped r) (Access.mapped r) :=
  silent (.mapped r) (.mapped r)

theorem mapEach (read : Document → Except MappingFault α) (ds : List Document) :
    Observed c terms makes (Access.mapEach read ds) (Access.mapEach read ds) :=
  silent (.mapEach read ds) (.mapEach read ds)

/-- Deriving the metadata of an entity type is the same with a probe and without, cached or not. -/
theorem metadata (d : EntityDeclaration) :
    Observed c terms makes (Client.metadata d) (Client.metadata d) :=
  silent (.metadata d) (.metadata d)

end Access.Observed

end DocQuery
