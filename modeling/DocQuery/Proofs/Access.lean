/-
  What an access comes to.

  The outcome of an access, and the state it leaves, hang on the state of the backend alone:
  neither on what the session has reported, nor on the metadata it keeps.  `Leads` says so of a
  step.  Finding, counting and paging leave the state as it is; of steps like that `Settles` says
  their outcome, and a whole operation settles as its steps do.

  The session changes at nearly every step, by a report or a new entry in the cache.  Were it in
  the statements, every operation would drag along a list of reports that nobody asks for.  So
  both laws quantify over all sessions over one state of the backend, and hand on a session that
  is again any such.  That is what lets them be put together: behind a first step nothing is known
  of the session but the state of its backend, and nothing else is needed.

  1. `Leads`: sequences, and calls of a backend;
  2. `Settles`: sequences, and that an outcome is the only one;
  3. the steps of the library: checks, metadata, calls of a backend, mapping.
-/
import DocQuery.Client.Read
import DocQuery.Proofs.Outcome
import DocQuery.Store.Backend

namespace DocQuery

variable {σ α β : Type}

/-- On every session over a state of the backend a step has this outcome, and leaves that state. -/
def Access.Leads (x : Access σ α) (state : σ) (outcome : Except AccessError α) (state' : σ) :
    Prop :=
  ∀ s : Session σ, s.backend = state →
    ∃ s' : Session σ, x.run s = (outcome, s') ∧ s'.backend = state'

/-- A sequence goes on from where its first step ends. -/
theorem Access.run_bind {x : Access σ α} {f : α → Access σ β} {r : Except AccessError α}
    {s s₁ : Session σ} (hx : x.run s = (r, s₁)) :
    (x >>= f).run s = ExceptT.bindCont f r s₁ := by
  show ExceptT.bindCont f (x.run s).1 (x.run s).2 = _
  rw [hx]

/-- A sequence that succeeds went on with the result of its first step. -/
theorem Access.ok_of_run_bind {x : Access σ α} {f : α → Access σ β} {b : β} {s s' : Session σ}
    (h : (x >>= f).run s = (.ok b, s')) :
    ∃ a s₁, x.run s = (.ok a, s₁) ∧ (f a).run s₁ = (.ok b, s') := by
  rcases hx : x.run s with ⟨e | a, s₁⟩
  · rw [run_bind hx] at h
    cases (Prod.mk.inj h).1
  · rw [run_bind hx] at h
    exact ⟨a, s₁, rfl, h⟩

/-- A sequence that fails does so in its first step, or behind it. -/
theorem Access.error_of_run_bind {x : Access σ α} {f : α → Access σ β} {err : AccessError}
    {s s' : Session σ} (h : (x >>= f).run s = (.error err, s')) :
    x.run s = (.error err, s')
      ∨ ∃ a s₁, x.run s = (.ok a, s₁) ∧ (f a).run s₁ = (.error err, s') := by
  rcases hx : x.run s with ⟨e | a, s₁⟩
  · rw [run_bind hx] at h
    obtain ⟨he, hs⟩ := Prod.mk.inj h
    rw [← hs, ← Except.error.inj he]
    exact .inl rfl
  · rw [run_bind hx] at h
    exact .inr ⟨a, s₁, rfl, h⟩

namespace Access.Leads

variable {x : Access σ α} {f : α → Access σ β} {state state₁ state' : σ}

/-- There is one outcome at most, and one state that is left. -/
theorem unique {r r' : Except AccessError α} {state'' : σ} (h : x.Leads state r state')
    (h' : x.Leads state r' state'') : r = r' ∧ state' = state'' := by
  obtain ⟨s, hs, hstate⟩ := h { backend := state } rfl
  obtain ⟨s', hs', hstate'⟩ := h' { backend := state } rfl
  rw [hs] at hs'
  obtain ⟨rfl, rfl⟩ := Prod.mk.inj hs'
  exact ⟨rfl, hstate.symm.trans hstate'⟩

/-- A sequence goes on with the result of its first step, from the state behind it. -/
theorem bind {a : α} {r : Except AccessError β} (h : x.Leads state (.ok a) state₁)
    (h' : (f a).Leads state₁ r state') : (x >>= f).Leads state r state' := by
  intro s hs
  obtain ⟨s₁, hx, hs₁⟩ := h s hs
  obtain ⟨s₂, hf, hs₂⟩ := h' s₁ hs₁
  exact ⟨s₂, (run_bind hx).trans hf, hs₂⟩

/-- A sequence ends with an error of its first step. -/
theorem bind_error {e : AccessError} (h : x.Leads state (.error e) state') :
    (x >>= f).Leads state (.error e) state' := by
  intro s hs
  obtain ⟨s₁, hx, hs₁⟩ := h s hs
  exact ⟨s₁, run_bind hx, hs₁⟩

/-- An outcome taken as a value. -/
theorem attempt {r : Except AccessError α} (h : x.Leads state r state') :
    (Access.attempt x).Leads state (.ok r) state' := by
  intro s hs
  obtain ⟨s₁, hx, hs₁⟩ := h s hs
  refine ⟨s₁, ?_, hs₁⟩
  show ((.ok (x.run s).1, (x.run s).2) : Except AccessError _ × Session σ) = _
  rw [hx]

/-- A call of the backend, translated. -/
theorem call {ρ : Type} (c : Client σ) (op : Operation) (collection : String)
    (observe : ρ → Observation) (f : BackendCall σ ρ) (state : σ) :
    (c.call op collection observe f).Leads state
      ((f state).1.mapError (AccessError.translate op)) (f state).2 := by
  intro s hs
  subst hs
  exact ⟨_, rfl, rfl⟩

end Access.Leads

/-- On every session over a state of the backend a step has this outcome, and leaves the state. -/
def Access.Settles (x : Access σ α) (state : σ) (outcome : Except AccessError α) : Prop :=
  ∀ s : Session σ, s.backend = state →
    ∃ s' : Session σ, x.run s = (outcome, s') ∧ s'.backend = state

namespace Access.Settles

variable {x : Access σ α} {f : α → Access σ β} {state : σ}

/-- What settles leaves the state that it started from. -/
theorem leads {r : Except AccessError α} (h : x.Settles state r) : x.Leads state r state :=
  h

/-- There is one outcome at most. -/
theorem unique {r r' : Except AccessError α} (h : x.Settles state r) (h' : x.Settles state r') :
    r = r' :=
  (Leads.unique h h').1

/-- A sequence goes on with the result of its first step. -/
theorem bind {a : α} {r : Except AccessError β} (h : x.Settles state (.ok a))
    (h' : (f a).Settles state r) : (x >>= f).Settles state r :=
  Leads.bind h h'

/-- A sequence ends with an error of its first step. -/
theorem bind_error {e : AccessError} (h : x.Settles state (.error e)) :
    (x >>= f).Settles state (.error e) :=
  Leads.bind_error h

/-- A result is its own outcome. -/
theorem pure (a : α) : (Pure.pure a : Access σ α).Settles state (.ok a) :=
  fun s hs => ⟨s, rfl, hs⟩

/-- An outcome that is given. -/
theorem given (r : Except AccessError α) :
    Access.Settles (ExceptT.mk (Pure.pure r) : Access σ α) state r :=
  fun s hs => ⟨s, rfl, hs⟩

theorem attempt {r : Except AccessError α} (h : x.Settles state r) :
    (Access.attempt x).Settles state (.ok r) :=
  Leads.attempt h

/-- A run has the outcome that is settled, and leaves the state. -/
theorem of_run {r r' : Except AccessError α} {s s' : Session σ} (h : x.Settles s.backend r)
    (hrun : x.run s = (r', s')) : r = r' ∧ s'.backend = s.backend := by
  obtain ⟨s₁, hx, hs₁⟩ := h s rfl
  obtain ⟨rfl, rfl⟩ := Prod.mk.inj (hx.symm.trans hrun)
  exact ⟨rfl, hs₁⟩

/-- A sequence that succeeds went through its first step. -/
theorem of_bind {r : Except AccessError α} {b : β} {s s' : Session σ}
    (h : x.Settles s.backend r) (hrun : (x >>= f).run s = (.ok b, s')) :
    ∃ a s₁, r = .ok a ∧ s₁.backend = s.backend ∧ (f a).run s₁ = (.ok b, s') := by
  obtain ⟨s₁, hx, hs₁⟩ := h s rfl
  rw [run_bind hx] at hrun
  cases r with
  | error e => cases (Prod.mk.inj hrun).1
  | ok a => exact ⟨a, s₁, rfl, hs₁, hrun⟩

/-- Where a sequence fails with an error that its first step does not come to, it is behind it. -/
theorem past {r : Except AccessError α} {err : AccessError} {s s' : Session σ}
    (h : x.Settles s.backend r) (hne : r ≠ .error err) (hrun : (x >>= f).run s = (.error err, s')) :
    ∃ a s₁, r = .ok a ∧ s₁.backend = s.backend ∧ (f a).run s₁ = (.error err, s') := by
  rcases error_of_run_bind hrun with hx | ⟨a, s₁, hx, hf⟩
  · exact absurd (h.of_run hx).1 hne
  · obtain ⟨hr, hs₁⟩ := h.of_run hx
    exact ⟨a, s₁, hr, hs₁, hf⟩

/-! ## The steps of the library -/

/-- A check of an argument settles as it comes out. -/
theorem checking (r : Except ArgumentFault α) :
    (Access.checked r : Access σ α).Settles state (r.mapError .invalidArgument) := by
  intro s hs
  cases r with
  | ok a => exact ⟨s, rfl, hs⟩
  | error e => exact ⟨s, rfl, hs⟩

/-- `Settles.checking` for a check that succeeds: the result is what was checked. -/
theorem checked {r : Except ArgumentFault α} {a : α} (h : r = .ok a) :
    (Access.checked r : Access σ α).Settles state (.ok a) := by
  rw [h]
  exact .checking _

/-- Writing a statement settles with the statement, or with the fault of the query. -/
theorem compiling (r : Except QueryFault α) :
    (Access.compiled r : Access σ α).Settles state (r.mapError .queryCompilation) := by
  intro s hs
  cases r with
  | ok a => exact ⟨s, rfl, hs⟩
  | error e => exact ⟨s, rfl, hs⟩

/-- `Settles.compiling` for a query that can be written: the result is its statement. -/
theorem compiled {r : Except QueryFault α} {a : α} (h : r = .ok a) :
    (Access.compiled r : Access σ α).Settles state (.ok a) := by
  rw [h]
  exact .compiling _

/-- Reading a record as an entity settles with the entity, or with the fault of the mapping. -/
theorem mapped (r : Except MappingFault α) :
    (Access.mapped r : Access σ α).Settles state (r.mapError .mapping) := by
  intro s hs
  cases r with
  | ok a => exact ⟨s, rfl, hs⟩
  | error e => exact ⟨s, rfl, hs⟩

/-- Metadata is what the declaration says, kept or not. -/
theorem declaring (d : EntityDeclaration) : (Client.metadata d : Access σ Metadata).Settles state
    ((Metadata.ofDeclaration d).mapError .invalidArgument) := by
  intro s hs
  refine ⟨{ s with cache := (s.cache.get d).2 }, ?_, hs⟩
  rw [← MetadataCache.get_fst d s.cache]
  rfl

/-- Metadata that can be derived are had, be they kept already or not. -/
theorem metadata {d : EntityDeclaration} {m : Metadata} (h : Metadata.ofDeclaration d = .ok m) :
    (Client.metadata d : Access σ Metadata).Settles state (.ok m) := by
  have hsettles : (Client.metadata d : Access σ Metadata).Settles state _ := declaring d
  rw [h] at hsettles
  exact hsettles

/-- The number of answers that a state of the backend allows. -/
theorem rounds (c : Client σ) :
    (modifyGet fun s => (c.backend.rounds s.backend, s) : Access σ Nat).Settles state
      (.ok (c.backend.rounds state)) := by
  intro s hs
  refine ⟨s, ?_, hs⟩
  rw [← hs]
  rfl

/-- Records are read one by one, up to the first that is none. -/
theorem mapEach (read : Document → Except MappingFault α) (ds : List Document) :
    (Access.mapEach read ds : Access σ (List α)).Settles state
      ((ds.mapM read).mapError .mapping) := by
  induction ds with
  | nil => exact .pure []
  | cons d ds ih =>
    rw [Access.mapEach, List.mapM_cons]
    have hd : (Access.mapped (read d) : Access σ α).Settles state _ := mapped (read d)
    -- the first record that is no entity ends it
    cases hr : read d with
    | error e =>
      rw [hr] at hd
      exact .bind_error hd
    | ok a =>
      rw [hr] at hd
      refine .bind hd ?_
      cases hrs : ds.mapM read with
      | error e =>
        rw [hrs] at ih
        exact .bind_error ih
      | ok as =>
        rw [hrs] at ih
        exact .bind ih (.pure _)

end Access.Settles

/-- A text passes the check unless it is blank. -/
theorem requireText_ok_iff {what s : String} :
    requireText what s = .ok () ↔ Text.isBlank s = false := by
  rw [requireText]
  cases Text.isBlank s with
  | true => exact ⟨nofun, nofun⟩
  | false => exact ⟨fun _ => rfl, fun _ => rfl⟩

/-- Collections of entities have names. -/
theorem Metadata.isBlank_collection {d : EntityDeclaration} {m : Metadata}
    (h : ofDeclaration d = .ok m) : Text.isBlank m.collection = false := by
  obtain ⟨m₀, hcollection, h⟩ := ok_of_bind h
  obtain ⟨field, -, h⟩ := ok_of_bind h
  obtain ⟨⟨⟩, hname, hm₀⟩ := ok_of_bind hcollection
  cases h
  cases hm₀
  exact requireText_ok_iff.mp hname

/-- A client of a store. -/
abbrev Client.ofStore (settings : Store.Settings) (database : String) (metrics : Bool) :
    Client Store :=
  ⟨Store.backend settings, database, metrics⟩

/-- A call that only looks. -/
theorem Client.settles_query (settings : Store.Settings) (database : String) (metrics : Bool)
    (op : Operation) (collection : String) (statement : Statement) (options : QueryOptions)
    (s : Store) :
    ((Client.ofStore settings database metrics).query op collection statement options).Settles s
        ((Store.reported (Store.query settings collection statement options s)).mapError
          (AccessError.translate op)) := by
  intro session hs
  subst hs
  exact ⟨_, rfl, rfl⟩

end DocQuery
