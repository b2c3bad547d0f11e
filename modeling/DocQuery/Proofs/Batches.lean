/-
  Deleting what a query matches, over any backend.

  Nothing is known of the backend but its answers.  The records are gathered from answer to
  answer; each is given a plan of its own and read as an entity, and one that cannot be ends the
  operation before anything is deleted.  Then one deletion follows the other, up to the first
  that the backend refuses.

  What can be said without a store is which calls are made and in which order, and that is what a
  probe around the backend has written down behind the operation.  The plans are all made before
  the first deletion, in one pass over the records, and the reading as entities comes before it
  too; this order in the program is why a record that is not fit leaves the backend with nothing
  but queries.  A deletion may fail for the backend's own reasons only, and then those before it
  have been made: the loop takes nothing back.

  1. `Client.Makes`: the calls that a client makes, as a probe sees them;
  2. `Pages`: following continuations, and `follow_leads`;
  3. `Succeed`: deletions that succeed one after the other, and `deleteEach_leads_ok`,
     `deleteEach_leads_error`;
  4. `Own`: what is planned for a record;
  5. `delete_stops`: the whole operation.
-/
import DocQuery.Backend.Probe
import DocQuery.Proofs.Removal

namespace DocQuery

variable {σ α : Type}

/-! ## Calls -/

/-- A backend in a state, with a probe that has seen these calls and has no script. -/
def Probed.past (s : σ) (calls : List RecordedCall) : Probed σ :=
  { inner := s, calls := calls.reverse }

/-- Without a script the backend answers, and the probe has seen one call more. -/
theorem Backend.watched_past {ρ : Type} {f : BackendCall σ ρ} {s s' : σ}
    {r : Except BackendError ρ} (h : f s = (r, s')) (call : RecordedCall)
    (prompted : Prompt → Except BackendError ρ) (calls : List RecordedCall) :
    watched call prompted f (.past s calls) = (r, .past s' (calls ++ [call])) := by
  have hnone : (Probed.past s calls).script.head? = none := rfl
  have hf : f (Probed.past s calls).inner = (r, s') := h
  rw [watched, hnone, hf, Probed.past, Probed.past, List.reverse_append]
  rfl

namespace Client

/-- A client whose backend has a probe around it. -/
def watched (c : Client σ) (terms : PromptTerms) : Client (Probed σ) :=
  ⟨c.backend.probed terms, c.database, c.metrics⟩

/-- A client has this outcome and leaves this state of its backend; and with a probe around the
backend the same, where these are the calls that the probe sees. -/
def Makes (c : Client σ) (x : {τ : Type} → Client τ → Access τ α) (s : σ)
    (calls : List RecordedCall) (outcome : Except AccessError α) (s' : σ) : Prop :=
  (x c).Leads s outcome s'
    ∧ ∀ terms, (x (c.watched terms)).Leads (.past s []) outcome (.past s' calls)

end Client

/-! ## Pages -/

/-- What following the continuations of a query comes to: the options of each answer asked for,
and all records or the fault that ends it.  That nothing is there is no fault. -/
inductive Pages (b : Backend σ) (name : String) (statement : Statement) :
    QueryOptions → σ → List QueryOptions → Except BackendError (List Document) → σ → Prop
  | last {o : QueryOptions} {s s' : σ} {a : QueryAnswer}
      (answer : b.query name statement o s = (.ok a, s')) (done : a.continuation = none) :
      Pages b name statement o s [o] (.ok a.records) s'
  | missing {o : QueryOptions} {s s' : σ} {f : BackendError}
      (answer : b.query name statement o s = (.error f, s'))
      (absent : f.status = BackendError.notFound) :
      Pages b name statement o s [o] (.ok []) s'
  | failed {o : QueryOptions} {s s' : σ} {f : BackendError}
      (answer : b.query name statement o s = (.error f, s'))
      (other : f.status ≠ BackendError.notFound) :
      Pages b name statement o s [o] (.error f) s'
  | more {o : QueryOptions} {s s₁ s' : σ} {a : QueryAnswer} {token : String}
      {asked : List QueryOptions} {found : Except BackendError (List Document)}
      (answer : b.query name statement o s = (.ok a, s₁)) (goes_on : a.continuation = some token)
      (rest : Pages b name statement { o with continuation := some token } s₁ asked found s') :
      Pages b name statement o s (o :: asked) (found.map (a.records ++ ·)) s'

namespace Pages

variable {b : Backend σ} {name : String} {statement : Statement} {o : QueryOptions} {s s' : σ}
  {asked : List QueryOptions} {found : Except BackendError (List Document)}

/-- A probe sees the answers asked for. -/
theorem watched (h : Pages b name statement o s asked found s') (terms : PromptTerms) :
    ∀ calls, Pages (b.probed terms) name statement o (.past s calls) asked found
      (.past s' (calls ++ asked.map (.query name statement))) := by
  have hquery : ∀ {o s r s₁} (calls : List RecordedCall), b.query name statement o s = (r, s₁) →
      (b.probed terms).query name statement o (.past s calls)
        = (r, .past s₁ (calls ++ [.query name statement o])) :=
    fun calls hr => Backend.watched_past hr _ (Prompt.queryAnswer terms) calls
  induction h with
  | last answer done => exact fun calls => .last (hquery calls answer) done
  | missing answer absent => exact fun calls => .missing (hquery calls answer) absent
  | failed answer other => exact fun calls => .failed (hquery calls answer) other
  | @more o s s₁ s' a token asked found answer goes_on rest ih =>
    intro calls
    have hrest := ih (calls ++ [.query name statement o])
    rw [List.append_assoc] at hrest
    exact .more (hquery calls answer) goes_on hrest

end Pages

namespace Client

variable {c : Client σ} {name : String} {statement : Statement} {o : QueryOptions} {s s' : σ}
  {asked : List QueryOptions} {found : Except BackendError (List Document)}

/-- An operation that recovers turns a `notFound` of the backend into its empty result and passes
every other error on. -/
theorem recover_translate {op : Operation} (hop : op.recoversNotFound = true) {ρ : Type} (empty : ρ)
    (f : BackendError) : AccessError.recover op empty (.error (.translate op f))
      = if f.status = BackendError.notFound then .ok empty else .error (.translate op f) := by
  rw [AccessError.translate]
  split
  · exact if_pos hop
  · split <;> rfl

/-- **Following continuations gathers the pages**, if it may go on for long enough. -/
theorem follow_leads (h : Pages c.backend name statement o s asked found s') :
    ∀ {rounds : Nat}, asked.length ≤ rounds →
      (c.follow .find name statement rounds o).Leads s
        (found.mapError (AccessError.translate .find)) s' := by
  -- each answer is taken as a value first, whatever it is
  have hasked : ∀ {o s r s₁}, c.backend.query name statement o s = (r, s₁) →
      (Access.attempt (c.query .find name statement o)).Leads s
        (.ok (r.mapError (AccessError.translate .find))) s₁ := by
    intro o s r s₁ hr
    have hcall : (c.query .find name statement o).Leads s _ _ :=
      .call c .find name QueryAnswer.observed (c.backend.query name statement o) s
    rw [hr] at hcall
    exact .attempt hcall
  induction h with
  | last answer done =>
    rintro (_ | rounds) hrounds
    · cases hrounds
    rw [follow]
    refine .bind (hasked answer) (.bind (Access.Settles.given _).leads ?_)
    rw [done]
    exact (Access.Settles.pure _).leads
  | missing answer absent =>
    rintro (_ | rounds) hrounds
    · cases hrounds
    rw [follow]
    refine .bind (hasked answer) ?_
    show Access.Leads (ExceptT.mk (pure (AccessError.recover _ _ (.error _))) >>= _) _ _ _
    rw [recover_translate rfl, if_pos absent]
    exact .bind (Access.Settles.given _).leads (Access.Settles.pure _).leads
  | failed answer other =>
    rintro (_ | rounds) hrounds
    · cases hrounds
    rw [follow]
    refine .bind (hasked answer) ?_
    show Access.Leads (ExceptT.mk (pure (AccessError.recover _ _ (.error _))) >>= _) _ _ _
    rw [recover_translate rfl, if_neg other]
    exact .bind_error (Access.Settles.given _).leads
  | @more o s s₁ s' a token asked found answer goes_on rest ih =>
    rintro (_ | rounds) hrounds
    · cases hrounds
    rw [follow]
    refine .bind (hasked answer) (.bind (Access.Settles.given _).leads ?_)
    rw [goes_on]
    -- the first answer was allowed for, so there is one fewer to come
    have hrest := ih (Nat.le_of_succ_le_succ hrounds)
    cases found with
    | error f => exact .bind_error hrest
    | ok records => exact .bind hrest (Access.Settles.pure _).leads

end Client

/-! ## Deletions -/

/-- Deletions that all succeed, one after the other. -/
inductive Succeed (b : Backend σ) (name : String) : List (String × Placement) → σ → σ → Prop
  | done (s : σ) : Succeed b name [] s s
  | next {id : String} {target : Placement} {plan : List (String × Placement)} {a : RecordAnswer}
      {s s₁ s' : σ} (answer : b.delete name id target s = (.ok a, s₁))
      (rest : Succeed b name plan s₁ s') : Succeed b name ((id, target) :: plan) s s'

/-- A planned deletion as a call. -/
def deletion (name : String) (p : String × Placement) : RecordedCall :=
  .delete name p.1 p.2

variable {b : Backend σ} {name : String} {plan : List (String × Placement)} {s s' : σ}

/-- A probe around the backend lets a deletion pass as it is, and sees it once. -/
theorem delete_watched {id : String} {target : Placement} {r : Except BackendError RecordAnswer}
    (h : b.delete name id target s = (r, s')) (terms : PromptTerms) (calls : List RecordedCall) :
    (b.probed terms).delete name id target (.past s calls)
      = (r, .past s' (calls ++ [.delete name id target])) :=
  Backend.watched_past h _ (Prompt.recordAnswer terms) calls

/-- A probe sees the deletions. -/
theorem Succeed.watched (h : Succeed b name plan s s') (terms : PromptTerms) :
    ∀ calls, Succeed (b.probed terms) name plan (.past s calls)
      (.past s' (calls ++ plan.map (deletion name))) := by
  induction h with
  | done s =>
    intro calls
    rw [List.map_nil, List.append_nil]
    exact .done _
  | @next id target plan a s s₁ s' answer rest ih =>
    intro calls
    have hrest := ih (calls ++ [.delete name id target])
    rw [List.append_assoc] at hrest
    exact .next (delete_watched answer terms calls) hrest

/-- The first deletion that fails, with those before it. -/
def FailsAt (b : Backend σ) (name : String) (plan : List (String × Placement)) (s : σ)
    (before : List (String × Placement)) (p : String × Placement) (f : BackendError) (s' : σ) :
    Prop :=
  ∃ behind s₁, plan = before ++ p :: behind ∧ Succeed b name before s s₁
    ∧ b.delete name p.1 p.2 s₁ = (.error f, s')

/-- Either all succeed or there is a first one that fails. -/
theorem succeed_or_failsAt (b : Backend σ) (name : String) (plan : List (String × Placement))
    (s : σ) : (∃ s', Succeed b name plan s s')
      ∨ ∃ before p f s', FailsAt b name plan s before p f s' := by
  induction plan generalizing s with
  | nil => exact .inl ⟨s, .done s⟩
  | cons p plan ih =>
    rcases hanswer : b.delete name p.1 p.2 s with ⟨f | a, s₁⟩
    · exact .inr ⟨[], p, f, s₁, plan, s, rfl, .done s, hanswer⟩
    · rcases ih s₁ with ⟨s', hrest⟩ | ⟨before, p', f, s', behind, s₂, rfl, hrest, hf⟩
      · exact .inl ⟨s', .next hanswer hrest⟩
      · exact .inr ⟨p :: before, p', f, s', behind, s₂, rfl, .next hanswer hrest, hf⟩

namespace Client

variable {c : Client σ}

/-- Deletions that all succeed leave the state behind the last of them. -/
theorem deleteEach_leads_ok (h : Succeed c.backend name plan s s') :
    (c.deleteEach name plan).Leads s (.ok ()) s' := by
  induction h with
  | done s => exact (Access.Settles.pure ()).leads
  | @next id target plan a s s₁ s' answer rest ih =>
    have hcall := Access.Leads.call c .delete name RecordAnswer.observed
      (c.backend.delete name id target) s
    rw [answer] at hcall
    rw [deleteEach]
    exact .bind hcall ih

/-- **The first deletion that fails ends it.** -/
theorem deleteEach_leads_error {s₁ : σ} {p : String × Placement} {f : BackendError}
    (h : Succeed c.backend name plan s s₁)
    (hf : c.backend.delete name p.1 p.2 s₁ = (.error f, s')) (behind : List (String × Placement)) :
    (c.deleteEach name (plan ++ p :: behind)).Leads s (.error (.translate .delete f)) s' := by
  induction h with
  | done s =>
    have hcall := Access.Leads.call c .delete name RecordAnswer.observed
      (c.backend.delete name p.1 p.2) s
    rw [hf] at hcall
    rw [List.nil_append, deleteEach]
    exact .bind_error hcall
  | @next id target plan a s s₂ s₁ answer rest ih =>
    have hcall := Access.Leads.call c .delete name RecordAnswer.observed
      (c.backend.delete name id target) s
    rw [answer] at hcall
    rw [List.cons_append, deleteEach]
    exact .bind hcall (ih hf)

/-! ## Plans -/

/-- What is planned for a record: its own id, its own partition, and its own version if the type
has versions. -/
structure Own (m : Metadata) (d : Document) (p : String × Placement) : Prop where
  id : d.id? = some p.1
  unsplit : m.partitionField = none → p.2.partitionKey = .none
  split : ∀ f, m.partitionField = some f →
    ∃ v, d.fieldAt f = some v ∧ v ≠ .null ∧ p.2.partitionKey = .value v
  version : p.2.version = if m.versioned then d.version? else none

/-- What is planned for a record names its own id, partition and version. -/
theorem own_of_aim {m : Metadata} {d : Document} {p : String × Placement}
    (h : aim m name d = .ok p) : Own m d p := by
  have hid := id?_of_aim h
  rw [aim, hid] at h
  obtain ⟨target, hplaced, hp⟩ := ok_of_map h
  obtain ⟨key, hkey, htarget⟩ := ok_of_bind (ok_of_mapError hplaced)
  rw [← hp]
  cases htarget
  rcases Metadata.partitionKey_ok_iff.mp hkey with ⟨hnone, rfl⟩ | ⟨f, v, hf, hv, hnull, rfl⟩
  · refine ⟨hid, fun _ => rfl, fun f hf => ?_, rfl⟩
    rw [hnone] at hf
    cases hf
  · refine ⟨hid, fun hnone => ?_, fun f' hf' => ?_, rfl⟩
    · rw [hnone] at hf
      cases hf
    · obtain rfl := Option.some.inj (hf.symm.trans hf')
      exact ⟨v, hv, hnull, rfl⟩

/-! ## The whole operation -/

/-- How the matches of a query are asked for. -/
def asking (c : Client σ) (m : Metadata) (q : Query) : QueryOptions :=
  { crossPartition := fansOut m q, metrics := c.metrics }

section Deleting

variable {e : EntityType α} {m : Metadata} {q : Query} {statement : Statement} {s₁ : σ}
  {asked : List QueryOptions} {found : Except BackendError (List Document)}
  {records : List Document}

/-- Where the name is blank, or the type is not declared as it should be, nothing is called. -/
theorem delete_undeclared
    (h : Text.isBlank name = true ∨ ∃ f, Metadata.ofDeclaration e.toEntityDeclaration = .error f) :
    ∃ f, ∀ {τ : Type} (c : Client τ) (s : τ),
      (c.delete e name q).Leads s (.error (.invalidArgument f)) s := by
  cases hname : Text.isBlank name with
  | true =>
    refine ⟨.blank "collection name", fun c s => ?_⟩
    have hcheck : requireText "collection name" name = .error (.blank "collection name") := by
      rw [requireText, hname]
      rfl
    have hchecked : (Access.checked (requireText "collection name" name)).Leads s _ s :=
      (Access.Settles.checking _).leads
    rw [hcheck] at hchecked
    rw [delete, hcheck]
    exact .bind_error hchecked
  | false =>
    obtain ⟨f, hm⟩ : ∃ f, Metadata.ofDeclaration e.toEntityDeclaration = .error f :=
      h.resolve_left (Bool.eq_false_iff.mp hname)
    refine ⟨f, fun c s => ?_⟩
    have hcheck : requireText "collection name" name = .ok () := requireText_ok_iff.mpr hname
    have hdeclared : (Client.metadata e.toEntityDeclaration).Leads s _ s :=
      (Access.Settles.declaring _).leads
    rw [hm] at hdeclared
    rw [delete]
    exact .bind (Access.Settles.checked hcheck).leads (.bind_error hdeclared)

/-- The matches are gathered from all pages. -/
theorem queryAll_makes
    (hpages : Pages c.backend name statement (c.asking m q) s asked found s₁)
    (hrounds : asked.length ≤ c.backend.rounds s) :
    c.Makes (fun c => c.queryAll .find name statement (fansOut m q)) s
      (asked.map (.query name statement)) (found.mapError (.translate .find)) s₁ := by
  refine ⟨.bind (Access.Settles.rounds c).leads (follow_leads hpages hrounds), fun terms => ?_⟩
  have hrounds' : asked.length ≤ (c.watched terms).backend.rounds (.past s []) := by
    show asked.length ≤ 0 + c.backend.rounds s
    rw [Nat.zero_add]
    exact hrounds
  exact .bind (Access.Settles.rounds (c.watched terms)).leads
    (follow_leads (hpages.watched terms []) hrounds')

section Declared

variable {calls : List RecordedCall} (hname : Text.isBlank name = false)
  (hm : Metadata.ofDeclaration e.toEntityDeclaration = .ok m)
  (hst : Statement.ofQuery .find q = .ok statement)

include hname hm hst

/-- Matches that cannot be had are the end of it, with the error of finding them. -/
theorem delete_unfound {f : BackendError} (hall : (c.queryAll .find name statement
      (fansOut m q)).Leads s (.error (.translate .find f)) s₁) :
    (c.delete e name q).Leads s (.error (.translate .find f)) s₁ := by
  have hcheck : requireText "collection name" name = .ok () := requireText_ok_iff.mpr hname
  rw [delete]
  exact .bind (Access.Settles.checked hcheck).leads (.bind (Access.Settles.metadata hm).leads
    (.bind (Access.Settles.compiled hst).leads (.bind_error hall)))

/-- If a record is not fit for it, nothing is deleted. -/
theorem delete_makes_none
    (hall : c.Makes (fun c => c.queryAll .find name statement (fansOut m q)) s calls
      (.ok records) s₁)
    (hnot : ∃ d ∈ records, ¬ Fit e m d) :
    ∃ err, c.Makes (fun c => c.delete e name q) s calls (.error err) s₁ := by
  obtain ⟨d, hd, hnot⟩ := hnot
  obtain ⟨hall, hwatched⟩ := hall
  cases hplan : records.mapM (aim m name) with
  | error err =>
    exact ⟨err, delete_unplanned hname hm hst hall hplan,
      fun terms => delete_unplanned hname hm hst (hwatched terms) hplan⟩
  | ok plan =>
    cases hlist : records.mapM e.read with
    | error f =>
      exact ⟨.mapping f, delete_unmapped hname hm hst hall hplan hlist,
        fun terms => delete_unmapped hname hm hst (hwatched terms) hplan hlist⟩
    | ok list => exact absurd ((fit_iff name records).mpr ⟨⟨plan, hplan⟩, list, hlist⟩ d hd) hnot

/-- If all are, they are deleted by their plans, up to the first deletion that fails. -/
theorem delete_makes
    (hall : c.Makes (fun c => c.queryAll .find name statement (fansOut m q)) s calls
      (.ok records) s₁)
    (hfit : ∀ d ∈ records, Fit e m d) :
    ∃ plan list, Paired (Own m) records plan ∧ records.mapM e.read = .ok list
      ∧ (∀ s', Succeed c.backend name plan s₁ s' →
        c.Makes (fun c => c.delete e name q) s (calls ++ plan.map (deletion name)) (.ok list) s')
      ∧ ∀ before p f s', FailsAt c.backend name plan s₁ before p f s' →
        c.Makes (fun c => c.delete e name q) s (calls ++ (before ++ [p]).map (deletion name))
          (.error (.translate .delete f)) s' := by
  obtain ⟨hall, hwatched⟩ := hall
  obtain ⟨⟨plan, hplan⟩, list, hlist⟩ := (fit_iff name records).mp hfit
  refine ⟨plan, list, (paired_of_mapM hplan).imp fun _ _ _ h => own_of_aim h, hlist, ?_, ?_⟩
  · intro s' hsucceed
    exact ⟨delete_of_plan hname hm hst hall hplan hlist (deleteEach_leads_ok hsucceed),
      fun terms => delete_of_plan hname hm hst (hwatched terms) hplan hlist
        (deleteEach_leads_ok (hsucceed.watched terms calls))⟩
  · rintro before p f s' ⟨behind, s₂, rfl, hsucceed, hf⟩
    refine ⟨delete_of_plan hname hm hst hall hplan hlist
      (deleteEach_leads_error hsucceed hf behind), fun terms => ?_⟩
    have hlast := delete_watched hf terms (calls ++ before.map (deletion name))
    rw [List.map_append, ← List.append_assoc]
    exact delete_of_plan hname hm hst (hwatched terms) hplan hlist
      (deleteEach_leads_error (hsucceed.watched terms calls) hlast behind)

end Declared

/-- **A batch of deletions stops at the first that fails.**  Over any backend, if following the
continuations of a query comes to an end: a fault on the way is the error, and so is a record
that has no id or no partition or is no entity, and then nothing is deleted.  Otherwise the
records are deleted in order, each by its own id in its own partition and only in its own version,
up to the first deletion that fails; all entities are delivered if none does.  Where the name is
blank or the type is not declared as it should be, nothing is called at all. -/
theorem delete_stops (c : Client σ) (e : EntityType α) (name : String) (q : Query) (s : σ)
    (hst : Statement.ofQuery .find q = .ok statement) :
    (Text.isBlank name = true
        ∨ (∃ f, Metadata.ofDeclaration e.toEntityDeclaration = .error f) →
      ∃ f, c.Makes (fun c => c.delete e name q) s [] (.error (.invalidArgument f)) s)
    ∧ ∀ m, Text.isBlank name = false → Metadata.ofDeclaration e.toEntityDeclaration = .ok m →
      ∀ asked found s₁, Pages c.backend name statement (c.asking m q) s asked found s₁ →
      asked.length ≤ c.backend.rounds s →
      (∀ f, found = .error f →
        c.Makes (fun c => c.delete e name q) s (asked.map (.query name statement))
          (.error (.translate .find f)) s₁)
      ∧ ∀ records, found = .ok records →
        ((∃ d ∈ records, ¬ Fit e m d) →
          ∃ err, c.Makes (fun c => c.delete e name q) s (asked.map (.query name statement))
            (.error err) s₁)
        ∧ ((∀ d ∈ records, Fit e m d) →
          ∃ plan list, Paired (Own m) records plan ∧ records.mapM e.read = .ok list
            ∧ (∀ s', Succeed c.backend name plan s₁ s' →
              c.Makes (fun c => c.delete e name q) s
                (asked.map (.query name statement) ++ plan.map (deletion name)) (.ok list) s')
            ∧ (∀ before p f s', FailsAt c.backend name plan s₁ before p f s' →
              c.Makes (fun c => c.delete e name q) s
                (asked.map (.query name statement) ++ (before ++ [p]).map (deletion name))
                (.error (.translate .delete f)) s')
            ∧ ((∃ s', Succeed c.backend name plan s₁ s')
              ∨ ∃ before p f s', FailsAt c.backend name plan s₁ before p f s')) := by
  constructor
  · intro h
    obtain ⟨f, hrefused⟩ := delete_undeclared h
    exact ⟨f, hrefused c s, fun terms => hrefused (c.watched terms) (.past s [])⟩
  · intro m hname hm asked found s₁ hpages hrounds
    have hall := queryAll_makes hpages hrounds
    constructor
    · rintro f rfl
      exact ⟨delete_unfound hname hm hst hall.1,
        fun terms => delete_unfound hname hm hst (hall.2 terms)⟩
    · rintro records rfl
      refine ⟨delete_makes_none hname hm hst hall, fun hfit => ?_⟩
      obtain ⟨plan, list, hown, hlist, hok, herror⟩ := delete_makes hname hm hst hall hfit
      exact ⟨plan, list, hown, hlist, hok, herror, succeed_or_failsAt c.backend name plan s₁⟩

end Deleting

/-- A record has one plan. -/
theorem Own.unique {m : Metadata} {d : Document} {p p' : String × Placement} (h : Own m d p)
    (h' : Own m d p') : p = p' := by
  obtain ⟨id, key, version⟩ := p
  obtain ⟨id', key', version'⟩ := p'
  obtain rfl : id = id' := Option.some.inj (h.id.symm.trans h'.id)
  obtain rfl : version = version' := h.version.trans h'.version.symm
  have hkey : key = key' := by
    cases hm : m.partitionField with
    | none => exact (h.unsplit hm).trans (h'.unsplit hm).symm
    | some f =>
      obtain ⟨v, hv, -, hkey⟩ := h.split f hm
      obtain ⟨v', hv', -, hkey'⟩ := h'.split f hm
      obtain rfl := Option.some.inj (hv.symm.trans hv')
      exact hkey.trans hkey'.symm
  rw [hkey]

/-- For some records there is one list of plans at most: each plan is the record's own. -/
theorem plan_unique {m : Metadata} {ds : List Document} {plan plan' : List (String × Placement)}
    (h : Paired (Own m) ds plan) (h' : Paired (Own m) ds plan') : plan = plan' := by
  induction h generalizing plan' with
  | nil =>
    cases h'
    rfl
  | cons hp _ ih =>
    cases h' with
    | cons hp' hplan' => rw [hp.unique hp', ih hplan']

/-- A client of a backend that answers by a script. -/
def scripted : Client (Probed Store) :=
  (ofStore oneByOne "db" false).watched ⟨.zero false, 400⟩

/-- Deliveries in two answers.  The version of the second is no text. -/
def consignment : List Document :=
  [[("id", .text "d1"), ("to", .doc [("city", .text "Oslo")]), ("_etag", .text "v7")],
    [("id", .text "d2"), ("to", .doc [("city", .int32 5)]), ("_etag", .int32 8)],
    [("id", .text "d3"), ("to", .doc [("city", .text "Rome")])]]

/-- A backend that answers with them, deletes one record, and is busy then. -/
def busy : Probed Store where
  inner := {}
  script :=
    [some (.feed (consignment.take 1) (some "more")), some (.feed (consignment.drop 1) none),
      some (.item none), some (.fault ⟨503, "busy", none⟩)]

/-- The plans for them. -/
def consignmentPlan : List (String × Placement) :=
  [("d1", ⟨.value (.text "Oslo"), some "v7"⟩), ("d2", ⟨.value (.int32 5), none⟩),
    ("d3", ⟨.value (.text "Rome"), none⟩)]

/-- Each plan of the list is the own plan of the delivery in its place. -/
theorem consignmentPlan_own : Paired (Own deliveryMetadata) consignment consignmentPlan :=
  (paired_of_mapM (f := aim deliveryMetadata "deliveries") rfl).imp fun _ _ _ h => own_of_aim h

/-- Of three deletions the second fails, so the third is not tried. -/
theorem delete_stops_busy : ∃ statement s',
    Statement.ofQuery .find { criteria := .all } = .ok statement
      ∧ scripted.Makes (fun c => c.delete delivery "deliveries" { criteria := .all }) busy
        [.query "deliveries" statement { crossPartition := true },
          .query "deliveries" statement { crossPartition := true, continuation := some "more" },
          .delete "deliveries" "d1" ⟨.value (.text "Oslo"), some "v7"⟩,
          .delete "deliveries" "d2" ⟨.value (.int32 5), none⟩]
        (.error (.backendExecution .delete ⟨503, "busy", none⟩)) s' := by
  obtain ⟨statement, hst⟩ : ∃ st, Statement.ofQuery .find { criteria := .all } = .ok st :=
    ⟨_, rfl⟩
  have hpages : Pages scripted.backend "deliveries" statement
      (scripted.asking deliveryMetadata { criteria := .all }) busy _ _ _ :=
    .more rfl rfl (.last rfl rfl)
  have hfit := (fit_iff (e := delivery) (m := deliveryMetadata) "deliveries" consignment).mpr
    ⟨⟨_, rfl⟩, _, rfl⟩
  obtain ⟨-, hdeletes⟩ := ((delete_stops scripted delivery "deliveries" { criteria := .all } busy
    hst).2 deliveryMetadata rfl rfl _ _ _ hpages (by decide)).2 consignment rfl
  obtain ⟨plan, list, hown, -, -, herror, -⟩ := hdeletes hfit
  obtain rfl := plan_unique hown consignmentPlan_own
  have hmakes := herror (consignmentPlan.take 1) ("d2", ⟨.value (.int32 5), none⟩)
    ⟨503, "busy", none⟩ _ ⟨consignmentPlan.drop 2, _, rfl, .next rfl (.done _), rfl⟩
  exact ⟨statement, _, hst, hmakes⟩

/-- A backend that answers with one record, and deletes it. -/
def willing : Probed Store where
  inner := {}
  script := [some (.feed [[("id", .text "a")]] none), some (.item none)]

/-- Records of no type in particular. -/
def anything : EntityType Document :=
  .records { name := "Record" }

/-- The record could be deleted, but not from a collection with a blank name: that is refused
before the backend is asked. -/
theorem delete_blank_refused :
    (∃ m statement asked s₁ s₂, Metadata.ofDeclaration anything.toEntityDeclaration = .ok m
      ∧ Statement.ofQuery .find { criteria := .all } = .ok statement
      ∧ Pages scripted.backend " " statement (scripted.asking m { criteria := .all }) willing
        asked (.ok [[("id", .text "a")]]) s₁
      ∧ Fit anything m [("id", .text "a")] ∧ Own m [("id", .text "a")] ("a", ⟨.none, none⟩)
      ∧ Succeed scripted.backend " " [("a", ⟨.none, none⟩)] s₁ s₂)
    ∧ ∀ list s', ¬ (scripted.delete anything " " { criteria := .all }).Leads willing
      (.ok list) s' := by
  constructor
  · obtain ⟨statement, hst⟩ : ∃ st, Statement.ofQuery .find { criteria := .all } = .ok st :=
      ⟨_, rfl⟩
    have hpages : Pages scripted.backend " " statement
        (scripted.asking ⟨"record", none, false, 400⟩ { criteria := .all }) willing _ _ _ :=
      .last rfl rfl
    have hfit := (fit_iff (e := anything) (m := ⟨"record", none, false, 400⟩) " "
      [[("id", .text "a")]]).mpr ⟨⟨_, rfl⟩, _, rfl⟩
    have haim : aim ⟨"record", none, false, 400⟩ " " [("id", .text "a")]
        = .ok ("a", ⟨.none, none⟩) := rfl
    exact ⟨_, statement, _, _, _, rfl, hst, hpages, hfit _ (.head _), own_of_aim haim,
      .next rfl (.done _)⟩
  · intro list s' h
    obtain ⟨f, hrefused⟩ : ∃ f, ∀ {τ : Type} (c : Client τ) (s : τ),
        (c.delete anything " " { criteria := .all }).Leads s (.error (.invalidArgument f)) s :=
      delete_undeclared (.inl rfl)
    obtain ⟨herror, -⟩ := h.unique (hrefused scripted willing)
    cases herror

end Client

end DocQuery
