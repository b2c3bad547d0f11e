/-
  Walking over pages, whatever the backend answers.

  A backend may answer with fewer records than a page asks for, with none, or with more, and with
  any continuation.  A walk goes on with the request that each page names.  What a page got is what
  the next one asks for, so the sizes along a walk only fall, but they stay positive, for an empty
  page keeps the size it was asked with; no step of a walk is refused for its size.

  1. `Page.size_le`, `Page.size_pos`: the size of a page beside the size asked for;
  2. `Reconciles`: a page beside the answer that it was made of, and `paginate_reconciles`: one
     step;
  3. `Walked`: any number of steps, and `Along`: what the request behind them has kept;
  4. `along_of_walked`: by induction on the steps;
  5. `walk_reconciles`: all of it, at every step.
-/
import DocQuery.Proofs.Rejections

namespace DocQuery

/-! ## The size of a page -/

namespace Page

variable {α : Type} (p : Page α)

/-- The size that a page reports is at most the size asked for. -/
theorem size_le : p.size ≤ p.requested.size := by
  rw [size]
  split
  · exact Nat.le_refl _
  · exact Nat.min_le_right _ _

/-- A page with elements has at least one, and a page without keeps the size asked for. -/
theorem size_pos (h : 1 ≤ p.requested.size) : 1 ≤ p.size := by
  rw [size]
  split
  · exact h
  · rename_i hsome
    have hlength : p.content.length ≠ 0 := by
      intro hzero
      exact hsome (List.isEmpty_iff.mpr (List.length_eq_zero_iff.mp hzero))
    omega

end Page

/-! ## The size asked for -/

/-- A check of a text does not fail for the size of a page. -/
theorem requireText_ne_zeroPageSize (what s : String) :
    requireText what s ≠ .error .zeroPageSize := by
  intro h
  rw [requireText] at h
  split at h <;> cases h

/-- Declarations have no pages. -/
theorem Metadata.ofDeclaration_ne_zeroPageSize (d : EntityDeclaration) :
    ofDeclaration d ≠ .error .zeroPageSize := by
  intro h
  rcases error_of_bind h with h | ⟨m, -, h⟩
  · rcases error_of_bind h with h | ⟨_, -, h⟩
    · exact requireText_ne_zeroPageSize _ _ h
    · cases h
  · rcases error_of_bind h with h | ⟨_, -, h⟩
    · unfold partitionFieldOf at h
      split at h
      · cases h
      · rcases error_of_bind h with h | ⟨_, -, h⟩
        · exact requireText_ne_zeroPageSize _ _ h
        · cases h
      · cases h
    · cases h

namespace Client

variable {σ α : Type}

/-- A page of some size is not refused for its size. -/
theorem paginate_never_zeroPageSize {c : Client σ} {e : EntityType α} {name : String} {q : Query}
    {state : PageState} (hpage : q.page = some state) (hpos : 1 ≤ state.size) :
    (c.paginate e name q).Never (· = .invalidArgument .zeroPageSize) := by
  have herrs : ∀ err : AccessError, err = .invalidArgument .zeroPageSize → err.IsRejection := by
    rintro _ rfl
    trivial
  -- an argument may be refused, but not for the size of a page
  have hargument : ∀ {ρ : Type} {r : Except ArgumentFault ρ}, r ≠ .error .zeroPageSize →
      ∀ err : AccessError, r.mapError .invalidArgument = .error err →
        err ≠ .invalidArgument .zeroPageSize := by
    rintro ρ r hr err herr rfl
    obtain ⟨f, hf, heq⟩ := error_of_mapError herr
    cases heq
    exact hr hf
  have hquery : ∀ {ρ : Type} {r : Except QueryFault ρ} (err : AccessError),
      r.mapError .queryCompilation = .error err → err ≠ .invalidArgument .zeroPageSize := by
    rintro ρ r err herr rfl
    obtain ⟨f, -, heq⟩ := error_of_mapError herr
    cases heq
  refine .bind (.silent (.checked _) (hargument ?_)) fun _ =>
    .bind (.silent (.checked _) (hargument ?_)) fun state =>
    .bind (.silent (.metadata _) (hargument ?_)) fun m =>
    .bind (.silent (.compiled _) hquery) fun finding =>
    .bind (.silent (.compiled _) hquery) fun counting =>
    paging_never herrs e finding counting state _ _
  · exact requireText_ne_zeroPageSize _ _
  · rw [requestedPage_ok hpage hpos]
    exact nofun
  · exact Metadata.ofDeclaration_ne_zeroPageSize _

/-! ## One page -/

/-- What a request for a page asks of the backend. -/
def pageOptions (c : Client σ) (m : Metadata) (q : Query) (state : PageState) : QueryOptions :=
  { crossPartition := fansOut m q, maxItems := some state.size,
    continuation := state.continuation, metrics := c.metrics }

/-- The answer that a page is made of.  That there is no such collection is an answer without
records. -/
def pageAnswer : Except BackendError QueryAnswer → Except BackendError QueryAnswer
  | .ok a => .ok a
  | .error f => if f.status = BackendError.notFound then .ok {} else .error f

/-- In a state the backend gives this answer to a request for a page. -/
def Answers (c : Client σ) (e : EntityType α) (name : String) (q : Query) (s : σ)
    (state : PageState) (a : QueryAnswer) : Prop :=
  ∃ m finding, Metadata.ofDeclaration e.toEntityDeclaration = .ok m
    ∧ Statement.ofQuery .find q = .ok finding
    ∧ pageAnswer (c.backend.query name finding (c.pageOptions m q state) s).1 = .ok a

/-- A page beside its request and the answer that it was made of.  Its elements are the first
records of the answer, no more than were asked for, and its size is their number, unless there are
none.  There is a request for the next page as the answer goes on, and the continuation is the one
that came. -/
structure Reconciles (e : EntityType α) (state : PageState) (a : QueryAnswer) (p : Page α) :
    Prop where
  content : (a.records.take state.size).mapM e.read = .ok p.content
  length : p.content.length = min state.size a.records.length
  size : p.size = if a.records = [] then state.size else min state.size a.records.length
  requested : p.requested = state
  next : p.next? = a.continuation.map fun token =>
    { number := state.number + 1
      size := p.size
      offset := state.offset + p.content.length
      continuation := some token
      sort := state.sort }

variable {c : Client σ} {e : EntityType α} {name : String} {q : Query} {state : PageState}
  {session session' : Session σ} {p : Page α}

/-- The answer to a page is that of the backend, with an empty one where nothing was found. -/
theorem recover_pageAnswer (r : Except BackendError QueryAnswer) :
    AccessError.recover .paginate ({} : QueryAnswer) (r.mapError (AccessError.translate .paginate))
      = (pageAnswer r).mapError (AccessError.translate .paginate) := by
  cases r with
  | ok a => rfl
  | error f =>
    show AccessError.recover .paginate _ (.error (.translate .paginate f)) = _
    rw [recover_translate rfl, pageAnswer]
    split <;> rfl

/-- A page whose elements were read from the first records of an answer reconciles with it. -/
theorem reconciles_of_content {a : QueryAnswer} (hpos : 1 ≤ state.size)
    (hcontent : (a.records.take state.size).mapM e.read = .ok p.content)
    (hrequested : p.requested = state) (hcontinuation : p.continuation = a.continuation) :
    Reconciles e state a p := by
  have hlength : p.content.length = min state.size a.records.length := by
    rw [length_of_mapM hcontent, List.length_take]
  refine ⟨hcontent, hlength, ?_, hrequested, ?_⟩
  · rw [Page.size, hrequested, hlength]
    -- something was asked for, so the page is empty as the answer is
    have hempty : p.content.isEmpty = true ↔ a.records = [] := by
      rw [List.isEmpty_iff, ← List.length_eq_zero_iff, hlength, ← List.length_eq_zero_iff]
      omega
    by_cases hnone : a.records = []
    · rw [if_pos (hempty.mpr hnone), if_pos hnone]
    · rw [if_neg (fun h => hnone (hempty.mp h)), if_neg hnone]
      omega
  · rw [Page.next?, Page.number, hrequested, hcontinuation]

/-- A page that reconciles has a size of one at least, and of no more than was asked for. -/
theorem Reconciles.size_bounds {a : QueryAnswer} (h : Reconciles e state a p)
    (hpos : 1 ≤ state.size) : p.size ≤ state.size ∧ 1 ≤ p.size := by
  rw [← h.requested] at hpos ⊢
  exact ⟨p.size_le, p.size_pos hpos⟩

/-- **A page that is delivered reconciles with an answer of the backend.** -/
theorem paginate_reconciles (hrun : (c.paginate e name q).run session = (.ok p, session')) :
    ∃ state a, q.page = some state ∧ 1 ≤ state.size
      ∧ c.Answers e name q session.backend state a ∧ Reconciles e state a p := by
  rw [paginate] at hrun
  obtain ⟨_, s₁, -, hs₁, hrun⟩ := Access.Settles.of_bind (.checking _) hrun
  obtain ⟨state, s₂, hstate, hs₂, hrun⟩ := Access.Settles.of_bind (.checking _) hrun
  obtain ⟨m, s₃, hm, hs₃, hrun⟩ := Access.Settles.of_bind (.declaring _) hrun
  obtain ⟨finding, s₄, hst, hs₄, hrun⟩ := Access.Settles.of_bind (.compiling _) hrun
  obtain ⟨counting, s₅, -, hs₅, hrun⟩ := Access.Settles.of_bind (.compiling _) hrun
  obtain ⟨answer, s₆, hanswer, hrun⟩ := Access.ok_of_run_bind hrun
  obtain ⟨a, s₇, ha, -, hrun⟩ := Access.Settles.of_bind (.given _) hrun
  obtain ⟨content, s₈, hcontent, -, hrun⟩ := Access.Settles.of_bind (.mapEach _ _) hrun
  -- whether the elements are counted or not, the page is what they make it
  have hpage : ∃ total, p = ⟨content, state, a.continuation, total⟩ := by
    dsimp only at hrun
    split at hrun
    all_goals
      obtain ⟨total, _, -, hrun⟩ := Access.ok_of_run_bind hrun
      exact ⟨total, (Except.ok.inj (Prod.mk.inj hrun).1).symm⟩
  obtain ⟨total, rfl⟩ := hpage
  have hs : s₅.backend = session.backend := by rw [hs₅, hs₄, hs₃, hs₂, hs₁]
  have hrequested := page_of_requestedPage (ok_of_mapError hstate)
  have hpos : 1 ≤ state.size := by
    have hsize := ok_of_mapError hstate
    rw [requestedPage, hrequested] at hsize
    dsimp only at hsize
    split at hsize
    · cases hsize
    · omega
  -- what was answered to the one query of the page
  obtain ⟨_, hasked, -⟩ := Access.Leads.attempt (.call c .paginate name QueryAnswer.observed
    (c.backend.query name finding (c.pageOptions m q state)) s₅.backend) s₅ rfl
  obtain ⟨hok, -⟩ := Prod.mk.inj (hasked.symm.trans hanswer)
  obtain rfl := (Except.ok.inj hok).symm
  rw [recover_pageAnswer, hs] at ha
  exact ⟨state, a, hrequested, hpos,
    ⟨m, finding, ok_of_mapError hm, ok_of_mapError hst, ok_of_mapError ha⟩,
    reconciles_of_content hpos (ok_of_mapError hcontent) rfl rfl⟩

/-! ## Any number of pages -/

/-- Pages one after the other, each asked for by the request that the page before names, and the
query behind them.  Nothing is said of what happens to the backend meanwhile. -/
inductive Walked (c : Client σ) (e : EntityType α) (name : String) (q : Query) :
    List (Page α) → Query → Prop
  | start : Walked c e name q [] q
  | step {pages : List (Page α)} {q₁ : Query} {s₁ s₂ : Session σ} {page : Page α}
      {next : PageState} (before : Walked c e name q pages q₁)
      (delivers : (c.paginate e name q₁).run s₁ = (.ok page, s₂))
      (goes_on : page.next? = some next) :
      Walked c e name q (pages ++ [page]) { q₁ with page := some next }

/-- The request behind some pages, beside the first request. -/
structure Along (first : PageState) (pages : List (Page α)) (state : PageState) : Prop where
  positive : 1 ≤ state.size
  shrinks : state.size ≤ first.size
  last : ∀ p ∈ pages, state.size ≤ p.size
  falling : pages.Pairwise fun p p' => p'.size ≤ p.size
  number : state.number = first.number + pages.length
  offset : state.offset = first.offset + (pages.flatMap Page.content).length
  sort : state.sort = first.sort

theorem Along.start (h : 1 ≤ state.size) : Along state ([] : List (Page α)) state where
  positive := h
  shrinks := Nat.le_refl _
  last _ hp := absurd hp List.not_mem_nil
  falling := .nil
  number := rfl
  offset := rfl
  sort := rfl

/-- One page more: its size is no greater than any before it, and is what the next request asks
for. -/
theorem Along.step {first next : PageState} {pages : List (Page α)} {a : QueryAnswer}
    (h : Along first pages state) (hp : Reconciles e state a p) (hnext : p.next? = some next) :
    Along first (pages ++ [p]) next := by
  obtain ⟨hle, hpos⟩ := hp.size_bounds h.positive
  obtain ⟨token, -, rfl⟩ := Option.map_eq_some_iff.mp (hp.next.symm.trans hnext)
  refine ⟨hpos, Nat.le_trans hle h.shrinks, ?_, ?_, ?_, ?_, h.sort⟩
  · intro p' hp'
    rcases List.mem_append.mp hp' with hp' | hp'
    · exact Nat.le_trans hle (h.last p' hp')
    · exact Nat.le_of_eq (congrArg Page.size (List.mem_singleton.mp hp').symm)
  · refine List.pairwise_append.mpr ⟨h.falling, List.pairwise_singleton _ _, ?_⟩
    intro p' hp' p'' hp''
    rw [List.mem_singleton.mp hp'']
    exact Nat.le_trans hle (h.last p' hp')
  · rw [List.length_append, List.length_singleton, h.number, Nat.add_assoc]
  · rw [List.flatMap_append, List.length_append, List.flatMap_singleton, h.offset, Nat.add_assoc]

variable {first : PageState} {pages : List (Page α)} {q' : Query}

/-- **What a request on the way has kept.**  Induction on the steps; each page reconciles with an
answer, whichever it is. -/
theorem along_of_walked (hfirst : q.page = some first) (hsize : 1 ≤ first.size)
    (h : Walked c e name q pages q') :
    ∃ state, q' = { q with page := some state } ∧ Along first pages state := by
  induction h with
  | start =>
    refine ⟨first, ?_, .start hsize⟩
    rw [← hfirst]
  | @step pages q₁ s₁ s₂ page next _ delivers goes_on ih =>
    obtain ⟨state, rfl, halong⟩ := ih
    obtain ⟨state', a, hstate, -, -, hreconciles⟩ := paginate_reconciles delivers
    obtain rfl := Option.some.inj hstate
    exact ⟨next, rfl, halong.step hreconciles goes_on⟩

/-- **Pages reconcile with the answers of any backend.**  Along a walk from a request of some size,
the request behind any number of pages has their number and offset and a size that is positive and
no greater than that of any page before.  It is never refused for its size, and if it is answered
the page holds the first records of the answer, as many as were asked for at most, and names the
continuation that came. -/
theorem walk_reconciles (hfirst : q.page = some first) (hsize : 1 ≤ first.size)
    (h : Walked c e name q pages q') :
    ∃ state, q' = { q with page := some state } ∧ Along first pages state
      ∧ ∀ session outcome session', (c.paginate e name q').run session = (outcome, session') →
        outcome ≠ .error (.invalidArgument .zeroPageSize)
        ∧ ∀ p, outcome = .ok p →
          ∃ a, c.Answers e name q' session.backend state a ∧ Reconciles e state a p
            ∧ p.number = first.number + pages.length ∧ 1 ≤ p.size ∧ p.size ≤ state.size := by
  obtain ⟨state, rfl, halong⟩ := along_of_walked hfirst hsize h
  refine ⟨state, rfl, halong, fun session outcome session' hrun => ⟨?_, ?_⟩⟩
  · rintro rfl
    exact paginate_never_zeroPageSize rfl halong.positive _ _ _ hrun rfl
  · rintro p rfl
    obtain ⟨state', a, hstate, -, hanswers, hreconciles⟩ := paginate_reconciles hrun
    obtain rfl := Option.some.inj hstate
    obtain ⟨hle, hpos⟩ := hreconciles.size_bounds halong.positive
    refine ⟨a, hanswers, hreconciles, ?_, hpos, hle⟩
    rw [Page.number, hreconciles.requested, halong.number]

/-- Records, two at a time. -/
def inTwos : Query where
  criteria := .all
  page := some (.first 2)

/-- A backend that answers with one record too many, and then with none, but goes on. -/
def unruly : Probed Store where
  inner := {}
  script :=
    [some (.feed [[("id", .text "a")], [("id", .text "b")], [("id", .text "c")]] (some "on")),
      some (.feed [[(Statement.countAlias, .int64 9)]] none), some (.feed [] (some "and on")),
      some (.feed [[(Statement.countAlias, .int64 9)]] none)]

/-- The page that was too long is cut, the empty one takes nothing from the size. -/
theorem walk_reconciles_unruly : ∃ pages q' state,
    Walked scripted anything "letters" inTwos pages q'
    ∧ pages.map Page.content = [[[("id", .text "a")], [("id", .text "b")]], []]
    ∧ q' = { inTwos with page := some state } ∧ Along (.first 2) pages state
    ∧ state = ⟨2, 2, 2, some "and on", []⟩ := by
  have hfirst : ∃ s₁, (scripted.paginate anything "letters" inTwos).run { backend := unruly }
      = (.ok ⟨[[("id", .text "a")], [("id", .text "b")]], .first 2, some "on", 9⟩, s₁) := ⟨_, rfl⟩
  obtain ⟨s₁, hfirst⟩ := hfirst
  have hsecond : ∃ s₂, (scripted.paginate anything "letters"
        { inTwos with page := some ⟨1, 2, 2, some "on", []⟩ }).run
          { backend := { unruly with script := unruly.script.drop 2 } }
      = (.ok ⟨[], ⟨1, 2, 2, some "on", []⟩, some "and on", 9⟩, s₂) := ⟨_, rfl⟩
  obtain ⟨s₂, hsecond⟩ := hsecond
  have hwalked : Walked scripted anything "letters" inTwos _ _ :=
    .step (.step .start hfirst rfl) hsecond rfl
  obtain ⟨state, hstate, halong, -⟩ := walk_reconciles rfl (by decide) hwalked
  exact ⟨_, _, state, hwalked, rfl, hstate, halong,
    Option.some.inj (congrArg Query.page hstate).symm⟩

end Client

end DocQuery
