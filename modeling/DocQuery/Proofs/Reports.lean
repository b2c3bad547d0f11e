/-
  What is reported of finding, paging and deleting.

  Every call has its report, so the reports tell how often a store was asked.  A store that cuts
  its answers is asked once for each slice, a page may be counted or not, and deletions are tried
  up to the first that fails.

  For a loop the number of its calls has to come out, not just its result, so the induction of
  finding is done again with reports: from a place on, what is left is cut as the rest is.  That
  the answers bring all matches is the sum of what they report.  Where something is asked for in
  vain, the outcome is taken for an answer in the end, and the one report is all that is left of
  the failure.

  1. `Cut`: reports of a result that came in slices, and `follow_reports`: the loop, by induction on
     the answers allowed;
  2. `find_reports`, `paginate_reports`, `delete_reports`: what three operations report;
  3. `Access.Misses` and `Request.run_misses`: what is asked for in vain;
  4. `calls_reported`: all requests to a store.
-/
import DocQuery.Proofs.PointReads
import DocQuery.Proofs.Walking

namespace DocQuery

/-! ## Slices -/

/-- Records in some reports together. -/
def itemsOf : List Diagnostic → Nat
  | [] => 0
  | d :: ds => d.observation.items + itemsOf ds

/-- The answers that a store gives so many records in. -/
def answersFor (settings : Store.Settings) (n : Nat) : Nat :=
  match settings.maxItems with
  | none => 1
  | some cap => max 1 ((n + cap - 1) / cap)

/-- A report of a call that was answered. -/
structure Answered (op : Operation) (name : String) (d : Diagnostic) : Prop where
  operation : d.operation = op
  collection : d.collection = name
  status : d.status = 200

/-- Reports of so many records, in as few answers as the store allows: all but the last go on. -/
structure Cut (settings : Store.Settings) (op : Operation) (name : String) (n : Nat)
    (reports : List Diagnostic) : Prop where
  length : reports.length = answersFor settings n
  items : itemsOf reports = n
  goesOn : ∃ front last, reports = front ++ [last] ∧ last.observation.hasContinuation = false
    ∧ ∀ d ∈ front, d.observation.hasContinuation = true
  answered : ∀ d ∈ reports, Answered op name d

namespace Cut

variable {settings : Store.Settings} {op : Operation} {name : String} {n : Nat} {d : Diagnostic}

/-- Records that fit in one answer are cut into that one, which is reported without a continuation.
-/
theorem last (hcap : ∀ cap, settings.maxItems = some cap → 1 ≤ cap ∧ n ≤ cap)
    (hitems : d.observation.items = n) (hend : d.observation.hasContinuation = false)
    (hd : Answered op name d) : Cut settings op name n [d] := by
  refine ⟨?_, by rw [itemsOf, hitems]; rfl, ⟨[], d, rfl, hend, nofun⟩, ?_⟩
  · rw [answersFor]
    split
    · rfl
    · rename_i cap hcap'
      obtain ⟨hpos, hle⟩ := hcap cap hcap'
      have hone : (n + cap - 1) / cap ≤ 1 :=
        Nat.le_of_lt_succ ((Nat.div_lt_iff_lt_mul hpos).mpr (by omega))
      rw [Nat.max_eq_left hone]
      rfl
  · intro d' hd'
    rw [List.mem_singleton.mp hd']
    exact hd

/-- An answer that fills the cap is reported with a continuation, and the rest is cut in front of
it. -/
theorem more {cap : Nat} {reports : List Diagnostic} (hcap : settings.maxItems = some cap)
    (hpos : 1 ≤ cap) (hlt : cap < n) (hitems : d.observation.items = cap)
    (hmore : d.observation.hasContinuation = true) (hd : Answered op name d)
    (h : Cut settings op name (n - cap) reports) : Cut settings op name n (d :: reports) := by
  refine ⟨?_, ?_, ?_, List.forall_mem_cons.mpr ⟨hd, h.answered⟩⟩
  · have hlength := h.length
    rw [answersFor, hcap] at hlength ⊢
    dsimp only at hlength ⊢
    rw [Client.ceil_step hpos hlt, List.length_cons, hlength]
  · rw [itemsOf, h.items, hitems]
    omega
  · obtain ⟨front, last, hreports, hend, hfront⟩ := h.goesOn
    refine ⟨d :: front, last, by rw [hreports]; rfl, hend, ?_⟩
    exact List.forall_mem_cons.mpr ⟨hmore, hfront⟩

end Cut

/-! ## Misses -/

/-- From a state a step succeeds only with one report, that something was not found. -/
def Access.Misses {σ α : Type} (x : Access σ α) (state : σ) : Prop :=
  ∀ s a s', s.backend = state → x.run s = (.ok a, s') →
    ∃ d, s'.diagnostics = s.diagnostics ++ [d] ∧ d.status = BackendError.notFound

namespace Access.Misses

variable {σ α β : Type} {x : Access σ α} {f : α → Access σ β} {state state' : σ}

/-- A step whose one call found nothing has reported a miss. -/
theorem of_yields {r : Except AccessError α} {d : Diagnostic} (h : x.Yields state r [d] state')
    (hd : d.status = BackendError.notFound) : x.Misses state := by
  rintro s a s' rfl hrun
  exact ⟨d, (h.of_run hrun).2.2, hd⟩

/-- Behind a step without a call. -/
theorem after {r : Except AccessError α} (h : x.Silent r)
    (h' : ∀ a, r = .ok a → (f a).Misses state) : (x >>= f).Misses state := by
  intro s b s' hs hrun
  obtain ⟨a, s₁, hr, hs₁, hd₁, hrun⟩ := h.ok_of_bind hrun
  obtain ⟨d, hdiagnostics, hd⟩ := h' a hr s₁ b s' (hs₁.trans hs) hrun
  exact ⟨d, hdiagnostics.trans (congrArg (· ++ [d]) hd₁), hd⟩

/-- Before a step without a call. -/
theorem bind (h : x.Misses state) (h' : ∀ a, ∃ r, (f a).Silent r) : (x >>= f).Misses state := by
  intro s b s' hs hrun
  obtain ⟨a, s₁, hx, hf⟩ := ok_of_run_bind hrun
  obtain ⟨d, hdiagnostics, hd⟩ := h s a s₁ hs hx
  obtain ⟨r, hsilent⟩ := h' a
  obtain ⟨-, -, hsame⟩ := (hsilent s₁.backend).of_run hf
  rw [List.append_nil] at hsame
  exact ⟨d, hsame.trans hdiagnostics, hd⟩

end Access.Misses

namespace Client

open Store (Settings found sorted slice limit maxLength placeOf tokenOf slice_none slice_some)

/-! ## Following continuations -/

section Steps

variable {σ : Type} {c : Client σ} {op : Operation} {name : String} {statement : Statement}
  {o : QueryOptions} {state state₁ state' : σ} {a : QueryAnswer}

/-- The last answer. -/
theorem follow_yields_last (rounds : Nat)
    (h : (c.query op name statement o).Leads state (.ok a) state')
    (hend : a.continuation = none) : (c.follow op name statement (rounds + 1) o).Yields state
      (.ok a.records) [.success c.database op name a.observed] state' := by
  rw [follow]
  refine .behind (Access.Yields.call_ok h).attempt (.bind (.given (.ok a)) ?_)
  rw [hend]
  exact .pure _

/-- An answer with more behind it. -/
theorem follow_yields_more {rounds : Nat} {token : String}
    {r : Except AccessError (List Document)} {reports : List Diagnostic}
    (h : (c.query op name statement o).Leads state (.ok a) state₁)
    (hmore : a.continuation = some token)
    (hrest : (c.follow op name statement rounds { o with continuation := some token }).Yields state₁
      r reports state') : (c.follow op name statement (rounds + 1) o).Yields state
      (r.map (a.records ++ ·)) (.success c.database op name a.observed :: reports) state' := by
  rw [follow]
  refine .bind (Access.Yields.call_ok h).attempt ((Access.Silent.given (.ok a)).bind_yields ?_)
  rw [hmore]
  exact hrest.map _

/-- Where there is no such collection. -/
theorem follow_yields_missing (rounds : Nat) (hop : op.recoversNotFound = true)
    {fault : BackendError} (hstatus : fault.status = BackendError.notFound)
    (h : (c.query op name statement o).Leads state (.error (.translate op fault)) state') :
    (c.follow op name statement (rounds + 1) o).Yields state (.ok [])
      [.failure c.database op name fault] state' := by
  rw [follow]
  refine .behind (Access.Yields.call_error h).attempt ?_
  rw [recover_translate hop, if_pos hstatus]
  exact .bind (.given (.ok ({} : QueryAnswer))) (.pure [])

end Steps

variable {settings : Settings} {database : String} {metrics : Bool} {s : Store}
variable {q : Query} {statement : Statement} {name : String}

/-- **From any place, the reports are cut as the rest is.**  Induction on the answers allowed. -/
theorem follow_reports {op : Operation} {cross : Bool} {ds : List Document}
    (hcap : ∀ n, settings.maxItems = some n → 1 ≤ n) (hsize : ds.length ≤ maxLength)
    (hst : Statement.ofQuery .find q = .ok statement)
    (hf : found s name q.criteria cross = .ok ds) :
    ∀ (rounds place : Nat) (options : QueryOptions), options.crossPartition = cross →
      options.maxItems = none → placeOf options.continuation = .ok place →
      ds.length < rounds + place → place ≤ ds.length →
      ∃ r reports, ((ofStore settings database metrics).follow op name statement rounds
          options).Yields s r reports s
        ∧ Cut settings op name (ds.length - place) reports := by
  intro rounds
  induction rounds with
  | zero =>
    intro place options _ _ _ hlt hle
    omega
  | succ rounds ih =>
    intro place options hcross hmax hp hlt hle
    subst hcross
    obtain ⟨a, ha, hrecords, hnext⟩ := query_settles settings database metrics op hst hf hp
    have hlimit : limit settings options = settings.maxItems := by rw [limit, hmax]; rfl
    have hanswered : Answered op name (.success database op name a.observed) := ⟨rfl, rfl, rfl⟩
    rw [hlimit] at hrecords hnext
    -- what comes next hangs on the limit of the store alone
    cases hn : settings.maxItems with
    | none =>
      rw [hn, slice_none] at hrecords hnext
      have hitems : a.records.length = ds.length - place := by
        rw [hrecords, List.length_drop, length_sorted]
      refine ⟨_, _, follow_yields_last rounds ha.leads hnext, .last ?_ hitems ?_ hanswered⟩
      · intro cap hcap'
        rw [hn] at hcap'
        cases hcap'
      · exact congrArg Option.isSome hnext
    | some n =>
      have hpos := hcap n hn
      rw [hn, slice_some, length_sorted] at hrecords hnext
      have hitems : a.records.length = min n (ds.length - place) := by
        rw [hrecords, List.length_take, List.length_drop, length_sorted]
      by_cases hmore : place + n < ds.length
      · rw [if_pos hmore] at hnext
        have hplace : placeOf (some (tokenOf (place + n))) = .ok (place + n) :=
          Store.placeOf_tokenOf_of_lt hmore hsize
        obtain ⟨r, reports, hrest, hcut⟩ := ih (place + n)
          { options with continuation := some (tokenOf (place + n)) } rfl hmax hplace (by omega)
          (by omega)
        rw [← Nat.sub_sub] at hcut
        refine ⟨_, _, follow_yields_more ha.leads hnext hrest,
          .more hn hpos (by omega) (hitems.trans (Nat.min_eq_left (by omega))) ?_ hanswered hcut⟩
        exact congrArg Option.isSome hnext
      · rw [if_neg hmore] at hnext
        refine ⟨_, _, follow_yields_last rounds ha.leads hnext,
          .last ?_ (hitems.trans (Nat.min_eq_right (by omega))) ?_ hanswered⟩
        · intro cap hcap'
          obtain rfl := Option.some.inj (hn.symm.trans hcap')
          omega
        · exact congrArg Option.isSome hnext

/-- All records of a query are reported as the store cuts them. -/
theorem queryAll_reports {op : Operation} {cross : Bool} {ds : List Document}
    (hcap : ∀ n, settings.maxItems = some n → 1 ≤ n) (hsize : ds.length ≤ maxLength)
    (hst : Statement.ofQuery .find q = .ok statement)
    (hf : found s name q.criteria cross = .ok ds) :
    ∃ reports, ((ofStore settings database metrics).queryAll op name statement cross).Yields s
        (.ok (sorted (q.select .find) ds)) reports s
      ∧ Cut settings op name ds.length reports := by
  obtain ⟨r, reports, hfollow, hcut⟩ : ∃ r reports,
      ((ofStore settings database metrics).follow op name statement (s.size + 1)
        { crossPartition := cross, metrics }).Yields s r reports s
      ∧ Cut settings op name _ reports :=
    follow_reports hcap hsize hst hf (s.size + 1) 0 _ rfl rfl rfl (length_lt_rounds hf)
      (Nat.zero_le _)
  have hall : ((ofStore settings database metrics).queryAll op name statement cross).Yields s r
      reports s := .bind (.rounds _ s) hfollow
  obtain ⟨rfl, -⟩ := hall.leads.unique (queryAll_settles hcap hsize hst hf).leads
  exact ⟨reports, hall, hcut⟩

variable {α : Type} {e : EntityType α} {m : Metadata} {ds : List Document}

/-! ## Finding -/

/-- **Finding reports each answer of the store**, and the answers bring all matches. -/
theorem find_reports {coll : Collection} {session session' : Session Store} {list : List α}
    (hcap : ∀ n, settings.maxItems = some n → 1 ≤ n) (hmemory : session.backend.FitsMemory)
    (hc : session.backend.collection? name = some coll)
    (hrun : ((ofStore settings database metrics).find e name q).run session
      = (.ok list, session')) :
    ∃ reports, session'.diagnostics = session.diagnostics ++ reports
      ∧ Cut settings .find name (coll.records.filter q.criteria.meets).length reports := by
  rw [find] at hrun
  obtain ⟨_, s₁, -, hs₁, hd₁, hrun⟩ := (Access.Silent.checked _).ok_of_bind hrun
  obtain ⟨m, s₂, -, hs₂, hd₂, hrun⟩ := (Access.Silent.metadata _).ok_of_bind hrun
  obtain ⟨statement, s₃, hst, hs₃, hd₃, hrun⟩ := (Access.Silent.compiled _).ok_of_bind hrun
  obtain ⟨records, s₄, hall, hmap⟩ := Access.ok_of_run_bind hrun
  obtain ⟨-, -, hd₅⟩ := (Access.Silent.mapEach e.read records s₄.backend).of_run hmap
  have hst := ok_of_mapError hst
  have hs : s₃.backend = session.backend := hs₃.trans (hs₂.trans hs₁)
  rw [← hs] at hc hmemory
  cases hf : found s₃.backend name q.criteria (fansOut m q) with
  | error f =>
    -- the collection is there, so a fault is not taken for an answer
    obtain rfl := Store.manyPartitions_of_found hc hf
    have hfault : ((ofStore settings database metrics).queryAll .find name statement
        (fansOut m q)).Settles s₃.backend _ :=
      .bind (.rounds _) (follow_fault s₃.backend.size rfl hst hf)
    cases (hfault.of_run hall).1
  | ok ds =>
    obtain ⟨coll', hc', rfl⟩ := Store.eq_filter_of_found hf
    obtain rfl := Option.some.inj (hc.symm.trans hc')
    obtain ⟨reports, hreports, hcut⟩ : ∃ reports, ((ofStore settings database metrics).queryAll
        .find name statement (fansOut m q)).Yields s₃.backend _ reports s₃.backend ∧ _ :=
      queryAll_reports hcap (Store.length_le_of_found hmemory hf) hst hf
    obtain ⟨-, -, hd₄⟩ := hreports.of_run hall
    refine ⟨reports, ?_, hcut⟩
    rw [hd₅, List.append_nil, hd₄, hd₃, hd₂, hd₁]

/-! ## Paging -/

section Pages

variable {σ : Type} {c : Client σ} {session session' : Session σ} {p : Page α}

theorem operation_report {ρ : Type} (c : Client σ) (op : Operation) (observe : ρ → Observation)
    (r : Except BackendError ρ) : (c.report op name observe r).operation = op := by
  cases r <;> rfl

/-- A count that succeeds has reported one call, its own. -/
theorem countStatement_reports {cross : Bool} {n : Nat}
    (hrun : (c.countStatement name statement cross).run session = (.ok n, session')) :
    ∃ d, session'.diagnostics = session.diagnostics ++ [d] ∧ d.operation = .count := by
  obtain ⟨response, s₁, -, -, hd₁, hrun⟩ := (Access.Yields.call c .count name
    QueryAnswer.observed (c.backend.query name statement _) session.backend).ok_of_bind hrun
  obtain ⟨-, -, hd₂⟩ := (Access.Silent.given (countOf response) s₁.backend).of_run hrun
  rw [List.append_nil] at hd₂
  exact ⟨_, hd₂.trans hd₁, operation_report _ _ _ _⟩

/-- Over any backend a page is reported, and its count if there is one. -/
theorem paginate_reports_calls (hrun : (c.paginate e name q).run session = (.ok p, session')) :
    ∃ reports, session'.diagnostics = session.diagnostics ++ reports
      ∧ reports.map Diagnostic.operation
        = if p.content = [] ∧ p.continuation = none ∧ p.requested.continuation = none
          then [.paginate] else [.paginate, .count] := by
  rw [paginate] at hrun
  obtain ⟨_, s₁, -, -, hd₁, hrun⟩ := (Access.Silent.checked _).ok_of_bind hrun
  obtain ⟨state, s₂, -, -, hd₂, hrun⟩ := (Access.Silent.checked _).ok_of_bind hrun
  obtain ⟨m, s₃, -, -, hd₃, hrun⟩ := (Access.Silent.metadata _).ok_of_bind hrun
  obtain ⟨finding, s₄, -, -, hd₄, hrun⟩ := (Access.Silent.compiled _).ok_of_bind hrun
  obtain ⟨counting, s₅, -, -, hd₅, hrun⟩ := (Access.Silent.compiled _).ok_of_bind hrun
  obtain ⟨answer, s₆, -, -, hd₆, hrun⟩ := (Access.Yields.attempt (.call c .paginate name
    QueryAnswer.observed (c.backend.query name finding _) s₅.backend)).ok_of_bind hrun
  obtain ⟨response, s₇, -, -, hd₇, hrun⟩ := (Access.Silent.given _).ok_of_bind hrun
  obtain ⟨content, s₈, -, -, hd₈, hrun⟩ := (Access.Silent.mapEach _ _).ok_of_bind hrun
  -- up to the query nothing was called, and behind it nothing but the count may be
  rw [hd₅, hd₄, hd₃, hd₂, hd₁] at hd₆
  obtain ⟨d, hpage, hd⟩ : ∃ d, s₈.diagnostics = session.diagnostics ++ [d]
      ∧ d.operation = .paginate := ⟨_, hd₈.trans (hd₇.trans hd₆), operation_report _ _ _ _⟩
  have hcondition : (content.isEmpty && response.continuation.isNone && state.continuation.isNone)
      = true ↔ content = [] ∧ response.continuation = none ∧ state.continuation = none := by
    rw [Bool.and_eq_true, Bool.and_eq_true, List.isEmpty_iff, Option.isNone_iff_eq_none,
      Option.isNone_iff_eq_none, and_assoc]
  dsimp only at hrun
  split at hrun
  · rename_i hnothing
    obtain ⟨total, s₉, -, -, hd₉, hrun⟩ := (Access.Silent.pure 0).ok_of_bind hrun
    obtain ⟨hp, -, hlast⟩ := (Access.Silent.pure _ s₉.backend).of_run hrun
    cases hp
    refine ⟨[d], ?_, ?_⟩
    · rw [hlast, List.append_nil, hd₉, hpage]
    · rw [if_pos (hcondition.mp hnothing), List.map_singleton, hd]
  · rename_i hcounted
    obtain ⟨total, s₉, hcount, hrun⟩ := Access.ok_of_run_bind hrun
    obtain ⟨d', hd₉, hd'⟩ := countStatement_reports hcount
    obtain ⟨hp, -, hlast⟩ := (Access.Silent.pure _ s₉.backend).of_run hrun
    cases hp
    refine ⟨[d, d'], ?_, ?_⟩
    · rw [hlast, List.append_nil, hd₉, hpage, List.append_assoc]
      rfl
    · rw [if_neg (mt hcondition.mpr hcounted), List.map_cons, List.map_singleton, hd, hd']

end Pages

/-- A store that answers from the front with nothing does not go on. -/
theorem continuation_of_no_records {size : Nat} {cross : Bool} {a : QueryAnswer}
    (hcap : ∀ n, settings.maxItems = some n → 1 ≤ n) (hpos : 1 ≤ size)
    (hst : Statement.ofQuery .find q = .ok statement)
    (ha : Store.query settings name statement
      { crossPartition := cross, maxItems := some size, metrics } s = .ok a)
    (hnone : a.records = []) : a.continuation = none := by
  have hmatched : Store.matched s name (q.select .find) statement cross
      = found s name q.criteria cross := Store.matched_written hst cross
  cases hf : found s name q.criteria cross with
  | error f =>
    rw [hf] at hmatched
    rw [Store.query_of_fault settings (Dialect.ofText_written hst) hmatched] at ha
    cases ha
  | ok ds =>
    rw [hf] at hmatched
    obtain ⟨a', ha', hrecords, hnext⟩ : ∃ a', Store.query settings name statement
        { crossPartition := cross, maxItems := some size, metrics } s = .ok a' ∧ _ ∧ _ :=
      Store.query_of_matched settings (Dialect.ofText_written hst) hmatched
        (Store.deliver_all settings rfl rfl)
    obtain rfl := Except.ok.inj (ha.symm.trans ha')
    rw [limit_eq, slice_some] at hrecords hnext
    rw [hnone] at hrecords
    -- the slice is as wide as one record at least, so there are no records at all
    have hwidth := width_pos hcap hpos
    have hlength := congrArg List.length hrecords
    rw [List.length_take, List.length_drop, List.length_nil] at hlength
    rw [hnext, if_neg (by omega)]
    rfl

/-- A first page without content has no continuation: a store that answers with records at all would
have sent one. -/
theorem continuation_of_empty_page {state : PageState} {p : Page α}
    {session session' : Session Store} (hcap : ∀ n, settings.maxItems = some n → 1 ≤ n)
    (hpage : q.page = some state) (hfirst : state.continuation = none)
    (hrun : ((ofStore settings database metrics).paginate e name q).run session
      = (.ok p, session')) (hempty : p.content = []) : p.continuation = none := by
  obtain ⟨state', a, hstate, hpos, ⟨m, finding, hm, hst, hanswer⟩, hreconciles⟩ :=
    paginate_reconciles hrun
  obtain rfl := Option.some.inj (hpage.symm.trans hstate)
  -- the page has as many elements as the answer has records, up to a size that is not zero
  have hnone : a.records = [] := by
    have hlength := hreconciles.length
    rw [hempty, List.length_nil] at hlength
    exact List.length_eq_zero_iff.mp (by omega)
  have hend : a.continuation = none := by
    have hoptions : pageOptions (ofStore settings database metrics) m q state
        = { crossPartition := fansOut m q, maxItems := some state.size, metrics } := by
      rw [pageOptions, hfirst]
    rw [hoptions] at hanswer
    cases hquery : Store.query settings name finding
        { crossPartition := fansOut m q, maxItems := some state.size, metrics }
        session.backend with
    | ok a' =>
      change pageAnswer (Store.reported (Store.query _ _ _ _ _)) = _ at hanswer
      rw [hquery] at hanswer
      cases hanswer
      exact continuation_of_no_records hcap hpos hst hquery hnone
    | error f =>
      change pageAnswer (Store.reported (Store.query _ _ _ _ _)) = _ at hanswer
      rw [hquery] at hanswer
      -- of the faults only that of a missing collection is an answer, and that one goes no further
      unfold pageAnswer Store.reported at hanswer
      dsimp only at hanswer
      split at hanswer
      · cases hanswer
        rfl
      · cases hanswer
  have hnext := hreconciles.next
  rw [hend, Option.map_none, Page.next?] at hnext
  exact Option.map_eq_none_iff.mp hnext

/-- **A page that is delivered is reported, and its count**, unless it is a first page without
anything on it. -/
theorem paginate_reports {state : PageState} {p : Page α} {session session' : Session Store}
    (hcap : ∀ n, settings.maxItems = some n → 1 ≤ n) (hpage : q.page = some state)
    (hrun : ((ofStore settings database metrics).paginate e name q).run session
      = (.ok p, session')) :
    ∃ reports, session'.diagnostics = session.diagnostics ++ reports
      ∧ reports.map Diagnostic.operation
        = if state.continuation = none ∧ p.content = [] then [.paginate]
          else [.paginate, .count] := by
  obtain ⟨reports, hreports, hoperations⟩ := paginate_reports_calls hrun
  have hrequested : p.requested = state := by
    obtain ⟨state', a, hstate, -, -, hreconciles⟩ := paginate_reconciles hrun
    rw [hreconciles.requested]
    exact (Option.some.inj (hpage.symm.trans hstate)).symm
  rw [hrequested] at hoperations
  refine ⟨reports, hreports, ?_⟩
  by_cases h : state.continuation = none ∧ p.content = []
  · have hend := continuation_of_empty_page hcap hpage h.1 hrun h.2
    rw [hoperations, if_pos h, if_pos ⟨h.2, hend, h.1⟩]
  · rw [hoperations, if_neg h, if_neg fun h' => h ⟨h'.2.2, h'.1⟩]

/-! ## Deleting -/

/-- What becomes of so many planned deletions, and what is reported: all of them are made, or those
before the first that fails. -/
inductive Tried (name : String) (planned : Nat) {β : Type} :
    Except AccessError β → List Diagnostic → Prop
  | all {b : β} {reports : List Diagnostic} (length : reports.length = planned)
      (answered : ∀ d ∈ reports, Answered .delete name d) : Tried name planned (.ok b) reports
  | failed {before : List Diagnostic} {last : Diagnostic} {f : BackendError}
      (length : before.length < planned) (answered : ∀ d ∈ before, Answered .delete name d)
      (operation : last.operation = .delete) (collection : last.collection = name)
      (status : last.status = f.status) (error : last.error = some f.message) :
      Tried name planned (.error (.translate .delete f)) (before ++ [last])

namespace Tried

variable {β γ : Type} {planned : Nat} {reports : List Diagnostic} {r : Except AccessError β}

/-- A deletion in front of others is reported in front of theirs. -/
theorem cons {d : Diagnostic} (hd : Answered .delete name d) (h : Tried name planned r reports) :
    Tried name (planned + 1) r (d :: reports) := by
  cases h with
  | all length answered =>
    exact .all (congrArg (· + 1) length) (List.forall_mem_cons.mpr ⟨hd, answered⟩)
  | @failed before last f length answered operation collection status error =>
    show Tried name (planned + 1) _ ((d :: before) ++ [last])
    exact .failed (Nat.succ_lt_succ length) (List.forall_mem_cons.mpr ⟨hd, answered⟩) operation
      collection status error

theorem map (h : Tried name planned r reports) (f : β → γ) :
    Tried name planned (r.map f) reports := by
  cases h with
  | all length answered => exact .all length answered
  | failed length answered operation collection status error =>
    exact .failed length answered operation collection status error

end Tried

/-- **Deletions are reported up to the first that fails.**  Induction on the plan. -/
theorem deleteEach_reports {σ : Type} (c : Client σ) (name : String) :
    ∀ (plan : List (String × Placement)) (state : σ), ∃ r reports state',
      (c.deleteEach name plan).Yields state r reports state'
      ∧ Tried name plan.length r reports := by
  intro plan
  induction plan with
  | nil => exact fun state => ⟨.ok (), [], state, Access.Silent.pure () state, .all rfl nofun⟩
  | cons p plan ih =>
    intro state
    rw [deleteEach]
    have hcall := Access.Yields.call c .delete name RecordAnswer.observed
      (c.backend.delete name p.1 p.2) state
    cases hanswer : (c.backend.delete name p.1 p.2 state).1 with
    | error f =>
      rw [hanswer] at hcall
      have hfailed : Tried name (plan.length + 1)
          (.error (.translate .delete f) : Except AccessError Unit)
          ([] ++ [c.report .delete name RecordAnswer.observed (.error f)]) :=
        .failed (Nat.succ_pos _) nofun rfl rfl rfl rfl
      exact ⟨_, _, _, hcall.bind_error, hfailed⟩
    | ok a =>
      rw [hanswer] at hcall
      obtain ⟨r, reports, state', hrest, htried⟩ := ih (c.backend.delete name p.1 p.2 state).2
      exact ⟨r, _, state', hcall.bind hrest, htried.cons ⟨rfl, rfl, rfl⟩⟩

/-- No call is behind the fault of a plan. -/
theorem refused?_of_aim {d : Document} {err : AccessError} (h : aim m name d = .error err) :
    err.refused? = none := by
  rw [aim] at h
  split at h
  · cases h
    rfl
  · obtain ⟨f, -, rfl⟩ := error_of_mapError (error_of_map h)
    rfl

/-- **What is done with the matches is reported by the deletions that were tried.**  None is tried
if a match has no plan or is no entity. -/
theorem deletions_reports {σ : Type} (c : Client σ) (e : EntityType α) (m : Metadata)
    (name : String) (records : List Document) (state : σ) : ∃ r deletions state', (do
        let plan ← planned m name records
        let entities ← Access.mapEach e.read records
        c.deleteEach name plan
        pure entities : Access σ (List α)).Yields state r deletions state'
      ∧ (Tried name records.length r deletions
        ∨ deletions = [] ∧ ∃ err, r = .error err ∧ err.refused? = none) := by
  have hplanned : (planned m name records : Access σ _).Silent _ := planned_silent m name records
  have hmapped : (Access.mapEach e.read records : Access σ _).Silent _ := .mapEach e.read records
  cases hplan : records.mapM (aim m name) with
  | error err =>
    rw [hplan] at hplanned
    obtain ⟨d, -, haim⟩ := error_of_mapM hplan
    exact ⟨_, [], state, (hplanned state).bind_error, .inr ⟨rfl, err, rfl, refused?_of_aim haim⟩⟩
  | ok plan =>
    rw [hplan] at hplanned
    cases hlist : records.mapM e.read with
    | error f =>
      rw [hlist] at hmapped
      exact ⟨_, [], state, hplanned.bind_yields (hmapped state).bind_error,
        .inr ⟨rfl, .mapping f, rfl, rfl⟩⟩
    | ok list =>
      rw [hlist] at hmapped
      obtain ⟨r, deletions, state', hdeletions, htried⟩ := deleteEach_reports c name plan state
      rw [length_of_mapM hplan] at htried
      exact ⟨_, deletions, state',
        hplanned.bind_yields (hmapped.bind_yields (hdeletions.map fun _ => list)),
        .inl (htried.map _)⟩

/-- **Deleting reports each answer of the store and each deletion that was tried.** -/
theorem delete_reports {session session' : Session Store} {outcome : Except AccessError (List α)}
    (hcap : ∀ n, settings.maxItems = some n → 1 ≤ n) (hmemory : session.backend.FitsMemory)
    (hname : Text.isBlank name = false)
    (hm : Metadata.ofDeclaration e.toEntityDeclaration = .ok m)
    (hst : Statement.ofQuery .find q = .ok statement)
    (hf : found session.backend name q.criteria (fansOut m q) = .ok ds)
    (hrun : ((ofStore settings database metrics).delete e name q).run session
      = (outcome, session')) :
    ∃ finds deletions, session'.diagnostics = session.diagnostics ++ (finds ++ deletions)
      ∧ Cut settings .find name ds.length finds
      ∧ (Tried name ds.length outcome deletions
        ∨ deletions = [] ∧ ∃ err, outcome = .error err ∧ err.refused? = none) := by
  obtain ⟨finds, hfinds, hcut⟩ : ∃ finds, ((ofStore settings database metrics).queryAll .find
      name statement (fansOut m q)).Yields session.backend _ finds session.backend ∧ _ :=
    queryAll_reports hcap (Store.length_le_of_found hmemory hf) hst hf
  obtain ⟨r, deletions, state', hdeletions, htried⟩ := deletions_reports
    (ofStore settings database metrics) e m name (sorted (q.select .find) ds) session.backend
  rw [length_sorted] at htried
  -- nothing is called before the matches are gathered
  have hchecked : (Access.checked (requireText "collection name" name) : Access Store Unit).Silent
      _ := .checked _
  have hdeclared : (metadata e.toEntityDeclaration : Access Store Metadata).Silent _ := .metadata _
  have hwritten : (Access.compiled (Statement.ofQuery .find q) : Access Store Statement).Silent _ :=
    .compiled _
  rw [requireText_ok_iff.mpr hname] at hchecked
  rw [hm] at hdeclared
  rw [hst] at hwritten
  have hdelete : ((ofStore settings database metrics).delete e name q).Yields session.backend r
      (finds ++ deletions) state' := by
    rw [delete, requireText_ok_iff.mpr hname, hst]
    exact hchecked.bind_yields (hdeclared.bind_yields (hwritten.bind_yields
      (hfinds.bind hdeletions)))
  obtain ⟨rfl, -, hdiagnostics⟩ := hdelete.of_run hrun
  exact ⟨finds, deletions, hdiagnostics, hcut, htried⟩

/-! ## Finding nothing to ask -/

section Missing

variable (hc : s.collection? name = none)

include hc

/-- A query over a missing collection is one failure in the reports, and an empty list to the
caller. -/
theorem queryAll_yields_missing {op : Operation} (hop : op.recoversNotFound = true)
    (hst : Statement.ofQuery .find q = .ok statement) (cross : Bool) :
    ((ofStore settings database metrics).queryAll op name statement cross).Yields s (.ok [])
      [.failure database op name (Store.Fault.noCollection name).error] s :=
  .bind (.rounds _ s) (follow_yields_missing s.size hop rfl
    (query_settles_fault op hst (found_missing hc cross)).leads)

theorem queryAll_misses {op : Operation} (hop : op.recoversNotFound = true)
    (hst : Statement.ofQuery .find q = .ok statement) (cross : Bool) :
    ((ofStore settings database metrics).queryAll op name statement cross).Misses s :=
  .of_yields (queryAll_yields_missing hc hop hst cross) rfl

/-- Finding in a missing collection reports the miss, although it succeeds. -/
theorem find_misses : ((ofStore settings database metrics).find e name q).Misses s :=
  .after (.checked _) fun _ _ => .after (.metadata _) fun _ _ => .after (.compiled _)
    fun _ hst => .bind (queryAll_misses hc rfl (ok_of_mapError hst) _)
    fun records => ⟨_, .mapEach e.read records⟩

/-- Looking for an id in all partitions of a missing collection reports the miss. -/
theorem findByIdIn_misses (id : String) :
    ((ofStore settings database metrics).findByIdIn e name id).Misses s := by
  refine .after (.checked _) fun _ _ => .after (.checked _) fun _ _ => .after (.compiled _)
    fun _ hst => .bind (queryAll_misses hc rfl (ok_of_mapError hst) true) fun records => ?_
  cases records with
  | nil => exact ⟨_, .pure none⟩
  | cons d ds => exact ⟨_, (Access.Silent.mapped (e.read d)).map some⟩

/-- A query of a collection that is not there. -/
theorem query_yields_missing (op : Operation) (options : QueryOptions)
    (hst : Statement.ofQuery .find q = .ok statement) :
    ((ofStore settings database metrics).query op name statement options).Yields s
      (.error (.translate op (Store.Fault.noCollection name).error))
      [.failure database op name (Store.Fault.noCollection name).error] s := by
  have hf : found s name q.criteria options.crossPartition = .error (.noCollection name) :=
    found_missing hc _
  exact .call_error (query_settles_fault op hst hf).leads

/-- Asking whether there is anything in a missing collection reports the miss. -/
theorem exists_misses : ((ofStore settings database metrics).exists? e name q).Misses s :=
  .after (.checked _) fun _ _ => .after (.metadata _) fun _ _ => .after (.compiled _)
    fun _ hst => .of_yields (.behind
      (query_yields_missing hc .exists _ (ok_of_mapError hst)).attempt (.given _)) rfl

/-- The first page. -/
theorem paginate_misses (hfirst : ∀ state, q.page = some state → state.continuation = none) :
    ((ofStore settings database metrics).paginate e name q).Misses s := by
  refine .after (.checked _) fun _ _ => .after (.checked _) fun state hstate =>
    .after (.metadata _) fun _ _ => .after (.compiled _) fun finding hst =>
    .after (.compiled _) fun _ _ => .of_yields (r := .ok ⟨[], state, none, 0⟩) (.behind
      (query_yields_missing hc .paginate _ (ok_of_mapError hst)).attempt ?_) rfl
  rw [recover_noCollection rfl]
  refine .bind (.given (.ok ({} : QueryAnswer))) ?_
  rw [List.take_nil, hfirst state (page_of_requestedPage (ok_of_mapError hstate))]
  exact .bind (.mapEach e.read []) (.bind (.pure 0) (.pure _))

/-- What is not there is not deleted. -/
theorem delete_misses : ((ofStore settings database metrics).delete e name q).Misses s :=
  .after (.checked _) fun _ _ => .after (.metadata _) fun m _ => .after (.compiled _)
    fun _ hst => .of_yields (.behind (queryAll_yields_missing hc rfl (ok_of_mapError hst) _)
      (.bind (planned_silent m name []) (.bind (.mapEach e.read []) (.bind (.pure ()) (.pure [])))))
      rfl

end Missing

/-- The record of an id in a partition is not there. -/
theorem findById_misses {id : String} {key : PartitionKey}
    (hvacant : ∀ m c, Metadata.ofDeclaration e.toEntityDeclaration = .ok m →
      s.collection? m.collection = some c → c.find? id key = none) :
    ((ofStore settings database metrics).findById e id (some key)).Misses s := by
  refine .after (.checked _) fun _ _ => .after (.collectionName _) fun name hname => ?_
  obtain ⟨m, hm, rfl⟩ := ok_of_map hname
  refine .of_yields (readAt_yields e m.collection id key) ?_
  rw [Store.read]
  split
  · rfl
  · rename_i c hc
    rw [hvacant m c (ok_of_mapError hm) hc]
    rfl

/-- A read asks for what is not there: no such collection, or no such record where one is read by
its partition. -/
def Read.Gone (e : EntityType α) (s : Store) : Read → Prop
  | .findById id (some key) => ∀ m c, Metadata.ofDeclaration e.toEntityDeclaration = .ok m →
    s.collection? m.collection = some c → c.find? id key = none
  | .findById _ none => ∀ m, Metadata.ofDeclaration e.toEntityDeclaration = .ok m →
    s.collection? m.collection = none
  | .find name _ | .findAllIn name | .findByIdIn name _ | .findByIds name _ | .exists name _
  | .paginate name _ | .findAllPaged name _ => s.collection? name = none

/-- A read that asks for something, from the front, but for what is not there. -/
structure Read.AsksInVain (e : EntityType α) (s : Store) (r : Read) : Prop where
  gone : r.Gone e s
  asks : r.isIdle = false
  front : r.continuation = none

/-- Every read that asks in vain reports a miss, whatever it makes of it for its caller. -/
theorem Read.run_misses {r : Read} (h : r.AsksInVain e s) :
    (r.run (ofStore settings database metrics) e).Misses s := by
  obtain ⟨hgone, hidle, hfirst⟩ := h
  cases r with
  | find name q => exact .bind (find_misses hgone) fun _ => ⟨_, .pure _⟩
  | findAllIn name => exact .bind (find_misses hgone) fun _ => ⟨_, .pure _⟩
  | findById id key =>
    refine .bind ?_ fun _ => ⟨_, .pure _⟩
    cases key with
    | some key => exact findById_misses hgone
    | none =>
      refine .after (.checked _) fun _ _ => .after (.collectionName _) fun name hname => ?_
      obtain ⟨m, hm, rfl⟩ := ok_of_map hname
      exact findByIdIn_misses (hgone m (ok_of_mapError hm)) id
  | findByIdIn name id => exact .bind (findByIdIn_misses hgone id) fun _ => ⟨_, .pure _⟩
  | findByIds name ids =>
    refine .bind (.after (.checked _) fun _ _ => ?_) fun _ => ⟨_, .pure _⟩
    change ids.isEmpty = false at hidle
    rw [if_neg (Bool.eq_false_iff.mp hidle)]
    exact find_misses hgone
  | «exists» name q => exact .bind (exists_misses hgone) fun _ => ⟨_, .pure _⟩
  | paginate name q =>
    refine .bind (paginate_misses hgone fun state hstate => ?_) fun _ => ⟨_, .pure _⟩
    rw [continuation, page?, hstate] at hfirst
    exact hfirst
  | findAllPaged name state =>
    refine .bind (paginate_misses (q := { criteria := .all, page := some state }) hgone ?_)
      fun _ => ⟨_, .pure _⟩
    rintro _ ⟨⟩
    exact hfirst

/-- A request that asks for what is not there. -/
def Request.AsksInVain (e : EntityType α) (s : Store) : Request α → Prop
  | .read r => r.AsksInVain e s
  | .findAll => ∀ m, Metadata.ofDeclaration e.toEntityDeclaration = .ok m →
    s.collection? m.collection = none
  | .delete name _ | .deleteAll name => s.collection? name = none
  | _ => False

/-- **What is asked for in vain is reported once**, if that is taken for an answer. -/
theorem Request.run_misses {r : Request α} (h : r.AsksInVain e s) :
    (r.run (ofStore settings database metrics) e).Misses s := by
  cases r with
  | read r => exact .bind (Read.run_misses h) fun _ => ⟨_, .pure _⟩
  | findAll =>
    refine .bind (.after (.collectionName _) fun name hname => ?_) fun _ => ⟨_, .pure _⟩
    obtain ⟨m, hm, rfl⟩ := ok_of_map hname
    exact find_misses (h m (ok_of_mapError hm))
  | delete name q => exact .bind (delete_misses h) fun _ => ⟨_, .pure _⟩
  | deleteAll name => exact .bind (delete_misses h) fun _ => ⟨_, .pure _⟩
  | _ => exact h.elim

/-! ## All requests -/

/-- Every call of a request is reported once, and in order, and a probe around the backend sees
these calls and no others. -/
def Request.Reported {σ : Type} (c : Client σ) (e : EntityType α) (r : Request α) : Prop :=
  ∀ terms session outcome session', (r.run c e).run session = (outcome, session') →
    ∃ exchanges reports, session'.diagnostics = session.diagnostics ++ reports
      ∧ Trace c.backend session.backend exchanges session'.backend
      ∧ Paired (Exchange.ReportedAs c.database r.Makes) exchanges reports
      ∧ (r.run (c.watched terms) e).Leads (.past session.backend []) outcome
        (.past session'.backend (exchanges.map Exchange.call))

/-- What a request reports is what it called the backend with, call for call. -/
theorem Request.reported {σ : Type} (c : Client σ) (e : EntityType α) (r : Request α) :
    r.Reported c e := by
  intro terms session outcome session' hrun
  have hobserved : Access.Observed c terms r.Makes (r.run c e) (r.run (c.watched terms) e) :=
    r.observed
  obtain ⟨o, exchanges, reports, state, hcourse⟩ := hobserved session.backend
  obtain ⟨rfl, rfl, hreports⟩ := hcourse.yields.of_run hrun
  exact ⟨exchanges, reports, hreports, hcourse.trace, hcourse.reported, hcourse.seen []⟩

/-- **Every call is reported exactly once.**  Whatever is asked of a store in any state, each call
adds one report, in order, of what was called for which operation and of what came of it.  So if the
store gives any record at all in an answer: finding adds a report for each slice of the matches, and
all but the last go on; a page adds two, or one if it is a first page without anything on it;
deleting adds those of finding, and one for each deletion that was tried; and whatever is asked for
in vain adds one, that it was not found, where that is an answer. -/
theorem calls_reported (settings : Settings) (database : String) (metrics : Bool)
    (e : EntityType α) :
    (∀ r : Request α, r.Reported (ofStore settings database metrics) e)
    ∧ ((∀ n, settings.maxItems = some n → 1 ≤ n) → ∀ session session' : Session Store,
      (∀ name q coll list, session.backend.FitsMemory →
        session.backend.collection? name = some coll →
        ((ofStore settings database metrics).find e name q).run session = (.ok list, session') →
        ∃ reports, session'.diagnostics = session.diagnostics ++ reports
          ∧ Cut settings .find name (coll.records.filter q.criteria.meets).length reports)
      ∧ (∀ name q state p, q.page = some state →
        ((ofStore settings database metrics).paginate e name q).run session = (.ok p, session') →
        ∃ reports, session'.diagnostics = session.diagnostics ++ reports
          ∧ reports.map Diagnostic.operation
            = if state.continuation = none ∧ p.content = [] then [.paginate]
              else [.paginate, .count])
      ∧ (∀ name q m statement ds outcome, session.backend.FitsMemory →
        Text.isBlank name = false → Metadata.ofDeclaration e.toEntityDeclaration = .ok m →
        Statement.ofQuery .find q = .ok statement →
        found session.backend name q.criteria (fansOut m q) = .ok ds →
        ((ofStore settings database metrics).delete e name q).run session = (outcome, session') →
        ∃ finds deletions, session'.diagnostics = session.diagnostics ++ (finds ++ deletions)
          ∧ Cut settings .find name ds.length finds
          ∧ (Tried name ds.length outcome deletions
            ∨ deletions = [] ∧ ∃ err, outcome = .error err ∧ err.refused? = none))
      ∧ ∀ (r : Request α) reply, r.AsksInVain e session.backend →
        (r.run (ofStore settings database metrics) e).run session = (.ok reply, session') →
        ∃ d, session'.diagnostics = session.diagnostics ++ [d]
          ∧ d.status = BackendError.notFound) := by
  refine ⟨fun r => r.reported _ e, fun hcap session session' => ⟨?_, ?_, ?_, ?_⟩⟩
  · intro name q coll list hmemory hc hrun
    exact find_reports hcap hmemory hc hrun
  · intro name q state p hpage hrun
    exact paginate_reports hcap hpage hrun
  · intro name q m statement ds outcome hmemory hname hm hst hf hrun
    exact delete_reports hcap hmemory hname hm hst hf hrun
  · intro r reply hvain hrun
    exact Request.run_misses hvain session reply session' rfl hrun

/-- Two late deliveries come in two answers, and are deleted one after the other. -/
theorem calls_reported_dispatch : ∃ list session' finds deletions,
    ((ofStore oneByOne "db" false).delete delivery "deliveries" lateDeliveries).run
        { backend := Store.after oneByOne dispatch {} } = (.ok list, session')
      ∧ session'.diagnostics = finds ++ deletions ∧ finds.length = 2 ∧ itemsOf finds = 2
      ∧ deletions.length = 2 ∧ ∀ d ∈ deletions, Answered .delete "deliveries" d := by
  obtain ⟨st, hst⟩ : ∃ st, Statement.ofQuery .find lateDeliveries = .ok st := ⟨_, rfl⟩
  have hc : (Store.after oneByOne dispatch {}).collection? "deliveries" = some deliveries := rfl
  have hm : Metadata.ofDeclaration delivery.toEntityDeclaration = .ok deliveryMetadata := rfl
  obtain ⟨list, -, hdelete⟩ : ∃ list, _ ∧ ((ofStore oneByOne "db" false).delete delivery
      "deliveries" lateDeliveries).Leads (Store.after oneByOne dispatch {}) (.ok list) _ :=
    delete_leads rfl hm hst oneByOne_allows (by decide) hc
      (Store.keyed_after oneByOne dispatch "deliveries" deliveries hc) deliveries_splitBy
      fun d hd => deletable_late d (mem_sortedMatches.mp hd).1 (mem_sortedMatches.mp hd).2
  obtain ⟨session', hrun, -⟩ := hdelete { backend := Store.after oneByOne dispatch {} } rfl
  obtain ⟨-, -, hdeleting, -⟩ := (calls_reported oneByOne "db" false delivery).2 oneByOne_allows
    { backend := Store.after oneByOne dispatch {} } session'
  obtain ⟨finds, deletions, hreports, hcut, htried⟩ := hdeleting "deliveries" lateDeliveries
    deliveryMetadata st _ _ fitsMemory_deliveries rfl hm hst
    (deliveries_splitBy.found_ok hc lateDeliveries) hrun
  rcases htried with htried | ⟨-, err, herr, -⟩
  · cases htried with
    | all length answered =>
      exact ⟨list, session', finds, deletions, hrun, hreports, hcut.length, hcut.items, length,
        answered⟩
  · cases herr

end Client

end DocQuery
