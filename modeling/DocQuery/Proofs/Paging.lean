/-
  Pages of a result.

  A page asks for a size, a store may cut it shorter, and the next request asks for the size that
  came back.  From the second page on nothing is cut any more: all pages but the last have the
  size of the first, so they tile the result.

  A page knows nothing of the one before it but a text.  The place survives in that text as long
  as it is a number of 64 bits, which it is in a store that fits in memory.  Sizes fall once at
  most, from what was asked for to what the store allows, and stay from there on, since the next
  request asks for what came back; so the width of all pages behind the first is the same, and the
  induction is on what is left of the list.

  1. `countStatement_settles`: counting a query counts what it finds;
  2. `paginate_settles`: one page, from any place in the result;
  3. `Walk` and `Tiles`: page after page, and what the pages have to be;
  4. `walk_from`: the walk from any place on, by induction on what is left;
  5. `walk_tiles`: the walk from the first page.
-/
import DocQuery.Proofs.Finding

namespace DocQuery.Client

open Store (Settings found fault_of_found sorted slice limit maxLength placeOf tokenOf slice_some)

variable {settings : Settings} {database : String} {metrics : Bool} {s : Store}
variable {q : Query} {statement : Statement} {name : String} {α : Type}

/-! ## Counting -/

/-- The number of a list in memory is read back from the record that holds it. -/
theorem countOf_countRecord {a : QueryAnswer} {n : Nat} (h : n ≤ maxLength)
    (ha : a.records = [Store.countRecord Statement.countAlias n]) : countOf a = .ok n := by
  have hint : (Int64.ofNat n).toInt = Int.ofNat n := by
    refine Int64.toInt_ofNat_of_lt ?_
    rw [maxLength] at h
    omega
  have hvalue : (a.records.head?.bind fun d => d.get? Statement.countAlias)
      = some (.int64 (Int64.ofNat n)) := by
    rw [ha]
    rfl
  have hnumber : (some (Value.int64 (Int64.ofNat n))).bind Value.int? = some (Int.ofNat n) :=
    congrArg some hint
  simp only [countOf, hvalue, hnumber]

/-- A query that can be written for records can be written for their number. -/
theorem ofQuery_count (h : Statement.ofQuery .find q = .ok statement) :
    ∃ counting, Statement.ofQuery .count q = .ok counting := by
  obtain ⟨condition, _, hcondition, -, -⟩ := Dialect.ofQuery_parts h
  cases hcount : Statement.ofQuery .count q with
  | ok counting => exact ⟨counting, rfl⟩
  | error f =>
    rw [Statement.ofQuery_eq, hcondition] at hcount
    cases hcount

/-- Counting settles with the number of what was found. -/
theorem countStatement_settles {cross : Bool} {ds : List Document} (hsize : ds.length ≤ maxLength)
    (hst : Statement.ofQuery .count q = .ok statement)
    (hf : found s name q.criteria cross = .ok ds) :
    ((ofStore settings database metrics).countStatement name statement
      cross).Settles s (.ok ds.length) := by
  have hm : Store.matched s name (q.select .count) statement cross = .ok ds := by
    rw [Store.matched_written hst, hf]
  have hd : Store.deliver settings (q.select .count)
      { crossPartition := cross, metrics := metrics } ds
        = .ok ([Store.countRecord Statement.countAlias ds.length], none) :=
    Store.deliver_count settings rfl
  obtain ⟨a, ha, hrecords, -⟩ := Store.query_of_matched settings
    (Dialect.ofText_written hst) hm hd
  have hquery := settles_query settings database metrics .count name statement
    { crossPartition := cross, metrics := metrics } s
  rw [ha] at hquery
  rw [countStatement]
  refine .bind hquery ?_
  rw [countOf_countRecord hsize hrecords]
  exact .given _

/-! ## One page -/

/-- How many elements a page of some size gets: the store may allow fewer. -/
def width (settings : Settings) (size : Nat) : Nat :=
  match settings.maxItems with
  | none => size
  | some n => min size n

/-- A page is no wider than was asked for. -/
theorem width_le (settings : Settings) (size : Nat) : width settings size ≤ size := by
  rw [width]
  split
  · exact Nat.le_refl _
  · exact Nat.min_le_left _ _

/-- A page has room for a record, if the store answers with any. -/
theorem width_pos {size : Nat} (hcap : ∀ n, settings.maxItems = some n → 1 ≤ n)
    (hsize : 1 ≤ size) : 1 ≤ width settings size := by
  rw [width]
  split
  · exact hsize
  · rename_i n hn
    have := hcap n hn
    omega

/-- A page that was cut is cut no further when it is asked for again. -/
theorem width_width (settings : Settings) (size : Nat) :
    width settings (width settings size) = width settings size := by
  cases h : settings.maxItems with
  | none => simp only [width, h]
  | some n =>
    simp only [width, h]
    omega

/-- What the store allows it does not cut. -/
theorem width_of_allowed {size : Nat} (h : ∀ n, settings.maxItems = some n → size ≤ n) :
    width settings size = size := by
  rw [width]
  split
  · rfl
  · rename_i n hn
    exact Nat.min_eq_left (h n hn)

/-- A page of some size may be asked for. -/
theorem requestedPage_ok {state : PageState} (hpage : q.page = some state)
    (hpos : 1 ≤ state.size) : requestedPage q = .ok state := by
  rw [requestedPage, hpage]
  exact if_neg (by omega)

/-- A request for a page reaches the store with the page's size for a limit. -/
theorem limit_eq (size : Nat) (continuation : Option String) (cross : Bool) :
    limit settings { crossPartition := cross, maxItems := some size, continuation, metrics }
      = some (width settings size) := by
  rw [limit, width]
  cases settings.maxItems <;> rfl

/-- The page of a result that a request gets at a place. -/
def pageAt (settings : Settings) (list : List α) (state : PageState) (place : Nat) : Page α where
  content := (list.drop place).take (width settings state.size)
  requested := state
  continuation :=
    if place + width settings state.size < list.length then
      some (tokenOf (place + width settings state.size))
    else none
  totalElements := list.length

/-- A page of nothing. -/
theorem pageAt_nil (settings : Settings) (state : PageState) (place : Nat) :
    pageAt settings ([] : List α) state place = ⟨[], state, none, 0⟩ := by
  have hnone : ¬ place + width settings state.size < ([] : List α).length := Nat.not_lt_zero _
  rw [pageAt, List.drop_nil, List.take_nil, if_neg hnone]
  rfl

/-- A query lists some entities: it can be written, and what it finds is mapped to them. -/
structure Lists (s : Store) (e : EntityType α) (m : Metadata) (name : String) (q : Query)
    (statement : Statement) (ds : List Document) (list : List α) : Prop where
  named : Text.isBlank name = false
  declared : Metadata.ofDeclaration e.toEntityDeclaration = .ok m
  written : Statement.ofQuery .find q = .ok statement
  found : Store.found s name q.criteria (fansOut m q) = .ok ds
  counted : ds.length ≤ maxLength
  mapped : (sorted (q.select .find) ds).mapM e.read = .ok list

variable {e : EntityType α} {m : Metadata} {ds : List Document} {list : List α}

/-- **A page is the stretch of the result at its place**, and knows the length of the result. -/
theorem paginate_settles {state : PageState} {place : Nat}
    (hlists : Lists s e m name q statement ds list)
    (hcap : ∀ n, settings.maxItems = some n → 1 ≤ n) (hpage : q.page = some state)
    (hpos : 1 ≤ state.size) (hp : placeOf state.continuation = .ok place) :
    ((ofStore settings database metrics).paginate e name q).Settles s
      (.ok (pageAt settings list state place)) := by
  obtain ⟨hname, hm, hst, hf, hsize, hlist⟩ := hlists
  have hcheck : requireText "collection name" name = .ok () := requireText_ok_iff.mpr hname
  have hrequested := requestedPage_ok hpage hpos
  have hlength : list.length = ds.length := by
    rw [length_of_mapM hlist, length_sorted]
  obtain ⟨counting, hcounting⟩ := ofQuery_count hst
  have hlimit : limit settings
      { crossPartition := fansOut m q, maxItems := some state.size,
        continuation := state.continuation, metrics } = some (width settings state.size) :=
    limit_eq state.size state.continuation (fansOut m q)
  have hquery : ∃ a : QueryAnswer,
    ((ofStore settings database metrics).query .paginate name statement
      { crossPartition := fansOut m q, maxItems := some state.size,
        continuation := state.continuation, metrics }).Settles s (.ok a) ∧ _ ∧ _ :=
    query_settles settings database metrics .paginate hst hf hp
  obtain ⟨a, ha, hrecords, hnext⟩ := hquery
  rw [hlimit, slice_some] at hrecords hnext
  -- a page never holds more than was asked for, so taking that much takes all
  have hcontent : (Access.mapEach e.read (a.records.take state.size) : Access Store _).Settles s
      (.ok ((list.drop place).take (width settings state.size))) := by
    have hmap : (Access.mapEach e.read (a.records.take state.size) : Access Store _).Settles s _ :=
      .mapEach e.read (a.records.take state.size)
    rw [hrecords, List.take_take, Nat.min_eq_right (width_le _ _), mapM_stretch hlist] at hmap
    rw [hrecords, List.take_take, Nat.min_eq_right (width_le _ _)]
    exact hmap
  -- whether it was counted or not, the page has the number of all as its total
  have hpageAt : ∀ total, total = list.length → (pure ⟨(list.drop place).take
      (width settings state.size), state, a.continuation, total⟩ : Access Store (Page α)).Settles s
        (.ok (pageAt settings list state place)) := by
    intro total htotal
    have heq : pageAt settings list state place = ⟨(list.drop place).take
        (width settings state.size), state, a.continuation, total⟩ := by
      rw [pageAt, htotal, hnext, length_sorted, ← hlength]
      split <;> rfl
    rw [heq]
    exact .pure _
  rw [paginate]
  refine .bind (.checked hcheck) (.bind (.checked hrequested) (.bind (.metadata hm)
    (.bind (.compiled hst) (.bind (.compiled hcounting) (.bind (.attempt ha)
      (.bind (.given (.ok a)) (.bind hcontent ?_)))))))
  dsimp only
  split
  · -- nothing on a first page: the list is empty, so no count is asked for
    rename_i hempty
    rw [Bool.and_eq_true, Bool.and_eq_true] at hempty
    obtain ⟨⟨hnothing, -⟩, hfirst⟩ := hempty
    have hplace : place = 0 := by
      rw [Option.isNone_iff_eq_none.mp hfirst] at hp
      exact (Except.ok.inj hp).symm
    have hnil : list = [] := by
      have hwidth := width_pos hcap hpos
      rw [hplace, List.drop_zero, List.isEmpty_iff, List.take_eq_nil_iff] at hnothing
      exact hnothing.resolve_left (by omega)
    exact .bind (.pure 0) (hpageAt 0 (by rw [hnil]; rfl))
  -- all other pages count
  · exact .bind (countStatement_settles hsize hcounting hf) (hpageAt _ hlength.symm)

/-! ## Page after page -/

/-- The pages of a walk: each request but the first is the one that the page before names, and
the last page names none. -/
inductive Walk {σ : Type} (c : Client σ) (e : EntityType α) (name : String) :
    Query → Session σ → List (Page α) → Prop
  | last {q session page session'} :
      (c.paginate e name q).run session = (.ok page, session') → page.next? = none →
      Walk c e name q session [page]
  | more {q session page session' state pages} :
      (c.paginate e name q).run session = (.ok page, session') → page.next? = some state →
      Walk c e name { q with page := some state } session' pages →
      Walk c e name q session (page :: pages)

/-- Pages tile a list: one behind the other they are the list, only the empty list has an empty
page, each knows the total, and the last one alone is exhausted. -/
structure Tiles (total : Nat) (list : List α) (pages : List (Page α)) : Prop where
  content : pages.flatMap Page.content = list
  nonempty : list ≠ [] → ∀ page ∈ pages, page.content ≠ []
  total : ∀ page ∈ pages, page.totalElements = total
  exhausted : ∃ front last, pages = front ++ [last] ∧ last.status = .exhausted
    ∧ ∀ page ∈ front, page.status = .inProgress

/-- The request for the next page changes nothing but the place: neither what is found nor its
order. -/
theorem Lists.next {state state' : PageState} (h : Lists s e m name q statement ds list)
    (hpage : q.page = some state) (hsort : state'.sort = state.sort) :
    Lists s e m name { q with page := some state' } statement ds list := by
  have heffective : { q with page := some state' }.effectiveSort = q.effectiveSort := by
    simp only [Query.effectiveSort, hpage, Option.map_some, hsort]
  obtain ⟨hname, hm, hst, hf, hsize, hlist⟩ := h
  refine ⟨hname, hm, ?_, hf, hsize, ?_⟩
  · rw [← hst, Statement.ofQuery, Statement.ofQuery, heffective]
  · have hselect : { q with page := some state' }.select .find = q.select .find :=
      congrArg (fun keys => Dialect.Select.mk _ _ (List.map SortKey.entry keys)) heffective
    rw [hselect, hlist]

/-- The last page of a list, from a place on. -/
theorem pageAt_last {state : PageState} {place : Nat}
    (h : list.length ≤ place + width settings state.size) :
    (pageAt settings list state place).next? = none
      ∧ Tiles list.length (list.drop place) [pageAt settings list state place] := by
  have hnone : (pageAt settings list state place).continuation = none := if_neg (by omega)
  have hcontent : (pageAt settings list state place).content = list.drop place :=
    List.take_of_length_le (by rw [List.length_drop]; omega)
  refine ⟨by rw [Page.next?, hnone]; rfl, ?_, ?_, ?_, ?_⟩
  · rw [List.flatMap_cons, List.flatMap_nil, List.append_nil, hcontent]
  · intro hne page hpage
    rw [List.mem_singleton.mp hpage, hcontent]
    exact hne
  · intro page hpage
    rw [List.mem_singleton.mp hpage]
    rfl
  · refine ⟨[], _, rfl, ?_, fun page hpage => absurd hpage List.not_mem_nil⟩
    rw [Page.status, Page.hasNext, hnone]
    rfl

/-- A page with more behind it, in front of the pages that follow. -/
theorem pageAt_more {state : PageState} {place : Nat} {pages : List (Page α)}
    (hpos : 1 ≤ width settings state.size) (h : place + width settings state.size < list.length)
    (hpages : Tiles list.length (list.drop (place + width settings state.size)) pages) :
    Tiles list.length (list.drop place) (pageAt settings list state place :: pages) := by
  have hsome : (pageAt settings list state place).continuation
      = some (tokenOf (place + width settings state.size)) := if_pos h
  have hcontent : (pageAt settings list state place).content
      = (list.drop place).take (width settings state.size) := rfl
  refine ⟨?_, ?_, ?_, ?_⟩
  · rw [List.flatMap_cons, hpages.content, hcontent, ← List.drop_drop, List.take_append_drop]
  · intro _ page hpage
    rcases List.mem_cons.mp hpage with rfl | hpage
    · -- this page is as wide as its width, which is no empty page
      intro hnil
      have hlength := congrArg List.length hnil
      rw [hcontent, List.length_take, List.length_drop, List.length_nil] at hlength
      omega
    · refine hpages.nonempty ?_ page hpage
      intro hnil
      have hlength := congrArg List.length hnil
      rw [List.length_drop, List.length_nil] at hlength
      omega
  · intro page hpage
    rcases List.mem_cons.mp hpage with rfl | hpage
    · rfl
    · exact hpages.total page hpage
  · obtain ⟨front, last, heq, hlast, hfront⟩ := hpages.exhausted
    refine ⟨pageAt settings list state place :: front, last, by rw [heq]; rfl, hlast, ?_⟩
    intro page hpage
    rcases List.mem_cons.mp hpage with rfl | hpage
    · rw [Page.status, Page.hasNext, hsome]
      rfl
    · exact hfront page hpage

/-- The request behind a page with more behind it: it goes on at the next place, for as much as
the page got. -/
theorem pageAt_next {state : PageState} {place : Nat} (hpos : 1 ≤ width settings state.size)
    (h : place + width settings state.size < list.length) :
    ∃ next, (pageAt settings list state place).next? = some next ∧ next.sort = state.sort
      ∧ next.size = width settings state.size
      ∧ next.continuation = some (tokenOf (place + width settings state.size)) := by
  have hsome : (pageAt settings list state place).continuation
      = some (tokenOf (place + width settings state.size)) := if_pos h
  have hlength : (pageAt settings list state place).content.length
      = width settings state.size := by
    show ((list.drop place).take (width settings state.size)).length = _
    rw [List.length_take, List.length_drop]
    omega
  have hsize : (pageAt settings list state place).size = width settings state.size := by
    have hnot : ¬ (pageAt settings list state place).content.isEmpty = true := by
      intro hempty
      rw [List.isEmpty_iff.mp hempty, List.length_nil] at hlength
      omega
    rw [Page.size, if_neg hnot, hlength]
    exact Nat.min_eq_left (width_le _ _)
  rw [Page.next?, hsome]
  exact ⟨_, rfl, rfl, hsize, rfl⟩

/-- A list that a page takes `n` from needs one page more than the rest. -/
theorem ceil_step {x n : Nat} (hn : 1 ≤ n) (hx : n < x) :
    max 1 ((x + n - 1) / n) = max 1 ((x - n + n - 1) / n) + 1 := by
  have hsplit : x + n - 1 = x - n + n - 1 + n := by omega
  have hone : 1 ≤ (x - n + n - 1) / n := (Nat.one_le_div_iff (by omega)).mpr (by omega)
  rw [hsplit, Nat.add_div_right _ (by omega)]
  omega

/-- No list needs more pages than it has elements. -/
theorem ceil_le (x : Nat) {n : Nat} (hn : 1 ≤ n) : (x + n - 1) / n ≤ x := by
  refine Nat.le_of_lt_succ ((Nat.div_lt_iff_lt_mul hn).mpr ?_)
  have hmul : x ≤ x * n := Nat.le_mul_of_pos_right x hn
  rw [Nat.succ_mul]
  omega

/-- **The walk from any place on.**  Induction on what is left of the list: a page that is not the
last takes something away, and the next request asks for as much as it got. -/
theorem walk_from (hcap : ∀ n, settings.maxItems = some n → 1 ≤ n) :
    ∀ (left place : Nat) (q : Query) (state : PageState) (session : Session Store),
      Lists session.backend e m name q statement ds list → q.page = some state → 1 ≤ state.size →
      placeOf state.continuation = .ok place → list.length ≤ place + left →
      ∃ pages, Walk (ofStore settings database metrics) e name q session pages
        ∧ Tiles list.length (list.drop place) pages
        ∧ pages.length = max 1 ((list.length - place + width settings state.size - 1)
          / width settings state.size)
        ∧ pages.head?.map Page.requested = some state := by
  intro left
  induction left using Nat.strongRecOn with
  | ind left ih =>
    intro place q state session hlists hpage hsize hp hleft
    have hpos := width_pos hcap hsize
    have hsettles : ((ofStore settings database metrics).paginate e name q).Settles
        session.backend (.ok (pageAt settings list state place)) :=
      paginate_settles hlists hcap hpage hsize hp
    obtain ⟨session', hrun, hbackend⟩ := hsettles session rfl
    -- either this page leaves something behind it, or it is the last
    by_cases hmore : place + width settings state.size < list.length
    · obtain ⟨next, hnext, hsort, hnextSize, hcontinuation⟩ := pageAt_next hpos hmore
      have hlength : list.length ≤ maxLength := by
        rw [length_of_mapM hlists.mapped, length_sorted]
        exact hlists.counted
      -- the place survives the way through the text of the continuation
      have hplace : placeOf next.continuation = .ok (place + width settings state.size) := by
        rw [hcontinuation]
        exact Store.placeOf_tokenOf_of_lt hmore hlength
      -- and the store still lists the same entities
      have hrest : Lists session'.backend e m name { q with page := some next } statement ds
          list := by
        rw [hbackend]
        exact hlists.next hpage hsort
      obtain ⟨pages, hwalk, htiles, hcount, -⟩ := ih (left - width settings state.size) (by omega)
        _ _ next session' hrest rfl (by rw [hnextSize]; exact hpos) hplace (by omega)
      refine ⟨_, .more hrun hnext hwalk, pageAt_more hpos hmore htiles, ?_, rfl⟩
      rw [hnextSize, width_width, ← Nat.sub_sub] at hcount
      rw [ceil_step hpos (by omega), List.length_cons, hcount]
    · have hend : list.length ≤ place + width settings state.size := by omega
      obtain ⟨hnext, htiles⟩ := pageAt_last hend
      refine ⟨_, .last hrun hnext, htiles, ?_, rfl⟩
      have hle : (list.length - place + width settings state.size - 1)
          / width settings state.size ≤ 1 := by
        refine Nat.le_of_lt_succ ((Nat.div_lt_iff_lt_mul (by omega)).mpr (by omega))
      rw [Nat.max_eq_left hle]
      rfl

/-! ## What finding says about paging -/

/-- **What finding delivers, pages can be taken from**: it was found and mapped, or there is no
such collection and nothing is delivered. -/
theorem lists_of_find {session session' : Session Store} (hmemory : session.backend.FitsMemory)
    (hcap : ∀ n, settings.maxItems = some n → 1 ≤ n)
    (h : ((ofStore settings database metrics).find e name q).run session
      = (.ok list, session')) :
    ∃ m statement, Text.isBlank name = false
      ∧ Metadata.ofDeclaration e.toEntityDeclaration = .ok m
      ∧ Statement.ofQuery .find q = .ok statement
      ∧ ((∃ ds, Lists session.backend e m name q statement ds list)
        ∨ (list = [] ∧ found session.backend name q.criteria (fansOut m q)
          = .error (.noCollection name))) := by
  have hrun := h
  rw [find] at hrun
  obtain ⟨_, s₁, hcheck, hs₁, hrun⟩ := Access.Settles.of_bind (.checking _) hrun
  obtain ⟨m, s₂, hm, hs₂, hrun⟩ := Access.Settles.of_bind (.declaring _) hrun
  obtain ⟨statement, s₃, hst, -, -⟩ := Access.Settles.of_bind (.compiling _) hrun
  have hm := ok_of_mapError hm
  have hst := ok_of_mapError hst
  have hname := requireText_ok_iff.mp (ok_of_mapError hcheck)
  refine ⟨m, statement, hname, hm, hst, ?_⟩
  -- what was found decides the outcome, and the outcome is known
  cases hf : found session.backend name q.criteria (fansOut m q) with
  | ok ds =>
    have hsize := Store.length_le_of_found hmemory hf
    obtain ⟨_, hrun', -⟩ : ∃ s' : Session Store, _ ∧ s'.backend = session.backend :=
      find_settles hname hm hst hcap hsize hf session rfl
    rw [h] at hrun'
    have hlist := ok_of_mapError (Prod.mk.inj hrun').1.symm
    exact .inl ⟨ds, hname, hm, hst, hf, hsize, hlist⟩
  | error f =>
    obtain ⟨_, hrun', -⟩ : ∃ s' : Session Store, _ ∧ s'.backend = session.backend :=
      find_fault hname hm hst hf session rfl
    rw [h] at hrun'
    have hanswer := (Prod.mk.inj hrun').1
    rcases fault_of_found hf with rfl | rfl
    · rw [recover_noCollection rfl] at hanswer
      exact .inr ⟨Except.ok.inj hanswer, rfl⟩
    · cases hanswer

/-- Where there is no collection nothing is on a page.  That is an answer to a request for the
first page; behind a continuation the count is asked for, too, and has none. -/
theorem paginate_noCollection {state : PageState} (hname : Text.isBlank name = false)
    (hm : Metadata.ofDeclaration e.toEntityDeclaration = .ok m)
    (hst : Statement.ofQuery .find q = .ok statement)
    (hf : found s name q.criteria (fansOut m q) = .error (.noCollection name))
    (hpage : q.page = some state) (hpos : 1 ≤ state.size) :
    ((ofStore settings database metrics).paginate e name q).Settles s
      (match state.continuation with
        | none => .ok (pageAt settings [] state 0)
        | some _ => .error (.translate .count (Store.Fault.noCollection name).error)) := by
  have hcheck : requireText "collection name" name = .ok () := requireText_ok_iff.mpr hname
  have hrequested := requestedPage_ok hpage hpos
  have hnothing : (Access.mapEach e.read (List.take state.size []) : Access Store _).Settles s
      (.ok []) := by
    rw [List.take_nil]
    exact .mapEach e.read []
  obtain ⟨counting, hcounting⟩ := ofQuery_count hst
  rw [paginate, pageAt_nil]
  refine .bind (.checked hcheck) (.bind (.checked hrequested) (.bind (.metadata hm)
    (.bind (.compiled hst) (.bind (.compiled hcounting)
      (.bind (.attempt (query_settles_fault .paginate hst hf)) ?_)))))
  rw [recover_noCollection rfl]
  refine .bind (.given _) (.bind hnothing ?_)
  cases state.continuation with
  | none => exact .bind (.pure 0) (.pure _)
  | some token =>
    refine .bind_error ?_
    show ((ofStore settings database metrics).countStatement name counting
      (fansOut m q)).Settles s _
    rw [countStatement]
    exact .bind_error (query_settles_fault .count hcounting hf)

/-- Where there is no collection the first page is empty, and the last. -/
theorem paginate_missing {state : PageState} (hname : Text.isBlank name = false)
    (hm : Metadata.ofDeclaration e.toEntityDeclaration = .ok m)
    (hst : Statement.ofQuery .find q = .ok statement)
    (hf : found s name q.criteria (fansOut m q) = .error (.noCollection name))
    (hpage : q.page = some state) (hpos : 1 ≤ state.size) (hfirst : state.continuation = none) :
    ((ofStore settings database metrics).paginate e name q).Settles s
      (.ok (pageAt settings [] state 0)) := by
  have hsettles : ((ofStore settings database metrics).paginate e name q).Settles s _ :=
    paginate_noCollection hname hm hst hf hpage hpos
  rw [hfirst] at hsettles
  exact hsettles

/-! ## The walk from the first page -/

/-- **Pages tile what finding finds.**  Whatever page size is asked for and however the store cuts
its answers, the walk over the pages ends, one behind the other they are the list that finding
delivers, each knows its length, and if the store allows as much as a page asks for, there are as
many as the first page says. -/
theorem walk_tiles {size : Nat} {sort : List SortKey} {session session' start : Session Store}
    (hcap : ∀ n, settings.maxItems = some n → 1 ≤ n) (hsize : 1 ≤ size)
    (hpage : q.page = some ((PageState.first size).withSort sort))
    (hmemory : session.backend.FitsMemory)
    (hfind : ((ofStore settings database metrics).find e name q).run session
      = (.ok list, session'))
    (hstart : start.backend = session.backend) :
    ∃ pages, Walk (ofStore settings database metrics) e name q start pages
      ∧ Tiles list.length list pages
      ∧ pages.length ≤ max 1 list.length
      ∧ ((∀ n, settings.maxItems = some n → size ≤ n) →
        ∃ first, pages.head? = some first ∧ pages.length = max 1 first.totalPages) := by
  obtain ⟨m, statement, hname, hm, hst, hlist⟩ := lists_of_find hmemory hcap hfind
  have hpos := width_pos hcap hsize
  -- the pages as `walk_from` has them, be there a collection or not
  have hpages : ∃ pages, Walk (ofStore settings database metrics) e name q start pages
      ∧ Tiles list.length list pages
      ∧ pages.length = max 1 ((list.length + width settings size - 1) / width settings size)
      ∧ pages.head?.map Page.requested = some ((PageState.first size).withSort sort) := by
    rcases hlist with ⟨ds, hlists⟩ | ⟨rfl, hmissing⟩
    · rw [← hstart] at hlists
      exact walk_from hcap list.length 0 q _ start hlists hpage hsize rfl (by omega)
    · rw [← hstart] at hmissing
      -- without the collection the walk is one page with nothing on it
      have hsettles : ((ofStore settings database metrics).paginate e name q).Settles
          start.backend (.ok (pageAt settings [] ((PageState.first size).withSort sort) 0)) :=
        paginate_missing hname hm hst hmissing hpage hsize rfl
      obtain ⟨_, hrun, -⟩ := hsettles start rfl
      have hend : ([] : List α).length
          ≤ 0 + width settings ((PageState.first size).withSort sort).size := Nat.zero_le _
      obtain ⟨hnext, htiles⟩ := pageAt_last hend
      refine ⟨_, .last hrun hnext, htiles, ?_, rfl⟩
      rw [List.length_nil, Nat.zero_add, Nat.div_eq_of_lt (by omega)]
      rfl
  obtain ⟨pages, hwalk, htiles, hlength, hhead⟩ := hpages
  refine ⟨pages, hwalk, htiles, ?_, ?_⟩
  · have := ceil_le list.length hpos
    omega
  · intro hallowed
    obtain ⟨first, hfirst, hrequested⟩ := Option.map_eq_some_iff.mp hhead
    have htotal : first.totalPages = (list.length + size - 1) / size := by
      rw [Page.totalPages, hrequested, htiles.total first (List.mem_of_head? hfirst)]
      exact if_neg (Nat.ne_of_gt hsize)
    refine ⟨first, hfirst, ?_⟩
    rw [hlength, htotal, width_of_allowed hallowed]

/-- Pages of three people each, the oldest people first. -/
def peoplePages : Query where
  criteria := .not (.isNull "id")
  page := some ((PageState.first 3).withSort [⟨"age", .descending⟩])

/-- All of them, the oldest first; last those of no age. -/
def peopleByAge : List Document :=
  [[("id", .text "f"), ("age", .int32 41)], [("id", .text "a"), ("age", .int32 30)],
    [("id", .text "e"), ("age", .int64 30)], [("id", .text "c"), ("age", .int64 17)],
    [("id", .text "d"), ("age", .null)], [("id", .text "b")]]

/-- A store that answers with two at a time delivers them in pages of two. -/
theorem walk_tiles_people : ∃ pages,
    Walk (ofStore { stamper := ⟨Text.ofNat, fun _ => 0⟩, maxItems := some 2 } "db" false)
      (.records { name := "Record" }) "people" peoplePages
      { backend := Store.put {} "people" people } pages
    ∧ Tiles 6 peopleByAge pages := by
  have hcap : ∀ n, some 2 = some n → 1 ≤ n := by
    intro n hn
    cases hn
    decide
  have hsize : people.records.length ≤ maxLength := by decide
  have hf : found (Store.put {} "people" people) "people" peoplePages.criteria true
      = .ok people.records := rfl
  have hfind : ∃ session',
      ((ofStore { stamper := ⟨Text.ofNat, fun _ => 0⟩, maxItems := some 2 } "db" false).find
        (.records { name := "Record" }) "people" peoplePages).run
          { backend := Store.put {} "people" people } = (.ok peopleByAge, session')
      ∧ session'.backend = Store.put {} "people" people :=
    find_settles rfl rfl rfl hcap hsize hf _ rfl
  obtain ⟨session', hrun, -⟩ := hfind
  obtain ⟨pages, hwalk, htiles, -, -⟩ :=
    walk_tiles hcap (by decide) rfl fitsMemory_people hrun rfl
  exact ⟨pages, hwalk, htiles⟩

end DocQuery.Client
