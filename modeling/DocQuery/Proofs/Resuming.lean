/-
  Going on where an answer ended.

  A store keeps nothing between its answers.  A continuation tells how many records came before,
  and the matches are found anew.  So the calls may ask for numbers of records of their own, and
  still no record is lost between two of them, and none comes twice.  But a continuation is also a
  text that anyone can write: whatever it says, it is refused, or the slice lies within the matches.

  Each call sorts all matches anew and takes its slice from the place named, so two answers fit
  together because both slices are of one list; the sort must come to the same list each time, and
  that is all that is asked of it.  Places and limits are numbers of 64 bits, whose sum may not be
  one: then it counts as the largest, and a list in memory is shorter than that.

  1. `NamesPlace`, `placeOf?_eq_some_iff`: the texts that name a place, and which;
  2. `slice_eq`: where a slice begins and ends, also if the sum of place and limit has no numeral;
  3. `matched_of_query`: what an answer tells about the matches;
  4. `Stretches`: answers that go on from one another; one answer, then any number by induction;
  5. `resume_exact`: the answers together, for any sizes, and the answer to any continuation.
-/
import DocQuery.Proofs.Paging

namespace DocQuery.Store

open Client (width width_pos length_sorted)
open Dialect (Select)

/-! ## Texts that name a place -/

/-- A text names a place: behind its beginning and an optional sign it has nothing but digits, at
least one, and their number has 64 bits. -/
def NamesPlace (token : String) (place : Nat) : Prop :=
  ∃ sign ds : List Char, token.toList = tokenStart.toList ++ (sign ++ ds)
    ∧ (sign = [] ∨ sign = ['+']) ∧ ds ≠ [] ∧ (∀ c ∈ ds, Text.isDigit c = true)
    ∧ place = Text.digitsValue ds ∧ place < UInt64.size

/-- **What a store takes for a place.** -/
theorem placeOf?_eq_some_iff {token : String} {place : Nat} :
    placeOf? token = some place ↔ NamesPlace token place := by
  have hlimit : place ≤ maxPlace ↔ place < UInt64.size := Nat.le_sub_one_iff_lt (by decide)
  have hstart : ∀ rest, (tokenStart.toList ++ rest).drop tokenStart.length = rest := by
    intro rest
    rw [← String.length_toList, List.drop_left]
  rw [placeOf?]
  constructor
  · intro h
    split at h
    · rename_i hprefix
      obtain ⟨rest, hrest⟩ := List.isPrefixOf_iff_prefix.mp hprefix
      rw [← hrest, hstart] at h
      obtain ⟨sign, ds, rfl, hsign, hds, hle⟩ := Text.readNat_eq_some_iff.mp h
      obtain ⟨hne, hdigits, hvalue⟩ := Text.readDigits_eq_some_iff.mp hds
      exact ⟨sign, ds, hrest.symm, hsign, hne, hdigits, hvalue, hlimit.mp hle⟩
    · cases h
  · rintro ⟨sign, ds, htoken, hsign, hne, hdigits, hvalue, hlt⟩
    have hprefix : Text.startsWith token tokenStart = true :=
      List.isPrefixOf_iff_prefix.mpr ⟨_, htoken.symm⟩
    rw [if_pos hprefix, htoken, hstart]
    have hds := Text.readDigits_eq_some_iff.mpr ⟨hne, hdigits, hvalue⟩
    exact Text.readNat_eq_some_iff.mpr ⟨sign, ds, rfl, hsign, hds, hlimit.mpr hlt⟩

/-! ## Slices -/

/-- Where a slice of some matches ends.  A sum that no continuation could name counts as the
largest that one can. -/
def stopOf (length place : Nat) : Option Nat → Nat
  | none => length
  | some n => min (min (place + n) maxPlace) length

/-- A slice stops within the list. -/
theorem stopOf_le (length place : Nat) (limit : Option Nat) :
    stopOf length place limit ≤ length := by
  cases limit with
  | none => exact Nat.le_refl length
  | some n => exact Nat.min_le_right _ _

/-- Behind the matches there is nothing left. -/
theorem stopOf_of_le {length place : Nat} (h : length ≤ place) (hsize : length ≤ maxPlace)
    (limit : Option Nat) : stopOf length place limit = length := by
  cases limit with
  | none => rfl
  | some n =>
    rw [stopOf]
    omega

/-- **A slice lies within the matches**, whatever place and limit it is asked for. -/
theorem slice_eq {α : Type} {xs : List α} (h : xs.length ≤ maxPlace) (place : Nat)
    (limit : Option Nat) : slice xs place limit
      = ⟨(xs.take (stopOf xs.length place limit)).drop
          (min place (stopOf xs.length place limit)),
        if stopOf xs.length place limit < xs.length then some (stopOf xs.length place limit)
          else none⟩ := by
  cases limit with
  | none => rfl
  | some n =>
    have hstop : min (place + n) xs.length = stopOf xs.length place (some n) := by
      rw [stopOf]
      omega
    rw [slice, hstop]

/-! ## Answers -/

variable {settings : Settings} {name : String} {statement : Statement} {options : QueryOptions}
variable {s : Store} {q : Select} {ds : List Document}

/-- Matching keeps records in place: those that match are found in the collection in the same order,
none of them twice. -/
theorem matching_sublist {parameter? : String → Option Value} {ds matched : List Document}
    (h : q.matching parameter? ds = .ok matched) : matched.Sublist ds := by
  induction ds generalizing matched with
  | nil =>
    cases h
    exact .refl []
  | cons d ds ih =>
    obtain ⟨accepted, -, h⟩ := ok_of_bind h
    obtain ⟨rest, hrest, h⟩ := ok_of_bind h
    cases h
    cases accepted with
    | true => exact (ih hrest).cons_cons d
    | false => exact (ih hrest).cons d

/-- There are no more matches than records, so in a store that fits in memory their places fit in
the number that a token holds. -/
theorem length_le_of_matched {cross : Bool} (hmemory : s.FitsMemory)
    (h : matched s name q statement cross = .ok ds) : ds.length ≤ maxLength := by
  rw [matched] at h
  split at h
  · cases h
  · rename_i c hc
    obtain ⟨ds', hmatching, h⟩ := ok_of_bind h
    have hsize := hmemory _ (Fields.mem_of_get? hc)
    rw [matching] at hmatching
    split at hmatching
    · rename_i hds
      cases hmatching
      have hle := (matching_sublist hds).length_le
      split at h
      · cases h
      · cases h
        exact Nat.le_trans hle hsize
    · cases hmatching

/-- A query that was answered has its matches. -/
theorem matched_of_query {a : QueryAnswer} (hq : Select.ofText statement.text = .ok q)
    (h : query settings name statement options s = .ok a) :
    ∃ ds, matched s name q statement options.crossPartition = .ok ds := by
  cases hm : matched s name q statement options.crossPartition with
  | ok ds => exact ⟨ds, rfl⟩
  | error f =>
    rw [query_of_fault settings hq hm] at h
    cases h

/-- **One answer**: the slice at the place that its continuation names. -/
theorem query_at (hq : Select.ofText statement.text = .ok q) (hall : q.projection = .all)
    (hm : matched s name q statement options.crossPartition = .ok ds) {place : Nat}
    (hp : placeOf options.continuation = .ok place) :
    ∃ a, query settings name statement options s = .ok a
      ∧ a.records = (slice (sorted q ds) place (limit settings options)).content
      ∧ a.continuation = (slice (sorted q ds) place (limit settings options)).next.map tokenOf :=
  query_of_matched settings hq hm (deliver_all settings hall hp)

/-- A continuation that names no place is refused. -/
theorem query_badContinuation (hq : Select.ofText statement.text = .ok q)
    (hall : q.projection = .all)
    (hm : matched s name q statement options.crossPartition = .ok ds) {token : String}
    (htoken : options.continuation = some token) (hplace : placeOf? token = none) :
    query settings name statement options s = .error (.badContinuation token) := by
  have hp : placeOf options.continuation = .error (.badContinuation token) := by
    rw [htoken, placeOf, hplace]
  refine query_of_undelivered settings hq hm ?_
  simp only [deliver, hall, hp, bind, Except.bind]

/-! ## Answers that go on from one another -/

/-- The answers to some calls of a query, each for so many records at most.  A call goes on where
the answer before it ended, and an answer without continuation is the last. -/
def resume (settings : Settings) (name : String) (statement : Statement) (s : Store) :
    QueryOptions → List Nat → Except Fault (List QueryAnswer)
  | _, [] => .ok []
  | options, n :: ns => do
    let a ← query settings name statement { options with maxItems := some n } s
    match a.continuation with
    | none => .ok [a]
    | some token => do
      let as ← resume settings name statement s { options with continuation := some token } ns
      .ok (a :: as)

/-- Answers hold the stretches of a list from a place on, as wide as they may be. -/
inductive Stretches (settings : Settings) (xs : List Document) :
    Nat → List Nat → List QueryAnswer → Prop
  | none (place : Nat) : Stretches settings xs place [] []
  | last {place n : Nat} {a : QueryAnswer} (ns : List Nat)
    (hend : xs.length ≤ place + width settings n) (hrecords : a.records = xs.drop place)
    (hnext : a.continuation = .none) : Stretches settings xs place (n :: ns) [a]
  | more {place n : Nat} {ns : List Nat} {a : QueryAnswer} {as : List QueryAnswer}
    (hmore : place + width settings n < xs.length)
    (hrecords : a.records = (xs.drop place).take (width settings n))
    (hnext : a.continuation = some (tokenOf (place + width settings n)))
    (hrest : Stretches settings xs (place + width settings n) ns as) :
    Stretches settings xs place (n :: ns) (a :: as)

/-- **Answers that go on from one another hold the stretches of the sorted matches.**  Induction on
the calls: the place behind a stretch is where the next one begins. -/
theorem resume_stretches (hmemory : s.FitsMemory)
    (hq : Select.ofText statement.text = .ok q) (hall : q.projection = .all) :
    ∀ (ns : List Nat) (place : Nat) (options : QueryOptions),
      matched s name q statement options.crossPartition = .ok ds →
      placeOf options.continuation = .ok place →
      ∃ as, resume settings name statement s options ns = .ok as
        ∧ Stretches settings (sorted q ds) place ns as := by
  intro ns
  induction ns with
  | nil => exact fun place options _ _ => ⟨[], rfl, .none place⟩
  | cons n ns ih =>
    intro place options hm hp
    obtain ⟨a, ha, hrecords, hnext⟩ := @query_at settings name statement
      { options with maxItems := some n } s q ds hq hall hm place hp
    have hlimit : limit settings { options with maxItems := some n }
        = some (width settings n) := by
      rw [limit, width]
      cases settings.maxItems <;> rfl
    rw [hlimit, slice_some] at hrecords hnext
    by_cases hmore : place + width settings n < (sorted q ds).length
    · rw [if_pos hmore] at hnext
      have hsize : (sorted q ds).length ≤ maxLength := by
        rw [length_sorted]
        exact length_le_of_matched hmemory hm
      have hplace : placeOf (some (tokenOf (place + width settings n)))
          = .ok (place + width settings n) :=
        placeOf_tokenOf_of_lt hmore hsize
      obtain ⟨as, has, hstretches⟩ := ih (place + width settings n)
        { options with continuation := some (tokenOf (place + width settings n)) } hm hplace
      refine ⟨a :: as, ?_, .more hmore hrecords hnext hstretches⟩
      simp only [resume, ha, hnext, has, bind, Except.bind, Option.map_some]
    · rw [if_neg hmore] at hnext
      have hend : (sorted q ds).length ≤ place + width settings n := Nat.not_lt.mp hmore
      -- the limit cuts nothing off
      have hlast : ((sorted q ds).drop place).take (width settings n)
          = (sorted q ds).drop place :=
        List.take_of_length_le (by rw [List.length_drop]; omega)
      rw [hlast] at hrecords
      refine ⟨[a], ?_, .last ns hend hrecords hnext⟩
      simp only [resume, ha, hnext, bind, Except.bind, Option.map_none]

/-- The records of some answers, one answer behind the other. -/
def delivered (as : List QueryAnswer) : List Document :=
  as.flatMap QueryAnswer.records

theorem delivered_cons (a : QueryAnswer) (as : List QueryAnswer) :
    delivered (a :: as) = a.records ++ delivered as :=
  List.flatMap_cons

/-- A stretch, and what is behind it. -/
theorem drop_eq_stretch_append (xs : List Document) (place n : Nat) :
    xs.drop place = (xs.drop place).take n ++ xs.drop (place + n) := by
  rw [← List.drop_drop, List.take_append_drop]

namespace Stretches

variable {xs : List Document} {place : Nat} {ns : List Nat} {as : List QueryAnswer}

/-- What was delivered is the beginning of what there is. -/
theorem delivered_prefix (h : Stretches settings xs place ns as) :
    delivered as <+: xs.drop place := by
  induction h with
  | none => exact List.nil_prefix
  | last ns _ hrecords _ =>
    rw [delivered_cons, hrecords]
    exact ⟨[], by rw [delivered, List.flatMap_nil, List.append_nil, List.append_nil]⟩
  | @more place n _ _ _ _ hrecords _ _ ih =>
    obtain ⟨rest, hrest⟩ := ih
    refine ⟨rest, ?_⟩
    rw [delivered_cons, hrecords, List.append_assoc, hrest,
      ← drop_eq_stretch_append xs place (width settings n)]

/-- Once an answer was the last, it is all there is. -/
theorem delivered_of_last (h : Stretches settings xs place ns as)
    (hlast : ∃ a ∈ as, a.continuation = .none) : delivered as = xs.drop place := by
  induction h with
  | none =>
    obtain ⟨a, ha, -⟩ := hlast
    cases ha
  | last ns _ hrecords _ => rw [delivered_cons, hrecords, delivered, List.flatMap_nil,
      List.append_nil]
  | @more place n _ _ _ _ hrecords hnext _ ih =>
    obtain ⟨b, hb, hnone⟩ := hlast
    rcases List.mem_cons.mp hb with rfl | hb
    · rw [hnext] at hnone
      cases hnone
    · rw [delivered_cons, hrecords, ih ⟨b, hb, hnone⟩,
        ← drop_eq_stretch_append xs place (width settings n)]

/-- Calls as many as there are records deliver all of them: each call that is not at the end
delivers one at least. -/
theorem delivered_of_length (h : Stretches settings xs place ns as)
    (hcap : ∀ n, settings.maxItems = some n → 1 ≤ n) (hns : ∀ n ∈ ns, 1 ≤ n)
    (hlength : xs.length ≤ place + ns.length) : delivered as = xs.drop place := by
  induction h with
  | none place => exact (List.drop_eq_nil_of_le hlength).symm
  | last ns hend hrecords hnext =>
    exact delivered_of_last (.last ns hend hrecords hnext) ⟨_, List.mem_singleton_self _, hnext⟩
  | @more place n ns _ _ _ hrecords _ _ ih =>
    -- every call delivers something
    have hpos := width_pos hcap (hns n List.mem_cons_self)
    rw [List.length_cons] at hlength
    rw [delivered_cons, hrecords, ih (fun m hm => hns m (List.mem_cons_of_mem n hm)) (by omega),
      ← drop_eq_stretch_append xs place (width settings n)]

/-- Each answer holds as much as it may, and has a continuation while there is more. -/
theorem answer (h : Stretches settings xs place ns as) : ∀ (i : Nat) (a : QueryAnswer),
    as[i]? = some a → ∃ n, ns[i]? = some n
      ∧ a.records.length
        = min (width settings n) (xs.length - (place + (delivered (as.take i)).length))
      ∧ (a.continuation.isSome = true
        ↔ place + (delivered (as.take (i + 1))).length < xs.length) := by
  induction h with
  | none => exact nofun
  | @last place n b ns hend hrecords hnext =>
    intro i a ha
    cases i with
    | succ i => cases ha
    | zero =>
      obtain rfl := Option.some.inj ha
      have hlength : b.records.length = xs.length - place := by
        rw [hrecords, List.length_drop]
      have htaken : delivered ([b].take (0 + 1)) = b.records := List.append_nil b.records
      have hnothing : delivered ([b].take 0) = [] := rfl
      refine ⟨n, rfl, ?_, iff_of_false (by rw [hnext]; nofun) ?_⟩
      · rw [hnothing, List.length_nil, hlength]
        omega
      · rw [htaken, hlength]
        omega
  | @more place n ns b bs hmore hrecords hnext _ ih =>
    have hlength : b.records.length = width settings n := by
      rw [hrecords, List.length_take, List.length_drop]
      omega
    intro i a ha
    cases i with
    | zero =>
      obtain rfl := Option.some.inj ha
      have htaken : delivered ((b :: bs).take (0 + 1)) = b.records := List.append_nil b.records
      have hnothing : delivered ((b :: bs).take 0) = [] := rfl
      refine ⟨n, rfl, ?_, iff_of_true (by rw [hnext]; rfl) ?_⟩
      · rw [hnothing, List.length_nil, hlength]
        omega
      · rw [htaken, hlength]
        exact hmore
    | succ i =>
      obtain ⟨m, hm, hrecords', hnext'⟩ := ih i a ha
      -- places count from behind the first answer, which delivered as much as its width
      have hbefore : ∀ j, (delivered ((b :: bs).take (j + 1))).length
          = width settings n + (delivered (bs.take j)).length := by
        intro j
        rw [List.take_succ_cons, delivered_cons, List.length_append, hlength]
      rw [Nat.add_assoc] at hrecords' hnext'
      refine ⟨m, hm, ?_, ?_⟩
      · rw [hbefore]
        exact hrecords'
      · rw [hbefore]
        exact hnext'

end Stretches

/-! ## All continuations -/

/-- **Continuations go on exactly, for any sizes.**  Take a query for records that is answered once.
Then it can be answered whole, in one answer without limit.  Any calls that go on from one another
deliver the beginning of that, each as much as it may, with a continuation exactly while there is
more; an answer without continuation, or as many calls as there are records, complete it.  A
continuation that names no place is refused, and any place gives a slice within the matches. -/
theorem resume_exact {answered : QueryAnswer} (hmemory : s.FitsMemory)
    (hq : Select.ofText statement.text = .ok q) (hall : q.projection = .all)
    (hanswered : query settings name statement options s = .ok answered) :
    ∃ whole : QueryAnswer,
      query { settings with maxItems := none } name statement
          { options with maxItems := none, continuation := none } s = .ok whole
      ∧ whole.continuation = none
      ∧ ((∀ n, settings.maxItems = some n → 1 ≤ n) → ∀ ns : List Nat, (∀ n ∈ ns, 1 ≤ n) →
        ∃ as, resume settings name statement s { options with continuation := none } ns = .ok as
          ∧ (∀ i a, as[i]? = some a → ∃ n, ns[i]? = some n
            ∧ a.records.length = min (width settings n)
              (whole.records.length - (delivered (as.take i)).length)
            ∧ (a.continuation.isSome = true
              ↔ (delivered (as.take (i + 1))).length < whole.records.length))
          ∧ delivered as <+: whole.records
          ∧ ((∃ a ∈ as, a.continuation = none) ∨ whole.records.length ≤ ns.length →
            delivered as = whole.records))
      ∧ (∀ token, (¬ ∃ place, NamesPlace token place) → ∀ cap limit, ∃ f,
        query { settings with maxItems := cap } name statement
            { options with maxItems := limit, continuation := some token } s = .error f
          ∧ f.error.status = 400)
      ∧ ∀ token place, NamesPlace token place → ∀ cap limit, ∃ a start stop,
        query { settings with maxItems := cap } name statement
            { options with maxItems := limit, continuation := some token } s = .ok a
          ∧ stop = stopOf whole.records.length place (smallerLimit limit cap)
          ∧ start = min place stop ∧ start ≤ stop ∧ stop ≤ whole.records.length
          ∧ a.records = (whole.records.take stop).drop start
          ∧ a.continuation = (if stop < whole.records.length then some (tokenOf stop) else none)
          ∧ (whole.records.length ≤ place → a.records = [] ∧ a.continuation = none) := by
  obtain ⟨ds, hm⟩ := matched_of_query hq hanswered
  have hsize : (sorted q ds).length ≤ maxPlace := by
    rw [length_sorted]
    exact Nat.le_trans (length_le_of_matched hmemory hm) maxLength_le
  -- without limits, one answer holds all the sorted matches
  obtain ⟨whole, hwhole, hrecords, hnext⟩ :=
    @query_at { settings with maxItems := none } name statement
      { options with maxItems := none, continuation := none } s q ds hq hall hm 0 rfl
  have hlimit : limit { settings with maxItems := none }
      { options with maxItems := none, continuation := none } = none := rfl
  rw [hlimit, slice_none] at hrecords hnext
  replace hrecords : whole.records = sorted q ds := hrecords
  refine ⟨whole, hwhole, hnext, ?_, ?_, ?_⟩
  · intro hcap ns hns
    obtain ⟨as, has, hstretches⟩ := resume_stretches hmemory hq hall ns 0
      { options with continuation := none } hm rfl
    rw [hrecords]
    refine ⟨as, has, ?_, hstretches.delivered_prefix, ?_⟩
    · simpa only [Nat.zero_add] using hstretches.answer
    · rintro (hlast | hlength)
      · exact hstretches.delivered_of_last hlast
      · exact hstretches.delivered_of_length hcap hns (by omega)
  · intro token hnames cap limit
    have hplace : placeOf? token = none := by
      cases h : placeOf? token with
      | none => rfl
      | some place => exact absurd ⟨place, placeOf?_eq_some_iff.mp h⟩ hnames
    have hrefused := @query_badContinuation { settings with maxItems := cap } name statement
      { options with maxItems := limit, continuation := some token } s q ds hq hall hm token rfl
      hplace
    exact ⟨.badContinuation token, hrefused, rfl⟩
  · intro token place hnames cap limit
    have hp : placeOf (some token) = .ok place := by
      rw [placeOf, placeOf?_eq_some_iff.mpr hnames]
    obtain ⟨a, ha, hslice, hmore⟩ := @query_at { settings with maxItems := cap } name statement
      { options with maxItems := limit, continuation := some token } s q ds hq hall hm place hp
    rw [slice_eq hsize] at hslice hmore
    rw [hrecords]
    refine ⟨a, _, _, ha, rfl, rfl, Nat.min_le_right _ _, stopOf_le _ _ _, hslice,
      hmore.trans (apply_ite _ _ _ _), fun hle => ?_⟩
    simp only [stopOf_of_le hle hsize, Nat.min_eq_right hle, List.take_length, List.drop_length,
      Nat.lt_irrefl, if_false, Option.map_none] at hslice hmore
    exact ⟨hslice, hmore⟩

/-- A store that answers with two records at a time. -/
def twoByTwo : Settings where
  stamper := ⟨Text.ofNat, fun _ => 0⟩
  maxItems := some 2

/-- Six people come in calls for one, five, two and seven records.  A sign and zeros in front make
no difference to a place, and no place lies before the first. -/
theorem resume_exact_people : ∃ statement,
    Statement.ofQuery .find { criteria := .all } = .ok statement
    ∧ (∃ as, resume twoByTwo "people" statement (Store.put {} "people" Client.people) {}
          [1, 5, 2, 7, 1, 1] = .ok as
        ∧ delivered as = Client.people.records)
    ∧ (∃ f, query twoByTwo "people" statement { continuation := some "mem:-1" }
          (Store.put {} "people" Client.people) = .error f ∧ f.error.status = 400)
    ∧ ∃ a, query twoByTwo "people" statement
          { maxItems := some maxPlace, continuation := some "mem:+005" }
          (Store.put {} "people" Client.people) = .ok a
        ∧ a.records = [[("id", .text "f"), ("age", .int32 41)]] := by
  obtain ⟨statement, hst⟩ : ∃ st, Statement.ofQuery .find { criteria := .all } = .ok st := ⟨_, rfl⟩
  have hm : matched (Store.put {} "people" Client.people) "people"
      (Query.select { criteria := .all } .find) statement false = .ok Client.people.records :=
    matched_written hst false
  have hq := Dialect.ofText_written hst
  obtain ⟨answered, hanswered, -⟩ := @query_at twoByTwo "people" statement {} _ _ _ hq rfl hm 0 rfl
  obtain ⟨whole, hwhole, -, hresume, hrefused, hplaces⟩ :=
    resume_exact Client.fitsMemory_people hq rfl hanswered
  -- the answer without limit holds everyone
  have heveryone : whole.records = Client.people.records := by
    obtain ⟨a, ha, hrecords, -⟩ := @query_at { twoByTwo with maxItems := none } "people" statement
      {} _ _ _ hq rfl hm 0 rfl
    obtain rfl : whole = a := Except.ok.inj (hwhole.symm.trans ha)
    exact hrecords
  obtain ⟨as, has, -, -, hcomplete⟩ := hresume (by rintro n ⟨⟩; decide) [1, 5, 2, 7, 1, 1]
    (by decide)
  have hnowhere : ¬ ∃ place, NamesPlace "mem:-1" place := by
    rintro ⟨place, hplace⟩
    have hread := placeOf?_eq_some_iff.mpr hplace
    cases hread
  obtain ⟨a, start, stop, ha, hstop, hstart, -, -, hrecords, -, -⟩ :=
    hplaces "mem:+005" 5 (placeOf?_eq_some_iff.mp rfl) (some 2) (some maxPlace)
  refine ⟨statement, hst, ⟨as, has, ?_⟩, hrefused _ hnowhere (some 2) none, a, ha, ?_⟩
  · rw [hcomplete (.inr (by rw [heveryone]; decide)), heveryone]
  · rw [hrecords, hstart, hstop, heveryone]
    rfl

end DocQuery.Store
