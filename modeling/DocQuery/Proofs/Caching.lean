/-
  The cache of metadata over a whole run.

  A run fetches and clears, in any order.  What comes back is what the declarations say, as if there
  were no cache; what is kept, and how often something was derived, are read off the run itself.

  A miss is a matter of the whole past: a declaration is fetched that was not fetched since the
  last clearing.  The cache knows its own contents only.  So the invariant ties the two together,
  the keys of the cache to the set of declarations fetched since, and it is kept by one more use
  at the end of the run; the induction is on the run from its end, since that is where `misses`
  and `fetched` have their recursion laws.

  1. `Use` and `used`: a run on a cache, and `answers`: what comes back;
  2. `fetched` and `misses`: the run without a cache, what was fetched since it was last cleared,
     and how many times that was something new;
  3. `get_snd_cases`: what fetching leaves behind;
  4. `Follows`: the cache is as the run says, after every step of it.
-/
import DocQuery.Metadata
import Mathlib.Data.Finset.Card
import Mathlib.Data.List.DropRight

namespace DocQuery

namespace MetadataCache

/-! ## Runs -/

/-- What is done with a cache. -/
inductive Use where
  | get (d : EntityDeclaration)
  | clear
deriving DecidableEq, Repr

namespace Use

/-- The cache after it was used. -/
def after (c : MetadataCache) : Use → MetadataCache
  | get d => (c.get d).2
  | clear => c.clear

/-- What comes back, if anything does. -/
def answer? (c : MetadataCache) : Use → Option (Except ArgumentFault Metadata)
  | get d => some (c.get d).1
  | clear => none

/-- What would come back without a cache. -/
def says? : Use → Option (Except ArgumentFault Metadata)
  | get d => some (Metadata.ofDeclaration d)
  | clear => none

/-- The declaration that is fetched; a declaration at fault is not. -/
def fetched? : Use → Option EntityDeclaration
  | get d => if (Metadata.ofDeclaration d).isOk then some d else none
  | clear => none

end Use

/-- The cache after a run. -/
def used (c : MetadataCache) (us : List Use) : MetadataCache :=
  us.foldl Use.after c

/-- What comes back in the course of a run. -/
def answers (c : MetadataCache) : List Use → List (Option (Except ArgumentFault Metadata))
  | [] => []
  | u :: us => u.answer? c :: (u.after c).answers us

/-! ## What a run says -/

/-- The end of a run since it cleared the cache for the last time. -/
def sinceClear (us : List Use) : List Use :=
  us.rtakeWhile (· ≠ .clear)

/-- The declarations fetched since. -/
def fetched (us : List Use) : Finset EntityDeclaration :=
  ((sinceClear us).filterMap Use.fetched?).toFinset

/-- Step `k` of a run fetches what had not been fetched since the cache was cleared. -/
def isMiss (us : List Use) (k : Nat) : Bool :=
  (us[k]?.bind Use.fetched?).any fun d => d ∉ fetched (us.take k)

/-- How many steps do. -/
def misses (us : List Use) : Nat :=
  (List.range us.length).countP (isMiss us)

variable {c : MetadataCache} {us : List Use} {d : EntityDeclaration} {u : Use}

/-- Fetching what can be derived counts as fetched. -/
theorem Use.fetched?_of_ok {m : Metadata} (h : Metadata.ofDeclaration d = .ok m) :
    (get d).fetched? = some d := by
  rw [fetched?, h]
  rfl

/-- Fetching what is at fault does not. -/
theorem Use.fetched?_of_error {f : ArgumentFault} (h : Metadata.ofDeclaration d = .error f) :
    (get d).fetched? = none := by
  rw [fetched?, h]
  rfl

/-- One use fetches one declaration at most, its own. -/
theorem Use.eq_of_fetched? {d' : EntityDeclaration} (h : (get d).fetched? = some d') : d = d' := by
  rw [fetched?] at h
  split at h
  · exact Option.some.inj h
  · cases h

/-- One more use that does not clear adds what it fetches, and takes nothing away. -/
theorem mem_fetched_concat (hu : u ≠ .clear) :
    d ∈ fetched (us ++ [u]) ↔ d ∈ fetched us ∨ u.fetched? = some d := by
  have hsince : sinceClear (us ++ [u]) = sinceClear us ++ [u] :=
    List.rtakeWhile_concat_pos _ us _ (decide_eq_true hu)
  have hlast : d ∈ [u].filterMap Use.fetched? ↔ u.fetched? = some d := by
    simp only [List.mem_filterMap, List.mem_singleton, exists_eq_left]
  rw [fetched, hsince, List.filterMap_append, List.toFinset_append, Finset.mem_union,
    List.mem_toFinset (l := [u].filterMap Use.fetched?), hlast]
  rfl

/-- Behind a clearing nothing was fetched since. -/
theorem fetched_concat_clear : fetched (us ++ [.clear]) = ∅ := by
  have hsince : sinceClear (us ++ [.clear]) = [] :=
    List.rtakeWhile_concat_neg _ us _ (by simp)
  rw [fetched, hsince]
  rfl

/-- A step is a miss whatever follows. -/
theorem isMiss_append {k : Nat} (hk : k < us.length) (vs : List Use) :
    isMiss (us ++ vs) k = isMiss us k := by
  rw [isMiss, isMiss, List.getElem?_append_left hk, List.take_append_of_le_length (Nat.le_of_lt hk)]

/-- One more use is a miss if it fetches something that was not fetched since the last clearing; the
misses before it stay as they were. -/
theorem misses_concat : misses (us ++ [u])
    = misses us + if (u.fetched?.any fun d => d ∉ fetched us) then 1 else 0 := by
  have hbefore : (List.range us.length).countP (isMiss (us ++ [u])) = misses us :=
    List.countP_congr fun k hk => by rw [isMiss_append (List.mem_range.mp hk)]
  have hlast : isMiss (us ++ [u]) us.length = u.fetched?.any fun d => d ∉ fetched us := by
    rw [isMiss, List.getElem?_concat_length, List.take_left]
    rfl
  rw [misses, List.length_append, List.length_singleton, List.range_succ, List.countP_append,
    hbefore, List.countP_singleton, hlast]

/-! ## One step -/

/-- The declarations of which something is kept. -/
def declarations (c : MetadataCache) : List EntityDeclaration :=
  c.entries.map Prod.fst

/-- What is newly kept comes behind the rest. -/
theorem declarations_keep {m : Metadata} {h : Metadata.ofDeclaration d = .ok m} :
    (c.keep d m h).declarations = c.declarations ++ [d] := by
  rw [declarations, keep, List.map_append]
  rfl

/-- Nothing is kept for a declaration exactly if it is not among those kept. -/
theorem kept?_eq_none_iff : c.kept? d = none ↔ d ∉ c.declarations := by
  rw [kept?, Option.map_eq_none_iff, List.find?_eq_none, declarations, List.mem_map]
  constructor
  · rintro h ⟨e, he, rfl⟩
    exact h e he (decide_eq_true rfl)
  · intro h e he heq
    exact h ⟨e, he, of_decide_eq_true heq⟩

/-- Nothing is kept of a declaration at fault. -/
theorem not_mem_of_error {f : ArgumentFault} (h : Metadata.ofDeclaration d = .error f) :
    d ∉ c.declarations := by
  rw [← kept?_eq_none_iff, Option.eq_none_iff_forall_ne_some]
  intro m hm
  rw [ofDeclaration_of_kept hm] at h
  cases h

/-- **What fetching leaves behind**: the cache as it was, if the declaration is at fault or kept,
and otherwise one derivation more that is kept. -/
theorem get_snd_cases (c : MetadataCache) (d : EntityDeclaration) :
    ((∃ f, Metadata.ofDeclaration d = .error f) ∧ (c.get d).2 = c)
    ∨ (∃ m, Metadata.ofDeclaration d = .ok m) ∧ d ∈ c.declarations ∧ (c.get d).2 = c
    ∨ ∃ m h, d ∉ c.declarations ∧ (c.get d).2 = c.keep d m h := by
  rw [get]
  split
  · rename_i m hkept
    have hmem : d ∈ c.declarations := by
      refine Decidable.of_not_not fun hnot => ?_
      rw [kept?_eq_none_iff.mpr hnot] at hkept
      cases hkept
    exact .inr (.inl ⟨⟨m, ofDeclaration_of_kept hkept⟩, hmem, rfl⟩)
  · rename_i hnone
    split
    · rename_i f hf
      exact .inl ⟨⟨f, hf⟩, rfl⟩
    · rename_i m hm
      exact .inr (.inr ⟨m, hm, kept?_eq_none_iff.mp hnone, rfl⟩)

/-- Nothing is forgotten of how often something was derived. -/
theorem derivations_le_after (c : MetadataCache) (u : Use) :
    c.derivations ≤ (u.after c).derivations := by
  cases u with
  | clear => exact Nat.le_refl _
  | get d =>
    obtain ⟨-, h⟩ | ⟨-, -, h⟩ | ⟨m, hm, -, h⟩ := get_snd_cases c d
    · exact Nat.le_of_eq (congrArg derivations h.symm)
    · exact Nat.le_of_eq (congrArg derivations h.symm)
    · rw [Use.after, h]
      exact Nat.le_succ _

/-- Whatever is kept, a use is answered by what the declaration says. -/
theorem answer?_eq (c : MetadataCache) (u : Use) : u.answer? c = u.says? := by
  cases u with
  | clear => rfl
  | get d => exact congrArg some (get_fst d c)

/-! ## The whole run -/

/-- The cache is as a run says: each declaration fetched since it was cleared is kept once, and
something was derived at every miss. -/
structure Follows (us : List Use) (c : MetadataCache) : Prop where
  once : c.declarations.Nodup
  kept : ∀ d, d ∈ c.declarations ↔ d ∈ fetched us
  derived : c.derivations = misses us

/-- Along a run the size of the cache is the number of declarations fetched since it was last
cleared. -/
theorem Follows.size_eq (h : Follows us c) : c.size = (fetched us).card := by
  have hset : c.declarations.toFinset = fetched us :=
    Finset.ext fun d => List.mem_toFinset.trans (h.kept d)
  rw [← hset, List.toFinset_card_of_nodup h.once, declarations, List.length_map]
  rfl

/-- Clearing: nothing is kept, nothing counts as fetched, and the misses stay. -/
theorem Follows.clear (h : Follows us c) : Follows (us ++ [.clear]) c.clear := by
  refine ⟨.nil, fun d => ?_, ?_⟩
  · rw [fetched_concat_clear]
    exact iff_of_false List.not_mem_nil (Finset.notMem_empty d)
  · rw [misses_concat]
    exact h.derived

/-- Nothing new is fetched, and the cache stays as it is. -/
theorem Follows.idle (h : Follows us c) (hu : u ≠ .clear)
    (hold : ∀ d, u.fetched? = some d → d ∈ fetched us) : Follows (us ++ [u]) c := by
  refine ⟨h.once, fun d => ?_, ?_⟩
  · rw [mem_fetched_concat hu, h.kept d]
    exact (or_iff_left_of_imp (hold d)).symm
  · have hnone : (u.fetched?.any fun d => d ∉ fetched us) = false := by
      rw [Option.any_eq_false]
      exact fun d hd => decide_eq_false (not_not_intro (hold d hd))
    rw [misses_concat, hnone]
    exact h.derived

/-- Fetching: what is at fault and what is kept already leave the cache alone; anything else is kept
and is a miss. -/
theorem Follows.get (h : Follows us c) (d : EntityDeclaration) :
    Follows (us ++ [.get d]) (c.get d).2 := by
  obtain ⟨⟨f, hf⟩, hc⟩ | ⟨-, hmem, hc⟩ | ⟨m, hm, hnot, hc⟩ := get_snd_cases c d
  -- what is at fault was not fetched, and what is kept had been fetched before
  · rw [hc]
    refine h.idle nofun fun d' hd' => ?_
    rw [Use.fetched?_of_error hf] at hd'
    cases hd'
  · rw [hc]
    refine h.idle nofun fun d' hd' => ?_
    obtain rfl := Use.eq_of_fetched? hd'
    exact (h.kept d).mp hmem
  · have hfetched := Use.fetched?_of_ok hm
    rw [hc]
    refine ⟨?_, fun d' => ?_, ?_⟩
    · rw [declarations_keep]
      exact List.nodup_append_comm.mp (List.nodup_cons.mpr ⟨hnot, h.once⟩)
    · rw [declarations_keep, mem_fetched_concat Use.noConfusion, hfetched, List.mem_append,
        h.kept d', List.mem_singleton, Option.some.injEq, eq_comm]
    · have hnew : ((Use.get d).fetched?.any fun d => d ∉ fetched us) = true := by
        rw [hfetched, Option.any_some]
        exact decide_eq_true fun hin => hnot ((h.kept d).mpr hin)
      rw [misses_concat, hnew, ← h.derived]
      rfl

/-- One step of a run. -/
theorem Follows.after (h : Follows us c) (u : Use) : Follows (us ++ [u]) (u.after c) := by
  cases u with
  | get d => exact h.get d
  | clear => exact h.clear

/-- Nothing is kept, and nothing was done. -/
theorem follows_empty : Follows [] empty :=
  ⟨.nil, fun d => iff_of_false List.not_mem_nil (Finset.notMem_empty d), rfl⟩

/-- A run goes on where its first part ends. -/
theorem used_append (c : MetadataCache) (us vs : List Use) :
    c.used (us ++ vs) = (c.used us).used vs :=
  List.foldl_append

/-- **A cache that was empty is as the run on it says.** -/
theorem follows_used (us : List Use) : Follows us (empty.used us) := by
  induction us using List.reverseRecOn with
  | nil => exact follows_empty
  | append_singleton us u ih =>
    rw [used_append]
    exact ih.after u

/-- The answers of a run are what the declarations say, one for each use. -/
theorem answers_eq (c : MetadataCache) (us : List Use) : c.answers us = us.map Use.says? := by
  induction us generalizing c with
  | nil => rfl
  | cons u us ih => rw [answers, List.map_cons, answer?_eq, ih]

/-- Along a run the number of derivations never falls. -/
theorem derivations_le_used (c : MetadataCache) (us : List Use) :
    c.derivations ≤ (c.used us).derivations := by
  induction us generalizing c with
  | nil => exact Nat.le_refl _
  | cons u us ih => exact Nat.le_trans (derivations_le_after c u) (ih _)

/-- **The cache is transparent.**  In every run what comes back is what the declarations say.  After
it, as many declarations are kept as were fetched since the cache was last cleared, and something
was derived whenever one was fetched that had not been fetched since then.  The number of
derivations never falls; it is the count itself, so this is about runs with fewer than `2 ^ 64`
misses where the counter has sixty-four bits.  Of a declaration at fault nothing is kept or
counted. -/
theorem used_transparent (us : List Use) :
    empty.answers us = us.map Use.says?
    ∧ (empty.used us).size = (fetched us).card
    ∧ (empty.used us).derivations = misses us
    ∧ (∀ more, (empty.used us).derivations ≤ (empty.used (us ++ more)).derivations)
    ∧ ∀ d f, Metadata.ofDeclaration d = .error f → (empty.used us).kept? d = none
      ∧ (empty.used us).get d = (.error f, empty.used us) := by
  have hfollows := follows_used us
  refine ⟨answers_eq empty us, hfollows.size_eq, hfollows.derived, fun more => ?_,
    fun d f hf => ⟨kept?_eq_none_iff.mpr (not_mem_of_error hf), ?_⟩⟩
  · rw [used_append]
    exact derivations_le_used _ more
  · obtain ⟨-, hc⟩ | ⟨⟨m, hm⟩, -⟩ | ⟨m, hm, -⟩ := get_snd_cases (empty.used us) d
    · exact Prod.ext ((get_fst d _).trans hf) hc
    · rw [hm] at hf
      cases hf
    · rw [hm] at hf
      cases hf

/-- Orders by customer, and products. -/
def orders : EntityDeclaration :=
  { name := "Order", partitionFields := ["customer"] }

def products : EntityDeclaration :=
  { name := "Product" }

/-- Invoices with one partition field too many. -/
def invoices : EntityDeclaration :=
  { name := "Invoice", partitionFields := ["customer", "year"] }

/-- Orders are fetched anew once the cache was cleared, invoices never. -/
theorem used_transparent_orders :
    let us : List Use :=
      [.get orders, .get invoices, .get orders, .clear, .get orders, .get products]
    (empty.used us).size = 2 ∧ (empty.used us).derivations = 3
      ∧ (empty.used us).get invoices = (.error (.manyPartitionFields 2), empty.used us) := by
  intro us
  have hrun := used_transparent us
  have hinvoices : Metadata.ofDeclaration invoices = .error (.manyPartitionFields 2) := by decide
  have hfetched : (fetched us).card = 2 := by decide
  have hmisses : misses us = 3 := by decide
  exact ⟨hrun.2.1.trans hfetched, hrun.2.2.1.trans hmisses, (hrun.2.2.2.2 invoices _ hinvoices).2⟩

end MetadataCache

end DocQuery
