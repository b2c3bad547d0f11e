/-
  Sorted results.

  The order of values is no order as soon as wide numbers meet: an integer is compared exactly
  with integers, but rounded with the others.  Without doubles and decimals among the values it
  is total, and then the sort is the stable sort: every element has one place.

  A comparison that does not order what is sorted may make a library's sort give up.  So the
  condition has a name of its own, `Query.Orders`, and is asked for wherever something is said to
  be found under a sort at all.  It is about the comparison and the matches, not about types of
  values: doubles among narrow integers are in order too, only that none of them are there is the
  simplest way to see it.

  1. `OrderedOn`: a comparison that is a total preorder where it is used;
  2. values, missing values, keys: each step keeps that;
  3. `Before` and `Tied`: what documents are to each other under some keys;
  4. `stablySorted_sortBy`: insertion in reverse sorts, and leaves ties as they came;
  5. `Query.Orders`: the sort of a query orders some documents, and `Query.orders_of_exact`: it
     does if no value to sort by is compared after rounding.
-/
import DocQuery.Proofs.Truth
import DocQuery.SortKey

namespace DocQuery

/-! ## Comparisons that order -/

/-- A comparison orders the elements with a property: it turns around with its sides, and is
transitive. -/
structure OrderedOn {α : Type} (P : α → Prop) (cmp : α → α → Ordering) : Prop where
  swap : ∀ {a b}, P a → P b → cmp b a = (cmp a b).swap
  trans : ∀ {a b c}, P a → P b → P c → (cmp a b).isLE → (cmp b c).isLE → (cmp a c).isLE

namespace OrderedOn

variable {α β : Type} {P : α → Prop} {cmp cmp' : α → α → Ordering}

/-- What is ordered by a part of it. -/
theorem comap {Q : β → Prop} {f : β → α} (h : OrderedOn P cmp) (hf : ∀ b, Q b → P (f b)) :
    OrderedOn Q fun a b => cmp (f a) (f b) where
  swap ha hb := h.swap (hf _ ha) (hf _ hb)
  trans ha hb hc := h.trans (hf _ ha) (hf _ hb) (hf _ hc)

/-- Fewer elements are ordered if more are. -/
theorem mono {Q : α → Prop} (h : OrderedOn P cmp) (hf : ∀ a, Q a → P a) : OrderedOn Q cmp :=
  h.comap (f := id) hf

/-- A comparison orders what another orders that it agrees with there. -/
theorem congr (h : OrderedOn P cmp) (heq : ∀ {a b}, P a → P b → cmp a b = cmp' a b) :
    OrderedOn P cmp' where
  swap ha hb := by rw [← heq ha hb, ← heq hb ha, h.swap ha hb]
  trans ha hb hc hab hbc := by
    rw [← heq ha hb] at hab
    rw [← heq hb hc] at hbc
    rw [← heq ha hc]
    exact h.trans ha hb hc hab hbc

/-- What does not come strictly after comes before or ties, seen from the other side. -/
theorem isLE_of_ne_lt (h : OrderedOn P cmp) {a b : α} (ha : P a) (hb : P b) (hne : cmp a b ≠ .lt) :
    (cmp b a).isLE := by
  rw [h.swap ha hb]
  cases hcmp : cmp a b with
  | lt => exact absurd hcmp hne
  | eq => rfl
  | gt => rfl

/-- The first comparison decides, and the second where the first ties. -/
theorem andThen (h : OrderedOn P cmp) (h' : OrderedOn P cmp') :
    OrderedOn P fun a b => (cmp a b).then (cmp' a b) where
  swap ha hb := by
    rw [h.swap ha hb, h'.swap ha hb, Ordering.swap_then]
  trans {a b c} ha hb hc hab hbc := by
    have hle : (cmp a b).isLE := by
      cases hcmp : cmp a b <;> simp_all
    have hle' : (cmp b c).isLE := by
      cases hcmp : cmp b c <;> simp_all
    have hac := h.trans ha hb hc hle hle'
    cases hcmp : cmp a c with
    | lt => rfl
    | gt => rw [hcmp] at hac; cases hac
    | eq =>
      -- a tie of the ends makes all three tie, and the second comparison decides throughout
      have hca : (cmp c a).isLE := by rw [h.swap ha hc, hcmp]; rfl
      have hba := h.trans hb hc ha hle' hca
      have hcb := h.trans hc ha hb hca hle
      have htie : cmp a b = .eq := by
        rw [h.swap ha hb] at hba
        cases hcmp' : cmp a b <;> simp_all
      have htie' : cmp b c = .eq := by
        rw [h.swap hb hc] at hcb
        cases hcmp' : cmp b c <;> simp_all
      rw [htie] at hab
      rw [htie'] at hbc
      exact h'.trans ha hb hc hab hbc

/-- A direction keeps an order or turns it around. -/
theorem directed (h : OrderedOn P cmp) (d : Direction) :
    OrderedOn P fun a b => d.apply (cmp a b) := by
  cases d with
  | ascending => exact h
  | descending =>
    refine ⟨fun ha hb => congrArg Ordering.swap (h.swap ha hb), ?_⟩
    intro a b c ha hb hc hab hbc
    have hba : (cmp b a).isLE := by rw [h.swap ha hb]; exact hab
    have hcb : (cmp c b).isLE := by rw [h.swap hb hc]; exact hbc
    have hca := h.trans hc hb ha hcb hba
    rw [h.swap ha hc] at hca
    exact hca

end OrderedOn

/-- A lawful comparison orders everything. -/
theorem orderedOn_of_transCmp {α : Type} (cmp : α → α → Ordering) [Std.TransCmp cmp] :
    OrderedOn (fun _ => True) cmp where
  swap _ _ := Std.OrientedCmp.eq_swap
  trans _ _ _ := Std.TransCmp.isLE_trans

/-! ## Values -/

namespace Value

/-- A number that is compared after rounding. -/
def isRounded : Value → Bool
  | double _ | decimal _ => true
  | _ => false

/-- Strings compare by the numbers of their characters, one after the other; a text that runs out
comes first. -/
theorem orderChars_eq (as bs : List Char) :
    orderChars as bs = List.compareLex (compareOn Char.toNat) as bs := by
  induction as generalizing bs with
  | nil => cases bs <;> rfl
  | cons a as ih =>
    cases bs with
    | nil => rfl
    | cons b bs =>
      rw [orderChars, ih, List.compareLex_cons_cons, compareOn]

/-- The number by which a value is ordered within its type. -/
def measure : Value → Int
  | bool b => b.toNat
  | int32 n => n.toInt
  | int64 n => n.toInt
  | _ => 0

/-- The characters by which a value is ordered within its type. -/
def letters : Value → List Char
  | text s => s.toList
  | _ => []

/-- The order of values, taken apart: type, number, characters. -/
def orderParts (a b : Value) : Ordering :=
  (compare a.rank b.rank).then
    ((compare a.measure b.measure).then (orderChars a.letters b.letters))

/-- Numbers of all widths share one rank. -/
theorem rank_of_isNumber {v : Value} (h : v.isNumber = true) : v.rank = 2 := by
  cases v <;> first | rfl | cases h

/-- What is neither truth value, number nor text has only its type to be ordered by. -/
theorem parts_of_rank {v : Value} (h1 : v.rank ≠ 1) (h2 : v.rank ≠ 2) (h3 : v.rank ≠ 3) :
    v.measure = 0 ∧ v.letters = [] := by
  cases v <;> first | exact ⟨rfl, rfl⟩ | exact absurd rfl h1 | exact absurd rfl h2 |
    exact absurd rfl h3

/-- A number that is not rounded is an integer, and its measure is that integer. -/
theorem exact_of_isNumber {v : Value} (h : v.isNumber = true) (hr : v.isRounded = false) :
    v.int? = some v.measure ∧ v.letters = [] := by
  cases v with
  | int32 n => exact ⟨rfl, rfl⟩
  | int64 n => exact ⟨rfl, rfl⟩
  | double x => cases hr
  | decimal x => cases hr
  | _ => cases h

theorem eq_bool_of_rank {v : Value} (h : v.rank = 1) : ∃ b, v = bool b := by
  cases v with
  | bool b => exact ⟨b, rfl⟩
  | _ => cases h

theorem eq_text_of_rank {v : Value} (h : v.rank = 3) : ∃ s, v = text s := by
  cases v with
  | text s => exact ⟨s, rfl⟩
  | _ => cases h

theorem isNumber_of_rank {v : Value} (h : v.rank = 2) : v.isNumber = true := by
  cases v with
  | int32 n => rfl
  | int64 n => rfl
  | double x => rfl
  | decimal x => rfl
  | _ => cases h

/-- Where nothing is rounded, the comparison of values is that of three parts: rank, measure and
letters.  A comparison of parts is transitive, and so is this one then. -/
theorem order_eq_parts {a b : Value} (ha : a.isRounded = false) (hb : b.isRounded = false) :
    a.order b = a.orderParts b := by
  rw [order.eq_def, orderParts]
  split
  · rfl
  · rename_i x y
    cases x <;> cases y <;> rfl
  · rename_i htext hbool
    split
    · rename_i hnum
      -- two numbers, both exact
      rw [Bool.and_eq_true] at hnum
      obtain ⟨hint, hletters⟩ := exact_of_isNumber hnum.1 ha
      obtain ⟨hint', hletters'⟩ := exact_of_isNumber hnum.2 hb
      rw [compareNumbers?, hint, hint', hletters, hletters', rank_of_isNumber hnum.1,
        rank_of_isNumber hnum.2]
      show compare _ _ = (compare _ _).then .eq
      cases compare a.measure b.measure <;> rfl
    · rename_i hnum
      -- of one type they tie, for it is none of those with an order of their own
      by_cases hrank : a.rank = b.rank
      · have h1 : b.rank ≠ 1 := by
          intro h
          obtain ⟨x, rfl⟩ := eq_bool_of_rank (hrank.trans h)
          obtain ⟨y, rfl⟩ := eq_bool_of_rank h
          exact hbool x y rfl rfl
        have h2 : b.rank ≠ 2 := by
          intro h
          exact hnum (by rw [isNumber_of_rank (hrank.trans h), isNumber_of_rank h]; rfl)
        have h3 : b.rank ≠ 3 := by
          intro h
          obtain ⟨x, rfl⟩ := eq_text_of_rank (hrank.trans h)
          obtain ⟨y, rfl⟩ := eq_text_of_rank h
          exact htext x y rfl rfl
        obtain ⟨hm, hl⟩ := parts_of_rank h1 h2 h3
        obtain ⟨hm', hl'⟩ := parts_of_rank (hrank ▸ h1) (hrank ▸ h2) (hrank ▸ h3)
        rw [hm, hl, hm', hl', hrank]
        cases compare b.rank b.rank <;> rfl
      · have hne : compare a.rank b.rank ≠ .eq := fun h => hrank (Std.LawfulEqCmp.eq_of_compare h)
        cases hcmp : compare a.rank b.rank with
        | eq => exact absurd hcmp hne
        | lt => rfl
        | gt => rfl

/-- **Values that are compared exactly are ordered.** -/
theorem orderedOn_order : OrderedOn (fun v : Value => v.isRounded = false) order := by
  have hletters : OrderedOn (fun _ => True) orderChars := by
    have heq : orderChars = List.compareLex (compareOn Char.toNat) := by
      funext as bs
      exact orderChars_eq as bs
    rw [heq]
    exact orderedOn_of_transCmp _
  -- type, number and characters order one after the other
  have hparts : OrderedOn (fun v : Value => v.isRounded = false) orderParts :=
    ((orderedOn_of_transCmp (compare (α := Nat))).comap (f := rank) fun _ _ => trivial).andThen
      (((orderedOn_of_transCmp (compare (α := Int))).comap (f := measure)
        fun _ _ => trivial).andThen (hletters.comap (f := letters) fun _ _ => trivial))
  exact hparts.congr fun ha hb => (order_eq_parts ha hb).symm

end Value

/-! ## Documents -/

/-- Missing values come first, and present ones in their order. -/
theorem orderedOn_orderMissing :
    OrderedOn (fun o : Option Value => ∀ v, o = some v → v.isRounded = false) orderMissing where
  swap {a b} ha hb := by
    cases a with
    | none => cases b <;> rfl
    | some v =>
      cases b with
      | none => rfl
      | some w => exact Value.orderedOn_order.swap (ha v rfl) (hb w rfl)
  trans {a b c} ha hb hc hab hbc := by
    cases a with
    | none => cases c <;> rfl
    | some u =>
      cases b with
      | none => cases hab
      | some v =>
        cases c with
        | none => cases hbc
        | some w => exact Value.orderedOn_order.trans (ha u rfl) (hb v rfl) (hc w rfl) hab hbc

/-- The order of documents by one key. -/
def SortKey.order (k : SortKey) (a b : Document) : Ordering :=
  k.direction.apply (orderMissing (a.field? k.field) (b.field? k.field))

/-- The first key that tells two documents apart puts `a` before `b`. -/
def Before : List SortKey → Document → Document → Prop
  | [], _, _ => False
  | k :: ks, a, b => k.order a b = .lt ∨ (k.order a b = .eq ∧ Before ks a b)

/-- No key tells two documents apart. -/
def Tied (keys : List SortKey) (a b : Document) : Prop :=
  ∀ k ∈ keys, k.order a b = .eq

/-- No value by which a document is sorted is compared after rounding. -/
def SortsExactly (keys : List SortKey) (d : Document) : Prop :=
  ∀ k ∈ keys, ∀ v, d.field? k.field = some v → v.isRounded = false

theorem order_cons (k : SortKey) (ks : List SortKey) (a b : Document) :
    Document.order ((k :: ks).map SortKey.entry) a b
      = (k.order a b).then (Document.order (ks.map SortKey.entry) a b) := rfl

/-- The relation of the sort is the comparison of documents, asked for "before". -/
theorem before_iff {keys : List SortKey} {a b : Document} :
    Before keys a b ↔ Document.order (keys.map SortKey.entry) a b = .lt := by
  induction keys with
  | nil => simp [Before, Document.order]
  | cons k ks ih =>
    rw [order_cons, Before, ih]
    cases k.order a b <;> simp [Ordering.then]

/-- Documents are tied under the keys exactly if they compare as equal. -/
theorem tied_iff {keys : List SortKey} {a b : Document} :
    Tied keys a b ↔ Document.order (keys.map SortKey.entry) a b = .eq := by
  induction keys with
  | nil => simp [Tied, Document.order]
  | cons k ks ih =>
    have hcons : Tied (k :: ks) a b ↔ k.order a b = .eq ∧ Tied ks a b := by
      simp [Tied]
    rw [order_cons, hcons, ih]
    cases k.order a b <;> simp [Ordering.then]

/-- Keys order the documents that sort exactly by them. -/
theorem orderedOn_keys (keys : List SortKey) :
    OrderedOn (SortsExactly keys) (Document.order (keys.map SortKey.entry)) := by
  induction keys with
  | nil => exact ⟨fun _ _ => rfl, fun _ _ _ _ _ => rfl⟩
  | cons k ks ih =>
    have hkey : OrderedOn (SortsExactly (k :: ks)) k.order :=
      (orderedOn_orderMissing.directed k.direction).comap
        (f := fun d : Document => d.field? k.field)
        fun d (hd : SortsExactly (k :: ks) d) => hd k (by simp)
    have hrest : OrderedOn (SortsExactly (k :: ks)) (Document.order (ks.map SortKey.entry)) :=
      ih.comap (f := id) fun d (hd : SortsExactly (k :: ks) d) k' hk' => hd k' (by simp [hk'])
    exact hkey.andThen hrest

/-! ## Stable sorting -/

section Stable

variable {α β : Type}

/-- Inserting adds one element and loses none. -/
theorem insertReversed_perm (cmp : α → α → Ordering) (x : α) (ys : List α) :
    (insertReversed cmp x ys).Perm (x :: ys) := by
  induction ys with
  | nil => exact .refl _
  | cons y ys ih =>
    rw [insertReversed]
    split
    · exact (ih.cons y).trans (.swap x y ys)
    · exact .refl _

/-- Inserting one after the other keeps all of them, in some order.  Induction on what is still to
be inserted. -/
theorem foldl_insertReversed_perm (cmp : α → α → Ordering) (xs acc : List α) :
    (xs.foldl (fun sorted x => insertReversed cmp x sorted) acc).Perm (acc ++ xs) := by
  induction xs generalizing acc with
  | nil => rw [List.append_nil]; exact .refl _
  | cons x xs ih =>
    have hmiddle : (x :: (acc ++ xs)).Perm (acc ++ x :: xs) := List.perm_middle.symm
    exact (ih _).trans (((insertReversed_perm cmp x acc).append_right xs).trans hmiddle)

/-- Sorting loses nothing and repeats nothing. -/
theorem sortBy_perm (cmp : α → α → Ordering) (xs : List α) : (sortBy cmp xs).Perm xs :=
  (List.reverse_perm _).trans (foldl_insertReversed_perm cmp xs [])

/-- Elements that are compared by an image may be inserted by their images. -/
theorem insertReversed_map (cmp : α → α → Ordering) (f : β → α) (x : β) (ys : List β) :
    (insertReversed (fun a b => cmp (f a) (f b)) x ys).map f
      = insertReversed cmp (f x) (ys.map f) := by
  induction ys with
  | nil => rfl
  | cons y ys ih =>
    rw [insertReversed, List.map_cons, insertReversed]
    split
    · rw [List.map_cons, ih]
    · rfl

/-- So sorting commutes with taking images, as long as these are all that is compared. -/
theorem foldl_insertReversed_map (cmp : α → α → Ordering) (f : β → α) (xs acc : List β) :
    (xs.foldl (fun sorted x => insertReversed (fun a b => cmp (f a) (f b)) x sorted) acc).map f
      = (xs.map f).foldl (fun sorted x => insertReversed cmp x sorted) (acc.map f) := by
  induction xs generalizing acc with
  | nil => rfl
  | cons x xs ih =>
    rw [List.foldl_cons, ih, insertReversed_map]
    rfl

/-- An element with its place comes before another: strictly, or tied and from an earlier place. -/
def Precedes (cmp : α → α → Ordering) (x y : α × Nat) : Prop :=
  cmp x.1 y.1 = .lt ∨ (cmp x.1 y.1 = .eq ∧ x.2 < y.2)

variable {P : α → Prop} {cmp : α → α → Ordering}

/-- What stands in front of another element does not come after it. -/
theorem Precedes.isLE {x y : α × Nat} (h : Precedes cmp x y) : (cmp x.1 y.1).isLE := by
  rcases h with h | ⟨h, -⟩
  · rw [h]; rfl
  · rw [h]; rfl

/-- An element in front of another by place stands in front of it in the sorted list too, unless the
comparison says otherwise. -/
theorem precedes_of_isLE {x y : α × Nat} (h : (cmp x.1 y.1).isLE) (hlt : x.2 < y.2) :
    Precedes cmp x y := by
  unfold Precedes
  cases hcmp : cmp x.1 y.1 with
  | lt => exact .inl rfl
  | eq => exact .inr ⟨rfl, hlt⟩
  | gt => rw [hcmp] at h; cases h

/-- Insertion keeps a list in reverse order, if the new element is from the last place. -/
theorem insertReversed_pairwise (h : OrderedOn P cmp) {x : α × Nat} {ys : List (α × Nat)}
    (hx : P x.1) (hys : ∀ y ∈ ys, P y.1 ∧ y.2 < x.2)
    (hsorted : ys.Pairwise fun y z => Precedes cmp z y) :
    (insertReversed (fun a b => cmp a.1 b.1) x ys).Pairwise fun y z => Precedes cmp z y := by
  induction ys with
  | nil => exact List.pairwise_singleton _ _
  | cons y ys ih =>
    obtain ⟨hfirst, hrest⟩ := List.pairwise_cons.mp hsorted
    have hy := hys y (by simp)
    have hys' : ∀ z ∈ ys, P z.1 ∧ z.2 < x.2 := fun z hz => hys z (by simp [hz])
    rw [insertReversed]
    split
    -- it goes further in, past what it comes before
    · rename_i hlt
      refine List.pairwise_cons.mpr ⟨?_, ih hys' hrest⟩
      intro z hz
      rcases List.mem_cons.mp ((insertReversed_perm _ x ys).mem_iff.mp hz) with rfl | hz
      · exact .inl hlt
      · exact hfirst z hz
    -- it stands in front, after all that came from earlier places
    · rename_i hne
      have hyx : (cmp y.1 x.1).isLE := h.isLE_of_ne_lt hx hy.1 hne
      refine List.pairwise_cons.mpr ⟨?_, hsorted⟩
      intro z hz
      rcases List.mem_cons.mp hz with rfl | hz
      · exact precedes_of_isLE hyx hy.2
      · have hzy := (hfirst z hz).isLE
        exact precedes_of_isLE (h.trans (hys' z hz).1 hy.1 hx hzy hyx) (hys' z hz).2

/-- Inserting elements from place to place keeps the reverse order. -/
theorem foldl_insertReversed_pairwise (h : OrderedOn P cmp) {xs : List α} (hxs : ∀ x ∈ xs, P x) :
    ∀ (n : Nat) (acc : List (α × Nat)), (∀ y ∈ acc, P y.1 ∧ y.2 < n) →
      (acc.Pairwise fun y z => Precedes cmp z y) →
      ((xs.zipIdx n).foldl (fun sorted x => insertReversed (fun a b => cmp a.1 b.1) x sorted)
        acc).Pairwise fun y z => Precedes cmp z y := by
  induction xs with
  | nil => exact fun _ _ _ hsorted => hsorted
  | cons x xs ih =>
    intro n acc hacc hsorted
    have hx : P x := hxs x (by simp)
    rw [List.zipIdx_cons, List.foldl_cons]
    refine ih (fun x' hx' => hxs x' (by simp [hx'])) (n + 1) _ ?_
      (insertReversed_pairwise h hx hacc hsorted)
    intro y hy
    rcases List.mem_cons.mp ((insertReversed_perm _ (x, n) acc).mem_iff.mp hy) with rfl | hy
    · exact ⟨hx, Nat.lt_succ_self n⟩
    · exact ⟨(hacc y hy).1, Nat.lt_succ_of_lt (hacc y hy).2⟩

/-- **Stable sorting.**  The sorted list is the list of the elements with their places in which
every one precedes those behind it. -/
theorem sortBy_precedes (h : OrderedOn P cmp) {xs : List α} (hxs : ∀ x ∈ xs, P x) :
    ∃ l : List (α × Nat), l.Perm xs.zipIdx ∧ l.map Prod.fst = sortBy cmp xs
      ∧ l.Pairwise (Precedes cmp) := by
  refine ⟨sortBy (fun a b => cmp a.1 b.1) xs.zipIdx, sortBy_perm _ _, ?_, ?_⟩
  · rw [sortBy, sortBy, List.map_reverse, foldl_insertReversed_map cmp Prod.fst,
      List.zipIdx_map_fst]
    rfl
  · rw [sortBy, List.pairwise_reverse]
    exact foldl_insertReversed_pairwise h hxs 0 [] (by simp) .nil

end Stable

/-- The list `ys` is `xs` in the order of some keys: one that comes before another under the keys
stands before it, and so does one that ties with it and was before it in `xs`. -/
def StablySorted (keys : List SortKey) (xs ys : List Document) : Prop :=
  ∃ l : List (Document × Nat), l.Perm xs.zipIdx ∧ l.map Prod.fst = ys
    ∧ l.Pairwise fun x y => Before keys x.1 y.1 ∨ (Tied keys x.1 y.1 ∧ x.2 < y.2)

/-- Sorting by keys that order a list is stable. -/
theorem stablySorted_sortBy {keys : List SortKey} {xs : List Document}
    (h : OrderedOn (· ∈ xs) (Document.order (keys.map SortKey.entry))) :
    StablySorted keys xs (sortBy (Document.order (keys.map SortKey.entry)) xs) := by
  obtain ⟨l, hperm, hmap, hsorted⟩ := sortBy_precedes h fun _ hx => hx
  refine ⟨l, hperm, hmap, hsorted.imp ?_⟩
  rintro x y (hlt | ⟨heq, hplace⟩)
  · exact .inl (before_iff.mpr hlt)
  · exact .inr ⟨tied_iff.mpr heq, hplace⟩

/-! ## Sorts of queries -/

namespace Query

variable {q : Query} {ds : List Document}

/-- The sort of a query orders some documents: on them its comparison is a total preorder.  This is
what a stable sort asks for; without it the documents may not come back sorted, or not at all. -/
def Orders (q : Query) (ds : List Document) : Prop :=
  OrderedOn (· ∈ ds) (Document.order (q.effectiveSort.map SortKey.entry))

/-- Documents are in order if none of the values to sort them by is a double or a decimal.  So they
are if there is nothing to sort them by. -/
theorem orders_of_exact (h : ∀ d ∈ ds, SortsExactly q.effectiveSort d) : q.Orders ds :=
  (orderedOn_keys q.effectiveSort).mono h

end Query

end DocQuery
