/-
  How far results are in order.

  Two integers are compared as they are, and any other two numbers after rounding, where rounded
  numbers have positions on a line, NaNs at its ends.  Rounding keeps the order of integers, so a
  chain of values goes astray in one way only: a number that is no integer equals two integers that
  differ.  A chain of documents does so where the first key that tells any two of them apart meets
  such values, and the keys behind it do not put the chain right.  All other documents are in a
  total preorder, and sorting them stably has one outcome.

  1. `Binary64.position`: the line of the rounded numbers;
  2. `Value.Confuses`: a number that equals two integers that differ; `order_trans_iff`: chains of
     values;
  3. `ConfusedBy`: documents under one key;
  4. `Astray` and `Straight`: chains of documents, and `orderedOn_iff_straight`;
  5. `sortedStably_iff`: one outcome of stable sorting;
  6. `order_laws`: the comparison of documents.
-/
import DocQuery.Proofs.Equality
import DocQuery.Proofs.Rounding
import DocQuery.Proofs.Sorting

namespace DocQuery

/-! ## The line of rounded numbers -/

namespace Binary64

/-- Where a number stands among all: by its value, and a NaN by its word, beyond the infinities. -/
def position (x : Binary64) : Int :=
  if x.isNaN then x.totalKey else x.key

/-- What is a number stands between the infinities, where its value says. -/
theorem position_of_number {x : Binary64} (h : x.isNaN = false) :
    x.position = x.key ∧ -(infinityMagnitude : Int) ≤ x.key ∧ x.key ≤ infinityMagnitude := by
  have hmagnitude : x.magnitude ≤ infinityMagnitude := Nat.le_of_not_lt (of_decide_eq_false h)
  rw [position, h, key]
  refine ⟨rfl, ?_⟩
  split <;> omega

/-- A NaN stands beyond them, on one side or the other. -/
theorem position_of_nan {x : Binary64} (h : x.isNaN = true) :
    x.position = x.totalKey ∧ (x.totalKey < -(infinityMagnitude : Int) - 1 ∨
      (infinityMagnitude : Int) < x.totalKey) := by
  have hmagnitude : infinityMagnitude < x.magnitude := of_decide_eq_true h
  rw [position, h, totalKey]
  refine ⟨rfl, ?_⟩
  split <;> omega

/-- Word and value differ by the zero with a sign, which stands one place lower as a word. -/
theorem totalKey_near (x : Binary64) : x.key - 1 ≤ x.totalKey ∧ x.totalKey ≤ x.key := by
  rw [key, totalKey]
  split <;> omega

/-- Comparing by value, and by word where there is none, is comparing positions. -/
theorem compare_position (x y : Binary64) :
    (x.compare? y).getD (x.totalCompare y) = compare x.position y.position := by
  have hx := totalKey_near x
  have hy := totalKey_near y
  -- what a comparison says of two keys it says of two others in the same places
  have hplaces : ∀ {a b c d : Int}, (a < b ↔ c < d) → (a = b ↔ c = d) →
      compare a b = compare c d := by
    intro a b c d hlt heq
    simp only [compare, compareOfLessAndEq, hlt, heq]
  cases hnx : x.isNaN with
  | true =>
    obtain ⟨hpx, hbx⟩ := position_of_nan hnx
    -- with a NaN there is no comparison of numbers, and the words decide
    have hnone : x.compare? y = none := by rw [compare?, hnx]; rfl
    rw [hnone, hpx]
    show compare x.totalKey y.totalKey = _
    cases hny : y.isNaN with
    | true => rw [(position_of_nan hny).1]
    | false =>
      obtain ⟨hpy, hby⟩ := position_of_number hny
      rw [hpy]
      exact hplaces (by omega) (by omega)
  | false =>
    obtain ⟨hpx, hbx⟩ := position_of_number hnx
    cases hny : y.isNaN with
    | true =>
      obtain ⟨hpy, hby⟩ := position_of_nan hny
      have hnone : x.compare? y = none := by rw [compare?, hnx, hny]; rfl
      rw [hnone, hpx, hpy]
      show compare x.totalKey y.totalKey = _
      exact hplaces (by omega) (by omega)
    | false =>
      have hsome : x.compare? y = some (compare x.key y.key) := by rw [compare?, hnx, hny]; rfl
      rw [hsome, hpx, (position_of_number hny).1]
      rfl

/-- A number and whatever stands where it does are equal. -/
theorem same_iff_position {x y : Binary64} (hy : y.isNaN = false) :
    x.same y = true ↔ x.position = y.position := by
  obtain ⟨hpy, hby⟩ := position_of_number hy
  rw [same_iff, hpy]
  cases hx : x.isNaN with
  | true =>
    obtain ⟨hpx, hbx⟩ := position_of_nan hx
    rw [hpx]
    exact ⟨fun h => (nomatch h.1), fun h => by omega⟩
  | false =>
    rw [(position_of_number hx).1]
    exact ⟨fun h => h.2.2, fun h => ⟨rfl, hy, h⟩⟩

end Binary64

/-! ## Values -/

namespace Value

variable {u v w : Value} {m n : Int}

/-- A number is no integer and equals `u` and `w`, which are integers, and `w` is the smaller one:
both round to it. -/
def Confuses (v u w : Value) : Prop :=
  v.int? = none ∧ v.equals u = true ∧ v.equals w = true
    ∧ ∃ m n, u.int? = some m ∧ w.int? = some n ∧ n < m

/-- Where a value stands among the rounded numbers. -/
def position (v : Value) : Int :=
  v.toBinary64.position

/-- Numbers are in order by value, or by word where a NaN has no value. -/
theorem order_of_isNumber (hu : u.isNumber = true) (hv : v.isNumber = true) :
    u.order v = (u.compareNumbers? v).getD (u.toBinary64.totalCompare v.toBinary64) := by
  rw [order.eq_def]
  split
  · cases hu
  · cases hu
  · rw [hu, hv]
    rfl

/-- Two integers compare exactly. -/
theorem order_of_int? (hu : u.int? = some m) (hv : v.int? = some n) : u.order v = compare m n := by
  rw [order_of_isNumber (isNumber_of_int? hu) (isNumber_of_int? hv), compareNumbers?, hu, hv]
  rfl

/-- Two numbers of which one is no integer compare by position, after rounding. -/
theorem order_of_position (hu : u.isNumber = true) (hv : v.isNumber = true)
    (h : u.int? = none ∨ v.int? = none) : u.order v = compare u.position v.position := by
  have hcompare : u.compareNumbers? v = u.toBinary64.compare? v.toBinary64 := by
    rw [compareNumbers?]
    rcases h with h | h
    · rw [h]
    · rw [h]
      cases u.int? <;> rfl
  rw [order_of_isNumber hu hv, hcompare, Binary64.compare_position, position, position]

/-- An integer stands where the number nearest to it does. -/
theorem position_of_int? (h : v.int? = some n) : v.position = (Binary64.ofInt n).key := by
  rw [position, toBinary64_of_int? h]
  exact (Binary64.position_of_number (Binary64.isNaN_ofInt n)).1

/-- A larger integer stands no further down: rounding keeps the order. -/
theorem position_mono (hu : u.int? = some m) (hv : v.int? = some n) (h : m ≤ n) :
    u.position ≤ v.position := by
  rw [position_of_int? hu, position_of_int? hv]
  exact Binary64.key_ofInt_mono h

/-- Two numbers are compared as integers, if they both are, or else by their positions. -/
theorem order_number (hu : u.isNumber = true) (hv : v.isNumber = true) :
    (∃ m n, u.int? = some m ∧ v.int? = some n ∧ u.order v = compare m n ∧ v.order u = compare n m)
    ∨ (u.order v = compare u.position v.position ∧ v.order u = compare v.position u.position) := by
  by_cases hinexact : u.int? = none ∨ v.int? = none
  · exact .inr ⟨order_of_position hu hv hinexact, order_of_position hv hu hinexact.symm⟩
  · obtain ⟨m, hm⟩ := Option.ne_none_iff_exists'.mp (not_or.mp hinexact).1
    obtain ⟨n, hn⟩ := Option.ne_none_iff_exists'.mp (not_or.mp hinexact).2
    exact .inl ⟨m, n, hm, hn, order_of_int? hm hn, order_of_int? hn hm⟩

/-- What does not come after another number stands no further on the line. -/
theorem position_le_of_order (hu : u.isNumber = true) (hv : v.isNumber = true)
    (h : (u.order v).isLE) : u.position ≤ v.position := by
  rcases order_number hu hv with ⟨m, n, hm, hn, horder, -⟩ | ⟨horder, -⟩
  · rw [horder, Int.isLE_compare] at h
    exact position_mono hm hn h
  · rw [horder, Int.isLE_compare] at h
    exact h

/-- An integer equals what is none and stands where it does. -/
theorem equals_of_position (hv : v.isNumber = true) (hnone : v.int? = none)
    (hu : u.int? = some m) : v.equals u = true ↔ v.position = u.position := by
  have hnan : u.toBinary64.isNaN = false := by
    rw [toBinary64_of_int? hu]
    exact Binary64.isNaN_ofInt m
  rw [equals_iff_near hv (isNumber_of_int? hu) (.inl hnone), Near, Binary64.same_iff_position hnan,
    position, position]

/-- A chain of numbers that does not hold has a confusing number in its middle. -/
theorem order_trans_of_isNumber (hu : u.isNumber = true) (hv : v.isNumber = true)
    (hw : w.isNumber = true) (huv : (u.order v).isLE) (hvw : (v.order w).isLE) :
    (u.order w).isLE ∨ v.Confuses u w := by
  have hpuv := position_le_of_order hu hv huv
  have hpvw := position_le_of_order hv hw hvw
  rcases order_number hu hw with ⟨m, n, hm, hn, horder, -⟩ | ⟨horder, -⟩
  · -- the ends are integers
    rw [horder, Int.isLE_compare]
    by_cases hmn : m ≤ n
    · exact .inl hmn
    · have hnm : n < m := by omega
      cases hk : v.int? with
      | some k =>
        rw [order_of_int? hm hk, Int.isLE_compare] at huv
        rw [order_of_int? hk hn, Int.isLE_compare] at hvw
        omega
      | none =>
        -- rounding does not turn them around, so all three stand in one place
        have hpwu := position_mono hn hm (Int.le_of_lt hnm)
        refine .inr ⟨hk, ?_, ?_, m, n, hm, hn, hnm⟩
        · exact (equals_of_position hv hk hm).mpr (by omega)
        · exact (equals_of_position hv hk hn).mpr (by omega)
  · rw [horder, Int.isLE_compare]
    exact .inl (Int.le_trans hpuv hpvw)

/-- A confusing number stands where both integers do. -/
theorem Confuses.position_eq (h : v.Confuses u w) : v.isNumber = true
    ∧ v.position = u.position ∧ v.position = w.position := by
  obtain ⟨hnone, hvu, hvw, m, n, hm, hn, -⟩ := h
  have hv : v.isNumber = true := (isNumber_of_equals hvu).trans (isNumber_of_int? hm)
  exact ⟨hv, (equals_of_position hv hnone hm).mp hvu, (equals_of_position hv hnone hn).mp hvw⟩

/-- What confuses two values ties with both of them, while they are told apart. -/
theorem Confuses.breaks (h : v.Confuses u w) :
    u.order v = .eq ∧ v.order w = .eq ∧ u.order w = .gt := by
  obtain ⟨hv, hpu, hpw⟩ := h.position_eq
  obtain ⟨hnone, -, -, m, n, hm, hn, hnm⟩ := h
  rw [order_of_position (isNumber_of_int? hm) hv (.inr hnone),
    order_of_position hv (isNumber_of_int? hn) (.inl hnone), order_of_int? hm hn,
    Int.compare_eq_eq, Int.compare_eq_eq, Int.compare_eq_gt]
  exact ⟨hpu.symm, hpw, hnm⟩

/-- Confused integers have more than fifty-three binary digits. -/
theorem Confuses.wide (h : v.Confuses u w) : ∃ m n, u.int? = some m ∧ w.int? = some n
    ∧ 9007199254740992 ≤ m.natAbs ∧ 9007199254740992 ≤ n.natAbs := by
  obtain ⟨-, hpu, hpw⟩ := h.position_eq
  obtain ⟨-, -, -, m, n, hm, hn, hnm⟩ := h
  rw [position_of_int? hm] at hpu
  rw [position_of_int? hn] at hpw
  obtain ⟨hwide, hwide'⟩ := Binary64.wide_of_key_eq hnm (hpw.symm.trans hpu)
  exact ⟨m, n, hm, hn, hwide', hwide⟩

/-- Values of two types are ordered by their types. -/
theorem order_of_rank_ne (h : u.rank ≠ v.rank) : u.order v = compare u.rank v.rank := by
  rw [order.eq_def]
  split
  · exact absurd rfl h
  · exact absurd rfl h
  · split
    · rename_i hnum
      rw [Bool.and_eq_true] at hnum
      exact absurd ((rank_of_isNumber hnum.1).trans (rank_of_isNumber hnum.2).symm) h
    · rfl

/-- Only numbers are compared after rounding. -/
theorem isRounded_of_rank_ne (h : v.rank ≠ 2) : v.isRounded = false := by
  cases v <;> first | rfl | exact absurd rfl h

/-- What does not come after another value is of no later type. -/
theorem rank_le_of_order (h : (u.order v).isLE) : u.rank ≤ v.rank := by
  by_cases hrank : u.rank = v.rank
  · exact Nat.le_of_eq hrank
  · rw [order_of_rank_ne hrank, Nat.isLE_compare] at h
    exact h

/-- The comparison of values turns around with its sides. -/
theorem order_swap (u v : Value) : v.order u = (u.order v).swap := by
  by_cases hrank : u.rank = v.rank
  · by_cases hnumber : v.rank = 2
    · have hv := isNumber_of_rank hnumber
      have hu := isNumber_of_rank (hrank.trans hnumber)
      rcases order_number hu hv with ⟨m, n, -, -, huv, hvu⟩ | ⟨huv, hvu⟩
      · rw [huv, hvu, Int.compare_swap]
      · rw [huv, hvu, Int.compare_swap]
    · exact orderedOn_order.swap (isRounded_of_rank_ne (hrank ▸ hnumber))
        (isRounded_of_rank_ne hnumber)
  · rw [order_of_rank_ne hrank, order_of_rank_ne (Ne.symm hrank), Nat.compare_swap]

/-- **A chain of values holds** exactly if its middle does not confuse its ends. -/
theorem order_trans_iff (u v w : Value) :
    ((u.order v).isLE → (v.order w).isLE → (u.order w).isLE) ↔ ¬ v.Confuses u w := by
  refine ⟨fun htrans hconfuses => ?_, fun hclear huv hvw => ?_⟩
  · obtain ⟨huv, hvw, huw⟩ := hconfuses.breaks
    rw [huv, hvw, huw] at htrans
    exact Bool.false_ne_true (htrans rfl rfl)
  · have hrank := rank_le_of_order huv
    have hrank' := rank_le_of_order hvw
    by_cases hends : u.rank = w.rank
    · -- all three are of one type
      have huv' : u.rank = v.rank := by omega
      by_cases hnumber : u.rank = 2
      · refine (order_trans_of_isNumber ?_ ?_ ?_ huv hvw).resolve_right hclear
        all_goals exact isNumber_of_rank (by omega)
      · refine orderedOn_order.trans ?_ ?_ ?_ huv hvw
        all_goals exact isRounded_of_rank_ne (by omega)
    · rw [order_of_rank_ne hends, Nat.isLE_compare]
      omega

end Value

/-! ## One key -/

/-- The number that stands in `b` at a path confuses the integers of `a` and `c`. -/
def CrossedAt (path : List String) (a b c : Document) : Prop :=
  ∃ u v w, a.atPath path = some u ∧ b.atPath path = some v ∧ c.atPath path = some w
    ∧ v.Confuses u w

/-- The order of documents by one path and its direction. -/
def orderAt (k : List String × Direction) (a b : Document) : Ordering :=
  k.2.apply (orderMissing (a.atPath k.1) (b.atPath k.1))

/-- A number confuses two integers, and the later of them by the direction of the key is that
of `a`. -/
def ConfusedBy (k : List String × Direction) (a b c : Document) : Prop :=
  match k.2 with
  | .ascending => CrossedAt k.1 a b c
  | .descending => CrossedAt k.1 c b a

section Keys

variable {k : List String × Direction} {path : List String} {a b c : Document}

/-- Missing or not, the comparison turns around with its sides. -/
theorem orderMissing_swap (u v : Option Value) : orderMissing v u = (orderMissing u v).swap := by
  cases u with
  | none => cases v <;> rfl
  | some u =>
    cases v with
    | none => rfl
    | some v => exact u.order_swap v

/-- A chain of documents under one path. -/
theorem orderMissing_trans_iff :
    ((orderMissing (a.atPath path) (b.atPath path)).isLE →
      (orderMissing (b.atPath path) (c.atPath path)).isLE →
      (orderMissing (a.atPath path) (c.atPath path)).isLE) ↔ ¬ CrossedAt path a b c := by
  have hcrossed : CrossedAt path a b c ↔ ∃ u v w, a.atPath path = some u
      ∧ b.atPath path = some v ∧ c.atPath path = some w ∧ v.Confuses u w := Iff.rfl
  rw [hcrossed]
  -- a missing value is no number, and comes first
  cases a.atPath path with
  | none => cases c.atPath path <;> simp [orderMissing]
  | some u =>
    cases b.atPath path with
    | none => simp [orderMissing]
    | some v =>
      cases c.atPath path with
      | none => simp [orderMissing]
      | some w =>
        rw [orderMissing, orderMissing, orderMissing, Value.order_trans_iff]
        simp

/-- Under one key the comparison turns around with its sides, in either direction of the key. -/
theorem orderAt_swap (k : List String × Direction) (a b : Document) :
    orderAt k b a = (orderAt k a b).swap := by
  rw [orderAt, orderAt, orderMissing_swap (a.atPath k.1)]
  cases k.2 <;> rfl

/-- for descending is the other side first. -/
theorem orderAt_descending (path : List String) (a b : Document) :
    orderAt (path, .descending) a b = orderMissing (b.atPath path) (a.atPath path) :=
  (orderMissing_swap (a.atPath path) (b.atPath path)).symm

/-- Under one key a chain holds unless its middle confuses the ends. -/
theorem orderAt_trans (h : ¬ ConfusedBy k a b c) (hab : (orderAt k a b).isLE)
    (hbc : (orderAt k b c).isLE) : (orderAt k a c).isLE := by
  obtain ⟨path, direction⟩ := k
  cases direction with
  | ascending => exact orderMissing_trans_iff.mpr h hab hbc
  | descending =>
    -- against the direction, the chain runs from the other end
    rw [orderAt_descending] at hab hbc ⊢
    exact orderMissing_trans_iff.mpr h hbc hab

/-- A chain that does not hold under a key has a confusing number in its middle. -/
theorem confusedBy_of_gt (hab : (orderAt k a b).isLE) (hbc : (orderAt k b c).isLE)
    (hac : orderAt k a c = .gt) : ConfusedBy k a b c := by
  by_contra hno
  have hle := orderAt_trans hno hab hbc
  rw [hac] at hle
  cases hle

/-- What is confused ties with both ends, and the ends are the wrong way round. -/
theorem ConfusedBy.breaks (h : ConfusedBy k a b c) :
    orderAt k a b = .eq ∧ orderAt k b c = .eq ∧ orderAt k a c = .gt := by
  have hcrossed : ∀ {x y z : Document}, CrossedAt k.1 x y z →
      orderMissing (x.atPath k.1) (y.atPath k.1) = .eq
      ∧ orderMissing (y.atPath k.1) (z.atPath k.1) = .eq
      ∧ orderMissing (x.atPath k.1) (z.atPath k.1) = .gt := by
    rintro x y z ⟨u, v, w, hu, hv, hw, hconfuses⟩
    rw [hu, hv, hw]
    exact hconfuses.breaks
  obtain ⟨path, direction⟩ := k
  cases direction with
  | ascending => exact hcrossed h
  | descending =>
    obtain ⟨hcb, hba, hca⟩ := hcrossed h
    rw [orderAt_descending, orderAt_descending, orderAt_descending]
    exact ⟨hba, hcb, hca⟩

end Keys

/-! ## Chains of documents -/

/-- A chain of documents goes astray: under the first key that tells any two of them apart, `b`
confuses the ends, and the keys behind it lead from `a` over `b` to `c` all the same. -/
inductive Astray : List (List String × Direction) → Document → Document → Document → Prop
  | here {k keys a b c} : ConfusedBy k a b c → (Document.order keys a b).isLE →
      (Document.order keys b c).isLE → Astray (k :: keys) a b c
  | behind {k keys a b c} : orderAt k a b = .eq → orderAt k b c = .eq → orderAt k a c = .eq →
      Astray keys a b c → Astray (k :: keys) a b c

/-- No chain of documents with a property goes astray. -/
def Straight (keys : List (List String × Direction)) (P : Document → Prop) : Prop :=
  ∀ a b c, P a → P b → P c → ¬ Astray keys a b c

section Chains

variable {keys : List (List String × Direction)} {P : Document → Prop} {a b c : Document}

/-- The first key decides, and where it ties the others do. -/
theorem order_key (k : List String × Direction) (keys : List (List String × Direction))
    (a b : Document) :
    Document.order (k :: keys) a b = (orderAt k a b).then (Document.order keys a b) := rfl

/-- **The comparison of documents turns around with its sides**, whatever the keys. -/
theorem Document.order_swap (keys : List (List String × Direction)) (a b : Document) :
    Document.order keys b a = (Document.order keys a b).swap := by
  induction keys with
  | nil => rfl
  | cons k keys ih => rw [order_key, order_key, orderAt_swap k a b, ih, Ordering.swap_then]

/-- What is its own reverse is a tie. -/
theorem eq_of_swap {o : Ordering} (h : o = o.swap) : o = .eq := by
  cases o <;> first | rfl | cases h

/-- A chain that goes astray does not hold. -/
theorem Astray.breaks (h : Astray keys a b c) : (Document.order keys a b).isLE
    ∧ (Document.order keys b c).isLE ∧ ¬ (Document.order keys a c).isLE := by
  induction h with
  | here hconfused hab hbc =>
    obtain ⟨hkab, hkbc, hkac⟩ := hconfused.breaks
    rw [order_key, order_key, order_key, hkab, hkbc, hkac]
    exact ⟨hab, hbc, Bool.false_ne_true⟩
  | behind hkab hkbc hkac _ ih =>
    rw [order_key, order_key, order_key, hkab, hkbc, hkac]
    exact ih

/-- Of two documents one does not come after the other: the order is total, if not transitive. -/
theorem isLE_or_swap (keys : List (List String × Direction)) (a b : Document) :
    (Document.order keys a b).isLE ∨ (Document.order keys b a).isLE := by
  rw [Document.order_swap keys a b]
  cases Document.order keys a b <;> decide

/-- Where a key ties three documents, the other keys decide about them. -/
theorem Straight.behind {k : List String × Direction} (h : Straight (k :: keys) P)
    (ha : P a) (hb : P b) (hc : P c) (hab : orderAt k a b = .eq) (hbc : orderAt k b c = .eq)
    (hac : orderAt k a c = .eq) : Straight keys (· ∈ [a, b, c]) := by
  have hself : ∀ x, orderAt k x x = .eq := fun x => eq_of_swap (orderAt_swap k x x)
  have hflip : ∀ {x y}, orderAt k x y = .eq → orderAt k y x = .eq := fun {x y} h => by
    rw [orderAt_swap k x y, h]
    rfl
  have hties : ∀ x ∈ [a, b, c], ∀ y ∈ [a, b, c], orderAt k x y = .eq := by
    simp only [List.forall_mem_cons]
    exact ⟨⟨hself a, hab, hac, nofun⟩, ⟨hflip hab, hself b, hbc, nofun⟩,
      ⟨hflip hac, hflip hbc, hself c, nofun⟩, nofun⟩
  have hall : ∀ x ∈ [a, b, c], P x := by
    simp only [List.forall_mem_cons]
    exact ⟨ha, hb, hc, nofun⟩
  intro x y z hx hy hz hastray
  exact h x y z (hall x hx) (hall y hy) (hall z hz)
    (.behind (hties x hx y hy) (hties y hy z hz) (hties x hx z hz) hastray)

/-- **Every chain that does not go astray holds.**  Induction on the keys: where one tells two of
the documents apart, a chain that fails has them confused in one of three ways. -/
theorem order_trans_of_straight (h : Straight keys P) (ha : P a) (hb : P b) (hc : P c)
    (hab : (Document.order keys a b).isLE) (hbc : (Document.order keys b c).isLE) :
    (Document.order keys a c).isLE := by
  induction keys generalizing P a b c with
  | nil => rfl
  | cons k keys ih =>
    rw [order_key] at hab hbc ⊢
    have hkab : (orderAt k a b).isLE := by
      cases hcmp : orderAt k a b <;> rw [hcmp] at hab <;> first | rfl | cases hab
    have hkbc : (orderAt k b c).isLE := by
      cases hcmp : orderAt k b c <;> rw [hcmp] at hbc <;> first | rfl | cases hbc
    cases hac : orderAt k a c with
    | lt => rfl
    | gt =>
      -- `b` confuses the ends
      have hconfused := confusedBy_of_gt hkab hkbc hac
      obtain ⟨htie, htie', -⟩ := hconfused.breaks
      rw [htie] at hab
      rw [htie'] at hbc
      exact absurd (.here hconfused hab hbc) (h a b c ha hb hc)
    | eq =>
      have hca : orderAt k c a = .eq := by rw [orderAt_swap k a c, hac]; rfl
      refine (isLE_or_swap keys a c).elim id fun hback => ?_
      cases hcmp : orderAt k a b with
      | gt => rw [hcmp] at hkab; cases hkab
      | eq =>
        rw [hcmp] at hab
        cases hcmp' : orderAt k b c with
        | gt => rw [hcmp'] at hkbc; cases hkbc
        | eq =>
          rw [hcmp'] at hbc
          exact ih (h.behind ha hb hc hcmp hcmp' hac) (by simp) (by simp) (by simp) hab hbc
        | lt =>
          -- `a` confuses `c` and `b`
          have hcb : orderAt k c b = .gt := by rw [orderAt_swap k b c, hcmp']; rfl
          have hconfused := confusedBy_of_gt (by rw [hca]; rfl) hkab hcb
          exact absurd (.here hconfused hback hab) (h c a b hc ha hb)
      | lt =>
        have hba : orderAt k b a = .gt := by rw [orderAt_swap k a b, hcmp]; rfl
        cases hcmp' : orderAt k b c with
        | gt => rw [hcmp'] at hkbc; cases hkbc
        | eq =>
          -- `c` confuses `b` and `a`
          rw [hcmp'] at hbc
          have hconfused := confusedBy_of_gt hkbc (by rw [hca]; rfl) hba
          exact absurd (.here hconfused hbc hback) (h b c a hb hc ha)
        | lt =>
          -- `a` would confuse `c` and `b`, but then it would tie with both
          have hcb : orderAt k c b = .gt := by rw [orderAt_swap k b c, hcmp']; rfl
          obtain ⟨-, htie, -⟩ := (confusedBy_of_gt (by rw [hca]; rfl) hkab hcb).breaks
          rw [htie] at hcmp
          cases hcmp

/-- Documents are in a total preorder exactly if no chain of them goes astray. -/
theorem orderedOn_iff_straight : OrderedOn P (Document.order keys) ↔ Straight keys P := by
  refine ⟨fun h a b c ha hb hc hastray => ?_, fun h => ⟨?_, ?_⟩⟩
  · obtain ⟨hab, hbc, hac⟩ := hastray.breaks
    exact hac (h.trans ha hb hc hab hbc)
  · exact fun _ _ => Document.order_swap keys _ _
  · exact fun ha hb hc hab hbc => order_trans_of_straight h ha hb hc hab hbc

/-- Integers of up to fifty-three binary digits are not confused. -/
theorem straight_of_narrow (h : ∀ d, P d → ∀ k ∈ keys, ∀ v n, d.atPath k.1 = some v →
    v.int? = some n → n.natAbs < 9007199254740992) : Straight keys P := by
  intro a b c ha hb hc hastray
  induction hastray with
  | @here k keys a b c hconfused _ _ =>
    obtain ⟨path, direction⟩ := k
    have hclear : ∀ {x y z : Document}, P x → ¬ CrossedAt path x y z := by
      rintro x y z hx ⟨u, v, w, hu, -, -, hconfuses⟩
      obtain ⟨m, n, hm, -, hwide, -⟩ := hconfuses.wide
      have := h x hx _ List.mem_cons_self u m hu hm
      omega
    cases direction with
    | ascending => exact hclear ha hconfused
    | descending => exact hclear hc hconfused
  | behind _ _ _ _ ih => exact ih (fun d hd k hk => h d hd k (List.mem_cons_of_mem _ hk)) ha hb hc

/-- The sort of a query orders documents of which no chain goes astray, and only those. -/
theorem Query.orders_iff_straight {q : Query} {ds : List Document} :
    q.Orders ds ↔ Straight (q.effectiveSort.map SortKey.entry) (· ∈ ds) :=
  orderedOn_iff_straight

end Chains

/-! ## Stable sorting -/

/-- The list `ys` is `xs` in the order of a comparison, and what ties stays as it came. -/
def SortedStably {α : Type} (cmp : α → α → Ordering) (xs ys : List α) : Prop :=
  ∃ l : List (α × Nat), l.Perm xs.zipIdx ∧ l.map Prod.fst = ys ∧ l.Pairwise (Precedes cmp)

/-- Sorting stably has one outcome, whichever way it is done. -/
theorem sortedStably_iff {α : Type} {P : α → Prop} {cmp : α → α → Ordering} {xs ys : List α}
    (h : OrderedOn P cmp) (hxs : ∀ x ∈ xs, P x) : SortedStably cmp xs ys ↔ ys = sortBy cmp xs := by
  obtain ⟨l', hperm', hmap', hsorted'⟩ := sortBy_precedes h hxs
  refine ⟨?_, fun hys => ⟨l', hperm', hmap'.trans hys.symm, hsorted'⟩⟩
  rintro ⟨l, hperm, rfl, hsorted⟩
  have hmem : ∀ x ∈ xs.zipIdx, P x.1 := fun x hx =>
    hxs x.1 (by rw [← List.zipIdx_map_fst 0 xs]; exact List.mem_map_of_mem hx)
  -- of two elements that tie, one comes from an earlier place
  have hantisymm : ∀ x y, x ∈ l → y ∈ l' → Precedes cmp x y → Precedes cmp y x → x = y := by
    intro x y hx hy hxy hyx
    have hswap := h.swap (hmem x (hperm.mem_iff.mp hx)) (hmem y (hperm'.mem_iff.mp hy))
    rcases hxy with hlt | ⟨heq, hplace⟩
    · rcases hyx with hlt' | ⟨heq', -⟩
      · rw [hlt, hlt'] at hswap
        cases hswap
      · rw [hlt, heq'] at hswap
        cases hswap
    · rcases hyx with hlt' | ⟨-, hplace'⟩
      · rw [heq, hlt'] at hswap
        cases hswap
      · omega
  have heq : l = l' := List.Perm.eq_of_pairwise hantisymm hsorted hsorted' (hperm.trans hperm'.symm)
  rw [heq, hmap']

/-! ## The comparison of documents -/

/-- **The comparison of documents** ties every document with itself and turns around with its
sides.  It is transitive among some documents exactly if none of their chains goes astray, and then
sorting them has one outcome. -/
theorem Document.order_laws (keys : List (List String × Direction)) (P : Document → Prop) :
    (∀ a, Document.order keys a a = .eq)
    ∧ (∀ a b, Document.order keys b a = (Document.order keys a b).swap)
    ∧ ((∀ a b c, P a → P b → P c → (Document.order keys a b).isLE →
        (Document.order keys b c).isLE → (Document.order keys a c).isLE) ↔ Straight keys P)
    ∧ (Straight keys P → ∀ xs ys, (∀ x ∈ xs, P x) →
        (SortedStably (Document.order keys) xs ys ↔ ys = sortBy (Document.order keys) xs)) := by
  refine ⟨fun a => eq_of_swap (Document.order_swap keys a a), Document.order_swap keys, ?_,
    fun h xs ys hxs => sortedStably_iff (orderedOn_iff_straight.mpr h) hxs⟩
  rw [← orderedOn_iff_straight]
  exact ⟨fun h => ⟨fun _ _ => Document.order_swap keys _ _, fun ha hb hc => h _ _ _ ha hb hc⟩,
    fun h _ _ _ ha hb hc => h.trans ha hb hc⟩

/-- A NaN, an integer of fifty-three binary digits, and a document without the field. -/
def medley : List Document :=
  [[("n", .double (Binary64.nan false))], [("n", .int64 9007199254740991)], []]

/-- None of them is a wide integer, so nothing is confused, NaN or not. -/
theorem medley_straight : Straight [(["n"], .descending)] (· ∈ medley) := by
  refine straight_of_narrow fun d hd k hk v n hv hn => ?_
  obtain rfl := List.mem_singleton.mp hk
  simp only [medley, List.mem_cons, List.not_mem_nil, or_false] at hd
  rcases hd with rfl | rfl | rfl
  · cases hv
    cases hn
  · cases hv
    cases hn
    decide
  · cases hv

/-- In such company a NaN is in order, and so is a document without the field. -/
theorem Document.order_laws_medley :
    Straight [(["n"], .descending)] (· ∈ medley)
    ∧ (Document.order [(["n"], .descending)] [("n", .double (Binary64.nan false))] []).isLE
    ∧ SortedStably (Document.order [(["n"], .descending)]) medley
        (sortBy (Document.order [(["n"], .descending)]) medley) := by
  obtain ⟨-, -, htrans, hsort⟩ := Document.order_laws [(["n"], .descending)] (· ∈ medley)
  refine ⟨medley_straight, ?_, (hsort medley_straight _ _ fun _ hx => hx).mpr rfl⟩
  exact htrans.mpr medley_straight _ [("n", .int64 9007199254740991)] _ (by simp [medley])
    (by simp [medley]) (by simp [medley]) (by decide +kernel) (by decide +kernel)

/-- The comparison of documents is not transitive: an integer, the double that it rounds to, and
the next smaller integer tie one after the other, and the ends do not. -/
theorem Document.order_not_transitive :
    Document.order [(["n"], .ascending)] [("n", .int64 9007199254740993)]
        [("n", .double ⟨0x4340000000000000⟩)] = .eq
    ∧ Document.order [(["n"], .ascending)] [("n", .double ⟨0x4340000000000000⟩)]
        [("n", .int64 9007199254740992)] = .eq
    ∧ Document.order [(["n"], .ascending)] [("n", .int64 9007199254740993)]
        [("n", .int64 9007199254740992)] = .gt := by
  decide +kernel

end DocQuery
