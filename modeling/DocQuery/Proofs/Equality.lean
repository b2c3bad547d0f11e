/-
  Which values are equal.

  Values are the same if they are built alike, but for the order of fields, and equal if they are
  the same or are numbers of one value.  Two integers are compared as they are, and any other two
  numbers after rounding.  So equality is transitive but for one thing: a number that is no
  integer may equal two integers that differ, because both round to it.

  Documents make the induction harder than lists.  They are compared by looking each field of the
  one up in the other, so the two sides are not taken apart in step, and a field may be met by one
  that stands somewhere else.  Transitivity goes through by following a field from document to
  document.  Symmetry needs that keys are held once: then as many fields on both sides, each found
  on the other, leave no field over.

  1. `Binary64.same`: equality of rounded numbers;
  2. `Value.same_trans`, `Value.same_symm`, `Value.same_self`: values that are the same;
  3. `Value.Near` and `Value.Blurs`: numbers that are equal after rounding, and numbers that equal
     integers that differ;
  4. `Value.equals_trans`: two values that equal a third are equal unless that one blurs them;
  5. `PartitionKey.same_trans`, `PartitionKey.same_symm`, `PartitionKey.same_self`: so it is with
     the keys of partitions.
-/
import DocQuery.Record
import Mathlib.Data.List.Perm.Subperm

namespace DocQuery

/-! ## Rounded numbers -/

namespace Binary64

variable {x y z : Binary64}

/-- Rounded numbers are the same if none is a NaN and both have one position. -/
theorem same_iff : x.same y = true ↔ x.isNaN = false ∧ y.isNaN = false ∧ x.key = y.key := by
  rw [same, compare?]
  cases x.isNaN <;> cases y.isNaN <;> simp

/-- Sameness after rounding may be turned around. -/
theorem same_symm (h : x.same y = true) : y.same x = true := by
  obtain ⟨hx, hy, hkey⟩ := same_iff.mp h
  exact same_iff.mpr ⟨hy, hx, hkey.symm⟩

/-- Sameness after rounding is transitive: both ends stand at the position of the middle one. -/
theorem same_trans (h : x.same y = true) (h' : y.same z = true) : x.same z = true := by
  obtain ⟨hx, -, hkey⟩ := same_iff.mp h
  obtain ⟨-, hz, hkey'⟩ := same_iff.mp h'
  exact same_iff.mpr ⟨hx, hz, hkey.trans hkey'⟩

/-- What is put together from a magnitude up to that of infinity is no NaN. -/
theorem isNaN_ofMagnitude (negative : Bool) {m : Nat} (h : m ≤ infinityMagnitude) :
    (ofMagnitude negative m).isNaN = false := by
  have hinfinity : infinityMagnitude = 9218868437227405312 := rfl
  have hsign : signWeight = 9223372036854775808 := rfl
  have hmagnitude : (ofMagnitude negative m).magnitude = m := by
    rw [magnitude, ofMagnitude, UInt64.toNat_ofNat', hsign]
    split <;> omega
  rw [isNaN, hmagnitude]
  exact decide_eq_false (by omega)

/-- An integer rounds to a number, be it infinite. -/
theorem isNaN_ofInt (n : Int) : (ofInt n).isNaN = false := by
  rw [ofInt, ofFraction]
  split
  · exact isNaN_ofMagnitude _ (Nat.zero_le _)
  · exact isNaN_ofMagnitude _ (Nat.min_le_right _ _)

end Binary64

/-! ## Values that are the same -/

namespace Value

/-- What two values that are the same have in common. -/
inductive Alike : Value → Value → Prop
  | refl (v : Value) : Alike v v
  | double {x y : Binary64} (h : x.same y = true) : Alike (double x) (double y)
  | array {xs ys : List Value} (h : sameItems xs ys = true) : Alike (array xs) (array ys)
  | doc {fs gs : Document} (hlength : fs.length = gs.length) (h : sameFields fs gs = true) :
      Alike (doc fs) (doc gs)
  | scopedCode {source : String} {fs gs : Document} (hlength : fs.length = gs.length)
      (h : sameFields fs gs = true) : Alike (scopedCode source fs) (scopedCode source gs)

/-- Values that are the same are alike: one value, or two doubles, lists or documents that are the
same in their parts. -/
theorem alike_of_same {v w : Value} (h : v.same w = true) : Alike v w := by
  cases v <;> cases w
  -- values of different types are never the same
  all_goals try (cases h; done)
  case double.double x y => exact .double h
  case array.array xs ys => exact .array h
  case doc.doc fs gs =>
    obtain ⟨hlength, hfields⟩ := (Bool.and_eq_true _ _).mp h
    exact .doc (beq_iff_eq.mp hlength) hfields
  case scopedCode.scopedCode a fs b gs =>
    simp only [same, Bool.and_eq_true, beq_iff_eq] at h
    obtain ⟨⟨rfl, hlength⟩, hfields⟩ := h
    exact .scopedCode hlength hfields
  all_goals
    simp only [same, Bool.and_eq_true, beq_iff_eq, decide_eq_true_eq] at h
    first
      | exact .refl _
      | subst h; exact .refl _
      | obtain ⟨rfl, rfl⟩ := h; exact .refl _

/-- Documents are the same if they have as many fields, and each field of the one is in the other.
-/
theorem same_doc {fs gs : Document} (hlength : fs.length = gs.length)
    (h : sameFields fs gs = true) : (doc fs).same (doc gs) = true :=
  (Bool.and_eq_true _ _).mpr ⟨beq_iff_eq.mpr hlength, h⟩

/-- Code with a scope is the same if the sources are one text and the scopes are the same, field by
field. -/
theorem same_scopedCode {source : String} {fs gs : Document} (hlength : fs.length = gs.length)
    (h : sameFields fs gs = true) :
    (scopedCode source fs).same (scopedCode source gs) = true := by
  simp only [same, Bool.and_eq_true, beq_iff_eq]
  exact ⟨⟨trivial, hlength⟩, h⟩

end Value

/-- Each field of the one is in the other: under its key stands a value that is the same. -/
theorem sameFields_iff {fs : List (String × Value)} {gs : Document} :
    sameFields fs gs = true
      ↔ ∀ f ∈ fs, ∃ w, gs.get? f.1 = some w ∧ f.2.same w = true := by
  induction fs with
  | nil => exact ⟨fun _ _ hf => absurd hf List.not_mem_nil, fun _ => rfl⟩
  | cons f fs ih =>
    obtain ⟨k, v⟩ := f
    rw [sameFields, Bool.and_eq_true, ih, List.forall_mem_cons]
    refine and_congr_left fun _ => ?_
    cases gs.get? k with
    | none => simp
    | some w => simp

mutual

/-- **Values that are the same as a third are the same.** Induction on the first; documents are
compared through their fields, in whatever order. -/
theorem Value.same_trans (u v w : Value) (h : u.same v = true) (h' : v.same w = true) :
    u.same w = true := by
  cases Value.alike_of_same h with
  | refl => exact h'
  | double hxy =>
    cases Value.alike_of_same h' with
    | refl => exact h
    | double hyz => exact Binary64.same_trans hxy hyz
  | @array xs ys hxs =>
    cases Value.alike_of_same h' with
    | refl => exact h
    | @array _ zs hys => exact sameItems_trans xs ys zs hxs hys
  | @doc fs gs hlength hfs =>
    cases Value.alike_of_same h' with
    | refl => exact h
    | @doc _ hs hlength' hgs =>
      exact Value.same_doc (hlength.trans hlength') (sameFields_trans fs gs hs hfs hgs)
  | @scopedCode source fs gs hlength hfs =>
    cases Value.alike_of_same h' with
    | refl => exact h
    | @scopedCode _ _ hs hlength' hgs =>
      exact Value.same_scopedCode (hlength.trans hlength') (sameFields_trans fs gs hs hfs hgs)

theorem sameItems_trans : ∀ (xs ys zs : List Value),
    sameItems xs ys = true → sameItems ys zs = true → sameItems xs zs = true
  | [], [], _, _, h => h
  | x :: xs, y :: ys, z :: zs, h, h' => by
    obtain ⟨hx, hxs⟩ := (Bool.and_eq_true _ _).mp h
    obtain ⟨hy, hys⟩ := (Bool.and_eq_true _ _).mp h'
    exact (Bool.and_eq_true _ _).mpr ⟨x.same_trans y z hx hy, sameItems_trans xs ys zs hxs hys⟩

/-- `same_trans` over the fields of a document: each is looked up in the second document, and from
there in the third. -/
theorem sameFields_trans : ∀ (fs : List (String × Value)) (gs hs : Document),
    sameFields fs gs = true → sameFields gs hs = true → sameFields fs hs = true
  | [], _, _, _, _ => rfl
  | (k, v) :: fs, gs, hs, h, h' => by
    obtain ⟨⟨w, hw, hvw⟩, hrest⟩ := List.forall_mem_cons.mp (sameFields_iff.mp h)
    obtain ⟨u, hu, hwu⟩ := sameFields_iff.mp h' (k, w) (Fields.mem_of_get? hw)
    have hvu : v.same u = true := v.same_trans w u hvw hwu
    have hfs : sameFields fs hs = true := sameFields_trans fs gs hs (sameFields_iff.mpr hrest) h'
    exact sameFields_iff.mpr (List.forall_mem_cons.mpr ⟨⟨u, hu, hvu⟩, sameFields_iff.mp hfs⟩)

end

/-! ## Documents that hold every key once -/

mutual

/-- The documents within a value hold every key once. -/
def Value.WellFormed : Value → Prop
  | .array xs => WellFormedItems xs
  | .doc fs => (fs.map Prod.fst).Nodup ∧ WellFormedFields fs
  | .scopedCode _ fs => (fs.map Prod.fst).Nodup ∧ WellFormedFields fs
  | _ => True

def WellFormedItems : List Value → Prop
  | [] => True
  | x :: xs => x.WellFormed ∧ WellFormedItems xs

def WellFormedFields : List (String × Value) → Prop
  | [] => True
  | (_, v) :: fs => v.WellFormed ∧ WellFormedFields fs

end

/-- The fields of a document that holds every key once hold such documents. -/
theorem wellFormed_of_mem {fs : List (String × Value)} {f : String × Value}
    (h : WellFormedFields fs) (hf : f ∈ fs) : f.2.WellFormed := by
  induction fs with
  | nil => cases hf
  | cons g fs ih =>
    obtain ⟨hg, hfs⟩ := h
    rcases List.mem_cons.mp hf with rfl | hf
    · exact hg
    · exact ih hfs hf

/-- A key that is held once is looked up where it stands. -/
theorem Fields.get?_of_mem {α : Type} {fs : Fields α} {f : String × α}
    (h : (fs.map Prod.fst).Nodup) (hf : f ∈ fs) : fs.get? f.1 = some f.2 := by
  induction fs with
  | nil => cases hf
  | cons g fs ih =>
    obtain ⟨k, v⟩ := g
    obtain ⟨hk, hfs⟩ := List.nodup_cons.mp h
    rcases List.mem_cons.mp hf with rfl | hf
    · exact if_pos rfl
    · have hne : k ≠ f.1 := by
        intro heq
        exact hk (List.mem_map.mpr ⟨f, hf, heq.symm⟩)
      exact (if_neg hne).trans (ih hfs hf)

/-- As many keys, each held once: if every field has its like on the other side, so has every
field there. -/
theorem sameFields_symm_of {fs gs : Document} (hlength : fs.length = gs.length)
    (hfs : (fs.map Prod.fst).Nodup) (hgs : (gs.map Prod.fst).Nodup)
    (hsymm : ∀ f ∈ fs, ∀ g ∈ gs, f.2.same g.2 = true → g.2.same f.2 = true)
    (h : sameFields fs gs = true) : sameFields gs fs = true := by
  have hfields := sameFields_iff.mp h
  have hsub : fs.map Prod.fst ⊆ gs.map Prod.fst := by
    intro k hk
    obtain ⟨f, hf, rfl⟩ := List.mem_map.mp hk
    obtain ⟨w, hw, -⟩ := hfields f hf
    exact List.mem_map.mpr ⟨(f.1, w), Fields.mem_of_get? hw, rfl⟩
  have hperm : (fs.map Prod.fst).Perm (gs.map Prod.fst) := by
    have hmapped : (gs.map Prod.fst).length = (fs.map Prod.fst).length := by
      rw [List.length_map, List.length_map, hlength]
    exact (List.subperm_of_subset hfs hsub).perm_of_length_le (Nat.le_of_eq hmapped)
  refine sameFields_iff.mpr fun g hg => ?_
  -- the key of `g` is one of `fs`, with a value that `g` alone can be like
  obtain ⟨f, hf, hkey⟩ := List.mem_map.mp (hperm.mem_iff.mpr (List.mem_map_of_mem hg))
  obtain ⟨w, hw, hsame⟩ := hfields f hf
  rw [hkey, Fields.get?_of_mem hgs hg] at hw
  obtain rfl := Option.some.inj hw
  refine ⟨f.2, ?_, hsymm f hf g hg hsame⟩
  rw [← hkey, Fields.get?_of_mem hfs hf]

/-- Fields that are held once, and have their like anywhere, are like themselves. -/
theorem sameFields_self_of {fs gs : Document} (hfs : (fs.map Prod.fst).Nodup)
    (hself : ∀ f ∈ fs, ∀ w : Value, f.2.same w = true → f.2.same f.2 = true)
    (h : sameFields fs gs = true) : sameFields fs fs = true := by
  refine sameFields_iff.mpr fun f hf => ?_
  obtain ⟨w, -, hsame⟩ := sameFields_iff.mp h f hf
  exact ⟨f.2, Fields.get?_of_mem hfs hf, hself f hf w hsame⟩

mutual

/-- **Sides may be exchanged**, if both values hold every key once: else one document may repeat a
key that the other holds beside another. -/
theorem Value.same_symm (v w : Value) (hv : v.WellFormed) (hw : w.WellFormed)
    (h : v.same w = true) : w.same v = true := by
  cases Value.alike_of_same h with
  | refl => exact h
  | double hxy => exact Binary64.same_symm hxy
  | @array xs ys hxs => exact sameItems_symm xs ys hv hw hxs
  | @doc fs gs hlength hfs =>
    have hsymm := memberwise_symm fs hv.2
    exact Value.same_doc hlength.symm (sameFields_symm_of hlength hv.1 hw.1
      (fun f hf g hg => hsymm f hf g.2 (wellFormed_of_mem hw.2 hg)) hfs)
  | @scopedCode source fs gs hlength hfs =>
    have hsymm := memberwise_symm fs hv.2
    exact Value.same_scopedCode hlength.symm (sameFields_symm_of hlength hv.1 hw.1
      (fun f hf g hg => hsymm f hf g.2 (wellFormed_of_mem hw.2 hg)) hfs)

theorem sameItems_symm : ∀ (xs ys : List Value), WellFormedItems xs → WellFormedItems ys →
    sameItems xs ys = true → sameItems ys xs = true
  | [], [], _, _, h => h
  | x :: xs, y :: ys, hx, hy, h => by
    obtain ⟨hxy, hxys⟩ := (Bool.and_eq_true _ _).mp h
    exact (Bool.and_eq_true _ _).mpr
      ⟨x.same_symm y hx.1 hy.1 hxy, sameItems_symm xs ys hx.2 hy.2 hxys⟩

/-- `same_symm` for the fields of a document, one at a time, against any well-formed value. -/
theorem memberwise_symm : ∀ (fs : List (String × Value)), WellFormedFields fs →
    ∀ f ∈ fs, ∀ w : Value, w.WellFormed → f.2.same w = true → w.same f.2 = true
  | (_, v) :: fs, hfs, f, hf, w, hw, h => by
    rcases List.mem_cons.mp hf with rfl | hf
    · exact v.same_symm w hfs.1 hw h
    · exact memberwise_symm fs hfs.2 f hf w hw h

end

mutual

/-- A value that is the same as another holds no NaN, so it is the same as itself. -/
theorem Value.same_self (v w : Value) (hv : v.WellFormed) (h : v.same w = true) :
    v.same v = true := by
  cases Value.alike_of_same h with
  | refl => exact h
  | double hxy => exact Binary64.same_trans hxy (Binary64.same_symm hxy)
  | @array xs ys hxs => exact sameItems_self xs ys hv hxs
  | @doc fs gs hlength hfs =>
    exact Value.same_doc rfl (sameFields_self_of hv.1 (memberwise_self fs hv.2) hfs)
  | @scopedCode source fs gs hlength hfs =>
    exact Value.same_scopedCode rfl (sameFields_self_of hv.1 (memberwise_self fs hv.2) hfs)

theorem sameItems_self : ∀ (xs ys : List Value), WellFormedItems xs →
    sameItems xs ys = true → sameItems xs xs = true
  | [], [], _, h => h
  | x :: xs, y :: ys, hx, h => by
    obtain ⟨hxy, hxys⟩ := (Bool.and_eq_true _ _).mp h
    exact (Bool.and_eq_true _ _).mpr ⟨x.same_self y hx.1 hxy, sameItems_self xs ys hx.2 hxys⟩

/-- A field that is the same as any value is the same as itself.  With a NaN inside it is the same
as none, so this is not plain reflexivity. -/
theorem memberwise_self : ∀ (fs : List (String × Value)), WellFormedFields fs →
    ∀ f ∈ fs, ∀ w : Value, f.2.same w = true → f.2.same f.2 = true
  | (_, v) :: fs, hfs, f, hf, w, h => by
    rcases List.mem_cons.mp hf with rfl | hf
    · exact v.same_self w hfs.1 h
    · exact memberwise_self fs hfs.2 f hf w h

end

/-! ## Numbers -/

namespace Value

variable {u v w : Value} {m n : Int}

/-- Two numbers are equal after rounding. -/
def Near (v w : Value) : Prop :=
  v.toBinary64.same w.toBinary64 = true

/-- A number is no integer, but equals two integers that differ: both round to it. -/
def Blurs (u : Value) : Prop :=
  u.int? = none ∧ ∃ v w m n, v.int? = some m ∧ w.int? = some n ∧ m ≠ n
    ∧ u.equals v = true ∧ u.equals w = true

theorem Near.symm (h : Near v w) : Near w v :=
  Binary64.same_symm h

theorem Near.trans (h : Near u v) (h' : Near v w) : Near u w :=
  Binary64.same_trans h h'

theorem isNumber_of_int? (h : v.int? = some n) : v.isNumber = true := by
  cases v <;> first | rfl | cases h

/-- An integer rounds to the double nearest to it. -/
theorem toBinary64_of_int? (h : v.int? = some n) : v.toBinary64 = Binary64.ofInt n := by
  cases v <;> cases h <;> rfl

/-- What is no number is taken for NaN. -/
theorem toBinary64_of_not_isNumber (h : v.isNumber = false) :
    v.toBinary64 = Binary64.nan false := by
  cases v <;> first | rfl | cases h

/-- What is equal after rounding is a number: anything else rounds to NaN. -/
theorem Near.isNumber (h : Near v w) : v.isNumber = true := by
  obtain ⟨hnan, -, -⟩ := Binary64.same_iff.mp h
  cases hnumber : v.isNumber with
  | true => rfl
  | false =>
    rw [toBinary64_of_not_isNumber hnumber] at hnan
    exact absurd hnan (by decide +kernel)

/-- The `=` of a query on two numbers is a tie of `compareNumbers?`. -/
theorem equals_of_isNumber (hv : v.isNumber = true) (hw : w.isNumber = true) :
    v.equals w = (v.compareNumbers? w == some .eq) := by
  rw [equals, hv, hw]
  rfl

/-- The `=` of a query on anything but a number is sameness. -/
theorem equals_of_not_isNumber (hv : v.isNumber = false) : v.equals w = v.same w := by
  rw [equals, hv]
  rfl

/-- Values that are the same are both numbers, or neither is. -/
theorem isNumber_of_same (h : v.same w = true) : v.isNumber = w.isNumber := by
  cases alike_of_same h <;> rfl

/-- Numbers equal numbers alone. -/
theorem isNumber_of_equals (h : v.equals w = true) : v.isNumber = w.isNumber := by
  rw [equals] at h
  split at h
  · rename_i hboth
    obtain ⟨hv, hw⟩ := (Bool.and_eq_true _ _).mp hboth
    rw [hv, hw]
  · exact isNumber_of_same h

/-- Integers are compared as they are. -/
theorem equals_iff_of_int? (hv : v.int? = some m) (hw : w.int? = some n) :
    v.equals w = true ↔ m = n := by
  rw [equals_of_isNumber (isNumber_of_int? hv) (isNumber_of_int? hw), compareNumbers?, hv, hw]
  simp

/-- All other numbers are compared after rounding. -/
theorem equals_iff_near (hv : v.isNumber = true) (hw : w.isNumber = true)
    (h : v.int? = none ∨ w.int? = none) : v.equals w = true ↔ Near v w := by
  have hcompare : v.compareNumbers? w = v.toBinary64.compare? w.toBinary64 := by
    rw [compareNumbers?]
    split
    · rename_i m n hm hn
      rcases h with h | h
      · rw [h] at hm
        cases hm
      · rw [h] at hn
        cases hn
    · rfl
  rw [equals_of_isNumber hv hw, hcompare, Near, Binary64.same]

/-- Numbers that are equal are equal after rounding, too. -/
theorem near_of_equals (h : v.equals w = true) (hv : v.isNumber = true) : Near v w := by
  have hw : w.isNumber = true := (isNumber_of_equals h).symm.trans hv
  cases hm : v.int? with
  | none => exact (equals_iff_near hv hw (.inl hm)).mp h
  | some m =>
    cases hn : w.int? with
    | none => exact (equals_iff_near hv hw (.inr hn)).mp h
    | some n =>
      obtain rfl := (equals_iff_of_int? hm hn).mp h
      rw [Near, toBinary64_of_int? hm, toBinary64_of_int? hn]
      exact Binary64.same_iff.mpr ⟨Binary64.isNaN_ofInt m, Binary64.isNaN_ofInt m, rfl⟩

/-! ## Values that are equal -/

/-- Equality may be turned around. -/
theorem equals_symm (hv : v.WellFormed) (hw : w.WellFormed) (h : v.equals w = true) :
    w.equals v = true := by
  have hnumbers := isNumber_of_equals h
  cases hnumber : v.isNumber with
  | false =>
    rw [equals_of_not_isNumber hnumber] at h
    rw [equals_of_not_isNumber (hnumbers.symm.trans hnumber)]
    exact v.same_symm w hv hw h
  | true =>
    have hnumber' : w.isNumber = true := hnumbers.symm.trans hnumber
    have hnear : Near w v := (near_of_equals h hnumber).symm
    cases hm : v.int? with
    | none => exact (equals_iff_near hnumber' hnumber (.inr hm)).mpr hnear
    | some m =>
      cases hn : w.int? with
      | none => exact (equals_iff_near hnumber' hnumber (.inl hn)).mpr hnear
      | some n => exact (equals_iff_of_int? hn hm).mpr ((equals_iff_of_int? hm hn).mp h).symm

/-- A value that equals another equals itself: NaN equals nothing. -/
theorem equals_self (hv : v.WellFormed) (h : v.equals w = true) : v.equals v = true := by
  cases hnumber : v.isNumber with
  | false =>
    rw [equals_of_not_isNumber hnumber] at h ⊢
    exact v.same_self w hv h
  | true =>
    have hnear : Near v w := near_of_equals h hnumber
    cases hm : v.int? with
    | none => exact (equals_iff_near hnumber hnumber (.inl hm)).mpr (hnear.trans hnear.symm)
    | some m => exact (equals_iff_of_int? hm hm).mpr rfl

/-- **Two values that equal a third are equal**, unless that one blurs them. -/
theorem equals_trans (h : v.equals u = true) (h' : u.equals w = true) :
    v.equals w = true ∨ (u.Blurs ∧ Near u v ∧ Near u w) := by
  have hvu := isNumber_of_equals h
  have huw := isNumber_of_equals h'
  cases hnumber : u.isNumber with
  | false =>
    have hv : v.isNumber = false := hvu.trans hnumber
    rw [equals_of_not_isNumber hv] at h ⊢
    rw [equals_of_not_isNumber hnumber] at h'
    exact .inl (v.same_trans u w h h')
  | true =>
    have hv : v.isNumber = true := hvu.trans hnumber
    have hw : w.isNumber = true := huw.symm.trans hnumber
    have hnear : Near v u := near_of_equals h hv
    have hnear' : Near u w := near_of_equals h' hnumber
    cases hm : v.int? with
    -- unless both ends are integers they are compared after rounding, like the middle
    | none => exact .inl ((equals_iff_near hv hw (.inl hm)).mpr (hnear.trans hnear'))
    | some m =>
      cases hn : w.int? with
      | none => exact .inl ((equals_iff_near hv hw (.inr hn)).mpr (hnear.trans hnear'))
      | some n =>
        by_cases hmn : m = n
        · exact .inl ((equals_iff_of_int? hm hn).mpr hmn)
        · -- two integers that differ, so what equals both is none
          refine .inr ⟨?_, hnear.symm, hnear'⟩
          cases hk : u.int? with
          | some k =>
            exact absurd (((equals_iff_of_int? hm hk).mp h).trans
              ((equals_iff_of_int? hk hn).mp h')) hmn
          | none =>
            refine ⟨hk, v, w, m, n, hm, hn, hmn, ?_, h'⟩
            exact (equals_iff_near hnumber hv (.inl hk)).mpr hnear.symm

end Value

/-! ## Keys of partitions -/

namespace PartitionKey

variable {a b c : PartitionKey}

/-- A number equals two keys after rounding. -/
def BlurredBy (u : Value) (a b : PartitionKey) : Prop :=
  ∃ v w, a = value v ∧ b = value w ∧ u.Near v ∧ u.Near w

/-- The documents within a key hold every field once. -/
def WellFormed : PartitionKey → Prop
  | none => True
  | value v => v.WellFormed

theorem same_symm (ha : a.WellFormed) (hb : b.WellFormed) (h : a.same b = true) :
    b.same a = true := by
  cases a <;> cases b
  case none.none => rfl
  case value.value v w => exact Value.equals_symm ha hb h
  all_goals cases h

theorem same_self (ha : a.WellFormed) (h : a.same b = true) : a.same a = true := by
  cases a with
  | none => rfl
  | value v =>
    cases b with
    | none => cases h
    | value w => exact Value.equals_self ha h

/-- Keys that are the same as a third are the same, unless that one blurs them. -/
theorem same_trans (h : a.same b = true) (h' : b.same c = true) :
    a.same c = true ∨ ∃ u, b = value u ∧ u.Blurs ∧ BlurredBy u a c := by
  cases a <;> cases b <;> cases c
  case none.none.none => exact .inl rfl
  case value.value.value v u w =>
    rcases Value.equals_trans (v := v) (u := u) (w := w) h h' with heq | ⟨hblurs, hv, hw⟩
    · exact .inl heq
    · exact .inr ⟨u, rfl, hblurs, v, w, rfl, rfl, hv, hw⟩
  all_goals first | cases h; done | cases h'

end PartitionKey

end DocQuery
