/-
  Filters that are written and read back.

  Criteria are written as a filter, the filter as JSON and the JSON as text, and the text is read
  as the same criteria.  Not every value allows this: JSON has one kind of integer, whose type is
  chosen anew from its sign and size, and a key with a dollar sign makes an object something else.

  The reader knows nothing of criteria: it takes an object apart key by key, into one record of
  everything that a filter may have, and the criteria are made of that record by a chain of cases.
  So a leaf has to be followed through three stages, and what a leaf looks like in each is said
  once, for all kinds of leaves (`Leaf`); the groups then go by induction.

  1. `Value.isPlain` and `Criteria.isPlain`: values and criteria that JSON can tell;
  2. `Value.ofJson?_toJson`: values, by induction, fields one by one;
  3. `Filter.leaf_of_subject`: what every leaf is written as, a field and one comparison;
  4. `Filter.readPart_ofCriteria`: filters, with groups around the leaves;
  5. `Filter.toCriteria_ofCriteria`: the criteria of the filter of some criteria;
  6. `CommandLine.criteriaOf_compact`: the whole way to the text and back.
-/
import DocQuery.CommandLine
import DocQuery.Proofs.Transcription
import DocQuery.Proofs.Truth

namespace DocQuery

/-! ## What JSON can tell -/

mutual

/-- Whether JSON can tell a value: a type that JSON has, an integer whose type is the one that its
sign and size call for, fields with keys of their own and no dollar sign in front. -/
def Value.isPlain : Value → Bool
  | .null => true
  | .bool _ => true
  | .text _ => true
  | .int32 n => decide (0 ≤ n.toInt)
  | .int64 n => decide (n.toInt < 0) || decide (Int32.maxValue.toInt < n.toInt)
  | .array xs => itemsArePlain xs
  | .doc fs => decide (fs.map Prod.fst).Nodup && fieldsArePlain fs
  | _ => false

def itemsArePlain : List Value → Bool
  | [] => true
  | x :: xs => x.isPlain && itemsArePlain xs

def fieldsArePlain : List (String × Value) → Bool
  | [] => true
  | (k, v) :: fs => k.toList.head? != some '$' && v.isPlain && fieldsArePlain fs

end

mutual

/-- Whether JSON can tell criteria: every leaf names a field and has plain operands, and none of
the six comparisons is with null. -/
def Criteria.isPlain : Criteria → Bool
  | .all => true
  | .compare _ f v => !Text.isBlank f && v.isPlain && !v.isNull
  | .oneOf f vs => !Text.isBlank f && itemsArePlain vs
  | .startsWith f _ => !Text.isBlank f
  | .contains f _ => !Text.isBlank f
  | .isNull f => !Text.isBlank f
  | .isNotNull f => !Text.isBlank f
  | .and cs => criteriaArePlain cs
  | .or cs => criteriaArePlain cs
  | .not c => c.isPlain

def criteriaArePlain : List Criteria → Bool
  | [] => true
  | c :: cs => c.isPlain && criteriaArePlain cs

end

namespace Value

/-! ## Values -/

/-- A number of 32 bits from nought on comes back as one. -/
theorem ofInteger?_int32 {n : Int32} (h : 0 ≤ n.toInt) : ofInteger? n.toInt = some (int32 n) := by
  rw [ofInteger?, if_neg (Int.not_lt.mpr h), if_pos n.toInt_le, Int32.ofInt_toInt]

/-- A number of 64 bits comes back as one if it is negative or too large for 32 bits: JSON has no
widths, so the reader takes the narrower. -/
theorem ofInteger?_int64 {n : Int64} (h : n.toInt < 0 ∨ Int32.maxValue.toInt < n.toInt) :
    ofInteger? n.toInt = some (int64 n) := by
  rw [ofInteger?, Int64.ofInt_toInt]
  split
  · rfl
  · rename_i hn
    rw [if_neg (Int.not_le.mpr (h.resolve_left hn)), if_pos n.toInt_le]

/-- A key without a dollar sign in front is none of the extended form. -/
theorem plainKey {k : String} (h : k.toList.head? ≠ some '$') :
    k ≠ "$code" ∧ k ≠ "$scope" ∧ Fields.get? extendedKeys k = none := by
  have hother : ∀ x : String, x.toList.head? = some '$' → k ≠ x := by
    rintro x hx rfl
    exact h hx
  refine ⟨hother _ (by decide), hother _ (by decide), Fields.get?_eq_none_iff.mpr fun hmem => ?_⟩
  have hdollar : ∀ x ∈ extendedKeys.map Prod.fst, x.toList.head? = some '$' := by decide
  exact hother k (hdollar k hmem) rfl

mutual

/-- **A plain value is read back from its JSON**, type included. -/
theorem ofJson?_toJson : ∀ v : Value, v.isPlain = true → ofJson? v.toJson = some v
  | .null, _ => rfl
  | .bool _, _ => rfl
  | .text _, _ => rfl
  | .int32 n, h => ofInteger?_int32 (of_decide_eq_true h)
  | .int64 n, h => by
    rw [isPlain, Bool.or_eq_true, decide_eq_true_eq, decide_eq_true_eq] at h
    exact ofInteger?_int64 h
  | .array xs, h => by
    rw [toJson, ofJson?, ofItems?_itemsToJson xs h]
    rfl
  | .doc fs, h => by
    rw [isPlain, Bool.and_eq_true, decide_eq_true_eq] at h
    rw [toJson, ofJson?]
    exact ofMembers?_fieldsToJson fs h.2 h.1

/-- `ofJson?_toJson` for the items of a list. -/
theorem ofItems?_itemsToJson : ∀ xs : List Value, itemsArePlain xs = true →
    ofItems? (itemsToJson xs) = some xs
  | [], _ => rfl
  | x :: xs, h => by
    rw [itemsArePlain, Bool.and_eq_true] at h
    rw [itemsToJson, ofItems?, ofJson?_toJson x h.1, ofItems?_itemsToJson xs h.2]
    rfl

/-- Fields are read back behind those before them, if no key is there twice. -/
theorem ofMembers?_fieldsToJson : ∀ (fs : List (String × Value)) {before : Document},
    fieldsArePlain fs = true → ((before ++ fs).map Prod.fst).Nodup →
    ofMembers? (fieldsToJson fs) before = some (.doc (before ++ fs))
  | [], before, _, _ => by
    rw [List.append_nil]
    rfl
  | (k, v) :: fs, before, h, hkeys => by
    rw [fieldsArePlain, Bool.and_eq_true, Bool.and_eq_true, bne_iff_ne] at h
    obtain ⟨⟨hk, hv⟩, hfs⟩ := h
    obtain ⟨hcode, hscope, hextended⟩ := plainKey hk
    have hfresh : k ∉ before.map Prod.fst := by
      intro hmem
      rw [List.map_append, List.nodup_append] at hkeys
      exact hkeys.2.2 k hmem k List.mem_cons_self rfl
    have happend : before ++ (k, v) :: fs = before ++ [(k, v)] ++ fs := by simp
    rw [happend] at hkeys ⊢
    rw [fieldsToJson, ofMembers?.eq_def]
    dsimp only
    rw [if_neg hcode, if_neg hscope, hextended]
    dsimp only
    rw [ofJson?_toJson v hv, Option.bind_eq_bind, Option.bind_some,
      Fields.insert_of_not_mem hfresh]
    exact ofMembers?_fieldsToJson fs hfs hkeys

end

/-- An integer whose type is not the one that its sign and size call for comes back as another. -/
example : ofJson? (toJson (.int32 (-1))) = some (.int64 (-1)) := rfl

mutual

/-- The JSON of a plain value has no fractions and no number that is too long. -/
theorem isWhole_toJson : ∀ v : Value, v.isPlain = true → v.toJson.isWhole = true
  | .null, _ => rfl
  | .bool _, _ => rfl
  | .text _, _ => rfl
  | .int32 n, _ => by
    have hlow : Int64.minValue.toInt ≤ n.toInt := Int.le_trans (by decide) n.le_toInt
    have hhigh : n.toInt ≤ (Json.maxWord : Int) := Int.le_trans n.toInt_le (by decide)
    rw [toJson, Json.isWhole, decide_eq_true hlow, decide_eq_true hhigh]
    rfl
  | .int64 n, _ => by
    have hlow : Int64.minValue.toInt ≤ n.toInt := n.le_toInt
    have hhigh : n.toInt ≤ (Json.maxWord : Int) := Int.le_trans n.toInt_le (by decide)
    rw [toJson, Json.isWhole, decide_eq_true hlow, decide_eq_true hhigh]
    rfl
  | .array xs, h => areWhole_itemsToJson xs h
  | .doc fs, h => by
    rw [isPlain, Bool.and_eq_true] at h
    exact membersAreWhole_fieldsToJson fs h.2

theorem areWhole_itemsToJson : ∀ xs : List Value, itemsArePlain xs = true →
    Json.areWhole (itemsToJson xs) = true
  | [], _ => rfl
  | x :: xs, h => by
    rw [itemsArePlain, Bool.and_eq_true] at h
    rw [itemsToJson, Json.areWhole, isWhole_toJson x h.1, areWhole_itemsToJson xs h.2]
    rfl

theorem membersAreWhole_fieldsToJson : ∀ fs : List (String × Value), fieldsArePlain fs = true →
    Json.membersAreWhole (fieldsToJson fs) = true
  | [], _ => rfl
  | (k, v) :: fs, h => by
    rw [fieldsArePlain, Bool.and_eq_true, Bool.and_eq_true] at h
    rw [fieldsToJson, Json.membersAreWhole, isWhole_toJson v h.1.2,
      membersAreWhole_fieldsToJson fs h.2]
    rfl

end

/-- Of the plain values null alone is written as null. -/
theorem toJson_ne_null {v : Value} (h : v.isPlain = true) (hv : v.isNull = false) :
    v.toJson ≠ .null := by
  intro hnull
  have hread := ofJson?_toJson v h
  rw [hnull] at hread
  rw [← Option.some.inj hread] at hv
  cases hv

end Value

/-! ## Filters -/

namespace Filter

/-- What is not null under a key without filters goes to its place in the leaf. -/
theorem readPart_test {j : Json} (hj : j ≠ .null) (k : TestKey) (p : Parts) :
    readPart (.test k) p j = (p.test.put k j).map fun t => { p with test := t } := by
  cases j with
  | null => exact absurd rfl hj
  | _ => rw [readPart.eq_def]

/-- A member whose key is known and new takes its place among the parts, and the others follow. -/
theorem readMembers_cons {seen : List String} {p q : Parts} {name : String} {k : Key} {j : Json}
    (hkey : Fields.get? keys name = some k) (hseen : seen.contains name = false)
    (hq : readPart k p j = some q) (ms : List (String × Json)) :
    readMembers seen p ((name, j) :: ms) = readMembers (name :: seen) q ms := by
  rw [readMembers, hseen, if_neg Bool.false_ne_true, hkey]
  show (readPart k p j >>= _) = _
  rw [hq]
  rfl

/-- An object with one key is what that key holds. -/
theorem readPart_single {name : String} {k : Key} {j : Json} {q : Parts}
    (hkey : Fields.get? keys name = some k) (hq : readPart k {} j = some q) :
    readPart .not {} (.obj [(name, j)]) = some { not := some q.filter } := by
  rw [readPart, readMembers_cons hkey rfl hq]
  rfl

/-- The field and the operand of a plain comparison. -/
theorem isPlain_compare {op : Comparison} {f : String} {v : Value}
    (h : (Criteria.compare op f v).isPlain = true) :
    Text.isBlank f = false ∧ v.isPlain = true ∧ v.isNull = false := by
  rw [Criteria.isPlain, Bool.and_eq_true, Bool.and_eq_true, Bool.not_eq_true',
    Bool.not_eq_true'] at h
  exact ⟨h.1.1, h.1.2, h.2⟩

/-- A leaf as it is written: its field, and under the name of one comparison what puts that
comparison beside the field. -/
structure Leaf (c : Criteria) (f name : String) (k : TestKey) (j : Json) (t : Test) : Prop where
  key : Fields.get? keys name = some (.test k)
  other : name ≠ "field"
  present : j ≠ .null
  whole : j.isWhole = true
  put : Test.put { field := some f } k j = some t
  filter : ofCriteria c = leaf t
  json : (leaf t).toJson = .obj [("field", .str f), (name, j)]

/-- **Plain leaves are written in this way.** -/
theorem leaf_of_subject {c : Criteria} {f : String} (h : c.isPlain = true)
    (hf : c.subject? = some f) : ∃ name k j t, Leaf c f name k j t := by
  cases c with
  | all => cases hf
  | and cs => cases hf
  | or cs => cases hf
  | not c => cases hf
  | compare op g v =>
    cases hf
    obtain ⟨-, hplain, hnull⟩ := isPlain_compare h
    have hj : v.toJson ≠ .null := Value.toJson_ne_null hplain hnull
    have hwhole : v.toJson.isWhole = true := Value.isWhole_toJson v hplain
    have hv : Value.ofJson? v.toJson = some v := Value.ofJson?_toJson v hplain
    have hput : ∀ {put : Value → Test}, (Value.ofJson? v.toJson).map put = some (put v) := by
      intro put
      rw [hv]
      rfl
    -- each comparison has a key of its own, and the operand is the whole of its value
    cases op with
    | eq => exact ⟨"$eq", .eq, _, _, rfl, by decide, hj, hwhole, hput, rfl, rfl⟩
    | ne => exact ⟨"$ne", .ne, _, _, rfl, by decide, hj, hwhole, hput, rfl, rfl⟩
    | gt => exact ⟨"$gt", .gt, _, _, rfl, by decide, hj, hwhole, hput, rfl, rfl⟩
    | ge => exact ⟨"$gte", .ge, _, _, rfl, by decide, hj, hwhole, hput, rfl, rfl⟩
    | lt => exact ⟨"$lt", .lt, _, _, rfl, by decide, hj, hwhole, hput, rfl, rfl⟩
    | le => exact ⟨"$lte", .le, _, _, rfl, by decide, hj, hwhole, hput, rfl, rfl⟩
  | oneOf g vs =>
    cases hf
    rw [Criteria.isPlain, Bool.and_eq_true] at h
    have hput : Test.put { field := some f } .oneOf (.arr (Value.itemsToJson vs))
        = some { field := some f, oneOf := some vs } := by
      rw [Test.put, Value.ofItems?_itemsToJson vs h.2]
      rfl
    have hwhole : (Json.arr (Value.itemsToJson vs)).isWhole = true :=
      Value.areWhole_itemsToJson vs h.2
    exact ⟨"$in", .oneOf, _, _, rfl, by decide, by simp, hwhole, hput, rfl, rfl⟩
  | startsWith g s =>
    cases hf
    exact ⟨"$startsWith", .startsWith, .str s, _, rfl, by decide, by simp, rfl, rfl, rfl, rfl⟩
  | contains g s =>
    cases hf
    exact ⟨"$contains", .contains, .str s, _, rfl, by decide, by simp, rfl, rfl, rfl, rfl⟩
  | isNull g =>
    cases hf
    exact ⟨"$null", .isNull, .bool true, _, rfl, by decide, by simp, rfl, rfl, rfl, rfl⟩
  | isNotNull g =>
    cases hf
    exact ⟨"$null", .isNull, .bool false, _, rfl, by decide, by simp, rfl, rfl, rfl, rfl⟩

section Leaves

variable {c : Criteria} {f : String}

/-- A plain leaf is read back: first its field, then its comparison. -/
theorem readPart_of_subject (h : c.isPlain = true) (hf : c.subject? = some f) :
    readPart .not {} (ofCriteria c).toJson = some { not := some (ofCriteria c) } := by
  obtain ⟨name, k, j, t, hleaf⟩ := leaf_of_subject h hf
  have hfield : readPart (.test .field) {} (.str f) = some { test := { field := some f } } := by
    rw [readPart_test (by simp)]
    rfl
  have hseen : ["field"].contains name = false := by simp [hleaf.other]
  have hcompare : readPart (.test k) { test := { field := some f } } j = some { test := t } := by
    rw [readPart_test hleaf.present, hleaf.put]
    rfl
  rw [hleaf.filter, hleaf.json, readPart, readMembers_cons rfl rfl hfield,
    readMembers_cons hleaf.key hseen hcompare]
  rfl

/-- The JSON of a plain leaf has no fractions and no number that is too long. -/
theorem isWhole_of_subject (h : c.isPlain = true) (hf : c.subject? = some f) :
    (ofCriteria c).toJson.isWhole = true := by
  obtain ⟨name, k, j, t, hleaf⟩ := leaf_of_subject h hf
  rw [hleaf.filter, hleaf.json]
  show (true && (j.isWhole && true)) = true
  rw [hleaf.whole]
  rfl

end Leaves

mutual

/-- **The filter of plain criteria is read back from its JSON.** -/
theorem readPart_ofCriteria : ∀ c : Criteria, c.isPlain = true →
    readPart .not {} (ofCriteria c).toJson = some { not := some (ofCriteria c) }
  | .all, _ => rfl
  | .compare _ _ _, h => readPart_of_subject h rfl
  | .oneOf _ _, h => readPart_of_subject h rfl
  | .startsWith _ _, h => readPart_of_subject h rfl
  | .contains _ _, h => readPart_of_subject h rfl
  | .isNull _, h => readPart_of_subject h rfl
  | .isNotNull _, h => readPart_of_subject h rfl
  | .and cs, h => by
    have hgroup : readPart .and {} (.arr (listToJson (ofCriteriaList cs)))
        = some { and := some (ofCriteriaList cs) } := by
      rw [readPart, readList_ofCriteria cs h]
      rfl
    exact readPart_single rfl hgroup
  | .or cs, h => by
    have hgroup : readPart .or {} (.arr (listToJson (ofCriteriaList cs)))
        = some { or := some (ofCriteriaList cs) } := by
      rw [readPart, readList_ofCriteria cs h]
      rfl
    exact readPart_single rfl hgroup
  | .not c, h => readPart_single rfl (readPart_ofCriteria c h)

/-- `readPart_ofCriteria` for the children of a node. -/
theorem readList_ofCriteria : ∀ cs : List Criteria, criteriaArePlain cs = true →
    readList (listToJson (ofCriteriaList cs)) = some (ofCriteriaList cs)
  | [], _ => rfl
  | c :: cs, h => by
    rw [criteriaArePlain, Bool.and_eq_true] at h
    rw [ofCriteriaList, listToJson, readList, readPart_ofCriteria c h.1,
      readList_ofCriteria cs h.2]
    rfl

end

/-- The filter of plain criteria is read back from a whole text, which is read as the part that
stands below a negation would be. -/
theorem ofJson?_ofCriteria {c : Criteria} (h : c.isPlain = true) :
    ofJson? (ofCriteria c).toJson = some (ofCriteria c) := by
  rw [ofJson?, readPart_ofCriteria c h]
  rfl

mutual

/-- The JSON of plain criteria has no fractions and no number that is too long. -/
theorem isWhole_ofCriteria : ∀ c : Criteria, c.isPlain = true →
    (ofCriteria c).toJson.isWhole = true
  | .all, _ => rfl
  | .compare _ _ _, h => isWhole_of_subject h rfl
  | .oneOf _ _, h => isWhole_of_subject h rfl
  | .startsWith _ _, h => isWhole_of_subject h rfl
  | .contains _ _, h => isWhole_of_subject h rfl
  | .isNull _, h => isWhole_of_subject h rfl
  | .isNotNull _, h => isWhole_of_subject h rfl
  | .and cs, h => by
    show (Json.areWhole (listToJson (ofCriteriaList cs)) && true) = true
    rw [areWhole_ofCriteria cs h]
    rfl
  | .or cs, h => by
    show (Json.areWhole (listToJson (ofCriteriaList cs)) && true) = true
    rw [areWhole_ofCriteria cs h]
    rfl
  | .not c, h => by
    show ((ofCriteria c).toJson.isWhole && true) = true
    rw [isWhole_ofCriteria c h]
    rfl

theorem areWhole_ofCriteria : ∀ cs : List Criteria, criteriaArePlain cs = true →
    Json.areWhole (listToJson (ofCriteriaList cs)) = true
  | [], _ => rfl
  | c :: cs, h => by
    rw [criteriaArePlain, Bool.and_eq_true] at h
    rw [ofCriteriaList, listToJson, Json.areWhole, isWhole_ofCriteria c h.1,
      areWhole_ofCriteria cs h.2]
    rfl

end

/-! ## Criteria -/

/-- The field of a plain leaf is not blank, so the reader of filters does not refuse it. -/
theorem isBlank_of_isPlain {c : Criteria} {f : String} (h : c.isPlain = true)
    (hf : c.subject? = some f) : Text.isBlank f = false := by
  cases c with
  | all => cases hf
  | and cs => cases hf
  | or cs => cases hf
  | not c => cases hf
  | compare op g v =>
    cases hf
    exact (isPlain_compare h).1
  | oneOf g vs =>
    cases hf
    rw [Criteria.isPlain, Bool.and_eq_true, Bool.not_eq_true'] at h
    exact h.1
  | _ =>
    cases hf
    rw [Criteria.isPlain, Bool.not_eq_true'] at h
    exact h

/-- The comparison of a leaf counts, if its field is not blank. -/
theorem toCriteria_leaf {c : Criteria} {f : String} (hf : c.subject? = some f)
    (hblank : Text.isBlank f = false) : (ofCriteria c).toCriteria = .ok c := by
  cases c with
  | all => cases hf
  | and cs => cases hf
  | or cs => cases hf
  | not c => cases hf
  | compare op g v =>
    cases hf
    cases op <;> simp [ofCriteria, leaf, toCriteria, Test.toCriteria, hblank]
  | _ =>
    cases hf
    simp [ofCriteria, leaf, toCriteria, Test.toCriteria, hblank]

mutual

/-- **The filter of plain criteria has these criteria.** -/
theorem toCriteria_ofCriteria : ∀ c : Criteria, c.isPlain = true →
    (ofCriteria c).toCriteria = .ok c
  | .all, _ => rfl
  | .compare _ _ _, h => toCriteria_leaf rfl (isBlank_of_isPlain h rfl)
  | .oneOf _ _, h => toCriteria_leaf rfl (isBlank_of_isPlain h rfl)
  | .startsWith _ _, h => toCriteria_leaf rfl (isBlank_of_isPlain h rfl)
  | .contains _ _, h => toCriteria_leaf rfl (isBlank_of_isPlain h rfl)
  | .isNull _, h => toCriteria_leaf rfl (isBlank_of_isPlain h rfl)
  | .isNotNull _, h => toCriteria_leaf rfl (isBlank_of_isPlain h rfl)
  | .and cs, h => by
    rw [ofCriteria, toCriteria, listToCriteria_ofCriteriaList cs h]
    rfl
  | .or cs, h => by
    rw [ofCriteria, toCriteria, listToCriteria_ofCriteriaList cs h]
    rfl
  | .not c, h => by
    rw [ofCriteria, toCriteria, toCriteria_ofCriteria c h]
    rfl

/-- `toCriteria_ofCriteria` for the children of a node. -/
theorem listToCriteria_ofCriteriaList : ∀ cs : List Criteria, criteriaArePlain cs = true →
    listToCriteria (ofCriteriaList cs) = .ok cs
  | [], _ => rfl
  | c :: cs, h => by
    rw [criteriaArePlain, Bool.and_eq_true] at h
    rw [ofCriteriaList, listToCriteria, toCriteria_ofCriteria c h.1,
      listToCriteria_ofCriteriaList cs h.2]
    rfl

end

end Filter

/-! ## Texts -/

namespace CommandLine

/-- **Criteria that are written are read back.**  The text of plain criteria, if it does not nest
too deep, is read as the same criteria: leaves, operands with their types, and groups with their
children in order. -/
theorem criteriaOf_compact {c : Criteria} (hplain : c.isPlain = true)
    (hdepth : (Filter.ofCriteria c).toJson.depth ≤ 127) :
    criteriaOf (Filter.ofCriteria c).toJson.compact = .ok c := by
  have hread : Filter.ofText (Filter.ofCriteria c).toJson.compact = .ok (Filter.ofCriteria c) :=
    Json.readAs_compact (Filter.isWhole_ofCriteria c hplain) hdepth
      (Filter.ofJson?_ofCriteria hplain)
  rw [criteriaOf, hread]
  show (Filter.ofCriteria c).toCriteria.mapError _ = _
  rw [Filter.toCriteria_ofCriteria c hplain]
  rfl

/-- Groups inside each other, one of them empty, and operands at the edges of what JSON tells. -/
def oddCriteria : Criteria :=
  .and [.oneOf "a" [.null, .int64 (-1), .int32 2147483647, .int64 2147483648], .or [],
    .not (.compare .ne "б" (.doc [("", .array [.text "\"\\\x07€", .null]), ("a.b", .bool true)])),
    .not .all, .isNotNull "x"]

/-- The odd criteria are plain and do not nest too deep, and come back from their text. -/
theorem criteriaOf_compact_oddCriteria : oddCriteria.isPlain = true
    ∧ (Filter.ofCriteria oddCriteria).toJson.depth ≤ 127
    ∧ criteriaOf (Filter.ofCriteria oddCriteria).toJson.compact = .ok oddCriteria :=
  have hplain : oddCriteria.isPlain = true := by decide +kernel
  have hdepth : (Filter.ofCriteria oddCriteria).toJson.depth ≤ 127 := by decide +kernel
  ⟨hplain, hdepth, criteriaOf_compact hplain hdepth⟩

end CommandLine

end DocQuery
