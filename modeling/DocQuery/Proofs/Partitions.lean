/-
  Partitions, from both sides.

  A store tells the partition of a record by the path of its collection, and a client by the field
  of the entity type.  They read paths by rules of their own: to a store slashes separate, too, and
  a path may be too long.  And a store compares keys by value, but tells whether matches lie in
  several partitions by how the keys read.  Over a field that both read alike, with a text or null
  in it, all of this comes to the same.

  Four properties of a field and its values make the two sides meet, and each answers one of the
  differences above: no slash and at most so many segments for the path, no stamp at its root for
  the time of the write, and texts or nothing for the comparison.  With them, the partition of a
  record is the same for whoever asks, and so a query that is pinned to a value finds its matches
  in one partition.

  1. `SharedPath`: fields that are read alike on both sides, and `Divides`: those of them that no
     write changes;
  2. `Value.Label` and `Collection.SplitBy`: collections split by such a field;
  3. `SplitBy.partitionKey_eq`: the key that a client names is the partition of the record;
  4. `SplitBy.found_ok`: a query that does not fan out finds its matches in one partition.
-/
import DocQuery.Client.Write
import DocQuery.Proofs.Keys
import DocQuery.Proofs.Pinning

namespace DocQuery

/-! ## Fields that divide -/

/-- Two ways to cut that agree on the characters of a text cut it alike. -/
theorem Text.pieces_congr {cut cut' : Char → Bool} {cs : List Char}
    (h : ∀ c ∈ cs, cut c = cut' c) : pieces cut cs = pieces cut' cs := by
  induction cs with
  | nil => rfl
  | cons c cs ih =>
    obtain ⟨hc, hcs⟩ := List.forall_mem_cons.mp h
    rw [pieces, pieces, hc, ih hcs]

/-- What is at the end of a path hangs on what is at its first key. -/
theorem Document.walk_congr {d d' : Document} {path : List String}
    (h : ∀ key, path.head? = some key → d.get? key = d'.get? key) : d.walk path = d'.walk path := by
  cases path with
  | nil => rfl
  | cons key rest =>
    have hkey := h key rfl
    cases rest with
    | nil => exact hkey
    | cons next rest => simp only [walk, hkey]

/-- A path that a store reads as a client does: without a slash, and not too long. -/
structure SharedPath (field : String) : Prop where
  slashless : '/' ∉ field.toList
  shallow : (segments field).length ≤ maxPathDepth

namespace SharedPath

variable {field : String}

/-- On a shared path the store and the client cut the same segments. -/
theorem partitionSegments_eq (h : SharedPath field) :
    Collection.partitionSegments field = segments field := by
  have hne : ∀ c ∈ field.toList, c ≠ '/' := by
    rintro c hc rfl
    exact h.slashless hc
  have hdrop : field.toList.dropWhile (· == '/') = field.toList := by
    cases hcs : field.toList with
    | nil => rfl
    | cons c cs =>
      have hc : (c == '/') = false := beq_false_of_ne (hne c (hcs ▸ List.mem_cons_self))
      rw [List.dropWhile_cons_of_neg (by rw [hc]; exact Bool.false_ne_true)]
  have hcut : ∀ c ∈ field.toList, (c == '.' || c == '/') = (c == '.') := by
    intro c hc
    rw [beq_false_of_ne (hne c hc), Bool.or_false]
  rw [Collection.partitionSegments, hdrop, Text.pieces_congr hcut]
  rfl

/-- On a shared path the store and the client find the same value in every record. -/
theorem field?_eq (h : SharedPath field) (d : Document) : d.field? field = d.fieldAt field := by
  rw [Document.field?, Document.atPath, if_pos h.shallow, Document.fieldAt_eq_walk]

/-- The store finds in a record what the client finds there. -/
theorem atPath_eq (h : SharedPath field) (d : Document) :
    d.atPath (Collection.partitionSegments field) = d.fieldAt field := by
  rw [h.partitionSegments_eq, ← h.field?_eq]
  rfl

/-- On a shared path the key that the store takes for a record is what the client finds at the path.
-/
theorem partitionOf_eq (h : SharedPath field) {c : Collection}
    (hc : c.properties.partitionPath = some field) (d : Document) :
    c.partitionOf d = .ofField (d.fieldAt field) := by
  simp only [Collection.partitionOf, hc, h.atPath_eq]

end SharedPath

/-- A field that may divide a collection: a store and a client read its path alike, and no write
changes what is at its end. -/
structure Divides (field : String) : Prop where
  slashless : '/' ∉ field.toList
  shallow : (segments field).length ≤ maxPathDepth
  unversioned : (segments field).head? ≠ some versionField
  untimed : (segments field).head? ≠ some timestampField

namespace Divides

variable {field : String}

/-- A field that divides is shared. -/
theorem shared (h : Divides field) : SharedPath field :=
  ⟨h.slashless, h.shallow⟩

/-- A stamp leaves what is at the end of the path. -/
theorem fieldAt_stamp (h : Divides field) (stamper : Stamper) (n : Nat) (d : Document) :
    (stamper.stamp n d).fieldAt field = d.fieldAt field := by
  rw [Document.fieldAt_eq_walk, Document.fieldAt_eq_walk]
  refine Document.walk_congr fun key hkey => get?_stamp stamper n d ?_ ?_
  · rintro rfl
    exact h.unversioned hkey
  · rintro rfl
    exact h.untimed hkey

end Divides

/-- A record has a value for a key if there is one in the field, and not null. -/
theorem PartitionKey.ofField_eq_value_iff {o : Option Value} {v : Value} :
    ofField o = .value v ↔ o = some v ∧ v ≠ .null := by
  constructor
  · intro h
    cases o with
    | none => cases h
    | some w =>
      cases w with
      | null => cases h
      | _ =>
        obtain rfl := PartitionKey.value.inj h
        exact ⟨rfl, nofun⟩
  · rintro ⟨rfl, hnull⟩
    cases v with
    | null => exact absurd rfl hnull
    | _ => rfl

/-- The key that a client names is that of what is in the field; without one it names none. -/
theorem Metadata.partitionKey_cases {m : Metadata} {f : String} (hf : m.partitionField = some f)
    (d : Document) :
    (∃ v, m.partitionKey d none = .ok (.value v) ∧ PartitionKey.ofField (d.fieldAt f) = .value v)
    ∨ m.partitionKey d none = .error (.noPartitionField f m.collection)
      ∧ PartitionKey.ofField (d.fieldAt f) = .none := by
  rw [partitionKey, hf]
  dsimp only
  cases d.fieldAt f with
  | none => exact .inr ⟨rfl, rfl⟩
  | some v =>
    cases v with
    | null => exact .inr ⟨rfl, rfl⟩
    | _ => exact .inl ⟨_, rfl, rfl⟩

/-- A client names the partition of a record by what is in its field, and refuses a record with
nothing there. -/
theorem Metadata.partitionKey_ok_iff {m : Metadata} {d : Document} {key : PartitionKey} :
    m.partitionKey d none = .ok key ↔ (m.partitionField = none ∧ key = .none)
      ∨ ∃ f v, m.partitionField = some f ∧ d.fieldAt f = some v ∧ v ≠ .null ∧ key = .value v := by
  cases hm : m.partitionField with
  | none =>
    rw [partitionKey, hm]
    constructor
    · intro h
      exact .inl ⟨rfl, (Except.ok.inj h).symm⟩
    · rintro (⟨-, rfl⟩ | ⟨f, v, hf, -⟩)
      · rfl
      · cases hf
  | some f =>
    constructor
    · intro h
      obtain ⟨v, hok, hkey⟩ | ⟨herror, -⟩ := partitionKey_cases hm d
      · obtain rfl := Except.ok.inj (h.symm.trans hok)
        obtain ⟨hv, hnull⟩ := PartitionKey.ofField_eq_value_iff.mp hkey
        exact .inr ⟨f, v, rfl, hv, hnull, rfl⟩
      · rw [herror] at h
        cases h
    · rintro (⟨hf, -⟩ | ⟨f', v, hf, hv, hnull, rfl⟩)
      · cases hf
      · obtain rfl := Option.some.inj hf
        have hkey := PartitionKey.ofField_eq_value_iff.mpr ⟨hv, hnull⟩
        obtain ⟨w, hok, hkey'⟩ | ⟨-, hnone⟩ := partitionKey_cases hm d
        · rw [hok, ← hkey', hkey]
        · rw [hkey] at hnone
          cases hnone

/-! ## Collections that are split -/

/-- Keys that all read alike do not differ. -/
theorem Store.differ_of_all {ts : List String} {t : String} (h : ∀ u ∈ ts, u = t) :
    differ ts = false := by
  cases ts with
  | nil => rfl
  | cons u us =>
    obtain ⟨hu, hus⟩ := List.forall_mem_cons.mp h
    rw [differ, List.any_eq_false]
    intro w hw
    rw [hu, hus w hw]
    simp

/-- A value that names a partition, or none. -/
inductive Value.Label : Value → Prop
  | null : Label null
  | text (s : String) : Label (text s)

/-- A label equals itself alone. -/
theorem Value.Label.eq_of_equals {v w : Value} (hw : w.Label) (h : w.equals v = true) : w = v := by
  cases hw with
  | null => cases v <;> first | rfl | cases h
  | text s =>
    cases v with
    | text t =>
      have hst : (s == t) = true := h
      rw [beq_iff_eq.mp hst]
    | _ => cases h

/-- A collection that is split by a field, if by any, where each record has a label or nothing. -/
structure Collection.SplitBy (c : Collection) (field : Option String) : Prop where
  path : c.properties.partitionPath = field
  divides : ∀ f, field = some f → Divides f
  labelled : ∀ f, field = some f → ∀ d ∈ c.records, ∀ v, d.fieldAt f = some v → v.Label

namespace Collection.SplitBy

variable {c : Collection} {field : Option String} {f : String} {d : Document}

/-- A collection stays split when records are taken out. -/
theorem sublist (h : c.SplitBy field) {records : List Document}
    (hsub : records.Sublist c.records) : SplitBy { c with records } field :=
  ⟨h.path, h.divides, fun f hf d hd => h.labelled f hf d (hsub.mem hd)⟩

/-- The partition of a record is that of its field. -/
theorem partitionOf_eq (h : c.SplitBy (some f)) (d : Document) :
    c.partitionOf d = .ofField (d.fieldAt f) :=
  (h.divides f rfl).shared.partitionOf_eq h.path d

/-- No stamp moves a record to another partition. -/
theorem steady (h : c.SplitBy field) : c.Steady := by
  cases field with
  | none => exact steady_of_unpartitioned h.path
  | some f =>
    intro stamper n d
    rw [h.partitionOf_eq, h.partitionOf_eq, (h.divides f rfl).fieldAt_stamp]

/-- The records of a partition are told by a key that equals no other. -/
theorem isPlain_partitionOf (h : c.SplitBy field) (hd : d ∈ c.records) :
    (c.partitionOf d).isPlain = true := by
  cases field with
  | none =>
    rw [partitionOf_of_unpartitioned h.path]
    rfl
  | some f =>
    rw [h.partitionOf_eq]
    cases hv : d.fieldAt f with
    | none => rfl
    | some v =>
      cases h.labelled f rfl d hd v hv with
      | null => rfl
      | text s => rfl

/-- A record is where its id and its partition say. -/
theorem isAt_own_partition (h : c.SplitBy field) (hd : d ∈ c.records) {id : String}
    (hid : d.requireId = .ok id) : c.isAt id (c.partitionOf d) d = true := by
  rw [isAt, (requireId_ok_iff.mp hid).1, beq_self_eq_true, Bool.true_and,
    (PartitionKey.same_plain (h.isPlain_partitionOf hd)).mpr rfl, Bool.or_true]

/-- **The key that a client names is the partition of the record.** -/
theorem partitionKey_eq {m : Metadata} (h : c.SplitBy m.partitionField) {key : PartitionKey}
    (hkey : m.partitionKey d none = .ok key) : key = c.partitionOf d := by
  rcases Metadata.partitionKey_ok_iff.mp hkey with ⟨hm, rfl⟩ | ⟨f, v, hm, hv, hnull, rfl⟩
  · rw [hm] at h
    exact (partitionOf_of_unpartitioned h.path d).symm
  · rw [hm] at h
    rw [h.partitionOf_eq]
    exact (PartitionKey.ofField_eq_value_iff.mpr ⟨hv, hnull⟩).symm

/-! ## Queries about one partition -/

/-- Records that hold one value in the field lie in one partition. -/
theorem spansPartitions_of_holds (h : c.SplitBy (some f)) {v : Value} {ds : List Document}
    (hmem : ∀ d ∈ ds, d ∈ c.records) (hholds : ∀ d ∈ ds, d.Holds f v) :
    Store.spansPartitions c ds = false := by
  have hsame : ∀ t ∈ ds.map fun d => (c.partitionOf d).display,
      t = (PartitionKey.ofField (some v)).display := by
    intro t ht
    obtain ⟨d, hd, rfl⟩ := List.mem_map.mp ht
    obtain ⟨w, hw, hequal⟩ := hholds d hd
    rw [(h.divides f rfl).shared.field?_eq] at hw
    -- a label that equals the pinned value is that value
    have hlabel := h.labelled f rfl d (hmem d hd) w hw
    rw [h.partitionOf_eq, hw, hlabel.eq_of_equals hequal]
  exact Store.differ_of_all hsame

/-- **A query about entities may have its matches**: it fans out, or they lie in one partition. -/
theorem found_ok {m : Metadata} {s : Store} {name : String} (h : c.SplitBy m.partitionField)
    (hc : s.collection? name = some c) (q : Query) :
    Store.found s name q.criteria (Client.fansOut m q)
      = .ok (c.records.filter q.criteria.meets) := by
  rw [Store.found, hc]
  refine if_neg ?_
  rw [Bool.and_eq_true, Bool.and_eq_true]
  rintro ⟨⟨hcross, -⟩, hspan⟩
  rw [Bool.not_eq_true'] at hcross
  cases hm : m.partitionField with
  | none =>
    -- without a field to pin every query fans out
    rw [Client.fansOut, Metadata.partitionFields, hm] at hcross
    cases hcross
  | some f =>
    rw [hm] at h
    have hf : f ∈ m.partitionFields := by
      rw [Metadata.partitionFields, hm]
      exact List.mem_singleton_self f
    obtain ⟨v, hpin⟩ := Query.pinned_of_isCrossPartition hcross hf
    rw [h.spansPartitions_of_holds (v := v) (fun d hd => (List.mem_filter.mp hd).1)
      fun d hd => Criteria.holds_of_meets hpin (List.mem_filter.mp hd).2] at hspan
    cases hspan

end Collection.SplitBy

end DocQuery
