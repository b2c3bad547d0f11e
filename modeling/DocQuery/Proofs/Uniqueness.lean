/-
  One record for an id in a partition, whatever the keys.

  A write puts its record in the place of the first one that has its id and a key that equals its
  own.  Were equality transitive, no record behind that place could have an equal key, since it
  would equal the key that was there before.  So what can go wrong goes wrong in one way: an upsert
  brings a rounded number for a key, and there are two records of its id whose keys are integers
  that differ and both round to it.  It replaces the first, and its key equals that of the second.

  1. `Collection.Unstamped`: paths that lead to nothing that a write stamps;
  2. `Collection.Apart`: two records of one id have keys that differ, unless an upsert blurred them;
  3. `kept_apart`: calls keep that;
  4. `one_for_id_and_partition`: so it is after any calls;
  5. `two_for_id_and_partition`: and an upsert may blur two keys.
-/
import DocQuery.Proofs.Equality
import DocQuery.Proofs.Partitions
import DocQuery.Proofs.Versions

namespace DocQuery

namespace Collection

variable {c : Collection} {name : String} {calls : List Store.Call} {id : String}
  {d o : Document}

/-! ## Paths that no write changes -/

/-- The path to the keys of partitions, if there is one, leads to nothing that a write stamps. -/
def Unstamped (c : Collection) : Prop :=
  ∀ path, c.properties.partitionPath = some path →
    (partitionSegments path).head? ≠ some versionField
      ∧ (partitionSegments path).head? ≠ some timestampField

/-- A path that no stamp writes to leads to the same place before and after a write. -/
theorem Unstamped.steady (h : c.Unstamped) : c.Steady := by
  intro stamper n d
  rw [partitionOf, partitionOf]
  split
  · rename_i path hpath
    obtain ⟨hversion, htimestamp⟩ := h path hpath
    have hwalk : (stamper.stamp n d).walk (partitionSegments path)
        = d.walk (partitionSegments path) := by
      refine Document.walk_congr fun key hkey => get?_stamp stamper n d ?_ ?_
      · rintro rfl
        exact hversion hkey
      · rintro rfl
        exact htimestamp hkey
    rw [Document.atPath, Document.atPath, hwalk]
  · rfl

/-! ## Records apart -/

/-- An upsert, one of some calls, brought a key for the id of two records that blurs theirs: a
number that equals integers that differ, and that both their keys equal after rounding. -/
def Crossed (calls : List Store.Call) (name : String) (c : Collection) (d e : Document) : Prop :=
  ∃ d' target u, Store.Call.upsert name d' target ∈ calls ∧ d'.id? = d.id?
    ∧ c.partitionOf d' = .value u ∧ u.Blurs
    ∧ PartitionKey.BlurredBy u (c.partitionOf d) (c.partitionOf e)

/-- Two records of one id lie in two partitions, unless an upsert blurred their keys. -/
def Apart (calls : List Store.Call) (name : String) (c : Collection) (d e : Document) : Prop :=
  d.id? = e.id? → (c.partitionOf d).same (c.partitionOf e) = true → Crossed calls name c d e

/-- A record where another is to go has its id, and a key that equals the other's. -/
theorem isAt_iff : c.isAt id (c.partitionOf d) o = true
    ↔ o.id? = some id ∧ (c.partitionOf o).same (c.partitionOf d) = true := by
  rw [isAt, Bool.and_eq_true, beq_iff_eq]
  refine and_congr_right fun _ => ?_
  cases hpath : c.properties.partitionPath with
  | none =>
    rw [isPartitioned, hpath, partitionOf_of_unpartitioned hpath, partitionOf_of_unpartitioned hpath]
    exact ⟨fun _ => rfl, fun _ => rfl⟩
  | some path =>
    rw [isPartitioned, hpath]
    exact Iff.of_eq (congrArg (· = true) (Bool.false_or _))

/-- A record that is not where another is to go lies apart from it. -/
theorem apart_of_not_isAt {n : Nat} {stamper : Stamper} {e : Document} (hsteady : c.Steady)
    (hid : d.requireId = .ok id) (h : c.isAt id (c.partitionOf d) e = false) :
    Apart calls name c e (stamper.stamp n d) := by
  intro hsameId hsame
  rw [id?_stamp, (requireId_ok_iff.mp hid).1] at hsameId
  rw [hsteady] at hsame
  rw [isAt_iff.mpr ⟨hsameId, hsame⟩] at h
  cases h

/-- **What comes in the place of a record is apart from those that it was apart from.**  If its key
equals that of another record, so did the key that was there, or the new key blurs the two. -/
theorem Apart.replaced {n : Nat} {stamper : Stamper} {target : Placement} {e : Document}
    (hsteady : c.Steady) (hcall : Store.Call.upsert name d target ∈ calls)
    (hid : d.requireId = .ok id) (hold : c.isAt id (c.partitionOf d) o = true)
    (h : Apart calls name c o e) : Apart calls name c (stamper.stamp n d) e := by
  intro hsameId hsame
  obtain ⟨hoid, hosame⟩ := isAt_iff.mp hold
  have hdid : d.id? = some id := (requireId_ok_iff.mp hid).1
  rw [id?_stamp] at hsameId
  rw [hsteady] at hsame
  rcases PartitionKey.same_trans hosame hsame with hoe | ⟨u, hu, hblurs, hblurred⟩
  · -- the keys were blurred before
    obtain ⟨d', target', u, hcall', hid', hu, hblurs, v, w, hv, hw, hnear, hnear'⟩ :=
      h (hoid.trans (hdid.symm.trans hsameId)) hoe
    refine ⟨d', target', u, hcall', ?_, hu, hblurs, ?_⟩
    · rw [hid', id?_stamp, hoid, hdid]
    · rw [hsteady]
      cases hkey : c.partitionOf d with
      | none =>
        rw [hv, hkey] at hosame
        cases hosame
      | value k =>
        rw [hv, hkey] at hosame
        exact ⟨k, w, rfl, hw, hnear.trans (Value.near_of_equals hosame hnear.symm.isNumber), hnear'⟩
  · -- this upsert blurs them
    refine ⟨d, target, u, hcall, (id?_stamp _ _ _).symm, hu, hblurs, ?_⟩
    obtain ⟨v, w, -, hw, hnear, hnear'⟩ := hblurred
    rw [hsteady, hu]
    exact ⟨u, w, rfl, hw, hnear.trans hnear.symm, hnear'⟩

end Collection

namespace Store

open Collection (Apart Crossed Unstamped)

/-! ## Runs -/

/-- **Calls keep records apart.** -/
theorem kept_apart (settings : Settings) (calls : List Call) :
    Kept settings calls fun name c => c.Steady → c.records.Pairwise (Apart calls name c) where
  empty _ _ _ := .nil
  added := by
    intro name c d id n h hid hnone hsteady
    refine List.pairwise_append.mpr ⟨h hsteady, List.pairwise_singleton _ _, ?_⟩
    intro e he new hnew
    obtain rfl := List.mem_singleton.mp hnew
    exact Collection.apart_of_not_isAt hsteady hid (Collection.position?_eq_none_iff.mp hnone e he)
  replaced := by
    intro name c d target id place n hcall h hid hplace hsteady
    obtain ⟨before, o, behind, hrecords, rfl, hold, hbefore⟩ :=
      Collection.parts_of_position? hplace
    have hapart := h hsteady
    rw [hrecords] at hapart
    obtain ⟨hfront, hback, hacross⟩ := List.pairwise_append.mp hapart
    obtain ⟨ho, hbehind⟩ := List.pairwise_cons.mp hback
    rw [Collection.records_replace hrecords]
    refine List.pairwise_append.mpr ⟨hfront, List.pairwise_cons.mpr ⟨?_, hbehind⟩, ?_⟩
    · intro e he
      exact (ho e he).replaced hsteady hcall hid hold
    · intro e he new hnew
      rcases List.mem_cons.mp hnew with rfl | hnew
      · -- the place is that of the first record with an equal key
        exact Collection.apart_of_not_isAt hsteady hid (hbefore e he)
      · exact hacross e he new (List.mem_cons_of_mem _ hnew)
  erased := by
    intro name c place h hsteady
    exact (h hsteady).sublist (List.eraseIdx_sublist _ _)

/-- **One record for an id in a partition.**  After any calls, in a collection with partitions that
no write changes: outside partitions no two records have one id, and within them two records of one
id have keys that are not equal, unless an upsert brought a number that is no integer, equals
integers that differ, and that both keys equal after rounding.  It does not matter which of two keys
is compared with the other. -/
theorem one_for_id_and_partition (settings : Settings) (calls : List Call) {name : String}
    {c : Collection} (hc : (after settings calls {}).collection? name = some c)
    (hpath : c.Unstamped) :
    (c.properties.partitionPath = none → c.records.Pairwise fun d e => d.id? ≠ e.id?)
    ∧ (c.records.Pairwise fun d e => d.id? = e.id? →
      (c.partitionOf d).same (c.partitionOf e) = true → Crossed calls name c d e)
    ∧ ∀ key key' : PartitionKey, key.WellFormed → key'.WellFormed → key.same key' = key'.same key := by
  have hapart : c.records.Pairwise (Apart calls name c) :=
    (kept_apart settings calls).after name c hc hpath.steady
  refine ⟨?_, hapart, ?_⟩
  · intro hnone
    refine hapart.imp fun {d e} h hid => ?_
    have hkey : ∀ r, c.partitionOf r = .none := Collection.partitionOf_of_unpartitioned hnone
    have hsame : (c.partitionOf d).same (c.partitionOf e) = true := by
      rw [hkey, hkey]
      rfl
    -- there is no key to be blurred
    obtain ⟨_, _, _, -, -, -, -, v, _, hv, -⟩ := h hid hsame
    rw [hkey] at hv
    cases hv
  · intro key key' hkey hkey'
    exact Bool.eq_iff_iff.mpr ⟨PartitionKey.same_symm hkey hkey', PartitionKey.same_symm hkey' hkey⟩

/-- Parts on shelves, with shelf numbers of several types; the first part changes the type of its
number. -/
def shelving : List Call :=
  [.register "parts" (some "shelf"),
    .seed "parts" [[("id", .text "a"), ("shelf", .int32 1)], [("id", .text "a"), ("shelf", .int64 2)],
      [("id", .text "b"), ("shelf", .int64 1)]],
    .upsert "parts" [("id", .text "a"), ("shelf", .int64 1)] ⟨.value (.int32 1), none⟩]

/-- The collection then. -/
def parts : Collection where
  properties := ⟨"parts", some "shelf", 400⟩
  records :=
    [[("id", .text "a"), ("shelf", .int64 1), ("_etag", .text "3"), ("_ts", .int64 0)],
      [("id", .text "a"), ("shelf", .int64 2), ("_etag", .text "1"), ("_ts", .int64 0)],
      [("id", .text "b"), ("shelf", .int64 1), ("_etag", .text "2"), ("_ts", .int64 0)]]

/-- No upsert brought a rounded number, so no part is there twice. -/
theorem one_for_id_and_partition_parts :
    (after numbering shelving {}).collection? "parts" = some parts
    ∧ parts.records.Pairwise fun d e => d.id? = e.id? →
      (parts.partitionOf d).same (parts.partitionOf e) = false := by
  have hc : (after numbering shelving {}).collection? "parts" = some parts := rfl
  have hpath : parts.Unstamped := by
    rintro path ⟨⟩
    exact ⟨by decide, by decide⟩
  obtain ⟨-, hapart, -⟩ := one_for_id_and_partition numbering shelving hc hpath
  refine ⟨hc, hapart.imp fun {d e} h hid => ?_⟩
  cases hsame : (parts.partitionOf d).same (parts.partitionOf e) with
  | false => rfl
  | true =>
    obtain ⟨d', target, u, hcall, -, hu, ⟨hint, -⟩, -⟩ := h hid hsame
    simp only [shelving, List.mem_cons, List.not_mem_nil, or_false, reduceCtorEq, false_or,
      Call.upsert.injEq] at hcall
    obtain ⟨-, rfl, -⟩ := hcall
    -- its key is an integer
    obtain rfl : Value.int64 1 = u := PartitionKey.value.inj hu
    cases hint

/-- Two parts of one id on shelves whose numbers differ by one, beyond what a rounded number can
tell apart; then the first comes to a shelf of the rounded number. -/
def crossing : List Call :=
  [.register "parts" (some "shelf"),
    .seed "parts" [[("id", .text "a"), ("shelf", .int64 9007199254740992)],
      [("id", .text "a"), ("shelf", .int64 9007199254740993)]],
    .upsert "parts" [("id", .text "a"), ("shelf", .double ⟨0x4340000000000000⟩)]
      ⟨.value (.double ⟨0x4340000000000000⟩), none⟩]

/-- The collection then. -/
def crossed : Collection where
  properties := ⟨"parts", some "shelf", 400⟩
  records :=
    [[("id", .text "a"), ("shelf", .double ⟨0x4340000000000000⟩), ("_etag", .text "2"),
        ("_ts", .int64 0)],
      [("id", .text "a"), ("shelf", .int64 9007199254740993), ("_etag", .text "1"),
        ("_ts", .int64 0)]]

/-- Both parts are on one shelf. -/
theorem two_for_id_and_partition :
    (after numbering crossing {}).collection? "parts" = some crossed ∧ crossed.Unstamped
    ∧ crossed.isPartitioned = true
    ∧ ¬ crossed.records.Pairwise fun d e => ¬ (d.id? = e.id?
      ∧ (crossed.partitionOf d).same (crossed.partitionOf e) = true) := by
  refine ⟨rfl, ?_, rfl, ?_⟩
  · rintro path ⟨⟩
    exact ⟨by decide, by decide⟩
  · intro h
    obtain ⟨hfirst, -⟩ := List.pairwise_cons.mp h
    exact hfirst _ List.mem_cons_self ⟨rfl, by decide +kernel⟩

end Store

end DocQuery
