/-
  Which queries a store refuses for the partitions of their matches.

  A store tells partitions apart in two ways.  Where a record is asked for by its key, keys are
  compared by value.  Where a query may not fan out, the keys of its matches are compared by how
  they read.  The two agree on keys whose text says what they are: nothing, truth values, integers
  of either width, texts, symbols, object ids and the few values that stand alone.  Beyond those
  they part both ways.  The number `1.0` and the integer `1` lie in one partition and read
  differently; the code `1` and the integer `1` lie in two and read alike.

  1. `Store.refused_iff_spansPartitions`: the queries that are refused, for keys of any kind;
  2. `Mark`: what a key says, and `Mark.read_injective`: that its text says it;
  3. `PartitionKey.same_iff_display`: where the two ways agree;
  4. `Store.refused_iff_partitions_differ`: there, what is refused is to span partitions.
-/
import DocQuery.Proofs.Equality
import DocQuery.Proofs.Numerals
import DocQuery.Proofs.Parameters
import DocQuery.Proofs.Partitions
import DocQuery.Proofs.Versions

namespace DocQuery

/-! ## Refusals -/

namespace Store

open Dialect (Select Bound)

/-- Texts do not differ if all of them are one text. -/
theorem differ_eq_false_iff {ts : List String} : differ ts = false ↔ ts.Pairwise (· = ·) := by
  cases ts with
  | nil => exact ⟨fun _ => .nil, fun _ => rfl⟩
  | cons t ts =>
    constructor
    · intro h
      rw [differ, List.any_eq_false] at h
      have hall : ∀ u ∈ ts, u = t := by
        intro u hu
        simpa using h u hu
      refine List.pairwise_cons.mpr ⟨fun u hu => (hall u hu).symm, ?_⟩
      exact List.pairwise_of_forall_mem_list fun u hu w hw => (hall u hu).trans (hall w hw).symm
    · intro h
      have hall := (List.pairwise_cons.mp h).1
      refine differ_of_all (t := t) (List.forall_mem_cons.mpr ⟨rfl, ?_⟩)
      intro u hu
      exact (hall u hu).symm

/-- Two different elements of a list stand at two places of it. -/
theorem not_pairwise_iff {α : Type} {R : α → α → Prop} {xs : List α} :
    ¬ xs.Pairwise R ↔ ∃ a b, [a, b].Sublist xs ∧ ¬ R a b := by
  rw [List.pairwise_iff_forall_sublist]
  simp only [not_forall, exists_prop]

/-- Records span partitions if two of them have keys of different display; that all keys are
compared with the first of them comes to the same. -/
theorem spansPartitions_iff {c : Collection} {ds : List Document} :
    spansPartitions c ds = true ↔ ∃ a b, [a, b].Sublist ds
      ∧ (c.partitionOf a).display ≠ (c.partitionOf b).display := by
  rw [← Bool.not_eq_false, spansPartitions, differ_eq_false_iff, List.pairwise_map,
    not_pairwise_iff]

section Refused

variable {settings : Settings} {s : Store} {name : String} {c : Collection} {q : Select}
  {statement : Statement} {options : QueryOptions} {ds : List Document}

/-- A query that may not fan out is refused if its matches read as of several partitions, and
for no other reason in the same words. -/
theorem refused_iff_spansPartitions (hc : s.collection? name = some c)
    (hpart : c.isPartitioned = true) (hq : Select.ofText statement.text = .ok q)
    (hcross : options.crossPartition = false) (hds : matching c q statement = .ok ds) :
    query settings name statement options s = .error .manyPartitions
      ↔ spansPartitions c ds = true := by
  have hmatched : matched s name q statement options.crossPartition
      = if spansPartitions c ds then .error .manyPartitions else .ok ds := by
    simp only [matched, hc, hds, bind, Except.bind, hcross, hpart, Bool.not_false, Bool.true_and]
  cases hspan : spansPartitions c ds with
  | true =>
    rw [hspan] at hmatched
    exact ⟨fun _ => rfl, fun _ => query_of_fault settings hq hmatched⟩
  | false =>
    rw [hspan] at hmatched
    refine ⟨fun h => ?_, fun h => by cases h⟩
    cases hd : deliver settings q options ds with
    | ok part =>
      obtain ⟨a, ha, -⟩ := query_of_matched settings hq hmatched hd
      rw [ha] at h
      cases h
    | error f =>
      obtain ⟨token, rfl⟩ := fault_of_deliver settings hd
      have hquery : query settings name statement options s
          = .error (.badContinuation token) := by
        simp only [query, hq, hc, hds, hd, hcross, hpart, hspan, bind, Except.bind]
        rfl
      rw [hquery] at h
      cases h

end Refused

end Store

/-! ## Keys that read as what they are -/

/-- What a key says to a reader. -/
inductive Mark where
  | nothing
  | truth (b : Bool)
  /-- an integer of either width -/
  | whole (n : Int)
  | text (s : String)
  | symbol (s : String)
  | objectId (bytes : List UInt8)
  | least
  | greatest
  | undefined
deriving DecidableEq, Repr

namespace Mark

/-- The text by which a mark is told. -/
def read : Mark → String
  | nothing => "<none>"
  | truth b => if b then "true" else "false"
  | whole n => Text.ofInt n
  | text s => "\"" ++ s ++ "\""
  | symbol s => "Symbol(\"" ++ s ++ "\")"
  | objectId bytes => "ObjectId(\"" ++ Text.hexOfBytes bytes ++ "\")"
  | least => "MinKey"
  | greatest => "MaxKey"
  | undefined => "undefined"

/-- The kind of a mark, from the beginning of its text. -/
def kindOf : List Char → Nat
  | '<' :: _ => 0
  | 't' :: _ => 1
  | 'f' :: _ => 1
  | '"' :: _ => 2
  | 'S' :: _ => 3
  | 'O' :: _ => 4
  | 'M' :: 'i' :: _ => 5
  | 'M' :: 'a' :: _ => 6
  | 'u' :: _ => 7
  | _ => 8

def kind : Mark → Nat
  | nothing => 0
  | truth _ => 1
  | text _ => 2
  | symbol _ => 3
  | objectId _ => 4
  | least => 5
  | greatest => 6
  | undefined => 7
  | whole _ => 8

/-- A text that starts like an integer is of the kind of the whole numbers. -/
theorem kindOf_integer {c : Char} (cs : List Char) (h : Text.startsInteger c = true) :
    kindOf (c :: cs) = 8 := by
  unfold kindOf
  split
  case h_10 => rfl
  all_goals
    rename_i heq
    cases heq
    exact absurd h (by decide)

/-- The beginning of its text tells the kind of a mark. -/
theorem kindOf_read (m : Mark) : kindOf m.read.toList = m.kind := by
  cases m with
  | truth b => cases b <;> rfl
  | whole n =>
    obtain ⟨c, cs, hcs, hc⟩ := Text.ofInt_head n
    rw [read, hcs]
    exact kindOf_integer cs hc
  | text s | symbol s | objectId bytes =>
    rw [read, String.append_assoc, String.toList_append]
    rfl
  | _ => rfl

/-- **Two marks never share a text.** -/
theorem read_injective : Function.Injective read := by
  intro m n h
  have hkind : m.kind = n.kind := by
    rw [← kindOf_read, ← kindOf_read, h]
  -- texts of different kinds begin differently, so only like kinds are left
  cases m <;> cases n <;> cases hkind
  case truth.truth b c => cases b <;> cases c <;> first | rfl | exact absurd h (by decide)
  case whole.whole m n => rw [Text.ofInt_injective h]
  case text.text s t =>
    rw [read, read, String.append_left_inj, String.append_right_inj] at h
    rw [h]
  case symbol.symbol s t =>
    rw [read, read, String.append_left_inj, String.append_right_inj] at h
    rw [h]
  case objectId.objectId xs ys =>
    rw [read, read, String.append_left_inj, String.append_right_inj] at h
    rw [Text.hexOfBytes_injective h]
  all_goals rfl

end Mark

namespace PartitionKey

variable {a b : PartitionKey} {m n : Mark}

/-- Keys that read as what they are, and as what. -/
inductive Says : PartitionKey → Mark → Prop
  | nothing : Says none .nothing
  | truth (b : Bool) : Says (value (.bool b)) (.truth b)
  | whole {v : Value} {n : Int} (h : v.int? = some n) : Says (value v) (.whole n)
  | text (s : String) : Says (value (.text s)) (.text s)
  | symbol (s : String) : Says (value (.symbol s)) (.symbol s)
  | objectId (bytes : List UInt8) : Says (value (.objectId bytes)) (.objectId bytes)
  | least : Says (value .minKey) .least
  | greatest : Says (value .maxKey) .greatest
  | undefined : Says (value .undefined) .undefined

/-- Whether a key reads as what it is. -/
def Legible (a : PartitionKey) : Prop :=
  ∃ m, a.Says m

/-- A key that says something displays as what it says. -/
theorem Says.display_eq (h : a.Says m) : a.display = m.read := by
  cases h with
  | @whole v n hv => cases v <;> first | (cases hv; rfl) | cases hv
  | _ => rfl

/-- Keys that say something and are the same say the same. -/
theorem Says.eq_of_same (ha : a.Says m) (hb : b.Says n) (h : a.same b = true) : m = n := by
  cases ha with
  | nothing => cases hb <;> first | rfl | cases h
  | whole hv =>
    cases hb with
    | nothing => cases h
    | whole hw => rw [(Value.equals_iff_of_int? hv hw).mp h]
    | _ =>
      have hnumber := Value.isNumber_of_equals h
      rw [Value.isNumber_of_int? hv] at hnumber
      cases hnumber
  | _ =>
    cases hb with
    | whole hw =>
      have hnumber := Value.isNumber_of_equals h
      rw [Value.isNumber_of_int? hw] at hnumber
      cases hnumber
    | _ => first | rfl | rw [eq_of_beq h] | cases h

/-- Keys that say the same are the same. -/
theorem Says.same (ha : a.Says m) (hb : b.Says m) : a.same b = true := by
  cases ha <;> cases hb
  case whole.whole v n hv w hw => exact (Value.equals_iff_of_int? hv hw).mpr rfl
  all_goals first | rfl | exact beq_self_eq_true _

/-- **Such keys name one partition exactly if they read alike.** -/
theorem same_iff_display (ha : a.Legible) (hb : b.Legible) :
    a.same b = true ↔ a.display = b.display := by
  obtain ⟨m, hm⟩ := ha
  obtain ⟨n, hn⟩ := hb
  rw [hm.display_eq, hn.display_eq]
  constructor
  · intro h
    rw [hm.eq_of_same hn h]
  · intro h
    rw [← Mark.read_injective h] at hn
    exact hm.same hn

end PartitionKey

/-! ## Refusals and partitions -/

namespace Store

open Dialect (Select Bound)

/-- Over legible keys, matches read as of several partitions if two of them lie in different
ones. -/
theorem spansPartitions_iff_of_legible {c : Collection} {ds : List Document}
    (h : ∀ d ∈ ds, (c.partitionOf d).Legible) :
    spansPartitions c ds = true ↔ ∃ a b, [a, b].Sublist ds
      ∧ (c.partitionOf a).same (c.partitionOf b) = false := by
  rw [spansPartitions_iff]
  have hagree : ∀ a b, [a, b].Sublist ds →
      ((c.partitionOf a).display ≠ (c.partitionOf b).display
        ↔ (c.partitionOf a).same (c.partitionOf b) = false) := by
    intro a b hab
    have ha : a ∈ ds := hab.mem (by simp)
    have hb : b ∈ ds := hab.mem (by simp)
    rw [← not_iff_not, Bool.not_eq_false, not_not]
    exact (PartitionKey.same_iff_display (h a ha) (h b hb)).symm
  constructor
  · rintro ⟨a, b, hab, hne⟩
    exact ⟨a, b, hab, (hagree a b hab).mp hne⟩
  · rintro ⟨a, b, hab, hne⟩
    exact ⟨a, b, hab, (hagree a b hab).mpr hne⟩

/-- **What a store refuses for the partitions of its matches.**  A query that may not fan out,
whose parameters all have values, has its matches.  It is refused exactly if two of them have keys
that read differently; and where all the keys are legible, exactly if two of them lie in different
partitions. -/
theorem refused_iff_partitions_differ (settings : Settings) {s : Store} {name : String}
    {c : Collection} {q : Select} {statement : Statement} {options : QueryOptions}
    (hc : s.collection? name = some c) (hpart : c.isPartitioned = true)
    (hq : Select.ofText statement.text = .ok q)
    (hbound : Bound statement.parameter? q.parameters) (hcross : options.crossPartition = false) :
    ∃ ds, matching c q statement = .ok ds
      ∧ (query settings name statement options s = .error .manyPartitions
          ↔ ∃ a b, [a, b].Sublist ds
            ∧ (c.partitionOf a).display ≠ (c.partitionOf b).display)
      ∧ ((∀ d ∈ ds, (c.partitionOf d).Legible) →
          (query settings name statement options s = .error .manyPartitions
            ↔ ∃ a b, [a, b].Sublist ds
              ∧ (c.partitionOf a).same (c.partitionOf b) = false)) := by
  obtain ⟨ds, hds⟩ := Select.matching_ok hbound c.records
  have hmatching : matching c q statement = .ok ds := by rw [matching, hds]
  have hrefused : query settings name statement options s = .error .manyPartitions
      ↔ spansPartitions c ds = true :=
    refused_iff_spansPartitions hc hpart hq hcross hmatching
  refine ⟨ds, hmatching, ?_, ?_⟩
  · rw [hrefused, spansPartitions_iff]
  · intro hlegible
    rw [hrefused, spansPartitions_iff_of_legible hlegible]

/-- Goods that are kept by size. -/
def sized (records : List Document) : Collection :=
  ⟨⟨"goods", some "size", defaultUnits⟩, records⟩

def holding (c : Collection) : Store :=
  ⟨[("goods", c)], 0⟩

/-- Goods of one size, by an integer, a wide one and a text. -/
def goods : Collection :=
  sized [[("id", .text "a"), ("size", .int32 1)], [("id", .text "b"), ("size", .int64 1)],
    [("id", .text "c"), ("size", .text "1")]]

/-- Who asks for one of the sizes. -/
def ofSize : Query :=
  ⟨.compare .eq "size" (.int32 1), none, []⟩

/-- The width of an integer does not matter, so goods of one size lie in one partition. -/
theorem refused_iff_partitions_differ_goods :
    Statement.ofQuery .find ofSize
        = .ok ⟨"SELECT * FROM ROOT r WHERE r.size = @p0", [("@p0", .int32 1)]⟩
    ∧ query numbering "goods" ⟨"SELECT * FROM ROOT r WHERE r.size = @p0", [("@p0", .int32 1)]⟩ {}
        (holding goods) ≠ .error .manyPartitions := by
  have hst : Statement.ofQuery .find ofSize
      = .ok ⟨"SELECT * FROM ROOT r WHERE r.size = @p0", [("@p0", .int32 1)]⟩ := rfl
  have hbound : Bound (Statement.mk "" [("@p0", .int32 1)]).parameter?
      (ofSize.select .find).parameters := by
    intro name hname
    obtain rfl := List.mem_singleton.mp hname
    rfl
  have hheld : (holding goods).collection? "goods" = some goods := rfl
  have hcross : ({} : QueryOptions).crossPartition = false := rfl
  obtain ⟨ds, hds, -, hrefused⟩ :=
    refused_iff_partitions_differ numbering hheld rfl (Dialect.ofText_written hst) hbound hcross
  have hfound : matching goods (ofSize.select .find)
      ⟨"SELECT * FROM ROOT r WHERE r.size = @p0", [("@p0", .int32 1)]⟩
      = .ok (goods.records.take 2) := rfl
  obtain rfl : goods.records.take 2 = ds := Except.ok.inj (hfound.symm.trans hds)
  have hlegible : ∀ d ∈ goods.records.take 2, (goods.partitionOf d).Legible :=
    List.forall_mem_cons.mpr ⟨⟨_, .whole rfl⟩, List.forall_mem_singleton.mpr ⟨_, .whole rfl⟩⟩
  refine ⟨hst, fun h => ?_⟩
  obtain ⟨a, b, hab, hne⟩ := (hrefused hlegible).mp h
  have hpairs : (goods.records.take 2).Pairwise fun a b =>
      (goods.partitionOf a).same (goods.partitionOf b) = true := by decide +kernel
  rw [List.pairwise_iff_forall_sublist.mp hpairs hab] at hne
  cases hne

/-- Goods of one size, by an integer and by a decimal. -/
def sameSize : Collection :=
  sized [[("id", .text "a"), ("size", .int32 1)],
    [("id", .text "b"), ("size", .decimal (.encode (.finite false 10 (-1))))]]

/-- Goods of an integer for a size, and of code. -/
def otherSize : Collection :=
  sized [[("id", .text "a"), ("size", .int32 1)], [("id", .text "b"), ("size", .code "1")]]

/-- Who asks for all. -/
def everything : Statement :=
  ⟨"SELECT * FROM ROOT r", []⟩

/-- **Refusals part from partitions both ways**: a query is refused though its matches lie in one
partition, and one whose matches lie in two is not. -/
theorem refusals_part_from_partitions :
    Select.ofText everything.text = .ok ⟨.all, none, []⟩
    ∧ (matching sameSize ⟨.all, none, []⟩ everything = .ok sameSize.records
      ∧ query numbering "goods" everything {} (holding sameSize) = .error .manyPartitions
      ∧ ¬ ∃ a b, [a, b].Sublist sameSize.records
        ∧ (sameSize.partitionOf a).same (sameSize.partitionOf b) = false)
    ∧ (matching otherSize ⟨.all, none, []⟩ everything = .ok otherSize.records
      ∧ query numbering "goods" everything {} (holding otherSize) ≠ .error .manyPartitions
      ∧ ∃ a b, [a, b].Sublist otherSize.records
        ∧ (otherSize.partitionOf a).same (otherSize.partitionOf b) = false) := by
  have hst : Statement.ofQuery .find ⟨.all, none, []⟩ = .ok everything := rfl
  have hq : Select.ofText everything.text = .ok ⟨.all, none, []⟩ := Dialect.ofText_written hst
  refine ⟨hq, ⟨rfl, ?_, ?_⟩, rfl, ?_, ?_⟩
  · rw [refused_iff_spansPartitions (c := sameSize) rfl rfl hq rfl rfl]
    decide +kernel
  · rintro ⟨a, b, hab, hne⟩
    have hpairs : sameSize.records.Pairwise fun a b =>
        (sameSize.partitionOf a).same (sameSize.partitionOf b) = true := by decide +kernel
    rw [List.pairwise_iff_forall_sublist.mp hpairs hab] at hne
    cases hne
  · rw [Ne, refused_iff_spansPartitions (c := otherSize) rfl rfl hq rfl rfl]
    decide +kernel
  · exact ⟨_, _, .refl _, by decide +kernel⟩

end Store

end DocQuery
