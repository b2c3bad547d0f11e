/-
  What is known about an entity type, derived from its declaration once and kept.

  A field that a partition key is taken from may not be blank, and there is at most one.  The
  cache carries the proof that what it keeps is what would be derived, and to keep something is
  to give that proof, so a look-up never has to be argued for again.

  1. `Metadata`: the checked form of a declaration;
  2. `MetadataCache`: derived metadata by declaration; faults are not kept, and what is kept is
     what would be derived.
-/
import DocQuery.Backend
import DocQuery.Entity

namespace DocQuery

/-- A checked declaration. -/
structure Metadata where
  collection : String
  partitionField : Option String := none
  versioned : Bool := false
  requestUnits : Nat := defaultRequestUnits
deriving DecidableEq, Repr

namespace Metadata

/-- The field that a partition key is taken from, out of those declared. -/
def partitionFieldOf : List String → Except ArgumentFault (Option String)
  | [] => .ok none
  | [field] => do
    requireText "partition key field" field
    .ok (some field)
  | fields => .error (.manyPartitionFields fields.length)

/-- Metadata of entities in a collection, with defaults for all else. -/
def ofCollection (collection : String) : Except ArgumentFault Metadata := do
  requireText "collection name" collection
  .ok { collection }

/-- Derive the metadata of a declaration. -/
def ofDeclaration (d : EntityDeclaration) : Except ArgumentFault Metadata := do
  let m ← ofCollection d.collection
  let partitionField ← partitionFieldOf d.partitionFields
  .ok { m with partitionField, versioned := d.versioned, requestUnits := d.requestUnits }

/-- The fields that the partition key is taken from. -/
def partitionFields (m : Metadata) : List String :=
  m.partitionField.toList

/-- The collection that fits the entities. -/
def properties (m : Metadata) : CollectionProperties :=
  ⟨m.collection, m.partitionField, m.requestUnits⟩

end Metadata

/-! ## The cache -/

/-- Derived metadata by declaration, and how often something was derived. -/
structure MetadataCache where
  entries : List (EntityDeclaration × Metadata)
  /-- a counter of sixty-four bits would wrap behind `2 ^ 64 - 1`; here fewer derivations than
  that are meant, so that the number is the count -/
  derivations : Nat
  /-- what is kept is what would be derived -/
  sound : ∀ e ∈ entries, Metadata.ofDeclaration e.1 = .ok e.2
deriving Repr

namespace MetadataCache

/-- Nothing is kept, and so much was derived. -/
def forgetful (derivations : Nat) : MetadataCache where
  entries := []
  derivations := derivations
  sound := List.forall_mem_nil _

def empty : MetadataCache := forgetful 0

instance : EmptyCollection MetadataCache := ⟨empty⟩

/-- What is kept for a declaration. -/
def kept? (c : MetadataCache) (d : EntityDeclaration) : Option Metadata :=
  (c.entries.find? fun e => e.1 = d).map Prod.snd

/-- Keep what was derived. -/
def keep (c : MetadataCache) (d : EntityDeclaration) (m : Metadata)
    (h : Metadata.ofDeclaration d = .ok m) : MetadataCache where
  entries := c.entries ++ [(d, m)]
  derivations := c.derivations + 1
  sound := by
    intro e he
    rcases List.mem_append.mp he with he | he
    · exact c.sound e he
    · rw [List.mem_singleton.mp he]
      exact h

/-- The metadata of a declaration, derived if it is not kept. -/
def get (d : EntityDeclaration) (c : MetadataCache) :
    Except ArgumentFault Metadata × MetadataCache :=
  match c.kept? d with
  | some m => (.ok m, c)
  | none =>
    match h : Metadata.ofDeclaration d with
    | .error f => (.error f, c)
    | .ok m => (.ok m, c.keep d m h)

/-- What is kept for a declaration is what would be derived from it. -/
theorem ofDeclaration_of_kept {c : MetadataCache} {d : EntityDeclaration} {m : Metadata}
    (h : c.kept? d = some m) : Metadata.ofDeclaration d = .ok m := by
  obtain ⟨e, hfind, rfl⟩ := Option.map_eq_some_iff.mp h
  have hkey : e.1 = d := by simpa using List.find?_some hfind
  rw [← hkey]
  exact c.sound e (List.mem_of_find?_eq_some hfind)

/-- Whatever is kept, the answer is what the declaration says. -/
theorem get_fst (d : EntityDeclaration) (c : MetadataCache) :
    (c.get d).1 = Metadata.ofDeclaration d := by
  rw [get]
  split
  · rename_i h
    exact (ofDeclaration_of_kept h).symm
  · split
    · rename_i h
      exact h.symm
    · rename_i h
      exact h.symm

/-- Forget what is kept, but not how often something was derived. -/
def clear (c : MetadataCache) : MetadataCache :=
  forgetful c.derivations

def size (c : MetadataCache) : Nat := c.entries.length

def isEmpty (c : MetadataCache) : Bool := c.entries.isEmpty

end MetadataCache

end DocQuery
