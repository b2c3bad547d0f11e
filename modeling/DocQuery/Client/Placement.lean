/-
  Where a record goes: its partition, and the version it is written over.

  The partition is read off the record, unless a key is given: it is what stands at the end of
  the path that the metadata names, and a record with nothing there, or null, has no place.
  `fieldAt` goes down from the value of the first key.  A store looks for its partition field
  with `Document.walk` instead, so there are two walks along one path, and `fieldAt_eq_walk` says
  that they come to the same value.
-/
import DocQuery.Metadata

namespace DocQuery

/-- What a value holds under some keys, each in the document under the one before. -/
def Value.under (v : Value) : List String → Option Value
  | [] => some v
  | key :: rest =>
    match v with
    | .doc inner => (Fields.get? inner key).bind fun w => w.under rest
    | _ => none

namespace Document

/-- The value at the end of a path through nested documents, however long. -/
def fieldAt (d : Document) (path : String) : Option Value :=
  match segments path with
  | [] => none
  | first :: rest => (d.get? first).bind fun v => v.under rest

theorem walk_cons (d : Document) (key : String) (rest : List String) :
    d.walk (key :: rest) = (d.get? key).bind fun v => v.under rest := by
  induction rest generalizing d key with
  | nil => exact (Option.bind_fun_some (d.get? key)).symm
  | cons next rest ih =>
    rw [walk]
    · cases d.get? key with
      | none => rfl
      | some v =>
        cases v with
        | doc inner => exact ih inner next
        | _ => rfl
    · exact List.cons_ne_nil next rest

/-- Going down from the value of the first key is going down through the documents. -/
theorem fieldAt_eq_walk (d : Document) (path : String) :
    d.fieldAt path = d.walk (segments path) := by
  rw [fieldAt]
  cases segments path with
  | nil => rfl
  | cons first rest => exact (walk_cons d first rest).symm

/-- The id of a record that is sent to a backend. -/
def entityId (d : Document) : Except ArgumentFault String :=
  match d.id? with
  | some id => if Text.isBlank id then .error .blankEntityId else .ok id
  | none => .error .blankEntityId

end Document

namespace Metadata

/-- The version that a stored record must have to be written over. -/
def expectedVersion (m : Metadata) (d : Document) : Option String :=
  if m.versioned then d.version? else none

/-- The partition of a record: the one given, or that of its partition field. -/
def partitionKey (m : Metadata) (d : Document) :
    Option PartitionKey → Except ArgumentFault PartitionKey
  | some key => .ok key
  | none =>
    match m.partitionField with
    | none => .ok .none
    | some field =>
      match d.fieldAt field with
      | none | some .null => .error (.noPartitionField field m.collection)
      | some v => .ok (.value v)

/-- Where a record goes. -/
def placement (m : Metadata) (d : Document) (explicit : Option PartitionKey) :
    Except ArgumentFault Placement := do
  let key ← m.partitionKey d explicit
  .ok ⟨key, m.expectedVersion d⟩

end Metadata

end DocQuery
