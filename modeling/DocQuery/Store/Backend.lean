/-
  A store as a backend.
-/
import DocQuery.Store.Query
import DocQuery.Store.Write

namespace DocQuery.Store

/-- Faults as a backend reports them. -/
def reported {ρ : Type} : Except Fault ρ → Except BackendError ρ
  | .ok r => .ok r
  | .error f => .error f.error

/-- A call that may change the store. -/
def changing {ρ : Type} (f : Store → Except Fault ρ × Store) : BackendCall Store ρ :=
  fun s => (reported (f s).1, (f s).2)

/-- A call that only looks. -/
def looking {ρ : Type} (f : Store → Except Fault ρ) : BackendCall Store ρ :=
  fun s => (reported (f s), s)

/-- Records in all collections. -/
def size (s : Store) : Nat :=
  (s.collections.flatMap fun c => c.2.records).length

/-- A store as a backend.  Every answer with a continuation moves on by a record at least, so
the number of records bounds the length of a chain. -/
def backend (settings : Settings) : Backend Store where
  query name statement options := looking (query settings name statement options)
  create name d target := changing (create settings name d target)
  upsert name d target := changing (upsert settings name d target)
  read name id key := looking (read name id key)
  delete name id target := changing (delete name id target)
  createCollection properties := changing (createCollection properties)
  deleteCollection name := changing (deleteCollection name)
  rounds s := s.size + 1

end DocQuery.Store
