/-
  A backend that is watched and prompted.

  Around any backend, a probe keeps a record of the calls and answers some of them from a
  script, so that what is built on a backend can be tried against answers that the backend
  itself would not give.
-/
import DocQuery.Backend

namespace DocQuery

/-- A call as a backend received it. -/
inductive RecordedCall where
  | query (collection : String) (statement : Statement) (options : QueryOptions)
  | create (collection : String) (record : Document) (target : Placement)
  | upsert (collection : String) (record : Document) (target : Placement)
  | read (collection id : String) (key : PartitionKey)
  | delete (collection id : String) (target : Placement)
  | createCollection (properties : CollectionProperties)
  | deleteCollection (collection : String)
deriving Repr

/-- An answer given in advance. -/
inductive Prompt where
  | fault (e : BackendError)
  | feed (records : List Document) (continuation : Option String)
  | item (record : Option Document)
deriving Repr

/-- What every prompted answer says besides. -/
structure PromptTerms where
  charge : Binary64
  requestUnits : Nat
deriving Repr

namespace Prompt

/-- A prompt as an answer to a query; without records unless it holds some. -/
def queryAnswer (terms : PromptTerms) : Prompt → Except BackendError QueryAnswer
  | fault e => .error e
  | feed records continuation => .ok { records, continuation, charge := terms.charge }
  | item _ => .ok { charge := terms.charge }

/-- A prompt as an answer about one record. -/
def recordAnswer (terms : PromptTerms) : Prompt → Except BackendError RecordAnswer
  | fault e => .error e
  | feed _ _ => .ok ⟨none, terms.charge⟩
  | item record => .ok ⟨record, terms.charge⟩

/-- A prompt as an answer about a collection, which then has no partitions. -/
def collectionAnswer (terms : PromptTerms) (name : String) :
    Prompt → Except BackendError CollectionAnswer
  | fault e => .error e
  | _ => .ok ⟨⟨name, none, terms.requestUnits⟩, terms.charge⟩

end Prompt

/-- The state of a backend with the calls so far, the latest first, and the answers to the
next calls; where the script has none, the backend answers. -/
structure Probed (σ : Type) where
  inner : σ
  calls : List RecordedCall := []
  script : List (Option Prompt) := []

namespace Backend

/-- Record a call, and answer it by the script or by the backend. -/
def watched {σ ρ : Type} (call : RecordedCall) (prompted : Prompt → Except BackendError ρ)
    (f : BackendCall σ ρ) : BackendCall (Probed σ) ρ := fun p =>
  let after : Probed σ := ⟨p.inner, call :: p.calls, p.script.drop 1⟩
  match p.script.head? with
  | some (some prompt) => (prompted prompt, after)
  | _ =>
    let (r, inner) := f p.inner
    (r, { after with inner })

/-- A backend with a probe around it. -/
def probed {σ : Type} (b : Backend σ) (terms : PromptTerms) : Backend (Probed σ) where
  query name statement options :=
    watched (.query name statement options) (Prompt.queryAnswer terms)
      (b.query name statement options)
  create name d target :=
    watched (.create name d target) (Prompt.recordAnswer terms) (b.create name d target)
  upsert name d target :=
    watched (.upsert name d target) (Prompt.recordAnswer terms) (b.upsert name d target)
  read name id key :=
    watched (.read name id key) (Prompt.recordAnswer terms) (b.read name id key)
  delete name id target :=
    watched (.delete name id target) (Prompt.recordAnswer terms) (b.delete name id target)
  createCollection properties :=
    watched (.createCollection properties) (Prompt.collectionAnswer terms properties.name)
      (b.createCollection properties)
  deleteCollection name :=
    watched (.deleteCollection name) (Prompt.collectionAnswer terms name) (b.deleteCollection name)
  rounds p := p.script.length + b.rounds p.inner

end Backend

end DocQuery
