/-
  The place of a record, said by three.

  A client takes the key of a partition from the field of the entity type, a store from the path of
  the collection, and a query looks at the field that its text names.  Each follows the path in a
  way of its own.  Along a path that they share they come to one value: so a record that is written
  goes to the partition it lies in.

  The three are written apart because the program has them apart: a client cuts its field at dots
  and takes null for nothing, a store cuts at slashes as well and gives up behind so many
  segments, and a query goes through the brackets of its text.  The proofs compare each of them
  with one walk along the same segments.

  1. `Criteria.subjects` and `Select.targets`: the fields that criteria name, and what their
     statement looks at, by `targets_condition` the same in the same order;
  2. `Collection.status_of_write`: what a record is refused for in its own partition;
  3. `Client.Unrefused`: writes that are not refused for their partition;
  4. `placed_alike`: client, store and queries together.
-/
import DocQuery.Proofs.Compilation
import DocQuery.Proofs.Catalogue
import DocQuery.Proofs.Observing

namespace DocQuery

/-! ## What a query looks at -/

/-- The fields that the leaves of criteria name, from left to right. -/
def Criteria.subjects (c : Criteria) : List String :=
  c.nodes.filterMap subject?

namespace Dialect

/-- The operands that the tests of a condition are about, from left to right. -/
def Condition.targets : Condition → List Operand
  | operand _ => []
  | not c => c.targets
  | and a b => a.targets ++ b.targets
  | or a b => a.targets ++ b.targets
  | compare left _ _ => [left]
  | oneOf target _ => [target]
  | call _ arguments => arguments.take 1

def Select.targets (q : Select) : List Operand :=
  q.condition.elim [] Condition.targets

/-- What the tests of a query are about in a record. -/
def Select.looks (q : Select) (scope : Scope) : List (Except Unbound (Option Value)) :=
  q.targets.map (Operand.value? scope)

end Dialect

namespace Criteria

open Dialect (Condition Operand Select)

mutual

/-- **A statement looks at the fields that its criteria name.** -/
theorem targets_condition : ∀ (c : Criteria) (next : Nat),
    (c.condition next).targets = c.subjects.map Operand.field
  | .all, _ => rfl
  | .compare _ _ _, _ => rfl
  | .oneOf _ _, _ => rfl
  | .startsWith _ _, _ => rfl
  | .contains _ _, _ => rfl
  | .isNull _, _ => rfl
  | .isNotNull _, _ => rfl
  | .not c, next => targets_condition c next
  | .and cs, next => by
    rw [condition, Condition.collect_chain Condition.targets (fun _ _ => rfl) rfl,
      targets_conditions cs next]
    rfl
  | .or cs, next => by
    rw [condition, Condition.collect_chain Condition.targets (fun _ _ => rfl) rfl,
      targets_conditions cs next]
    rfl

theorem targets_conditions : ∀ (cs : List Criteria) (next : Nat),
    (conditions next cs).flatMap Condition.targets
      = ((nodesList cs).filterMap subject?).map Operand.field
  | [], _ => rfl
  | c :: cs, next => by
    rw [conditions, List.flatMap_cons, targets_condition c next, targets_conditions cs, nodesList,
      List.filterMap_append, List.map_append]
    rfl

end

/-- A statement looks at the fields that the criteria of its query name, each along its path. -/
theorem targets_select (q : Query) (shape : Statement.Shape) :
    (q.select shape).targets = q.criteria.subjects.map Operand.field := by
  have hcondition : (q.select shape).condition = q.criteria.rootCondition := rfl
  rw [Select.targets, hcondition]
  by_cases hall : q.criteria = .all
  · rw [hall]
    rfl
  · rw [rootCondition_of_ne_all hall]
    exact targets_condition q.criteria 0

end Criteria

open Dialect (Scope Select)

/-- At each test of a field that criteria name, a statement looks at the value that has this key. -/
def Statement.LooksAt (statement : Statement) (criteria : Criteria) (field : String) (d : Document)
    (key : PartitionKey) : Prop :=
  ∃ select, Select.ofText statement.text = .ok select ∧
    ∀ k : Nat, criteria.subjects[k]? = some field →
      ∃ v, (select.looks ⟨d, statement.parameter?⟩)[k]? = some (Except.ok v) ∧ key = .ofField v

/-- What a compiled condition sees at a field is what the client sees there, where null counts as
nothing. -/
theorem Statement.looksAt {shape : Shape} {q : Query} {statement : Statement}
    (h : ofQuery shape q = .ok statement) (f : String) (d : Document) :
    statement.LooksAt q.criteria f d (.ofField (d.field? f)) := by
  refine ⟨q.select shape, Dialect.ofText_written h, fun k hk => ⟨d.field? f, ?_, rfl⟩⟩
  rw [Select.looks, Criteria.targets_select, List.map_map, List.getElem?_map, hk]
  rfl

/-! ## What is refused in its own partition -/

namespace Collection

variable {c : Collection} {d : Document} {id : String} {target : Placement}

/-- The partition of a record may be given for it if its key equals itself. -/
theorem checkPartition_own (h : ∀ v, c.partitionOf d = .value v → v.equals v = true) :
    c.checkPartition (c.partitionOf d) (c.partitionOf d) = .ok () := by
  have hsame : (c.partitionOf d).same (c.partitionOf d) = true := by
    cases hkey : c.partitionOf d with
    | none => rfl
    | value v => exact h v hkey
  rw [checkPartition, hsame, Bool.not_true, Bool.and_false]
  rfl

/-- A record with an id, sent to its partition, is refused for what is there, not for itself. -/
theorem status_of_write {stamp : Document → Document} {replacing : Bool} {fault : Store.Fault}
    (hid : d.requireId = .ok id)
    (hpartition : c.checkPartition (c.partitionOf d) target.partitionKey = .ok ())
    (h : c.write stamp replacing target d = .error fault) :
    fault.status ≠ BackendError.badRequest := by
  have hversion : ∀ {current : Option Document},
      checkVersion target.version current id = .error fault →
        fault.status ≠ BackendError.badRequest := by
    intro current hcheck
    rw [status_of_checkVersion hcheck]
    decide
  -- the two checks in front are passed, so what refused was the place or the version
  rw [write] at h
  rcases error_of_bind h with hnone | ⟨own, hown, h⟩
  · rw [hid] at hnone
    cases hnone
  obtain rfl : id = own := Except.ok.inj (hid.symm.trans hown)
  rcases error_of_bind h with hother | ⟨⟨⟩, -, h⟩
  · rw [hpartition] at hother
    cases hother
  cases hplace : c.position? id (c.partitionOf d) with
  | none =>
    rw [hplace] at h
    cases replacing with
    | false => cases h
    | true =>
      rcases error_of_bind h with hcheck | ⟨_, -, hwritten⟩
      · exact hversion hcheck
      · cases hwritten
  | some place =>
    rw [hplace] at h
    cases replacing with
    | false =>
      obtain rfl := Except.error.inj h
      exact (by decide : BackendError.conflict ≠ BackendError.badRequest)
    | true =>
      rcases error_of_bind h with hcheck | ⟨_, -, hwritten⟩
      · exact hversion hcheck
      · cases hwritten

end Collection

namespace Store

variable {settings : Settings} {s : Store} {name id : String} {c : Collection} {d : Document}
variable {target : Placement}

/-- On a store: a record that is written to its own partition is not refused as a bad request. -/
theorem status_of_write {replacing : Bool} {fault : Fault} (hc : s.collection? name = some c)
    (hid : d.requireId = .ok id)
    (hpartition : c.checkPartition (c.partitionOf d) target.partitionKey = .ok ())
    (h : (write settings replacing name d target s).1 = .error fault) :
    fault.status ≠ BackendError.badRequest := by
  rw [write, opened_of_collection? settings hc] at h
  simp only [hc] at h
  split at h
  · rename_i fault' hwrite
    obtain rfl := Except.error.inj h
    exact Collection.status_of_write hid hpartition hwrite
  · cases h

end Store

/-- The id of an entity is one that a store takes, too. -/
theorem Document.requireId_of_entityId {d : Document} {id : String} (h : d.entityId = .ok id) :
    d.requireId = .ok id := by
  rw [entityId] at h
  split at h
  · rename_i own hown
    split at h
    · cases h
    · rename_i hblank
      obtain rfl := Except.ok.inj h
      refine requireId_ok_iff.mpr ⟨hown, ?_⟩
      rintro rfl
      exact hblank rfl
  · cases h

/-! ## Writes -/

namespace Client

open Store (Fault Settings)

variable {α : Type} {settings : Settings} {database : String} {metrics : Bool} {s : Store}
variable {e : EntityType α} {m : Metadata} {c : Collection} {name : String}

/-- In no session over a store is a write refused for the partition of its record. -/
def Unrefused (x : Access Store α) (op : Operation) (s : Store) : Prop :=
  ∀ (session session' : Session Store) (given own : PartitionKey), session.backend = s →
    x.run session ≠ (.error (.translate op (Fault.otherPartition given own).error), session')

/-- What is not sent to a backend is not refused by it. -/
theorem mapError_ne_translate {φ : Type} {wrap : φ → AccessError}
    (hwrap : ∀ f, (wrap f).refused? = none) (r : Except φ α) (op : Operation) (f : BackendError) :
    r.mapError wrap ≠ .error (.translate op f) := by
  intro h
  obtain ⟨fault, -, heq⟩ := error_of_mapError h
  have hnone := hwrap fault
  rw [heq, AccessError.refused?_translate] at hnone
  cases hnone

/-- The call of a write is refused for what is there, if the record is sent to its partition. -/
theorem status_of_call {mode : WriteMode} {record : Document} {target : Placement} {id : String}
    {fault : BackendError} (hc : s.collection? name = some c) (hid : record.requireId = .ok id)
    (hpartition : c.checkPartition (c.partitionOf record) target.partitionKey = .ok ())
    (h : (mode.call (Store.backend settings) name record target s).1 = .error fault) :
    fault.status ≠ BackendError.badRequest := by
  have hcall : ∃ replacing, mode.call (Store.backend settings) name record target s
      = Store.changing (Store.write settings replacing name record target) s := by
    cases mode with
    | insert => exact ⟨false, rfl⟩
    | upsert => exact ⟨true, rfl⟩
  obtain ⟨replacing, hcall⟩ := hcall
  rw [hcall] at h
  cases hwrite : (Store.write settings replacing name record target s).1 with
  | ok answer =>
    rw [Store.changing, hwrite] at h
    cases h
  | error refusal =>
    rw [Store.changing, hwrite] at h
    obtain rfl := Except.error.inj h
    exact Store.status_of_write hc hid hpartition hwrite

/-- **A write that sends its record to the partition it lies in is not refused for that.** -/
theorem writeInto_unrefused {mode : WriteMode} {a : α} {key : Option PartitionKey}
    (hm : Metadata.ofDeclaration e.toEntityDeclaration = .ok m) (hc : s.collection? name = some c)
    (hpartition : ∀ record own, e.write a = .ok record → m.partitionKey record key = .ok own →
      c.checkPartition (c.partitionOf record) own = .ok ()) :
    Unrefused ((ofStore settings database metrics).writeInto e mode name a key) mode.operation
      s := by
  rintro session session' given own rfl hrun
  -- the steps in front of the call fail in ways of their own
  have hargument : ∀ f, (AccessError.invalidArgument f).refused? = none := fun _ => rfl
  have hmapping : ∀ f, (AccessError.mapping f).refused? = none := fun _ => rfl
  obtain ⟨_, s₁, -, hs₁, hrun⟩ :=
    Access.Settles.past (.checking _) (mapError_ne_translate hargument _ _ _) hrun
  obtain ⟨m', s₂, hm', hs₂, hrun⟩ :=
    Access.Settles.past (.declaring _) (mapError_ne_translate hargument _ _ _) hrun
  obtain rfl : m = m' := Except.ok.inj (hm.symm.trans (ok_of_mapError hm'))
  obtain ⟨record, s₃, hrecord, hs₃, hrun⟩ :=
    Access.Settles.past (.mapped _) (mapError_ne_translate hmapping _ _ _) hrun
  obtain ⟨id, s₄, hid, hs₄, hrun⟩ :=
    Access.Settles.past (.checking _) (mapError_ne_translate hargument _ _ _) hrun
  obtain ⟨target, s₅, htarget, hs₅, hrun⟩ :=
    Access.Settles.past (.checking _) (mapError_ne_translate hargument _ _ _) hrun
  obtain ⟨own', hown, htarget⟩ := ok_of_bind (ok_of_mapError htarget)
  obtain rfl := Except.ok.inj htarget
  have hstate : s₅.backend = session.backend := by rw [hs₅, hs₄, hs₃, hs₂, hs₁]
  rcases Access.error_of_run_bind hrun with hcall | ⟨response, s₆, -, hrun⟩
  · obtain ⟨s₆, hcall', -⟩ := Access.Leads.call (ofStore settings database metrics) mode.operation
      name RecordAnswer.observed _ s₅.backend s₅ rfl
    rw [hcall] at hcall'
    obtain ⟨fault, hfault, htranslate⟩ := error_of_mapError (Prod.mk.inj hcall').1.symm
    obtain rfl := AccessError.translate_injective htranslate
    rw [hstate] at hfault
    exact status_of_call hc (Document.requireId_of_entityId (ok_of_mapError hid))
      (hpartition record own' (ok_of_mapError hrecord) hown) hfault rfl
  · exact mapError_ne_translate hmapping _ _ _ ((Access.Settles.mapped _).of_run hrun).1

/-- A write under the collection of its type is refused no more than one under a name. -/
theorem write_unrefused {mode : WriteMode} {a : α} {key : Option PartitionKey}
    (hm : Metadata.ofDeclaration e.toEntityDeclaration = .ok m)
    (hwrite : Unrefused ((ofStore settings database metrics).writeInto e mode m.collection a key)
      mode.operation s) :
    Unrefused ((ofStore settings database metrics).write e mode a key) mode.operation s := by
  rintro session session' given own rfl hrun
  have hsettles : (collectionName e.toEntityDeclaration : Access Store String).Settles
      session.backend (.ok m.collection) := .bind (.metadata hm) (.pure _)
  obtain ⟨_, s₁, hname, hs₁, hrun⟩ := hsettles.past nofun hrun
  obtain rfl := Except.ok.inj hname
  exact hwrite s₁ session' given own hs₁ hrun

end Client

open Client (Unrefused WriteMode ofStore)

/-- **Client, store and queries place a record alike.**  Along a path that they share the client
names a key exactly if it is the partition that the store tells, and refuses the record exactly if
that is where records without a key lie; a statement that names the field looks at the value with
that key.  So nothing that is written without naming a partition is refused for its own, unless its
key does not even equal itself. -/
theorem placed_alike {m : Metadata} {f : String} {c : Collection}
    (hf : m.partitionField = some f) (hpath : SharedPath f) (hc : c.properties = m.properties) :
    (∀ d v, m.partitionKey d none = .ok (.value v) ↔ c.partitionOf d = .value v)
    ∧ (∀ d, m.partitionKey d none = .error (.noPartitionField f m.collection)
      ↔ c.partitionOf d = .none)
    ∧ (∀ shape q statement, Statement.ofQuery shape q = .ok statement →
      ∀ d, statement.LooksAt q.criteria f d (c.partitionOf d))
    ∧ ∀ {α : Type} (e : EntityType α) (a : α) (mode : WriteMode) (s : Store),
      Metadata.ofDeclaration e.toEntityDeclaration = .ok m → s.collection? m.collection = some c →
      (∀ record v, e.write a = .ok record → m.partitionKey record none = .ok (.value v) →
        v.equals v = true) →
      ∀ settings database metrics,
        Unrefused ((ofStore settings database metrics).write e mode a none) mode.operation s
        ∧ Unrefused ((ofStore settings database metrics).writeInto e mode m.collection a none)
          mode.operation s := by
  have hpartition : c.properties.partitionPath = some f := by rw [hc, ← hf]; rfl
  have hkey : ∀ d v, m.partitionKey d none = .ok (.value v) ↔ c.partitionOf d = .value v := by
    intro d v
    rw [hpath.partitionOf_eq hpartition]
    -- the client either names what lies in the field, or finds nothing there and refuses
    obtain ⟨w, hok, hown⟩ | ⟨herror, hown⟩ := Metadata.partitionKey_cases hf d
    · rw [hok, hown, Except.ok.injEq]
    · rw [herror, hown]
      exact iff_of_false nofun nofun
  refine ⟨hkey, fun d => ?_, fun shape q statement hst d => ?_,
    fun e a mode s hm hstored hself settings database metrics => ?_⟩
  · rw [hpath.partitionOf_eq hpartition]
    obtain ⟨w, hok, hown⟩ | ⟨herror, hown⟩ := Metadata.partitionKey_cases hf d
    · rw [hok, hown]
      exact iff_of_false nofun nofun
    · exact iff_of_true herror hown
  · rw [hpath.partitionOf_eq hpartition, ← hpath.field?_eq]
    exact Statement.looksAt hst f d
  · have hinto : Unrefused
        ((ofStore settings database metrics).writeInto e mode m.collection a none)
        mode.operation s := by
      refine Client.writeInto_unrefused hm hstored fun record own hrecord hown => ?_
      obtain ⟨v, hok, -⟩ | ⟨herror, -⟩ := Metadata.partitionKey_cases hf record
      · obtain rfl := Except.ok.inj (hown.symm.trans hok)
        have hlies := (hkey record v).mp hok
        have hequals : ∀ w, c.partitionOf record = .value w → w.equals w = true :=
          fun w hw => hself record w hrecord ((hkey record w).mpr hw)
        rw [← hlies]
        exact Collection.checkPartition_own hequals
      · rw [herror] at hown
        cases hown
    exact ⟨Client.write_unrefused hm hinto, hinto⟩

/-- A delivery to Lima. -/
def toLima : Document :=
  [("id", .text "d4"), ("to", .doc [("city", .text "Lima")]), ("late", .bool false)]

/-- A delivery that goes nowhere yet. -/
def undirected : Document :=
  [("id", .text "d5"), ("to", .null)]

/-- Late deliveries to Lima. -/
def lateToLima : Query where
  criteria := .and [.compare .eq "late" (.bool true), .startsWith "to.city" "Lima"]

/-- A delivery with a city lies in it, whoever says so; one without a city is refused and would lie
where there is no key. -/
theorem placed_alike_deliveries :
    ∃ statement, Statement.ofQuery .find lateToLima = .ok statement
      ∧ Client.deliveries.partitionOf toLima = .value (.text "Lima")
      ∧ statement.LooksAt lateToLima.criteria "to.city" toLima (.value (.text "Lima"))
      ∧ Client.deliveryMetadata.partitionKey undirected none
        = .error (.noPartitionField "to.city" "deliveries")
      ∧ Unrefused ((ofStore Client.oneByOne "db" false).write Client.delivery .insert toLima none)
        .insert (Store.after Client.oneByOne Client.dispatch {}) := by
  have hpath : SharedPath "to.city" := ⟨by decide, by decide⟩
  obtain ⟨hkey, hnone, hlooks, hwrites⟩ :=
    @placed_alike Client.deliveryMetadata "to.city" Client.deliveries rfl hpath rfl
  have hlima : Client.deliveries.partitionOf toLima = .value (.text "Lima") :=
    (hkey toLima (.text "Lima")).mp rfl
  refine ⟨_, rfl, hlima, ?_, (hnone undirected).mpr rfl, ?_⟩
  · rw [← hlima]
    exact hlooks .find lateToLima _ rfl toLima
  · refine (hwrites Client.delivery toLima .insert _ rfl rfl ?_ Client.oneByOne "db" false).1
    rintro record v ⟨⟩ ⟨⟩
    rfl

end DocQuery
