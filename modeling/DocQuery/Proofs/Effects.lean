/-
  What a call leaves behind, record by record.

  A call that is refused leaves the store as it was; a write may leave an empty collection where
  there was none.  A call that succeeds works on one collection: it adds a record, exchanges one,
  takes one out, or does nothing, and all other records stay as they are and where they are.
  Loading is the one call that may do a part of its work and then be refused.

  A run lemma would need less, but here the question is what a maintainer asks of one call: what
  is different afterwards, and is that all?  So an effect names the collection that it is about
  and says of every other one that it stays, with its properties and its records in order.  The
  awkward case is loading, where each record is tried against a collection that already holds the
  ones before it; `TakesAll` follows that collection along, and the first record that does not fit
  cuts the list in two.

  1. `Turns` and `Addressed`: one collection becomes another, and which one a write addresses;
  2. `Effect` and `Left`: what calls make of a store if they succeed, and if they are refused;
  3. `write_effect`, `delete_effect`, `createCollection_effect`, `deleteCollection_effect`;
  4. `Collection.Takes` and `seedRecords_effect`: loading, up to the first record that is refused;
  5. `call_effects`: all calls.
-/
import DocQuery.Backend.Probe
import DocQuery.Proofs.Keys
import DocQuery.Store.Backend

namespace DocQuery

/-! ## Calls -/

/-- Whether a call succeeds, and the next state. -/
def BackendCall.settled {σ ρ : Type} (f : BackendCall σ ρ) : BackendCall σ Unit := fun s =>
  ((f s).1.map fun _ => (), (f s).2)

/-- Send a call to a backend. -/
def Backend.perform {σ : Type} (b : Backend σ) : RecordedCall → BackendCall σ Unit
  | .query name statement options => (b.query name statement options).settled
  | .create name d target => (b.create name d target).settled
  | .upsert name d target => (b.upsert name d target).settled
  | .read name id key => (b.read name id key).settled
  | .delete name id target => (b.delete name id target).settled
  | .createCollection properties => (b.createCollection properties).settled
  | .deleteCollection name => (b.deleteCollection name).settled

namespace Store

variable {settings : Settings} {s s' : Store} {name : String} {c : Collection}

/-! ## Effects -/

/-- The collection of a name becomes this one, or none; all others stay as they are. -/
structure Turns (s s' : Store) (name : String) (c : Option Collection) : Prop where
  becomes : s'.collection? name = c
  others : ∀ n, n ≠ name → s'.collection? n = s.collection? n

/-- A write addresses the collection of its name.  Where there is none it may find an empty one
without partitions. -/
def Addressed (settings : Settings) (s : Store) (name : String) (c : Collection) : Prop :=
  s.collection? name = some c
    ∨ settings.autoCreate = true ∧ s.collection? name = none ∧ c = plainCollection name none

/-- A record is added to a collection in which none has its id and partition. -/
def Adds (settings : Settings) (s s' : Store) (name : String) (d : Document) : Prop :=
  ∃ c id, Addressed settings s name c ∧ d.requireId = .ok id
    ∧ (∀ e ∈ c.records, c.isAt id (c.partitionOf d) e = false)
    ∧ Turns s s' name (some { c with records := c.records ++ [settings.stamper.stamp s.writes d] })

/-- A record takes the place of one of its id and partition. -/
def Replaces (settings : Settings) (s s' : Store) (name : String) (d : Document) : Prop :=
  ∃ c id before old behind, s.collection? name = some c ∧ d.requireId = .ok id
    ∧ c.records = before ++ old :: behind ∧ c.isAt id (c.partitionOf d) old = true
    ∧ Turns s s' name
      (some { c with records := before ++ settings.stamper.stamp s.writes d :: behind })

/-- The record of an id in a partition is taken out. -/
def Removes (s s' : Store) (name id : String) (key : PartitionKey) : Prop :=
  ∃ c before old behind, s.collection? name = some c
    ∧ c.records = before ++ old :: behind ∧ c.isAt id key old = true
    ∧ Turns s s' name (some { c with records := before ++ behind })

/-- What a call makes of a store if it succeeds. -/
def Effect (settings : Settings) (s s' : Store) : RecordedCall → Prop
  | .query _ _ _ => s' = s
  | .read _ _ _ => s' = s
  | .create name d _ => Adds settings s s' name d
  | .upsert name d _ => Adds settings s s' name d ∨ Replaces settings s s' name d
  | .delete name id target => Removes s s' name id target.partitionKey
  | .createCollection properties =>
    s.collection? properties.name ≠ none ∧ s' = s
      ∨ s.collection? properties.name = none
        ∧ Turns s s' properties.name (some (.empty properties))
  | .deleteCollection name => s.collection? name ≠ none ∧ Turns s s' name none

/-- What a refused write leaves: the store as it was, or with an empty collection without
partitions where there was none. -/
def LeftByWrite (settings : Settings) (s s' : Store) (name : String) : Prop :=
  s' = s ∨ settings.autoCreate = true ∧ s.collection? name = none
    ∧ s' = s.put name (plainCollection name none)

/-- What a call leaves of a store if it is refused. -/
def Left (settings : Settings) (s s' : Store) : RecordedCall → Prop
  | .create name _ _ => LeftByWrite settings s s' name
  | .upsert name _ _ => LeftByWrite settings s s' name
  | _ => s' = s

/-! ## One collection -/

/-- A collection that is put in turns what was under its name, and no more. -/
theorem turns_put (s : Store) (name : String) (c : Collection) (n : Nat) :
    Turns s ⟨(s.put name c).collections, n⟩ name (some c) :=
  ⟨collection?_put s name c n, fun _ h => Fields.get?_insert_of_ne _ h _⟩

/-- A collection is met as it is, or made where there is none and it may be. -/
theorem opened_cases (settings : Settings) (s : Store) (name : String) :
    LeftByWrite settings s (s.opened settings name) name := by
  rw [opened, LeftByWrite]
  split
  · rename_i hauto
    rw [withCollection]
    split
    · exact .inl rfl
    · rename_i hnone
      exact .inr ⟨hauto, hnone, rfl⟩
  · exact .inl rfl

/-- What a write finds under its name is what it addresses: a collection that was there, or one that
it may make. -/
theorem addressed_of_opened (h : (s.opened settings name).collection? name = some c) :
    Addressed settings s name c := by
  rcases opened_cases settings s name with heq | ⟨hauto, hnone, heq⟩
  · rw [heq] at h
    exact .inl h
  · rw [heq] at h
    have hput : (s.put name (plainCollection name none)).collection? name
        = some (plainCollection name none) := collection?_put s name _ s.writes
    exact .inr ⟨hauto, hnone, Option.some.inj (h.symm.trans hput)⟩

/-- A store that makes collections on the way has one for every write. -/
theorem opened_of_autoCreate (s : Store) (name : String) (hauto : settings.autoCreate = true) :
    ∃ c, (s.opened settings name).collection? name = some c := by
  rw [opened, if_pos hauto, withCollection]
  split
  · rename_i c hc
    exact ⟨c, hc⟩
  · exact ⟨_, collection?_put s name _ s.writes⟩

/-- What becomes of the collection that a write meets becomes of the one it addresses. -/
theorem Turns.of_opened {c : Option Collection} (h : Turns (s.opened settings name) s' name c) :
    Turns s s' name c := by
  refine ⟨h.becomes, fun n hn => (h.others n hn).trans ?_⟩
  rcases opened_cases settings s name with heq | ⟨-, -, heq⟩
  · rw [heq]
  · rw [heq]
    exact (turns_put s name _ s.writes).others n hn

/-! ## Writing and deleting -/

/-- **A write that succeeds adds its record, or puts it in the place of one**, if it may. -/
theorem write_effect {replacing : Bool} {d : Document} {target : Placement} {a : RecordAnswer}
    (h : (write settings replacing name d target s).1 = .ok a) :
    Adds settings s (write settings replacing name d target s).2 name d
      ∨ replacing = true
        ∧ Replaces settings s (write settings replacing name d target s).2 name d := by
  obtain ⟨c, c', hc, hwrite, -, hs⟩ := write_ok h
  obtain ⟨-, id, hid, -, hplaced⟩ := Collection.write_ok hwrite
  rw [hs]
  rcases hplaced with ⟨hnone, rfl⟩ | ⟨place, hplace, hreplacing, rfl⟩
  · exact .inl ⟨c, id, addressed_of_opened hc, hid, Collection.position?_eq_none_iff.mp hnone,
      .of_opened (turns_put _ name _ _)⟩
  · obtain ⟨before, old, behind, hrecords, rfl, hold, -⟩ := Collection.parts_of_position? hplace
    -- there is something to replace, so the collection was there
    have hthere : s.collection? name = some c := by
      rcases addressed_of_opened hc with hthere | ⟨-, -, rfl⟩
      · exact hthere
      · cases hplace
    have hreplace : c.replace before.length (settings.stamper.stamp s.writes d)
        = { c with records := before ++ settings.stamper.stamp s.writes d :: behind } := by
      rw [← Collection.records_replace hrecords]
      rfl
    rw [hreplace]
    exact .inr ⟨hreplacing, c, id, before, old, behind, hthere, hid, hrecords, hold,
      .of_opened (turns_put _ name _ _)⟩

/-- **A write that is refused** leaves the store as it was, but for a collection that it made. -/
theorem write_left {replacing : Bool} {d : Document} {target : Placement} {f : Fault}
    (h : (write settings replacing name d target s).1 = .error f) :
    LeftByWrite settings s (write settings replacing name d target s).2 name := by
  rw [write_fault h]
  exact opened_cases settings s name

/-- **A deletion that succeeds** takes one record out of its collection. -/
theorem delete_effect {id : String} {target : Placement} {a : RecordAnswer}
    (h : (delete name id target s).1 = .ok a) :
    Removes s (delete name id target s).2 name id target.partitionKey := by
  obtain ⟨c, place, hc, hplace, -, hs⟩ := delete_ok h
  obtain ⟨before, old, behind, hrecords, rfl, hold, -⟩ := Collection.parts_of_position? hplace
  have herase : c.erase before.length = { c with records := before ++ behind } := by
    rw [← Collection.records_erase hrecords]
    rfl
  rw [hs, herase]
  exact ⟨c, before, old, behind, hc, hrecords, hold, turns_put s name _ s.writes⟩

/-! ## Collections -/

/-- A collection that is created is new and empty; one that was there stays as it is. -/
theorem createCollection_effect {properties : CollectionProperties} {a : CollectionAnswer}
    (h : (createCollection properties s).1 = .ok a) :
    Effect settings s (createCollection properties s).2 (.createCollection properties) := by
  rw [createCollection] at h ⊢
  rw [Effect]
  split
  · rename_i hblank
    rw [if_pos hblank] at h
    cases h
  · split
    · rename_i c hc
      rw [hc]
      exact .inl ⟨Option.some_ne_none c, rfl⟩
    · rename_i hnone
      exact .inr ⟨hnone, turns_put s _ _ s.writes⟩

/-- A collection that cannot be created leaves the store as it was. -/
theorem createCollection_left {properties : CollectionProperties} {f : Fault}
    (h : (createCollection properties s).1 = .error f) :
    (createCollection properties s).2 = s := by
  rw [createCollection] at h ⊢
  split
  · rfl
  · rename_i hblank
    rw [if_neg hblank] at h
    split at h <;> cases h

/-- A collection that is deleted is gone, with its records, and no other is. -/
theorem deleteCollection_effect {a : CollectionAnswer}
    (h : (deleteCollection name s).1 = .ok a) :
    Effect settings s (deleteCollection name s).2 (.deleteCollection name) := by
  rw [deleteCollection] at h ⊢
  rw [Effect]
  cases hc : s.collection? name with
  | none =>
    rw [hc] at h
    cases h
  | some c =>
    exact ⟨Option.some_ne_none c, Fields.get?_erase_self _ _,
      fun n hn => Fields.get?_erase_of_ne _ hn⟩

/-- A collection that cannot be deleted leaves the store as it was. -/
theorem deleteCollection_left {f : Fault} (h : (deleteCollection name s).1 = .error f) :
    (deleteCollection name s).2 = s := by
  rw [deleteCollection] at h ⊢
  cases hc : s.collection? name with
  | none => rfl
  | some c =>
    rw [hc] at h
    cases h

end Store

/-! ## Loading -/

namespace Collection

open Store (Settings stampedFrom)

/-- A record may be added: it has an id, and no record has that id in its partition. -/
def Takes (c : Collection) (d : Document) : Prop :=
  ∃ id, d.requireId = .ok id ∧ ∀ e ∈ c.records, c.isAt id (c.partitionOf d) e = false

/-- Records may be added one after the other, the first by the write of a number. -/
def TakesAll (settings : Settings) : Collection → Nat → List Document → Prop
  | _, _, [] => True
  | c, n, d :: ds =>
    c.Takes d ∧ TakesAll settings (c.append (settings.stamper.stamp n d)) (n + 1) ds

/-- A collection with some records behind its own, the first from the write of a number. -/
def loaded (c : Collection) (settings : Settings) (n : Nat) (ds : List Document) : Collection :=
  { c with records := c.records ++ stampedFrom settings n ds }

variable {c : Collection} {d : Document}

/-- Nothing is loaded. -/
theorem loaded_nil (c : Collection) (settings : Settings) (n : Nat) :
    c.loaded settings n [] = c := by
  rw [loaded, stampedFrom, List.append_nil]

/-- What is loaded comes behind the rest, stamped one after the other. -/
theorem loaded_cons (c : Collection) (settings : Settings) (n : Nat) (d : Document)
    (ds : List Document) : c.loaded settings n (d :: ds)
      = (c.append (settings.stamper.stamp n d)).loaded settings (n + 1) ds := by
  rw [loaded, loaded, append, stampedFrom, List.append_assoc]
  rfl

/-- A record that a collection takes comes behind the others. -/
theorem insertNew_of_takes (h : c.Takes d) (stamp : Document → Document) :
    c.insertNew stamp d = .ok (stamp d, c.append (stamp d)) := by
  obtain ⟨id, hid, hnone⟩ := h
  simp only [insertNew, hid, bind, Except.bind, position?_eq_none_iff.mpr hnone]

/-- A record that a collection does not take is refused by `insertNew`, whatever the stamp. -/
theorem insertNew_of_not_takes (h : ¬ c.Takes d) (stamp : Document → Document) :
    ∃ f, c.insertNew stamp d = .error f := by
  cases hinsert : c.insertNew stamp d with
  | error f => exact ⟨f, rfl⟩
  | ok r =>
    obtain ⟨-, id, hid, hnone⟩ := Store.insertNew_ok hinsert
    exact absurd ⟨id, hid, position?_eq_none_iff.mp hnone⟩ h

end Collection

namespace Store

variable {settings : Settings} {s s₁ s' : Store} {name : String} {c : Collection}

/-- What was turned may be turned again. -/
theorem Turns.trans {c₁ c' : Option Collection} (h : Turns s s₁ name c₁)
    (h' : Turns s₁ s' name c') : Turns s s' name c' :=
  ⟨h'.becomes, fun n hn => (h'.others n hn).trans (h.others n hn)⟩

/-- **Records are loaded up to the first that may not be added** to what is there by then.
Induction on the records still to load, with the collection as it is when they are met. -/
theorem seedRecords_effect (settings : Settings) :
    ∀ (ds : List Document) {c : Collection} {s : Store} (count : Nat),
    s.collection? name = some c →
    (∃ s', seedRecords settings name ds count s = (.ok (count + ds.length), s')
      ∧ c.TakesAll settings s.writes ds ∧ Turns s s' name (some (c.loaded settings s.writes ds)))
    ∨ ∃ f s' before d behind, seedRecords settings name ds count s = (.error f, s')
      ∧ ds = before ++ d :: behind ∧ c.TakesAll settings s.writes before
      ∧ ¬ (c.loaded settings s.writes before).Takes d
      ∧ Turns s s' name (some (c.loaded settings s.writes before)) := by
  intro ds
  induction ds with
  | nil =>
    intro c s count hc
    refine .inl ⟨s, rfl, trivial, ?_⟩
    rw [Collection.loaded_nil]
    exact ⟨hc, fun _ _ => rfl⟩
  | cons d ds ih =>
    intro c s count hc
    rw [seedRecords, hc]
    dsimp only
    by_cases htakes : c.Takes d
    · rw [Collection.insertNew_of_takes htakes]
      dsimp only
      have hturns := turns_put s name (c.append (settings.stamper.stamp s.writes d)) (s.writes + 1)
      -- the others meet the collection with this record in it
      rcases ih (count + 1) hturns.becomes with
        ⟨s', hs', hall, hrest⟩ | ⟨f, s', before, e, behind, hs', rfl, hall, hnot, hrest⟩
      · refine .inl ⟨s', ?_, ⟨htakes, hall⟩, ?_⟩
        · rw [hs', List.length_cons, Nat.add_assoc, Nat.add_comm 1]
        · rw [Collection.loaded_cons]
          exact hturns.trans hrest
      · refine .inr ⟨f, s', d :: before, e, behind, hs', rfl, ⟨htakes, hall⟩, ?_, ?_⟩
        · rw [Collection.loaded_cons]
          exact hnot
        · rw [Collection.loaded_cons]
          exact hturns.trans hrest
    · -- the first that does not fit cuts the list here, with nothing in front of it
      obtain ⟨f, hf⟩ := Collection.insertNew_of_not_takes htakes
        (settings.stamper.stamp s.writes)
      rw [hf]
      refine .inr ⟨f, s, [], d, ds, rfl, rfl, trivial, ?_, ?_⟩
      · rw [Collection.loaded_nil]
        exact htakes
      · rw [Collection.loaded_nil]
        exact ⟨hc, fun _ _ => rfl⟩

/-- What loading makes of a store if it succeeds. -/
def Seeds (settings : Settings) (s s' : Store) (name : String) (ds : List Document) : Prop :=
  ∃ c, Addressed settings s name c ∧ c.TakesAll settings s.writes ds
    ∧ Turns s s' name (some (c.loaded settings s.writes ds))

/-- What loading that is refused leaves: the store as it was if there is no collection and none
may be made, and otherwise the records before the first that may not be added. -/
def LeftBySeed (settings : Settings) (s s' : Store) (name : String) (ds : List Document) : Prop :=
  s.collection? name = none ∧ settings.autoCreate = false ∧ s' = s
    ∨ ∃ c before d behind, ds = before ++ d :: behind ∧ Addressed settings s name c
      ∧ c.TakesAll settings s.writes before ∧ ¬ (c.loaded settings s.writes before).Takes d
      ∧ Turns s s' name (some (c.loaded settings s.writes before))

/-- **Loading** puts in all records and says how many, or those in front of the first that is
refused. -/
theorem seed_effect (settings : Settings) (name : String) (ds : List Document) (s : Store) :
    match seed settings name ds s with
    | (.ok n, s') => n = ds.length ∧ Seeds settings s s' name ds
    | (.error _, s') => LeftBySeed settings s s' name ds := by
  rw [seed]
  cases hc : (s.opened settings name).collection? name with
  | none =>
    -- there is no collection only if none may be made
    have hauto : settings.autoCreate = false := by
      refine Bool.eq_false_iff.mpr fun hauto => ?_
      obtain ⟨c, hsome⟩ := opened_of_autoCreate s name hauto
      rw [hsome] at hc
      cases hc
    have hopened : s.opened settings name = s := by
      rw [opened, if_neg (Bool.eq_false_iff.mp hauto)]
    rw [hopened] at hc ⊢
    exact .inl ⟨hc, hauto, rfl⟩
  | some c =>
    have haddressed := addressed_of_opened hc
    have hloaded := seedRecords_effect settings ds 0 hc
    rw [writes_opened, Nat.zero_add] at hloaded
    rcases hloaded with
      ⟨s', hs', hall, hturns⟩ | ⟨f, s', before, d, behind, hs', hds, hall, hnot, hturns⟩
    · dsimp only
      rw [hs']
      exact ⟨rfl, c, haddressed, hall, hturns.of_opened⟩
    · dsimp only
      rw [hs']
      exact .inr ⟨c, before, d, behind, hds, haddressed, hall, hnot, hturns.of_opened⟩

/-! ## All calls -/

/-- A call that only looks leaves the store as it was. -/
theorem looking_effect {ρ : Type} {P Q : Store → Prop} (f : Store → Except Fault ρ)
    (hok : P s) (herror : Q s) :
    match (looking f).settled s with
    | (.ok _, s') => P s'
    | (.error _, s') => Q s' := by
  rw [BackendCall.settled, looking]
  cases f s with
  | ok a => exact hok
  | error e => exact herror

/-- A call that changes the store does what its outcome says. -/
theorem changing_effect {ρ : Type} {P Q : Store → Prop} {f : Store → Except Fault ρ × Store}
    (hok : ∀ a, (f s).1 = .ok a → P (f s).2) (herror : ∀ e, (f s).1 = .error e → Q (f s).2) :
    match (changing f).settled s with
    | (.ok _, s') => P s'
    | (.error _, s') => Q s' := by
  rw [BackendCall.settled, changing]
  cases h : (f s).1 with
  | ok a => exact hok a h
  | error e => exact herror e h

/-- Every recorded call has the effect that its own outcome says it has. -/
theorem perform_effect (settings : Settings) (call : RecordedCall) (s : Store) :
    match (backend settings).perform call s with
    | (.ok _, s') => Effect settings s s' call
    | (.error _, s') => Left settings s s' call := by
  cases call with
  | query name statement options => exact looking_effect _ rfl rfl
  | read name id key => exact looking_effect _ rfl rfl
  | create name d target =>
    refine changing_effect (fun a h => ?_) fun f h => write_left h
    rcases write_effect h with hadds | ⟨⟨⟩, -⟩
    exact hadds
  | upsert name d target =>
    refine changing_effect (fun a h => ?_) fun f h => write_left h
    rcases write_effect h with hadds | ⟨-, hreplaces⟩
    · exact .inl hadds
    · exact .inr hreplaces
  | delete name id target =>
    exact changing_effect (fun a h => delete_effect h) fun f h => delete_fault h
  | createCollection properties =>
    exact changing_effect (fun a h => createCollection_effect h) fun f h => createCollection_left h
  | deleteCollection name =>
    exact changing_effect (fun a h => deleteCollection_effect h) fun f h => deleteCollection_left h

/-- **Calls work on the collection they address and on nothing else.**  A call that succeeds adds
a record there, exchanges one, takes one out, or does nothing; one that is refused leaves the
store as it was, but for the empty collection that a write may have made.  Loading that succeeds
has added all its records in order, and loading that is refused those before the first that may
not be added. -/
theorem call_effects (settings : Settings) :
    (∀ (call : RecordedCall) (s : Store),
      match (backend settings).perform call s with
      | (.ok _, s') => Effect settings s s' call
      | (.error _, s') => Left settings s s' call)
    ∧ ∀ (name : String) (ds : List Document) (s : Store),
      match seed settings name ds s with
      | (.ok n, s') => n = ds.length ∧ Seeds settings s s' name ds
      | (.error _, s') => LeftBySeed settings s s' name ds :=
  ⟨perform_effect settings, seed_effect settings⟩

end Store

end DocQuery
