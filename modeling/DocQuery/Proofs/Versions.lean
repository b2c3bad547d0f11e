/-
  Versions: of several writers that read the same record, one succeeds.

  Every write stamps its record with the token of its own number, whatever token came with it.  So
  if tokens do not repeat, no two stored records carry the same one, and a token that is gone
  never comes back.

  A token cannot come back because it would have to be issued again: the token of a write is made
  of the number of the write, that number only grows, and what a record brings along is
  overwritten.  So the invariant is that every stored token belongs to some earlier write and to
  one record.  What the calls of a run are does not matter; all that is asked of tokens is that
  two numbers never have the same one.

  1. `Decided`: a conditional call is decided by the record it is about;
  2. `Versioned`: what is true of the tokens in a store, kept by every change;
  3. `Carries`: where tokens come from, and that they do not come back;
  4. `Uses` and `Displaces`: calls that ask for a version, and calls that take it away;
  5. `versions_guard`: all of it, over runs.
-/
import DocQuery.Proofs.Changes
import DocQuery.Proofs.Numerals

namespace DocQuery

/-! ## Conditions -/

/-- A version that is asked for is there, or the call is refused for that. -/
theorem checkVersion_some (t : String) (current : Option Document) (id : String) :
    (current.bind Document.version? = some t ∧ checkVersion (some t) current id = .ok ())
      ∨ (current.bind Document.version? ≠ some t ∧ ∃ f, checkVersion (some t) current id = .error f
        ∧ f.status = BackendError.preconditionFailed) := by
  rw [checkVersion]
  split
  · rename_i actual hactual
    by_cases h : actual = t
    · rw [if_pos h, hactual, h]
      exact .inl ⟨rfl, rfl⟩
    · rw [if_neg h, hactual]
      exact .inr ⟨fun heq => h (Option.some.inj heq), _, rfl, rfl⟩
  · rename_i hnone
    rw [hnone]
    exact .inr ⟨nofun, _, rfl, rfl⟩

/-- A version that is refused is refused as a failed precondition, and as nothing else. -/
theorem status_of_checkVersion {version : Option String} {current : Option Document} {id : String}
    {fault : Store.Fault} (h : checkVersion version current id = .error fault) :
    fault.status = BackendError.preconditionFailed := by
  cases version with
  | none => cases h
  | some t =>
    rcases checkVersion_some t current id with ⟨-, hcheck⟩ | ⟨-, fault', hcheck, hstatus⟩
    · rw [hcheck] at h
      cases h
    · rw [hcheck] at h
      rwa [← Except.error.inj h]

namespace Collection

variable {c : Collection} {id : String} {d : Document} {target : Placement}

/-- An upsert that passes the checks of id and partition hangs on the version alone. -/
theorem write_checked (stamp : Document → Document) (hid : d.requireId = .ok id)
    (hpartition : c.checkPartition (c.partitionOf d) target.partitionKey = .ok ()) :
    (checkVersion target.version (c.find? id (c.partitionOf d)) id = .ok () →
      ∃ r, c.write stamp true target d = .ok r)
    ∧ ∀ f, checkVersion target.version (c.find? id (c.partitionOf d)) id = .error f →
      c.write stamp true target d = .error f := by
  rw [write]
  simp only [hid, hpartition, bind, Except.bind]
  cases hplace : c.position? id (c.partitionOf d) with
  | none =>
    rw [find?_of_position?_none hplace]
    dsimp only
    constructor
    · intro h
      rw [h]
      exact ⟨_, rfl⟩
    · intro f h
      rw [h]
  | some place =>
    rw [← getElem?_of_position? hplace]
    dsimp only
    constructor
    · intro h
      rw [h]
      exact ⟨_, rfl⟩
    · intro f h
      rw [h]

end Collection

namespace Store

variable {settings : Settings} {s s' : Store} {name id t : String} {c : Collection}
variable {d : Document} {target : Placement}

/-- A call that asks for a version is decided by the version of the record it is about: it
succeeds if that is the one, and else is refused for that and changes no record. -/
structure Decided {ρ : Type} (outcome : Except Fault ρ × Store) (s : Store)
    (current : Option Document) (t : String) : Prop where
  succeeds : (∃ r, outcome.1 = .ok r) ↔ current.bind Document.version? = some t
  refused : current.bind Document.version? ≠ some t →
    (∃ f, outcome.1 = .error f ∧ f.status = BackendError.preconditionFailed)
      ∧ ∀ n, outcome.2.records n = s.records n

/-- What is accepted with the version and refused without it is decided by it. -/
theorem Decided.of_check {ρ : Type} {outcome : Except Fault ρ × Store} {current : Option Document}
    (id : String) (hok : checkVersion (some t) current id = .ok () → ∃ r, outcome.1 = .ok r)
    (herror : ∀ f, checkVersion (some t) current id = .error f →
      outcome.1 = .error f ∧ ∀ n, outcome.2.records n = s.records n) :
    Decided outcome s current t := by
  rcases checkVersion_some t current id with ⟨hversion, hcheck⟩ | ⟨hversion, f, hcheck, hstatus⟩
  · exact ⟨⟨fun _ => hversion, fun _ => hok hcheck⟩, fun h => absurd hversion h⟩
  · obtain ⟨hf, hrecords⟩ := herror f hcheck
    refine ⟨⟨?_, fun h => absurd h hversion⟩, fun _ => ⟨⟨f, hf, hstatus⟩, hrecords⟩⟩
    rintro ⟨r, hr⟩
    rw [hf] at hr
    cases hr

/-- An upsert that asks for a version is decided by the record that has its id and partition. -/
theorem upsert_decided (hversion : target.version = some t)
    (hc : (s.opened settings name).collection? name = some c) (hid : d.requireId = .ok id)
    (hpartition : c.checkPartition (c.partitionOf d) target.partitionKey = .ok ()) :
    Decided (upsert settings name d target s) s (c.find? id (c.partitionOf d)) t := by
  obtain ⟨hok, herror⟩ := Collection.write_checked
    (settings.stamper.stamp (s.opened settings name).writes) hid hpartition
  rw [hversion] at hok herror
  have hupsert : (upsert settings name d target s).1
      = (c.write (settings.stamper.stamp (s.opened settings name).writes) true target d).map
        fun r => ⟨some r.1, writeCharge⟩ := by
    rw [upsert, write]
    simp only [hc]
    cases c.write _ true target d <;> rfl
  refine .of_check id ?_ ?_
  · intro h
    obtain ⟨r, hr⟩ := hok h
    rw [hupsert, hr]
    exact ⟨_, rfl⟩
  · intro f h
    have hf : (upsert settings name d target s).1 = .error f := by
      rw [hupsert, herror f h]
      rfl
    refine ⟨hf, fun n => ?_⟩
    rw [upsert, write_fault hf]
    exact records_opened settings s name n

/-- A deletion that asks for a version is decided by the record it finds. -/
theorem delete_decided {old : Document} (hversion : target.version = some t)
    (hc : s.collection? name = some c) (hold : c.find? id target.partitionKey = some old) :
    Decided (delete name id target s) s (some old) t := by
  obtain ⟨place, hplace, hrecord⟩ := Collection.position?_of_find? hold
  refine .of_check id ?_ ?_
  · intro h
    rw [delete]
    simp only [hc, hplace, hrecord, hversion, h]
    exact ⟨_, rfl⟩
  · intro f h
    rw [delete]
    simp only [hc, hplace, hrecord, hversion, h, implies_true, and_self]

/-! ## Tokens -/

/-- A stamp gives a record the version of its number. -/
theorem version?_stamp (stamper : Stamper) (n : Nat) (d : Document) :
    (stamper.stamp n d).version? = some (stamper.token n) := by
  have hget : (stamper.stamp n d).get? versionField = some (.text (stamper.token n)) := by
    rw [Stamper.stamp, Fields.get?_insert_of_ne _ (by decide), Fields.get?_insert_self]
  rw [Document.version?, Document.getText?, hget]

/-- What is true of the tokens in a store: each is that of a write, and only one record carries
it. -/
structure Versioned (settings : Settings) (s : Store) : Prop where
  issued : ∀ name, ∀ d ∈ s.records name,
    ∃ k, k < s.writes ∧ d.version? = some (settings.stamper.token k)
  once : ∀ name, (s.records name).Pairwise fun d e => d.version? ≠ e.version?
  apart : ∀ name other, name ≠ other → ∀ d ∈ s.records name, ∀ e ∈ s.records other,
    d.version? ≠ e.version?

/-- An empty store has no versions. -/
theorem versioned_empty (settings : Settings) : Versioned settings {} where
  issued _ _ hd := absurd hd List.not_mem_nil
  once _ := .nil
  apart _ _ _ _ hd := absurd hd List.not_mem_nil

/-- A change takes records out, or puts a stamped one between what is left of a collection. -/
theorem Change.parts (h : Change settings s s') :
    ((∀ n, (s'.records n).Sublist (s.records n)) ∧ s'.writes = s.writes)
      ∨ ∃ name before behind d, (before ++ behind).Sublist (s.records name)
        ∧ s'.records name = before ++ settings.stamper.stamp s.writes d :: behind
        ∧ (∀ n, n ≠ name → s'.records n = s.records n) ∧ s'.writes = s.writes + 1 := by
  cases h with
  | thinned hrecords hwrites => exact .inl ⟨hrecords, hwrites⟩
  | appended name d hrecords hothers hwrites =>
    have hbefore : (s.records name ++ []).Sublist (s.records name) :=
      (List.append_nil (s.records name)).symm ▸ .refl _
    exact .inr ⟨name, s.records name, [], d, hbefore, hrecords, hothers, hwrites⟩
  | replaced name place d hplace hrecords hothers hwrites =>
    refine .inr ⟨name, (s.records name).take place, (s.records name).drop (place + 1), d, ?_, ?_,
      hothers, hwrites⟩
    · rw [← List.eraseIdx_eq_take_drop_succ]
      exact List.eraseIdx_sublist _ _
    · rw [hrecords, List.set_eq_take_append_cons_drop, if_pos hplace]

/-- Every record after a change was there before, or is the one that was put in. -/
theorem Change.origin (h : Change settings s s') {n : String} {e : Document}
    (he : e ∈ s'.records n) : e ∈ s.records n
      ∨ s'.writes = s.writes + 1 ∧ e.version? = some (settings.stamper.token s.writes)
        ∧ ∀ m, m ≠ n → s'.records m = s.records m := by
  rcases h.parts with ⟨hsub, -⟩ | ⟨name, before, behind, d, hsub, hrecords, hothers, hwrites⟩
  · exact .inl ((hsub n).mem he)
  · by_cases hn : n = name
    · subst hn
      rw [hrecords] at he
      rcases List.mem_append.mp he with he | he
      · exact .inl (hsub.mem (List.mem_append_left _ he))
      · rcases List.mem_cons.mp he with rfl | he
        · exact .inr ⟨hwrites, version?_stamp _ _ _, hothers⟩
        · exact .inl (hsub.mem (List.mem_append_right _ he))
    · rw [hothers n hn] at he
      exact .inl he

/-- No change takes a write back. -/
theorem Change.writes_le (h : Change settings s s') : s.writes ≤ s'.writes := by
  cases h <;> omega

/-- The token of the next write is not there yet. -/
theorem Versioned.fresh (hinj : Function.Injective settings.stamper.token)
    (h : Versioned settings s) {n : String} {e : Document} (he : e ∈ s.records n) :
    e.version? ≠ some (settings.stamper.token s.writes) := by
  obtain ⟨k, hk, hversion⟩ := h.issued n e he
  intro hnext
  rw [hversion] at hnext
  have := hinj (Option.some.inj hnext)
  omega

/-- **One change keeps tokens apart.** -/
theorem Versioned.step (hinj : Function.Injective settings.stamper.token)
    (h : Versioned settings s) (hchange : Change settings s s') : Versioned settings s' := by
  refine ⟨?_, ?_, ?_⟩
  -- old records keep their tokens, and the new one has that of the next write
  · intro n e he
    rcases hchange.origin he with hold | ⟨hwrites, hnew, -⟩
    · obtain ⟨k, hk, hversion⟩ := h.issued n e hold
      exact ⟨k, Nat.lt_of_lt_of_le hk hchange.writes_le, hversion⟩
    · exact ⟨s.writes, by omega, hnew⟩
  · intro n
    rcases hchange.parts with ⟨hsub, -⟩ | ⟨name, before, behind, d, hsub, hrecords, hothers, -⟩
    · exact (h.once n).sublist (hsub n)
    · by_cases hn : n = name
      · subst hn
        -- wherever the new record stands, its token is none of the others
        rw [hrecords, List.pairwise_middle (fun hne => hne.symm)]
        refine List.pairwise_cons.mpr ⟨?_, (h.once n).sublist hsub⟩
        intro e he
        rw [version?_stamp]
        exact (h.fresh hinj (hsub.mem he)).symm
      · rw [hothers n hn]
        exact h.once n
  · intro n m hnm d hd e he
    -- of two collections at most one has changed
    rcases hchange.origin hd with hdold | ⟨-, hdnew, hothers⟩
    · rcases hchange.origin he with heold | ⟨-, henew, -⟩
      · exact h.apart n m hnm d hdold e heold
      · rw [henew]
        exact h.fresh hinj hdold
    · rw [hothers m hnm.symm] at he
      rw [hdnew]
      exact (h.fresh hinj he).symm

/-- Every sequence of changes keeps the store versioned. -/
theorem Versioned.changes (hinj : Function.Injective settings.stamper.token)
    (hchanges : Changes settings s s') (h : Versioned settings s) : Versioned settings s' := by
  induction hchanges with
  | none => exact h
  | next hchange _ ih => exact ih (h.step hinj hchange)

/-- **So do all runs.** -/
theorem Versioned.after (hinj : Function.Injective settings.stamper.token)
    (calls : List Call) : Versioned settings (after settings calls {}) :=
  (versioned_empty settings).changes hinj (after_changes settings calls {})

/-! ## Where tokens come from -/

/-- Some record carries a token. -/
def Carries (s : Store) (t : String) : Prop :=
  ∃ name, ∃ d ∈ s.records name, d.version? = some t

theorem Changes.writes_le (h : Changes settings s s') : s.writes ≤ s'.writes := by
  induction h with
  | none => exact Nat.le_refl _
  | next hchange _ ih => exact Nat.le_trans hchange.writes_le ih

/-- A token that is there was there before, or is that of a later write. -/
theorem Changes.carries (h : Changes settings s s') (ht : Carries s' t) :
    Carries s t ∨ ∃ k, s.writes ≤ k ∧ t = settings.stamper.token k := by
  induction h with
  | none => exact .inl ht
  | next hchange _ ih =>
    rcases ih ht with ⟨name, d, hd, hversion⟩ | ⟨k, hk, heq⟩
    -- the token was there after the first change: before it, or by it
    · rcases hchange.origin hd with hold | ⟨-, hnew, -⟩
      · exact .inl ⟨name, d, hold, hversion⟩
      · rw [hversion] at hnew
        exact .inr ⟨_, Nat.le_refl _, Option.some.inj hnew⟩
    · exact .inr ⟨k, Nat.le_trans hchange.writes_le hk, heq⟩

/-- A version that is carried was issued, by a write that was counted. -/
theorem Versioned.issued_of_carries (h : Versioned settings s) (ht : Carries s t) :
    ∃ k, k < s.writes ∧ t = settings.stamper.token k := by
  obtain ⟨name, d, hd, hversion⟩ := ht
  obtain ⟨k, hk, hissued⟩ := h.issued name d hd
  rw [hversion] at hissued
  exact ⟨k, hk, Option.some.inj hissued⟩

/-- **A token that is gone does not come back.** -/
theorem not_carries_of_gone (hinj : Function.Injective settings.stamper.token) {k : Nat}
    (hk : k < s.writes) (hgone : ¬ Carries s (settings.stamper.token k))
    (h : Changes settings s s') : ¬ Carries s' (settings.stamper.token k) := by
  intro ht
  rcases h.carries ht with ht | ⟨j, hj, heq⟩
  · exact hgone ht
  · have := hinj heq
    omega

/-! ## Versions that are asked for, and versions that are taken away -/

/-- A conditional call that succeeds: it asks for a version, and finds it. -/
inductive Uses (settings : Settings) (s : Store) (t : String) : Call → Prop
  | upsert {name : String} {d : Document} {target : Placement} {a : RecordAnswer}
      (hversion : target.version = some t) (hok : (upsert settings name d target s).1 = .ok a) :
      Uses settings s t (.upsert name d target)
  | delete {name id : String} {target : Placement} {a : RecordAnswer}
      (hversion : target.version = some t) (hok : (delete name id target s).1 = .ok a) :
      Uses settings s t (.delete name id target)

/-- A call that replaces or deletes the record that carries a token. -/
inductive Displaces (settings : Settings) (s : Store) (t : String) : Call → Prop
  | replaced {name id : String} {d old : Document} {target : Placement} {a : RecordAnswer}
      {c : Collection} (hc : (s.opened settings name).collection? name = some c)
      (hid : d.requireId = .ok id)
      (hold : c.find? id (c.partitionOf d) = some old) (hversion : old.version? = some t)
      (hok : (upsert settings name d target s).1 = .ok a) :
      Displaces settings s t (.upsert name d target)
  | deleted {name id : String} {old : Document} {target : Placement} {a : RecordAnswer}
      {c : Collection} (hc : s.collection? name = some c)
      (hold : c.find? id target.partitionKey = some old) (hversion : old.version? = some t)
      (hok : (delete name id target s).1 = .ok a) :
      Displaces settings s t (.delete name id target)
  | dropped {name : String} {old : Document} (hold : old ∈ s.records name)
      (hversion : old.version? = some t) : Displaces settings s t (.deleteCollection name)

variable {call : Call}

/-- Where a version is asked for and found, a record carries it. -/
theorem version_of_checkVersion {current : Option Document}
    (h : checkVersion (some t) current id = .ok ()) : current.bind Document.version? = some t := by
  rcases checkVersion_some t current id with ⟨hversion, -⟩ | ⟨-, f, hf, -⟩
  · exact hversion
  · rw [h] at hf
    cases hf

/-- A version that is used is that of a record, and the call takes it away. -/
theorem Uses.displaces (h : Uses settings s t call) : Displaces settings s t call := by
  cases h with
  | upsert hversion hok =>
    obtain ⟨c, id, hc, -, hid, hcheck, -⟩ := write_records hok
    have hcheck := hcheck rfl
    rw [hversion] at hcheck
    obtain ⟨old, hold, hcarried⟩ := Option.bind_eq_some_iff.mp (version_of_checkVersion hcheck)
    exact .replaced hc hid hold hcarried hok
  | delete hversion hok =>
    obtain ⟨c, place, hc, -, hcheck, -⟩ := delete_ok hok
    rw [hversion] at hcheck
    obtain ⟨old, hold, hcarried⟩ := Option.bind_eq_some_iff.mp (version_of_checkVersion hcheck)
    exact .deleted hc hold hcarried hok

/-- No other record of a collection carries the token of the one at a place. -/
theorem Versioned.version_ne (h : Versioned settings s) {place other : Nat} {old e : Document}
    (hold : (s.records name)[place]? = some old) (he : (s.records name)[other]? = some e)
    (hne : other ≠ place) : e.version? ≠ old.version? := by
  obtain ⟨hplace, rfl⟩ := List.getElem?_eq_some_iff.mp hold
  obtain ⟨hother, rfl⟩ := List.getElem?_eq_some_iff.mp he
  have honce := List.pairwise_iff_getElem.mp (h.once name)
  rcases Nat.lt_or_gt_of_ne hne with hlt | hlt
  · exact honce other place hother hplace hlt
  · exact (honce place other hplace hother hlt).symm

/-- If all that is left are other records, and new ones, the token is gone. -/
theorem Versioned.gone (hinj : Function.Injective settings.stamper.token)
    (hs : Versioned settings s) {place : Nat} {old : Document}
    (hold : (s.records name)[place]? = some old)
    (hversion : old.version? = some t)
    (hrest : ∀ e ∈ s'.records name, (∃ i, i ≠ place ∧ (s.records name)[i]? = some e)
      ∨ e.version? = some (settings.stamper.token s.writes))
    (hothers : ∀ n, n ≠ name → s'.records n = s.records n) : ¬ Carries s' t := by
  rintro ⟨n, e, he, hcarried⟩
  have hmem := List.mem_of_getElem? hold
  by_cases hn : n = name
  · rw [hn] at he
    rcases hrest e he with ⟨i, hi, helem⟩ | hnew
    · exact hs.version_ne hold helem hi (hcarried.trans hversion.symm)
    · exact hs.fresh hinj hmem (hversion.trans (hcarried.symm.trans hnew))
  · rw [hothers n hn] at he
    exact hs.apart n name hn e he old hmem (hcarried.trans hversion.symm)

/-- What is taken away was there. -/
theorem Displaces.carries (h : Displaces settings s t call) : Carries s t := by
  cases h with
  | @replaced name _ _ old _ _ _ hc _ hold hversion _ =>
    have hrecords := records_of_collection? hc
    rw [records_opened] at hrecords
    exact ⟨name, old, hrecords ▸ List.mem_of_find?_eq_some hold, hversion⟩
  | @deleted name _ old _ _ _ hc hold hversion _ =>
    have hrecords := records_of_collection? hc
    exact ⟨name, old, hrecords ▸ List.mem_of_find?_eq_some hold, hversion⟩
  | dropped hold hversion => exact ⟨_, _, hold, hversion⟩

/-- After a write in the place of a record the others are left, and the new one. -/
theorem mem_of_set {l : List Document} {place : Nat} {new e : Document}
    (he : e ∈ l.set place new) : (∃ i, i ≠ place ∧ l[i]? = some e) ∨ e = new := by
  obtain ⟨i, hi⟩ := List.mem_iff_getElem?.mp he
  rw [List.getElem?_set] at hi
  split at hi
  · split at hi
    · exact .inr (Option.some.inj hi).symm
    · cases hi
  · rename_i hne
    exact .inl ⟨i, Ne.symm hne, hi⟩

/-- An upsert that succeeds takes away the version of the record it replaces: no other record had
it, and the new one is numbered higher. -/
theorem gone_of_upsert (hinj : Function.Injective settings.stamper.token)
    (hs : Versioned settings s) {old : Document} {a : RecordAnswer}
    (hc : (s.opened settings name).collection? name = some c) (hid : d.requireId = .ok id)
    (hold : c.find? id (c.partitionOf d) = some old) (hversion : old.version? = some t)
    (hok : (upsert settings name d target s).1 = .ok a) :
    ¬ Carries (upsert settings name d target s).2 t := by
  obtain ⟨c', id', hc', hrecords, hid', -, hplaced, hothers, -⟩ := write_records hok
  obtain rfl : c = c' := Option.some.inj (hc.symm.trans hc')
  obtain rfl : id = id' := Except.ok.inj (hid.symm.trans hid')
  obtain ⟨place, hplace, helem⟩ := Collection.position?_of_find? hold
  rw [hrecords] at helem
  rcases hplaced with ⟨hnone, -⟩ | ⟨place', hplace', -, hput⟩
  · -- a record that is found is replaced, so nothing is put behind the others
    rw [hplace] at hnone
    cases hnone
  · obtain rfl : place = place' := Option.some.inj (hplace.symm.trans hplace')
    refine hs.gone hinj helem hversion ?_ hothers
    intro e he
    rw [upsert, hput] at he
    rcases mem_of_set he with hother | rfl
    · exact .inl hother
    · exact .inr (version?_stamp _ _ _)

/-- A deletion that succeeds takes the version of its record away with it. -/
theorem gone_of_delete (hinj : Function.Injective settings.stamper.token)
    (hs : Versioned settings s) {old : Document} {a : RecordAnswer}
    (hc : s.collection? name = some c) (hold : c.find? id target.partitionKey = some old)
    (hversion : old.version? = some t) (hok : (delete name id target s).1 = .ok a) :
    ¬ Carries (delete name id target s).2 t := by
  obtain ⟨c', place', hc', hplace', hput, hothers⟩ := delete_records hok
  obtain rfl : c = c' := Option.some.inj (hc.symm.trans hc')
  obtain ⟨place, hplace, helem⟩ := Collection.position?_of_find? hold
  rw [← records_of_collection? hc] at helem
  obtain rfl : place = place' := Option.some.inj (hplace.symm.trans hplace')
  refine hs.gone hinj helem hversion ?_ hothers
  intro e he
  rw [hput] at he
  exact .inl (List.mem_eraseIdx_iff_getElem?.mp he)

/-- A collection that is deleted takes the versions of its records away. -/
theorem gone_of_deleteCollection (hinj : Function.Injective settings.stamper.token)
    (hs : Versioned settings s) {old : Document} (hold : old ∈ s.records name)
    (hversion : old.version? = some t) : ¬ Carries (deleteCollection name s).2 t := by
  obtain ⟨place, helem⟩ := List.mem_iff_getElem?.mp hold
  refine hs.gone hinj helem hversion ?_ ?_
  · intro e he
    rw [records_deleteCollection, if_pos rfl] at he
    cases he
  · intro n hn
    rw [records_deleteCollection, if_neg hn]

/-- **A version that was replaced or deleted is gone.** -/
theorem Displaces.gone (hinj : Function.Injective settings.stamper.token)
    (hs : Versioned settings s) (h : Displaces settings s t call) :
    ¬ Carries (call.after settings s) t := by
  cases h with
  | replaced hc hid hold hversion hok => exact gone_of_upsert hinj hs hc hid hold hversion hok
  | deleted hc hold hversion hok => exact gone_of_delete hinj hs hc hold hversion hok
  | dropped hold hversion => exact gone_of_deleteCollection hinj hs hold hversion

/-! ## Runs -/

/-- At no time of a run a record carried some token. -/
def Unseen (settings : Settings) (past : List Call) (t : String) : Prop :=
  ∀ earlier, earlier <+: past → ¬ Carries (after settings earlier {}) t

/-- The token of the next write was never there. -/
theorem unseen_token (hinj : Function.Injective settings.stamper.token) (past : List Call) {k : Nat}
    (hk : (after settings past {}).writes ≤ k) :
    Unseen settings past (settings.stamper.token k) := by
  intro earlier hprefix ht
  obtain ⟨rest, rfl⟩ := hprefix
  rw [after_append] at hk
  -- a token seen earlier is that of an earlier write
  obtain ⟨j, hj, heq⟩ := (Versioned.after hinj earlier).issued_of_carries ht
  have hle := (after_changes settings rest (after settings earlier {})).writes_le
  have := hinj heq
  omega

/-- Records that were loaded have versions from the number on that loading began with. -/
theorem version?_stampedFrom {ds : List Document} {n : Nat}
    (hd : d ∈ stampedFrom settings n ds) :
    ∃ k, n ≤ k ∧ d.version? = some (settings.stamper.token k) := by
  induction ds generalizing n with
  | nil => cases hd
  | cons d' ds ih =>
    rcases List.mem_cons.mp hd with rfl | hd
    · exact ⟨n, Nat.le_refl _, version?_stamp _ _ _⟩
    · obtain ⟨k, hk, hversion⟩ := ih hd
      exact ⟨k, by omega, hversion⟩

/-- Writes stamp afresh: the record that is echoed is stored, with a token that was never there;
records that are loaded have such tokens, too, and no two the same. -/
structure StampsAfresh (settings : Settings) (past : List Call) : Prop where
  write : ∀ {replacing : Bool} {name : String} {d : Document} {target : Placement}
    {a : RecordAnswer},
    (write settings replacing name d target (after settings past {})).1 = .ok a →
      ∃ stored t, a.record = some stored ∧ stored.version? = some t ∧ Unseen settings past t
        ∧ stored ∈ (write settings replacing name d target (after settings past {})).2.records name
  seed : ∀ (name : String) (ds : List Document),
    ∃ loaded, (seed settings name ds (after settings past {})).2.records name
        = (after settings past {}).records name ++ loaded
      ∧ (∀ n, (seed settings name ds (after settings past {})).1 = .ok n →
        loaded.length = ds.length)
      ∧ (loaded.Pairwise fun d e => d.version? ≠ e.version?)
      ∧ ∀ d ∈ loaded, ∃ t, d.version? = some t ∧ Unseen settings past t

/-- Behind any past, a write stamps with a version that was never there before. -/
theorem stampsAfresh (hinj : Function.Injective settings.stamper.token) (past : List Call) :
    StampsAfresh settings past := by
  refine ⟨?_, ?_⟩
  · intro replacing name d target a h
    obtain ⟨c, id, -, hrecords, -, -, hplaced, -, -⟩ := write_records h
    obtain ⟨_, _, -, -, hecho, -⟩ := write_ok h
    refine ⟨_, _, hecho, version?_stamp _ _ _, unseen_token hinj past (Nat.le_refl _), ?_⟩
    -- the stamped record is in the store, behind the others or in the place of one
    rcases hplaced with ⟨-, hput⟩ | ⟨place, hplace, -, hput⟩
    · rw [hput]
      exact List.mem_append_right _ List.mem_cons_self
    · rw [hput]
      refine List.mem_set ?_ _
      rw [← hrecords]
      exact Collection.lt_of_position? hplace
  · intro name ds
    obtain ⟨hchanges, loaded, hloaded, hall⟩ :=
      seed_loads settings name ds (after settings past {})
    have hs' := (Versioned.after hinj past).changes hinj hchanges
    refine ⟨_, hloaded, ?_, ?_, ?_⟩
    · intro n hn
      rw [length_stampedFrom, hall n hn]
    · have honce := hs'.once name
      rw [hloaded] at honce
      exact (List.pairwise_append.mp honce).2.1
    · intro d hd
      obtain ⟨k, hk, hversion⟩ := version?_stampedFrom hd
      exact ⟨_, hversion, unseen_token hinj past hk⟩

/-- **Optimistic concurrency.**  If tokens do not repeat, then after any calls: a call that asks
for a version is decided by the record it is about; writes stamp with tokens that were never
there; and a version that was replaced or deleted, be it by a call that asked for it or by
another, no later call uses. -/
theorem versions_guard (hinj : Function.Injective settings.stamper.token) (past : List Call) :
    (∀ {name id t : String} {d : Document} {target : Placement} {c : Collection},
      target.version = some t →
      ((after settings past {}).opened settings name).collection? name = some c →
      d.requireId = .ok id →
      c.checkPartition (c.partitionOf d) target.partitionKey = .ok () →
      Decided (upsert settings name d target (after settings past {})) (after settings past {})
        (c.find? id (c.partitionOf d)) t)
    ∧ (∀ {name id t : String} {target : Placement} {c : Collection} {old : Document},
      target.version = some t → (after settings past {}).collection? name = some c →
      c.find? id target.partitionKey = some old →
      Decided (delete name id target (after settings past {})) (after settings past {})
        (some old) t)
    ∧ StampsAfresh settings past
    ∧ (∀ {t : String} {call : Call}, Uses settings (after settings past {}) t call →
      Displaces settings (after settings past {}) t call)
    ∧ ∀ {t : String} {call : Call}, Displaces settings (after settings past {}) t call →
      ∀ later next, ¬ Uses settings
        (after settings later (call.after settings (after settings past {}))) t next := by
  have hs := Versioned.after hinj past
  refine ⟨upsert_decided, delete_decided, stampsAfresh hinj past, Uses.displaces, ?_⟩
  intro t call hdisplaces later next huses
  obtain ⟨k, hk, rfl⟩ := hs.issued_of_carries hdisplaces.carries
  have hle := (call.changes settings (after settings past {})).writes_le
  have hgone := hdisplaces.gone hinj hs
  refine not_carries_of_gone hinj (Nat.lt_of_lt_of_le hk hle) hgone
    (after_changes settings later _) huses.displaces.carries

/-- Tokens that are the numbers of writes. -/
def numbering : Settings where
  stamper := ⟨Text.ofNat, fun _ => 0⟩

/-- Somebody opens an account, with a token of their own. -/
def opening : List Call :=
  [.register "accounts" none,
    .create "accounts" [("id", .text "a1"), ("balance", .int32 100), ("_etag", .text "7")] {}]

/-- The collection then, with a token of the store. -/
def accounts : Collection where
  properties := ⟨"accounts", none, 400⟩
  records :=
    [[("id", .text "a1"), ("balance", .int32 100), ("_etag", .text "0"), ("_ts", .int64 0)]]

/-- A payment over the version of the opening. -/
def payment : Call :=
  .upsert "accounts" [("id", .text "a1"), ("balance", .int32 150)] { version := some "0" }

/-- It succeeds, and no other does that asks for the version of the opening, whatever happens in
between. -/
theorem versions_guard_account :
    Uses numbering (after numbering opening {}) "0" payment
      ∧ ∀ later next, ¬ Uses numbering
        (after numbering later (after numbering (opening ++ [payment]) {})) "0" next := by
  obtain ⟨hupsert, -, -, huses, hdisplaces⟩ :=
    versions_guard (show Function.Injective numbering.stamper.token from Text.ofNat_injective)
      opening
  have hc : ((after numbering opening {}).opened numbering "accounts").collection? "accounts"
      = some accounts := rfl
  have hid : Document.requireId [("id", .text "a1"), ("balance", .int32 150)] = .ok "a1" := rfl
  have htarget : ({ version := some "0" } : Placement).version = some "0" := rfl
  obtain ⟨a, hok⟩ := (hupsert htarget hc hid rfl).succeeds.mpr rfl
  have hpaid : Uses numbering (after numbering opening {}) "0" payment := .upsert rfl hok
  exact ⟨hpaid, hdisplaces (huses hpaid)⟩

end Store

end DocQuery
