/-
  Steps that may fail: what follows from their success.

  1. a sequence of two steps succeeds as both do;
  2. `mapM` succeeds as its step does on every element, one result for each, and on every stretch
     of a list as on the whole.
-/

namespace DocQuery

universe u v
variable {ε : Type u} {α β : Type v}

/-- A sequence succeeds with what its second step makes of the result of the first. -/
theorem ok_of_bind {x : Except ε α} {f : α → Except ε β} {b : β} (h : (x >>= f) = .ok b) :
    ∃ a, x = .ok a ∧ f a = .ok b := by
  cases x with
  | error e => cases h
  | ok a => exact ⟨a, rfl, h⟩

/-- A sequence fails as its first step does, or as its second does on the result of the first. -/
theorem error_of_bind {x : Except ε α} {f : α → Except ε β} {e : ε} (h : (x >>= f) = .error e) :
    x = .error e ∨ ∃ a, x = .ok a ∧ f a = .error e := by
  cases x with
  | error e' => exact .inl (congrArg Except.error (Except.error.inj h))
  | ok a => exact .inr ⟨a, rfl, h⟩

/-- What is done to results makes no success. -/
theorem ok_of_map {f : α → β} {x : Except ε α} {b : β} (h : x.map f = .ok b) :
    ∃ a, x = .ok a ∧ f a = b := by
  cases x with
  | error e => cases h
  | ok a => exact ⟨a, rfl, Except.ok.inj h⟩

/-- What is done to results makes no fault either. -/
theorem error_of_map {f : α → β} {x : Except ε α} {e : ε} (h : x.map f = .error e) :
    x = .error e := by
  cases x with
  | error e' => exact congrArg Except.error (Except.error.inj h)
  | ok a => cases h

/-- Renaming faults makes no success. -/
theorem ok_of_mapError {ε' : Type u} {g : ε → ε'} {x : Except ε α} {a : α}
    (h : x.mapError g = .ok a) : x = .ok a := by
  cases x with
  | error e => cases h
  | ok a' => exact congrArg Except.ok (Except.ok.inj h)

/-- A fault that was renamed was a fault before. -/
theorem error_of_mapError {ε' : Type u} {g : ε → ε'} {x : Except ε α} {e' : ε'}
    (h : x.mapError g = .error e') : ∃ e, x = .error e ∧ g e = e' := by
  cases x with
  | error e => exact ⟨e, rfl, Except.error.inj h⟩
  | ok a => cases h

/-- A success, by something that can be told of its result. -/
theorem ok_of_toOption_map {α : Type} {β : Type} {f : α → β} {x : Except ε α} {b : β}
    (h : x.toOption.map f = some b) : ∃ a, x = .ok a ∧ f a = b := by
  cases x with
  | error e => cases h
  | ok a => exact ⟨a, rfl, Option.some.inj h⟩

/-- Results in the order of what they were made from. -/
inductive Paired {α : Type u} {β : Type v} (R : α → β → Prop) : List α → List β → Prop
  | nil : Paired R [] []
  | cons {a b as bs} : R a b → Paired R as bs → Paired R (a :: as) (b :: bs)

/-- The other way round, with `g` done to the left side. -/
theorem Paired.mapSwap {α : Type u} {β : Type v} {γ : Type u} {R : α → β → Prop} {S : β → γ → Prop}
    {g : α → γ} (hg : ∀ {a b}, R a b → S b (g a)) {as : List α} {bs : List β}
    (h : Paired R as bs) : Paired S bs (as.map g) := by
  induction h with
  | nil => exact .nil
  | cons hab _ ih => exact .cons (hg hab) ih

/-- Pairs that hold of one relation hold of a weaker one. -/
theorem Paired.imp {α : Type u} {β : Type v} {R S : α → β → Prop} {as : List α} {bs : List β}
    (hpaired : Paired R as bs) (h : ∀ a ∈ as, ∀ b, R a b → S a b) : Paired S as bs := by
  induction hpaired with
  | nil => exact .nil
  | cons hab _ ih =>
    obtain ⟨ha, has⟩ := List.forall_mem_cons.mp h
    exact .cons (ha _ hab) (ih has)

/-- What every pair says of its left side is so of the whole list on the left. -/
theorem Paired.forall_left {α : Type u} {β : Type v} {R : α → β → Prop} {P : α → Prop}
    {as : List α} {bs : List β} (hpaired : Paired R as bs) (h : ∀ a b, R a b → P a) :
    ∀ a ∈ as, P a := by
  induction hpaired with
  | nil => exact fun a ha => absurd ha List.not_mem_nil
  | cons hab _ ih => exact List.forall_mem_cons.mpr ⟨h _ _ hab, ih⟩

/-- A step on every element succeeds as it does on the first and then on the others. -/
theorem mapM_cons_ok {α : Type} {β : Type v} {f : α → Except ε β} {a : α} {as : List α}
    {bs : List β} :
    (a :: as).mapM f = .ok bs ↔ ∃ b bs', f a = .ok b ∧ as.mapM f = .ok bs' ∧ bs = b :: bs' := by
  rw [List.mapM_cons]
  constructor
  · intro h
    obtain ⟨b, hb, h⟩ := ok_of_bind h
    obtain ⟨bs', hbs, h⟩ := ok_of_bind h
    exact ⟨b, bs', hb, hbs, (Except.ok.inj h).symm⟩
  · rintro ⟨b, bs', hb, hbs, rfl⟩
    rw [hb, hbs]
    rfl

/-- Each result of `mapM` is that of the element in its place. -/
theorem paired_of_mapM {α : Type} {β : Type v} {f : α → Except ε β} {as : List α} {bs : List β}
    (h : as.mapM f = .ok bs) : Paired (fun a b => f a = .ok b) as bs := by
  induction as generalizing bs with
  | nil =>
    cases h
    exact .nil
  | cons a as ih =>
    obtain ⟨b, bs', hb, hbs, rfl⟩ := mapM_cons_ok.mp h
    exact .cons hb (ih hbs)

/-- A list succeeds as each of its elements does. -/
theorem mapM_ok_iff {α : Type} {β : Type v} {f : α → Except ε β} {as : List α} :
    (∃ bs, as.mapM f = .ok bs) ↔ ∀ a ∈ as, ∃ b, f a = .ok b := by
  induction as with
  | nil => exact ⟨fun _ a ha => absurd ha List.not_mem_nil, fun _ => ⟨[], rfl⟩⟩
  | cons a as ih =>
    rw [List.forall_mem_cons, ← ih]
    constructor
    · rintro ⟨bs, h⟩
      obtain ⟨b, bs', hb, hbs, -⟩ := mapM_cons_ok.mp h
      exact ⟨⟨b, hb⟩, bs', hbs⟩
    · rintro ⟨⟨b, hb⟩, bs', hbs⟩
      exact ⟨b :: bs', mapM_cons_ok.mpr ⟨b, bs', hb, hbs, rfl⟩⟩

/-- A list that fails does so at one of its elements. -/
theorem error_of_mapM {α : Type} {β : Type v} {f : α → Except ε β} {as : List α} {e : ε}
    (h : as.mapM f = .error e) : ∃ a ∈ as, f a = .error e := by
  induction as with
  | nil => cases h
  | cons a as ih =>
    rw [List.mapM_cons] at h
    rcases error_of_bind h with h | ⟨_, -, h⟩
    · exact ⟨a, List.mem_cons_self, h⟩
    · rcases error_of_bind h with h | ⟨_, -, h⟩
      · obtain ⟨b, hb, hf⟩ := ih h
        exact ⟨b, List.mem_cons_of_mem _ hb, hf⟩
      · cases h

/-- Every stretch of a list succeeds as the whole does. -/
theorem mapM_stretch {α : Type} {β : Type v} {f : α → Except ε β} {as : List α} {bs : List β}
    (h : as.mapM f = .ok bs) :
    ∀ m n, ((as.drop m).take n).mapM f = .ok ((bs.drop m).take n) := by
  induction as generalizing bs with
  | nil =>
    obtain rfl : bs = [] := (Except.ok.inj h).symm
    intro m n
    rw [List.drop_nil, List.drop_nil, List.take_nil, List.take_nil]
    rfl
  | cons a as ih =>
    obtain ⟨b, bs', hb, hbs, rfl⟩ := mapM_cons_ok.mp h
    intro m n
    cases m with
    | succ m => exact ih hbs m n
    | zero =>
      cases n with
      | zero => rfl
      | succ n => exact mapM_cons_ok.mpr ⟨b, bs'.take n, hb, ih hbs 0 n, rfl⟩

/-- so there are as many. -/
theorem length_of_mapM {α : Type} {β : Type v} {f : α → Except ε β} {as : List α} {bs : List β}
    (h : as.mapM f = .ok bs) : bs.length = as.length := by
  induction as generalizing bs with
  | nil =>
    cases h
    rfl
  | cons a as ih =>
    obtain ⟨b, bs', -, hbs, rfl⟩ := mapM_cons_ok.mp h
    rw [List.length_cons, List.length_cons, ih hbs]

/-- A step that gives back what it takes leaves a list as it is. -/
theorem mapM_eq_self {α : Type v} {f : α → Except ε α} {as : List α} (h : ∀ a ∈ as, f a = .ok a) :
    as.mapM f = .ok as := by
  induction as with
  | nil => rfl
  | cons a as ih =>
    rw [List.mapM_cons, h a List.mem_cons_self,
      ih fun b hb => h b (List.mem_cons_of_mem _ hb)]
    rfl

end DocQuery
