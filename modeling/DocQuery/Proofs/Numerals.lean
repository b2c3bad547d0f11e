/-
  Digits read back.

  Numbers leave the library as digits in several places: the names of parameters, the
  continuations of a store, and the keys of partitions.  What is written there is taken apart or
  compared elsewhere, so all of it rests on one fact:

  The writer puts digits in front of an accumulator, from the last to the first, and the reader
  multiplies up from the first to the last.  So the law that carries the induction is about the
  writer with digits already behind it, and says what the reader makes of the whole; with nothing
  behind, it is the law that is wanted.  That two numbers have two texts follows from reading
  back, with no look at the digits.

  1. `digitsInto_spec`: what `natChars` writes is one digit or more, and its value is the number;
     `natChars_head`: no zero stands in front, and `ofNat_eq_repr`: it is the usual numeral;
  2. `readNat_eq_some_iff`: what reads as a number, and `readNat_natChars`: so `readNat` undoes
     what is written, up to the limit it was given;
  3. `ofNat_injective`, `ofInt_injective`: and two numbers never share a text;
  4. `hexOfBytes_injective`: nor do two rows of bytes.
-/
import DocQuery.Text.Digits

namespace DocQuery.Text

/-! ## Single digits -/

theorem isDigit_digitChar {n : Nat} (h : n < 10) : isDigit (digitChar n) = true := by
  have hall : ∀ m, m < 10 → isDigit (digitChar m) = true := by decide
  exact hall n h

/-- `digitChar` and `digitValue` undo each other below ten. -/
theorem digitValue_digitChar {n : Nat} (h : n < 10) : digitValue (digitChar n) = n := by
  have hall : ∀ m, m < 10 → digitValue (digitChar m) = m := by decide
  exact hall n h

/-- A digit may stand within a word. -/
theorem isWordChar_of_isDigit {c : Char} (h : isDigit c = true) : isWordChar c = true := by
  simp [isWordChar, h]

/-- One more digit behind others makes them count for ten times as much. -/
theorem digitsValue_append_singleton (ds : List Char) (c : Char) :
    digitsValue (ds ++ [c]) = digitsValue ds * 10 + digitValue c := by
  rw [digitsValue, List.foldl_append]
  rfl

/-! ## All digits of a number -/

/-- With enough fuel `digitsInto` puts digits in front of `acc`, at least one, and their value is
the number.  Each division by ten uses up one unit of fuel, and less than a factor of two would
do. -/
theorem digitsInto_spec : ∀ (fuel n : Nat) (acc : List Char), 0 < fuel → n < Nat.pow 2 fuel →
    ∃ ds, digitsInto 10 fuel n acc = ds ++ acc ∧ ds ≠ [] ∧ (∀ c ∈ ds, isDigit c = true)
      ∧ digitsValue ds = n
  | 0, _, _, hpos, _ => absurd hpos (Nat.lt_irrefl 0)
  | fuel + 1, n, acc, _, hn => by
    have hmod : n % 10 < 10 := Nat.mod_lt n (by decide)
    rw [digitsInto]
    by_cases hz : n / 10 = 0
    · rw [if_pos hz]
      refine ⟨[digitChar (n % 10)], rfl, by simp, ?_, ?_⟩
      · intro c hc
        rw [List.mem_singleton] at hc
        rw [hc]
        exact isDigit_digitChar hmod
      · show 0 * 10 + digitValue (digitChar (n % 10)) = n
        rw [digitValue_digitChar hmod]
        omega
    · rw [if_neg hz]
      -- a number has fewer digits than bits, so halving the bound makes up for the step
      have hpow : Nat.pow 2 (fuel + 1) = Nat.pow 2 fuel * 2 := rfl
      have hlt : n / 10 < Nat.pow 2 fuel := by omega
      have hfuel : 0 < fuel := by
        rcases Nat.eq_zero_or_pos fuel with h0 | h0
        · subst h0
          have h1 : Nat.pow 2 0 = 1 := rfl
          omega
        · exact h0
      obtain ⟨ds, hds, -, hdig, hval⟩ := digitsInto_spec fuel (n / 10)
        (digitChar (n % 10) :: acc) hfuel hlt
      refine ⟨ds ++ [digitChar (n % 10)], by rw [hds, List.append_assoc]; rfl, by simp, ?_, ?_⟩
      · intro c hc
        rcases List.mem_append.mp hc with hc | hc
        · exact hdig c hc
        · rw [List.mem_singleton] at hc
          rw [hc]
          exact isDigit_digitChar hmod
      · -- the last digit counts once, and all in front of it ten times
        rw [digitsValue_append_singleton, hval, digitValue_digitChar hmod]
        omega

/-- **Digits have the value that they were written for**, and there is at least one. -/
theorem natChars_spec (n : Nat) :
    natChars n ≠ [] ∧ (∀ c ∈ natChars n, isDigit c = true) ∧ digitsValue (natChars n) = n := by
  obtain ⟨ds, hds, hne, hdig, hval⟩ :=
    digitsInto_spec (n.log2 + 1) n [] (Nat.succ_pos _) Nat.lt_log2_self
  have hchars : natChars n = ds := by rw [natChars, hds, List.append_nil]
  rw [hchars]
  exact ⟨hne, hdig, hval⟩

theorem natChars_ne_nil (n : Nat) : natChars n ≠ [] := (natChars_spec n).1

/-- A numeral consists of digits. -/
theorem isDigit_of_mem_natChars {n : Nat} {c : Char} (h : c ∈ natChars n) : isDigit c = true :=
  (natChars_spec n).2.1 c h

/-- The first digit of a number that is not zero is none. -/
theorem digitsInto_head : ∀ (fuel n : Nat) (acc : List Char), 0 < n → n < Nat.pow 2 fuel →
    ∃ c cs, digitsInto 10 fuel n acc = c :: cs ∧ c ≠ '0'
  | 0, n, _, hpos, hn => by
    have hone : Nat.pow 2 0 = 1 := rfl
    omega
  | fuel + 1, n, acc, hpos, hn => by
    rw [digitsInto]
    by_cases hz : n / 10 = 0
    · rw [if_pos hz]
      have hall : ∀ m, m < 10 → 0 < m → digitChar m ≠ '0' := by decide
      exact ⟨_, _, rfl, hall (n % 10) (by omega) (by omega)⟩
    · rw [if_neg hz]
      have hpow : Nat.pow 2 (fuel + 1) = Nat.pow 2 fuel * 2 := rfl
      exact digitsInto_head fuel (n / 10) _ (by omega) (by omega)

/-- No zero stands in front, but for nought itself. -/
theorem natChars_head {n : Nat} (h : 0 < n) : ∃ c cs, natChars n = c :: cs ∧ c ≠ '0' :=
  digitsInto_head (n.log2 + 1) n [] h Nat.lt_log2_self

/-- The digits are those of the library, which counts fuel in another way. -/
theorem digitsInto_eq_toDigitsCore : ∀ (fuel fuel' n : Nat) (acc : List Char), 0 < fuel →
    n < Nat.pow 2 fuel → n < fuel' → digitsInto 10 fuel n acc = Nat.toDigitsCore 10 fuel' n acc
  | fuel + 1, fuel' + 1, n, acc, _, hn, hn' => by
    have hchar : ∀ m, m < 10 → digitChar m = Nat.digitChar m := by decide
    rw [digitsInto, Nat.toDigitsCore, hchar _ (Nat.mod_lt n (by decide))]
    by_cases hz : n / 10 = 0
    · simp only [hz, if_true]
    · simp only [if_neg hz]
      have hpow : Nat.pow 2 (fuel + 1) = Nat.pow 2 fuel * 2 := rfl
      have hfuel : 0 < fuel := by
        rcases Nat.eq_zero_or_pos fuel with rfl | hpos
        · have hone : Nat.pow 2 0 = 1 := rfl
          omega
        · exact hpos
      exact digitsInto_eq_toDigitsCore fuel fuel' _ _ hfuel (by omega) (by omega)

/-- What is written for a number is its usual numeral. -/
theorem ofNat_eq_repr (n : Nat) : ofNat n = Nat.repr n := by
  rw [ofNat, natChars, Nat.repr, Nat.toDigits]
  exact congrArg String.ofList
    (digitsInto_eq_toDigitsCore _ _ n [] (Nat.succ_pos _) Nat.lt_log2_self (Nat.lt_succ_self n))

/-! ## Reading back -/

/-- What is written for a number reads as it, digit by digit. -/
theorem readDigits_natChars (n : Nat) : readDigits (natChars n) = some n := by
  obtain ⟨hne, hdig, hval⟩ := natChars_spec n
  have hempty : (natChars n).isEmpty = false := by simpa using hne
  have hall : (natChars n).all isDigit = true := List.all_eq_true.mpr hdig
  rw [readDigits, hempty, hall, hval]
  rfl

/-- Digits, at least one and nothing else, read as their value. -/
theorem readDigits_eq_some_iff {cs : List Char} {n : Nat} : readDigits cs = some n ↔
    cs ≠ [] ∧ (∀ c ∈ cs, isDigit c = true) ∧ n = digitsValue cs := by
  have hdigits : (!cs.isEmpty && cs.all isDigit) = true
      ↔ cs ≠ [] ∧ ∀ c ∈ cs, isDigit c = true := by
    rw [Bool.and_eq_true, Bool.not_eq_true', List.isEmpty_eq_false_iff, List.all_eq_true]
  rw [readDigits]
  split
  · rename_i h
    rw [Option.some_inj, ← and_assoc, and_iff_right (hdigits.mp h)]
    exact eq_comm
  · rename_i h
    exact iff_of_false nofun fun hcs => h (hdigits.mpr ⟨hcs.1, hcs.2.1⟩)

/-- **What reads as a number**: digits behind an optional sign, up to the limit. -/
theorem readNat_eq_some_iff {limit : Nat} {cs : List Char} {n : Nat} :
    readNat limit cs = some n ↔ ∃ sign ds, cs = sign ++ ds ∧ (sign = [] ∨ sign = ['+'])
      ∧ readDigits ds = some n ∧ n ≤ limit := by
  have hread : ∀ ds, (readDigits ds >>= fun n => if n ≤ limit then some n else none) = some n
      ↔ readDigits ds = some n ∧ n ≤ limit := by
    intro ds
    rw [Option.bind_eq_bind, Option.bind_eq_some_iff]
    constructor
    · rintro ⟨m, hm, hle⟩
      split at hle
      · rename_i hlimit
        cases hle
        exact ⟨hm, hlimit⟩
      · cases hle
    · rintro ⟨hn, hle⟩
      exact ⟨n, hn, if_pos hle⟩
  constructor
  · intro h
    unfold readNat at h
    split at h
    · rename_i rest
      exact ⟨['+'], rest, rfl, .inr rfl, (hread rest).mp h⟩
    · exact ⟨[], cs, rfl, .inl rfl, (hread cs).mp h⟩
  · rintro ⟨sign, ds, rfl, rfl | rfl, hds⟩
    · unfold readNat
      split
      -- a sign is no digit
      · rename_i rest heq
        rw [List.nil_append] at heq
        have hdigit := (readDigits_eq_some_iff.mp hds.1).2.1 '+' (heq ▸ List.mem_cons_self)
        exact absurd hdigit (by decide)
      · exact (hread ds).mpr hds
    · exact (hread ds).mpr hds

/-- Digits carry no sign, so reading them with an optional one changes nothing. -/
theorem readNat_natChars {limit n : Nat} (h : n ≤ limit) : readNat limit (natChars n) = some n :=
  readNat_eq_some_iff.mpr ⟨[], natChars n, rfl, .inl rfl, readDigits_natChars n, h⟩

/-- Two numbers never share a text. -/
theorem ofNat_injective : Function.Injective ofNat := by
  intro m n h
  have hchars : natChars m = natChars n := by
    have := congrArg String.toList h
    rwa [ofNat, ofNat, String.toList_ofList, String.toList_ofList] at this
  have hm := readDigits_natChars m
  rw [hchars, readDigits_natChars n] at hm
  exact (Option.some.inj hm).symm

/-! ## Signs -/

/-- The first character of an integer. -/
def startsInteger (c : Char) : Bool :=
  c == '-' || isDigit c

/-- An integer from nought on is written as the number that it is. -/
theorem ofInt_of_nonneg {n : Int} (h : 0 ≤ n) : ofInt n = ofNat n.natAbs := by
  rw [ofInt, if_neg (by omega)]

/-- An integer below nought is written with a minus in front of its magnitude. -/
theorem ofInt_of_neg {n : Int} (h : n < 0) : ofInt n = "-" ++ ofNat n.natAbs := by
  rw [ofInt, if_pos h]

/-- A numeral begins with a digit. -/
theorem ofNat_head (n : Nat) : ∃ c cs, (ofNat n).toList = c :: cs ∧ isDigit c = true := by
  rw [ofNat, String.toList_ofList]
  cases hcs : natChars n with
  | nil => exact absurd hcs (natChars_ne_nil n)
  | cons c cs => exact ⟨c, cs, rfl, isDigit_of_mem_natChars (n := n) (by rw [hcs]; simp)⟩

/-- An integer begins with a digit or a minus, which is how a reader of numbers tells that one
begins. -/
theorem ofInt_head (n : Int) : ∃ c cs, (ofInt n).toList = c :: cs ∧ startsInteger c = true := by
  rcases Int.lt_or_le n 0 with h | h
  · refine ⟨'-', (ofNat n.natAbs).toList, ?_, rfl⟩
    rw [ofInt_of_neg h, String.toList_append]
    rfl
  · obtain ⟨c, cs, hcs, hc⟩ := ofNat_head n.natAbs
    refine ⟨c, cs, ?_, ?_⟩
    · rw [ofInt_of_nonneg h, hcs]
    · rw [startsInteger, hc, Bool.or_true]

/-- A number without a sign does not read like one that has it. -/
theorem ofNat_ne_minus (m n : Nat) : ofNat m ≠ "-" ++ ofNat n := by
  intro h
  obtain ⟨c, cs, hcs, hc⟩ := ofNat_head m
  rw [h, String.toList_append] at hcs
  obtain rfl : '-' = c := (List.cons.inj hcs).1
  exact absurd hc (by decide)

/-- Two integers never share a text. -/
theorem ofInt_injective : Function.Injective ofInt := by
  intro m n h
  rcases Int.lt_or_le m 0 with hm | hm <;> rcases Int.lt_or_le n 0 with hn | hn
  · rw [ofInt_of_neg hm, ofInt_of_neg hn, String.append_right_inj] at h
    have := ofNat_injective h
    omega
  · rw [ofInt_of_neg hm, ofInt_of_nonneg hn] at h
    exact absurd h.symm (ofNat_ne_minus _ _)
  · rw [ofInt_of_nonneg hm, ofInt_of_neg hn] at h
    exact absurd h (ofNat_ne_minus _ _)
  · rw [ofInt_of_nonneg hm, ofInt_of_nonneg hn] at h
    have := ofNat_injective h
    omega

/-! ## Bytes -/

/-- The digit of a number below sixteen has that value. -/
theorem hexValue_digitChar {n : Nat} (h : n < 16) : hexValue (digitChar n) = some n := by
  have hall : ∀ m, m < 16 → hexValue (digitChar m) = some m := by decide
  exact hall n h

/-- The two digits of each byte read back. -/
theorem bytesOfHex_digits (bytes : List UInt8) :
    bytesOfHex (bytes.flatMap fun b => [digitChar (b.toNat / 16), digitChar (b.toNat % 16)])
      = some bytes := by
  induction bytes with
  | nil => rfl
  | cons b bytes ih =>
    have hb : b.toNat < 256 := b.toNat_lt
    have hhigh : b.toNat / 16 < 16 := by omega
    have hlow : b.toNat % 16 < 16 := by omega
    have hwhole : b.toNat / 16 * 16 + b.toNat % 16 = b.toNat := by omega
    rw [List.flatMap_cons]
    simp only [List.cons_append, List.nil_append, bytesOfHex, hexValue_digitChar hhigh,
      hexValue_digitChar hlow, ih, bind, Option.bind, hwhole, UInt8.ofNat_toNat]

/-- Two rows of bytes never share a text. -/
theorem hexOfBytes_injective : Function.Injective hexOfBytes := by
  intro xs ys h
  rw [hexOfBytes, hexOfBytes, String.ofList_inj] at h
  have hxs := bytesOfHex_digits xs
  rw [h, bytesOfHex_digits ys] at hxs
  exact (Option.some.inj hxs).symm

end DocQuery.Text
