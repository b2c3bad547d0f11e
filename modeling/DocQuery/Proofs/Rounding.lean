/-
  Rounding integers keeps their order.

  The magnitude of the number nearest to an integer is its leading digits, rounded, behind the
  exponent that their place gives.  A carry out of the digits is the next exponent, so magnitudes
  grow with the integers through all of that.

  1. `roundDiv`: rounding grows with what is rounded;
  2. `significandOf`: the leading digits of a natural number;
  3. `roundedMagnitude`: the magnitude of the nearest number, which grows, and up to the
     fifty-third binary digit grows strictly;
  4. `key_ofInt_mono`, `wide_of_key_eq`: so it is with integers of either sign.
-/
import DocQuery.Number.Binary64

namespace DocQuery.Binary64

/-! ## Rounding a fraction -/

/-- A fraction is rounded to the natural number below it or to the next. -/
theorem roundDiv_bounds (m d : Nat) : m / d ≤ roundDiv m d ∧ roundDiv m d ≤ m / d + 1 := by
  rw [roundDiv]
  repeat' split
  all_goals omega

/-- Rounding a quotient keeps the order of its numerators. -/
theorem roundDiv_mono {m n : Nat} (d : Nat) (h : m ≤ n) : roundDiv m d ≤ roundDiv n d := by
  have hquotient : m / d ≤ n / d := Nat.div_le_div_right h
  rcases Nat.lt_or_eq_of_le hquotient with hlt | heq
  · calc roundDiv m d ≤ m / d + 1 := (roundDiv_bounds m d).2
      _ ≤ n / d := hlt
      _ ≤ roundDiv n d := (roundDiv_bounds n d).1
  · -- of one quotient, the remainders decide
    have hm := Nat.div_add_mod m d
    have hn := Nat.div_add_mod n d
    rw [heq] at hm
    have hremainder : m % d ≤ n % d := by omega
    rw [roundDiv, roundDiv]
    rw [heq]
    generalize n / d = q at *
    repeat' split
    all_goals omega

/-- A quotient without a remainder is not rounded. -/
theorem roundDiv_mul {d : Nat} (hd : 0 < d) (q : Nat) : roundDiv (q * d) d = q := by
  rw [roundDiv, Nat.mul_div_cancel q hd, Nat.mul_mod_left]
  exact if_pos (by omega)

/-! ## Leading digits -/

section Scaling

variable {m n s t : Nat} {e : Int}

/-- The denominator of a scaled number depends on the exponent alone. -/
theorem scaleDown_snd (m n : Nat) (e : Int) : (scaleDown m 1 e).2 = (scaleDown n 1 e).2 := by
  cases e <;> rfl

theorem scaleDown_snd_pos (n : Nat) (e : Int) : 0 < (scaleDown n 1 e).2 := by
  cases e with
  | ofNat j => exact Nat.mul_pos Nat.one_pos (Nat.pow_pos (by decide))
  | negSucc j => exact Nat.one_pos

theorem scaleDown_fst_mono (h : m ≤ n) (e : Int) : (scaleDown m 1 e).1 ≤ (scaleDown n 1 e).1 := by
  cases e with
  | ofNat j => exact h
  | negSucc j => exact Nat.mul_le_mul_right _ h

/-- A power of two that is scaled down is one with a smaller exponent. -/
theorem scaleDown_pow (h : (t : Int) = e + s) :
    (scaleDown (Nat.pow 2 t) 1 e).1 = Nat.pow 2 s * (scaleDown (Nat.pow 2 t) 1 e).2 := by
  cases e with
  | ofNat j =>
    obtain rfl : t = s + j := by
      have hj : Int.ofNat j = (j : Int) := rfl
      omega
    have hpow : Nat.pow 2 (s + j) = Nat.pow 2 s * Nat.pow 2 j := Nat.pow_add 2 s j
    show Nat.pow 2 (s + j) = Nat.pow 2 s * (1 * Nat.pow 2 j)
    rw [hpow, Nat.one_mul]
  | negSucc j =>
    obtain rfl : s = t + (j + 1) := by
      have hj : Int.negSucc j = -((j : Int) + 1) := rfl
      omega
    have hpow : Nat.pow 2 (t + (j + 1)) = Nat.pow 2 t * Nat.pow 2 (j + 1) := Nat.pow_add 2 t (j + 1)
    show Nat.pow 2 t * Nat.pow 2 (j + 1) = Nat.pow 2 (t + (j + 1)) * 1
    rw [hpow, Nat.mul_one]

/-- A number from a power of two on is no smaller than that power after both are scaled down. -/
theorem le_scaleDown (h : (t : Int) = e + s) (hn : Nat.pow 2 t ≤ n) :
    Nat.pow 2 s * (scaleDown n 1 e).2 ≤ (scaleDown n 1 e).1 := by
  rw [scaleDown_snd n (Nat.pow 2 t), ← scaleDown_pow h]
  exact scaleDown_fst_mono hn e

end Scaling

/-- The binary digits of a number from the leading one on, fifty-three of them, rounded. -/
def significandOf (n : Nat) : Nat :=
  let (m, d) := scaleDown n 1 ((n.log2 : Int) - 52)
  roundDiv m d

/-- The magnitude of the number nearest to a natural number.  A significand of fifty-four digits
counts as one in the exponent. -/
def roundedMagnitude (n : Nat) : Nat :=
  if n = 0 then 0
  else min (significandOf n + (n.log2 + 1022) * exponentWeight) infinityMagnitude

/-- A significand has 53 digits, or it was rounded up to the least number of 54. -/
theorem significandOf_bounds {n : Nat} (hn : n ≠ 0) :
    exponentWeight ≤ significandOf n ∧ significandOf n ≤ 2 * exponentWeight := by
  have hd := scaleDown_snd_pos n ((n.log2 : Int) - 52)
  have hlow : Nat.pow 2 52 * (scaleDown n 1 ((n.log2 : Int) - 52)).2
      ≤ (scaleDown n 1 ((n.log2 : Int) - 52)).1 :=
    le_scaleDown (by omega) (Nat.log2_self_le hn)
  have hhigh : (scaleDown n 1 ((n.log2 : Int) - 52)).1
      ≤ Nat.pow 2 53 * (scaleDown n 1 ((n.log2 : Int) - 52)).2 := by
    rw [scaleDown_snd n (Nat.pow 2 (n.log2 + 1)),
      ← scaleDown_pow (t := n.log2 + 1) (e := (n.log2 : Int) - 52) (s := 53) (by omega)]
    exact scaleDown_fst_mono (Nat.le_of_lt Nat.lt_log2_self) _
  constructor
  · have := roundDiv_mono (scaleDown n 1 ((n.log2 : Int) - 52)).2 hlow
    rwa [roundDiv_mul hd] at this
  · have := roundDiv_mono (scaleDown n 1 ((n.log2 : Int) - 52)).2 hhigh
    rwa [roundDiv_mul hd] at this

/-- Rounding a whole number takes its leading digits and the place they stand at. -/
theorem ofFraction_one (negative : Bool) (n : Nat) :
    ofFraction negative n 1 = ofMagnitude negative (roundedMagnitude n) := by
  rw [ofFraction, roundedMagnitude]
  split
  · rfl
  · rename_i hn
    have hlow : ((n.log2 : Int) - ((1 : Nat).log2 : Int) - 53) = (n.log2 : Int) - 53 := by
      rw [show (1 : Nat).log2 = 0 by decide]
      omega
    -- the first scaling is always one place too fine
    have hfine : 2 * exponentWeight * (scaleDown n 1 ((n.log2 : Int) - 53)).2
        ≤ (scaleDown n 1 ((n.log2 : Int) - 53)).1 :=
      le_scaleDown (s := 53) (by omega) (Nat.log2_self_le hn)
    have he : ((n.log2 : Int) - 53 + 1) = (n.log2 : Int) - 52 := by omega
    have hplace : ((n.log2 : Int) - 52 + 1074).toNat = n.log2 + 1022 := by omega
    simp only [hlow, hfine, if_true, he, if_neg (show ¬ (n.log2 : Int) - 52 < -1074 by omega),
      hplace, significandOf]

/-! ## Magnitudes grow -/

section Growth

variable {m n : Nat}

theorem log2_mono (hm : m ≠ 0) (h : m ≤ n) : m.log2 ≤ n.log2 := by
  have hn : n ≠ 0 := by omega
  exact (Nat.le_log2 hn).mpr (Nat.le_trans (Nat.log2_self_le hm) h)

/-- Among numbers with one leading place, a larger one has no smaller significand. -/
theorem significandOf_mono (h : m ≤ n) (hlog : m.log2 = n.log2) :
    significandOf m ≤ significandOf n := by
  simp only [significandOf, hlog]
  rw [scaleDown_snd m n]
  exact roundDiv_mono _ (scaleDown_fst_mono h _)

/-- A larger number is not rounded to a smaller magnitude.  A significand that carries is the least
one in the next place, which is where the numbers of that place begin. -/
theorem roundedMagnitude_mono (h : m ≤ n) : roundedMagnitude m ≤ roundedMagnitude n := by
  by_cases hm : m = 0
  · rw [hm]
    exact Nat.zero_le _
  have hn : n ≠ 0 := by omega
  have hweight : exponentWeight = 4503599627370496 := rfl
  have hmax := significandOf_bounds hm
  have hmin := significandOf_bounds hn
  rw [hweight] at hmax hmin
  have hword : significandOf m + (m.log2 + 1022) * exponentWeight
      ≤ significandOf n + (n.log2 + 1022) * exponentWeight := by
    rw [hweight]
    rcases Nat.lt_or_eq_of_le (log2_mono hm h) with hlog | hlog
    · -- the carry out of the smaller one reaches the next exponent at most
      omega
    · have := significandOf_mono h hlog
      rw [hlog]
      omega
  rw [roundedMagnitude, roundedMagnitude, if_neg hm, if_neg hn]
  omega

/-- Up to fifty-three digits nothing is rounded. -/
theorem significandOf_exact (h : n.log2 ≤ 52) : significandOf n = n * Nat.pow 2 (52 - n.log2) := by
  have hscale : scaleDown n 1 ((n.log2 : Int) - 52) = (n * Nat.pow 2 (52 - n.log2), 1) := by
    rcases Nat.lt_or_eq_of_le h with hlt | heq
    · obtain ⟨j, hj⟩ : ∃ j, 52 - n.log2 = j + 1 := ⟨51 - n.log2, by omega⟩
      have hneg : (n.log2 : Int) - 52 = Int.negSucc j := by omega
      rw [hj, hneg]
      rfl
    · rw [heq]
      exact Prod.ext (Nat.mul_one n).symm rfl
  have hround := roundDiv_mul Nat.one_pos (n * Nat.pow 2 (52 - n.log2))
  rw [Nat.mul_one] at hround
  simp only [significandOf, hscale, hround]

/-- A number of 53 digits at most has a significand of 53: nothing is rounded, so nothing carries.
-/
theorem significandOf_lt (h : n.log2 ≤ 52) :
    significandOf n < 9007199254740992 := by
  have hpow : Nat.pow 2 (n.log2 + 1) * Nat.pow 2 (52 - n.log2) = 9007199254740992 := by
    have hsum : n.log2 + 1 + (52 - n.log2) = 53 := by omega
    exact (Nat.pow_add 2 (n.log2 + 1) (52 - n.log2)).symm.trans (congrArg (Nat.pow 2) hsum)
  rw [significandOf_exact h, ← hpow]
  exact Nat.mul_lt_mul_of_pos_right Nat.lt_log2_self (Nat.pow_pos (by decide))

/-- Below 2^53 rounding is exact, and tells different numbers apart. -/
theorem roundedMagnitude_lt (h : m < n) (hm : m < 9007199254740992) :
    roundedMagnitude m < roundedMagnitude n := by
  have hn : n ≠ 0 := by omega
  have hweight : exponentWeight = 4503599627370496 := rfl
  have hinfinity : infinityMagnitude = 9218868437227405312 := rfl
  have hmin := significandOf_bounds hn
  rw [roundedMagnitude, roundedMagnitude, if_neg hn, hinfinity]
  rw [hweight] at hmin ⊢
  split
  · omega
  · rename_i hm0
    have hlog : m.log2 ≤ 52 := by
      have := (Nat.log2_lt hm0).mpr (show m < 2 ^ 53 from hm)
      omega
    have hcarry := significandOf_lt hlog
    rcases Nat.lt_or_eq_of_le (log2_mono hm0 (Nat.le_of_lt h)) with hlt | heq
    · -- below the next power of two
      omega
    · have hsignificand : significandOf m < significandOf n := by
        rw [significandOf_exact hlog, significandOf_exact (n := n) (by omega), ← heq]
        exact Nat.mul_lt_mul_of_pos_right h (Nat.pow_pos (by decide))
      rw [heq] at hlog ⊢
      omega

end Growth

/-! ## Integers -/

/-- Rounding ends at infinity at the latest. -/
theorem roundedMagnitude_le (n : Nat) : roundedMagnitude n ≤ infinityMagnitude := by
  rw [roundedMagnitude]
  split
  · exact Nat.zero_le _
  · exact Nat.min_le_right _ _

/-- The key of a double that is put together from a sign and a magnitude. -/
theorem key_ofMagnitude (negative : Bool) {m : Nat} (h : m ≤ infinityMagnitude) :
    (ofMagnitude negative m).key = if negative then -(m : Int) else m := by
  have hinfinity : infinityMagnitude = 9218868437227405312 := rfl
  have hsign : signWeight = 9223372036854775808 := rfl
  rw [hinfinity] at h
  cases negative with
  | false =>
    have hbits : (ofMagnitude false m).bits.toNat = m := by
      rw [ofMagnitude, UInt64.toNat_ofNat', if_neg Bool.false_ne_true]
      omega
    rw [key, Binary64.negative, magnitude, hbits, hsign]
    rw [if_neg (by simp; omega), if_neg Bool.false_ne_true, Nat.mod_eq_of_lt (by omega)]
  | true =>
    have hbits : (ofMagnitude true m).bits.toNat = signWeight + m := by
      rw [ofMagnitude, UInt64.toNat_ofNat', if_pos rfl, hsign]
      omega
    rw [key, Binary64.negative, magnitude, hbits, if_pos (by simp), if_pos rfl,
      Nat.add_mod_left, Nat.mod_eq_of_lt (by omega)]

/-- The key of a rounded integer is its rounded magnitude, with the sign of the integer. -/
theorem key_ofInt (n : Int) : (ofInt n).key =
    if n < 0 then -(roundedMagnitude n.natAbs : Int) else roundedMagnitude n.natAbs := by
  rw [ofInt, ofFraction_one, key_ofMagnitude _ (roundedMagnitude_le _)]
  simp only [decide_eq_true_eq]

/-- The larger of two integers is not smaller after rounding. -/
theorem key_ofInt_mono {m n : Int} (h : m ≤ n) : (ofInt m).key ≤ (ofInt n).key := by
  rw [key_ofInt, key_ofInt]
  split
  · split
    · have := roundedMagnitude_mono (show n.natAbs ≤ m.natAbs by omega)
      omega
    · omega
  · rw [if_neg (by omega)]
    have := roundedMagnitude_mono (show m.natAbs ≤ n.natAbs by omega)
    omega

/-- Integers that differ and round to one number have more than fifty-three binary digits. -/
theorem wide_of_key_eq {m n : Int} (h : m < n) (heq : (ofInt m).key = (ofInt n).key) :
    9007199254740992 ≤ m.natAbs ∧ 9007199254740992 ≤ n.natAbs := by
  rw [key_ofInt, key_ofInt] at heq
  -- on either side of zero, the one nearer to it would have a smaller magnitude
  by_cases hn : n < 0
  · rw [if_pos (by omega), if_pos hn] at heq
    have hwide : 9007199254740992 ≤ n.natAbs := Nat.le_of_not_lt fun hlt => by
      have := roundedMagnitude_lt (show n.natAbs < m.natAbs by omega) hlt
      omega
    omega
  · rw [if_neg hn] at heq
    split at heq
    · have := roundedMagnitude_lt (show 0 < m.natAbs by omega) (by decide)
      have hzero : roundedMagnitude 0 = 0 := rfl
      omega
    · have hwide : 9007199254740992 ≤ m.natAbs := Nat.le_of_not_lt fun hlt => by
        have := roundedMagnitude_lt (show m.natAbs < n.natAbs by omega) hlt
        omega
      omega

end DocQuery.Binary64
