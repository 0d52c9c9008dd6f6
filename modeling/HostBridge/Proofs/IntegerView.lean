import HostBridge.Proofs.DoubleInteger
import HostBridge.Value

/-!
# The integer view of doubles

A pattern of 64 bits stands for a rational number (`Double.value?`), unless it is that of an
infinity or a NaN. The integer view answers with an integer exactly if that number is the integer,
and it is in the range of 64 bits (`Value.toInt64?_float`).

The view itself looks at no rational number. It compares the fractional part with zero and the
double with the ends of the range, and cuts the double off to an integer, which would silently end
at the ends of the range. Each of these steps is a statement about the place of the double among all
others (`Double.rank`), and the rational number is that place on a finer scale (`Double.value?_eq`).
-/

namespace HostBridge

namespace Double

/-! ## The number of a pattern -/

/-- The first bit. -/
def signBit (d : Double) : Bool := d.bits.toBitVec.msb

/-- The next eleven bits. -/
def exponentBits (d : Double) : BitVec 11 := d.bits.toBitVec.extractLsb' 52 11

/-- The last fifty-two bits. -/
def fractionBits (d : Double) : BitVec 52 := d.bits.toBitVec.extractLsb' 0 52

/-- The number that a pattern stands for. All exponent bits are set in the patterns of infinities
and NaNs, which stand for none. If none is set, the number has no leading one. -/
def value? (d : Double) : Option ℚ :=
  let sign : ℚ := if d.signBit then -1 else 1
  let fraction : ℚ := d.fractionBits.toNat / 2 ^ 52
  if d.exponentBits = BitVec.allOnes 11 then none
  else if d.exponentBits = 0 then some (sign * (fraction * 2 ^ (-1022 : ℤ)))
  else some (sign * ((1 + fraction) * 2 ^ ((d.exponentBits.toNat : ℤ) - 1023)))

theorem signBit_eq (d : Double) : d.signBit = d.isNegative := by
  rw [signBit, isNegative, BitVec.msb_eq_decide]
  rfl

theorem toNat_exponentBits (d : Double) : d.exponentBits.toNat = d.exponentField := by
  rw [exponentBits, exponentField, BitVec.extractLsb'_toNat, Nat.shiftRight_eq_div_pow]
  rfl

theorem toNat_fractionBits (d : Double) : d.fractionBits.toNat = d.fraction := by
  rw [fractionBits, fraction, BitVec.extractLsb'_toNat, Nat.shiftRight_zero]
  rfl

theorem exponentBits_eq_allOnes_iff (d : Double) :
    d.exponentBits = BitVec.allOnes 11 ↔ d.exponentField = 2047 := by
  rw [← BitVec.toNat_inj, toNat_exponentBits]
  rfl

theorem exponentBits_eq_zero_iff (d : Double) : d.exponentBits = 0 ↔ d.exponentField = 0 := by
  rw [← BitVec.toNat_inj, toNat_exponentBits]
  rfl

/-! ## Places -/

/-- The place of one. It is irreducible since the power must not be evaluated. -/
@[irreducible] def rankOne : ℤ := Int.pow 2 1074

theorem rankOne_eq : rankOne = Int.pow 2 1074 := by
  rw [rankOne]

theorem rankOne_eq_natCast : rankOne = (Nat.pow 2 1074 : ℕ) := by
  rw [rankOne_eq]
  generalize 1074 = e
  exact (Nat.cast_pow 2 e).symm

theorem rankOne_pos : 0 < rankOne := by
  rw [rankOne_eq_natCast]
  generalize 1074 = e
  exact_mod_cast Nat.two_pow_pos e

theorem cast_rankOne : (rankOne : ℚ) = 2 ^ (1074 : ℤ) := by
  obtain ⟨e, he⟩ : ∃ e : ℕ, e = 1074 := ⟨_, rfl⟩
  have hexponent : (1074 : ℤ) = e := by omega
  rw [rankOne_eq_natCast, ← he, hexponent, zpow_natCast, Int.cast_natCast]
  exact Nat.cast_pow 2 e

theorem cast_rank (d : Double) : (d.rank : ℚ) = (if d.isNegative then -1 else 1) * d.units := by
  rw [rank]
  split <;> simp

/-- The magnitude of a double that has no exponent bits. -/
theorem units_of_exponentField_eq_zero {d : Double} (he : d.exponentField = 0) :
    (d.units : ℚ) = d.fraction / 2 ^ 52 * 2 ^ (-1022 : ℤ) * rankOne := by
  rw [units, significand, scale, if_pos he, he, cast_rankOne, mul_assoc, ← zpow_add₀ two_ne_zero]
  norm_num

/-- The magnitude of a double that has some. -/
theorem units_of_exponentField_ne_zero {d : Double} (he : d.exponentField ≠ 0) :
    (d.units : ℚ) =
      (1 + d.fraction / 2 ^ 52) * 2 ^ ((d.exponentField : ℤ) - 1023) * rankOne := by
  have hscale : (d.exponentField : ℤ) - 1023 + 1074 = ((d.scale : ℕ) : ℤ) + 52 := by
    rw [scale]
    omega
  rw [units, significand, if_neg he, Nat.pow_eq, Nat.pow_eq, cast_rankOne, mul_assoc,
    ← zpow_add₀ two_ne_zero, hscale, zpow_add₀ two_ne_zero, zpow_natCast]
  push_cast
  field_simp
  ring

/-- The number of a pattern is its place, compared with that of one. -/
theorem value?_eq (d : Double) :
    d.value? = if d.isFinite then some ((d.rank : ℚ) / rankOne) else none := by
  have hone : (rankOne : ℚ) ≠ 0 := by exact_mod_cast rankOne_pos.ne'
  simp only [value?, exponentBits_eq_allOnes_iff, exponentBits_eq_zero_iff, signBit_eq,
    toNat_exponentBits, toNat_fractionBits, isFinite, decide_eq_true_eq, ite_not, cast_rank]
  by_cases hspecial : d.exponentField = 2047
  · rw [if_pos hspecial, if_pos hspecial]
  · rw [if_neg hspecial, if_neg hspecial]
    by_cases he : d.exponentField = 0
    · rw [if_pos he, units_of_exponentField_eq_zero he, mul_div_assoc, mul_div_cancel_right₀ _ hone]
    · rw [if_neg he, units_of_exponentField_ne_zero he, mul_div_assoc, mul_div_cancel_right₀ _ hone]

/-- A double that stands for an integer, by its place. -/
theorem value?_eq_some_intCast_iff {d : Double} {n : ℤ} :
    d.value? = some (n : ℚ) ↔ d.isFinite = true ∧ d.rank = n * rankOne := by
  have hone : (rankOne : ℚ) ≠ 0 := by exact_mod_cast rankOne_pos.ne'
  rw [value?_eq, Option.ite_none_right_eq_some, Option.some.injEq, div_eq_iff hone]
  norm_cast

/-- The magnitude is a whole number of ones if the place is. -/
theorem units_mod_eq_zero_iff (d : Double) :
    d.units % Nat.pow 2 1074 = 0 ↔ ∃ n : ℤ, d.rank = n * rankOne := by
  rw [← Nat.dvd_iff_mod_eq_zero, ← Int.natCast_dvd_natCast, ← rankOne_eq_natCast, rank]
  split
  · rw [← Int.dvd_neg, dvd_iff_exists_eq_mul_left]
  · rw [dvd_iff_exists_eq_mul_left]

/-- A double that is an integer stands for it. -/
theorem rank_of_toInt? {d : Double} {n : ℤ} (h : d.toInt? = some n) :
    d.isFinite = true ∧ d.rank = n * rankOne := by
  obtain ⟨hfinite, k, hk, rfl⟩ := toInt?_eq_some_iff.1 h
  refine ⟨hfinite, ?_⟩
  rw [rank, rankOne_eq_natCast, hk]
  generalize Nat.pow 2 1074 = one
  split <;> simp

/-! ## The steps of the view -/

theorem isZero_iff (d : Double) : d.isZero = true ↔ d.bits.toNat % 2 ^ 63 = 0 := by
  rw [isZero, exponentField, fraction, decide_eq_true_iff, Nat.pow_eq, Nat.pow_eq]
  omega

theorem isZero_negate (d : Double) : d.negate.isZero = d.isZero := by
  have hbits : d.negate.bits.toNat % 2 ^ 63 = d.bits.toNat % 2 ^ 63 := by
    rw [negate, UInt64.toNat_xor, Nat.xor_mod_two_pow]
    simp
  rw [Bool.eq_iff_iff, isZero_iff, isZero_iff, hbits]

theorem numEq_zero (d : Double) : d.numEq zero = d.isZero := by
  have hzero : zero.isNaN = false ∧ zero.isZero = true := by decide
  rw [Bool.eq_iff_iff, numEq_iff]
  constructor
  · rintro ⟨-, -, rfl | ⟨hd, -⟩⟩
    · exact hzero.2
    · exact hd
  · exact fun hd => ⟨isNaN_of_isZero hd, hzero.1, .inr ⟨hd, hzero.2⟩⟩

/-- A magnitude of at least one unit is not rounded to zero. -/
theorem bits_nearest_pos {h : ℕ} (hh : 2 ≤ h) :
    0 < (nearest h).bits.toNat ∧ (nearest h).bits.toNat < 2 ^ 63 := by
  obtain ⟨s, hs⟩ : ∃ s, max 1 (h.log2 - 52) = s + 1 := ⟨max 1 (h.log2 - 52) - 1, by omega⟩
  have hquot : 0 < s * 2 ^ 52 + h / 2 ^ (s + 1) := by
    cases s with
    | zero =>
      rw [Nat.zero_add, pow_one]
      omega
    | succ s => exact Nat.add_pos_left (by omega) _
  rw [nearest]
  simp only [hs, Nat.pow_eq, Nat.add_sub_cancel, UInt64.toNat_ofNat']
  -- the significand is the quotient or one more
  split <;> omega

/-- Nothing but zero is rounded to zero. -/
theorem isZero_nearest (m : ℕ) : (nearest (2 * m)).isZero = true ↔ m = 0 := by
  constructor
  · intro hzero
    by_contra hm
    obtain ⟨hpos, hlt⟩ := bits_nearest_pos (h := 2 * m) (by omega)
    rw [isZero_iff, Nat.mod_eq_of_lt hlt] at hzero
    omega
  · rintro rfl
    decide

/-- A double without a fractional part is finite and a whole number of ones. -/
theorem numEq_fractionalPart_zero (d : Double) :
    d.fractionalPart.numEq zero = true ↔
      d.isFinite = true ∧ ∃ n : ℤ, d.rank = n * rankOne := by
  rw [numEq_zero, fractionalPart, ← units_mod_eq_zero_iff]
  generalize 1074 = e
  by_cases hfinite : d.isFinite = true
  · rw [if_pos hfinite, and_iff_right hfinite, ← isZero_nearest]
    dsimp only
    split
    · rw [isZero_negate]
    · rfl
  · rw [if_neg hfinite]
    have hnan : nan.isZero = false := by decide
    simp [hnan, hfinite]

/-- Cutting off a double in the range that stands for an integer gives the integer. -/
theorem clampInt64_of_rank {d : Double} {n : ℤ} (hfinite : d.isFinite = true)
    (hrank : d.rank = n * rankOne) (hlow : -2 ^ 63 ≤ n) (hhigh : n < 2 ^ 63) :
    d.clampInt64 = Int64.ofInt n := by
  have hwhole : d.rank.tdiv (Int.pow 2 1074) = n := by
    rw [hrank, ← rankOne_eq]
    exact Int.mul_tdiv_cancel n rankOne_pos.ne'
  have hnan : ¬ d.isNaN = true := by simp [isNaN_of_isFinite hfinite]
  have hlow' : ¬ n < -Int.pow 2 63 := not_lt.2 hlow
  have hhigh' : ¬ Int.pow 2 63 ≤ n := not_le.2 hhigh
  rw [clampInt64, hwhole, if_neg hnan, if_neg hlow', if_neg hhigh']

end Double

namespace Value

open Double

theorem units_int64Limit : (int64Limit.units : ℤ) = 2 ^ 63 * rankOne := by
  have hsignificand : int64Limit.significand = 2 ^ 52 := by decide
  obtain ⟨e, he⟩ : ∃ e, e = 1074 := ⟨_, rfl⟩
  have hscale : int64Limit.scale = 11 + e := he ▸ by decide
  rw [units, hsignificand, hscale, rankOne_eq_natCast, ← he, Nat.pow_eq, Nat.pow_eq, pow_add]
  push_cast
  ring

theorem rank_int64Limit : int64Limit.rank = 2 ^ 63 * rankOne := by
  have hneg : int64Limit.isNegative = false := by decide
  rw [rank, hneg, units_int64Limit]
  rfl

theorem rank_negate_int64Limit : int64Limit.negate.rank = -(2 ^ 63 * rankOne) := by
  have hneg : int64Limit.negate.isNegative = true := by decide
  have hunits : int64Limit.negate.units = int64Limit.units := by
    have hsignificand : int64Limit.negate.significand = int64Limit.significand := by decide
    have hscale : int64Limit.negate.scale = int64Limit.scale := by decide
    rw [units, units, hsignificand, hscale]
  rw [rank, hneg, hunits, units_int64Limit]
  rfl

/-- The double is within the ends of the range. -/
theorem inRange_iff {d : Double} {n : ℤ} (hfinite : d.isFinite = true)
    (hrank : d.rank = n * rankOne) :
    (int64Limit.negate.atMost d = true ∧ d.less int64Limit = true) ↔ -2 ^ 63 ≤ n ∧ n < 2 ^ 63 := by
  have hlimit : int64Limit.isNaN = false ∧ int64Limit.negate.isNaN = false := by decide
  simp only [atMost, less, hlimit, isNaN_of_isFinite hfinite, rank_int64Limit,
    rank_negate_int64Limit, hrank, Bool.not_false, Bool.true_and, decide_eq_true_eq]
  rw [← neg_mul, mul_le_mul_iff_left₀ rankOne_pos, mul_lt_mul_iff_left₀ rankOne_pos]

/-- The view of a double answers with the integer for which it stands. -/
theorem wholeInt64?_eq_some_iff {d : Double} {i : Int64} :
    wholeInt64? d = some i ↔ d.isFinite = true ∧ d.rank = i.toInt * rankOne := by
  rw [wholeInt64?, Option.ite_none_right_eq_some, Bool.and_eq_true, Bool.and_eq_true,
    numEq_fractionalPart_zero]
  constructor
  · rintro ⟨⟨⟨⟨hfinite, n, hrank⟩, hatMost⟩, hless⟩, hi⟩
    obtain ⟨hlow, hhigh⟩ := (inRange_iff hfinite hrank).1 ⟨hatMost, hless⟩
    rw [clampInt64_of_rank hfinite hrank hlow hhigh, Option.some.injEq] at hi
    refine ⟨hfinite, ?_⟩
    rw [hrank, ← hi, Int64.toInt_ofInt_of_le hlow hhigh]
  · rintro ⟨hfinite, hrank⟩
    have hlow := i.le_toInt
    have hhigh := i.toInt_lt
    obtain ⟨hatMost, hless⟩ := (inRange_iff hfinite hrank).2 ⟨hlow, hhigh⟩
    refine ⟨⟨⟨⟨hfinite, _, hrank⟩, hatMost⟩, hless⟩, ?_⟩
    rw [clampInt64_of_rank hfinite hrank hlow hhigh, Int64.ofInt_toInt]

theorem wholeInt64?_eq_some_iff_value? {d : Double} {i : Int64} :
    wholeInt64? d = some i ↔ d.value? = some (i.toInt : ℚ) := by
  rw [wholeInt64?_eq_some_iff, value?_eq_some_intCast_iff]

/-- **The integer view of doubles is exact.** A double of any pattern is viewed as an integer
exactly if the number for which the pattern stands is that integer and has 64 bits. So both zeros
are viewed as zero, the least integer of 64 bits has a double, and there is no view of the double
after the largest, of infinities and of NaNs: the view neither rounds nor ends at the ends of the
range. -/
theorem toInt64?_float (d : Double) :
    (∀ n : ℤ, (float d).toInt64?.map Int64.toInt = some n ↔
      d.value? = some (n : ℚ) ∧ -2 ^ 63 ≤ n ∧ n < 2 ^ 63) ∧
    (d.value? = some 0 → (float d).toInt64? = some 0) ∧
    (d.value? = some (-2 ^ 63) → (float d).toInt64? = some Int64.minValue) ∧
    (d.value? = some (2 ^ 63) → (float d).toInt64? = none) ∧
    (d.value? = none → (float d).toInt64? = none) := by
  have hview : ∀ {i : Int64}, (float d).toInt64? = some i ↔ d.value? = some (i.toInt : ℚ) :=
    wholeInt64?_eq_some_iff_value?
  refine ⟨fun n => ⟨?_, ?_⟩, fun hd => ?_, fun hd => ?_, fun hd => ?_, fun hd => ?_⟩
  · rw [Option.map_eq_some_iff]
    rintro ⟨i, hi, rfl⟩
    exact ⟨hview.1 hi, i.le_toInt, i.toInt_lt⟩
  · rintro ⟨hvalue, hlow, hhigh⟩
    rw [← Int64.toInt_ofInt_of_le hlow hhigh] at hvalue ⊢
    rw [hview.2 hvalue, Option.map_some]
  · exact hview.2 (by rw [hd]; rfl)
  · exact hview.2 (by rw [hd]; rfl)
  · refine Option.eq_none_iff_forall_ne_some.2 fun i hi => ?_
    have hlimit : (i.toInt : ℚ) = 2 ^ 63 := Option.some.inj ((hview.1 hi).symm.trans hd)
    exact i.toInt_lt.ne (by exact_mod_cast hlimit)
  · refine Option.eq_none_iff_forall_ne_some.2 fun i hi => ?_
    cases hd.symm.trans (hview.1 hi)

end Value

end HostBridge
