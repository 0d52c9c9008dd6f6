import HostBridge.Double
import Mathlib

/-!
# Integers as doubles

The double nearest to an integer of at most 53 bits is that integer (`Double.toInt?_ofInt`). A
larger one, up to 64 bits, may be rounded, but not to anything below `2^53`
(`Double.two_pow_le_natAbs_of_ofInt`).

Both come from the parts of the pattern: the significand that `nearest` chooses has 53 bits, its
scale is given by the length of the integer, and the bits dropped are zero up to 53 bits.
-/

namespace HostBridge.Double

/-! ## Patterns of normal doubles -/

/-- The pattern of a double with sign, scale and a significand of 53 bits; `2^53` itself stands for
the next scale. -/
structure HasParts (d : Double) (negative : Bool) (s m : ℕ) : Prop where
  bits : d.bits.toNat = (if negative then 2 ^ 63 else 0) + s * 2 ^ 52 + m
  le : 2 ^ 52 ≤ m
  le' : m ≤ 2 ^ 53
  lt : s + 2 < 2047

namespace HasParts

variable {d : Double} {negative : Bool} {s m : ℕ}

theorem isNegative (h : d.HasParts negative s m) : d.isNegative = negative := by
  obtain ⟨hbits, hm, hm', hs⟩ := h
  rw [Double.isNegative, hbits]
  cases negative with
  | true => simp; omega
  | false => simp; omega

theorem exponentField (h : d.HasParts negative s m) :
    d.exponentField = if m < 2 ^ 53 then s + 1 else s + 2 := by
  obtain ⟨hbits, hm, hm', hs⟩ := h
  rw [Double.exponentField, hbits, Nat.pow_eq, Nat.pow_eq]
  cases negative <;> simp only [if_true, Bool.false_eq_true, if_false] <;> split <;> omega

theorem fraction (h : d.HasParts negative s m) :
    d.fraction = if m < 2 ^ 53 then m - 2 ^ 52 else 0 := by
  obtain ⟨hbits, hm, hm', hs⟩ := h
  rw [Double.fraction, hbits, Nat.pow_eq]
  cases negative <;> simp only [if_true, Bool.false_eq_true, if_false] <;> split <;> omega

theorem isFinite (h : d.HasParts negative s m) : d.isFinite = true := by
  have hs := h.lt
  rw [Double.isFinite, h.exponentField]
  split <;> simp <;> omega

theorem units (h : d.HasParts negative s m) : d.units = m * 2 ^ s := by
  have hm := h.le
  have hm' := h.le'
  rw [Double.units, Double.significand, Double.scale, h.exponentField, h.fraction]
  split
  · rw [if_neg (by omega), Nat.pow_eq, Nat.pow_eq, Nat.add_sub_cancel' hm, Nat.add_sub_cancel]
  · rw [if_neg (by omega), Nat.pow_eq, Nat.pow_eq, Nat.add_zero,
      show s + 2 - 1 = s + 1 by omega, show m = 2 ^ 53 by omega, pow_succ' 2 s, ← mul_assoc]
    norm_num

theorem negate (h : d.HasParts false s m) : d.negate.HasParts true s m where
  bits := by
    have hlt : d.bits.toNat < 2 ^ 63 := by
      have := h.lt
      have := h.le'
      rw [h.bits]
      simp only [Bool.false_eq_true, if_false]
      omega
    -- the sign bit is not set, so setting it adds it
    have hxor : d.bits.toNat ^^^ 2 ^ 63 = 2 ^ 63 + d.bits.toNat := by
      rw [← Nat.div_add_mod (d.bits.toNat ^^^ 2 ^ 63) (2 ^ 63), Nat.xor_div_two_pow,
        Nat.xor_mod_two_pow, Nat.div_eq_of_lt hlt, Nat.mod_eq_of_lt hlt]
      simp
    rw [Double.negate, UInt64.toNat_xor]
    simpa [h.bits, add_assoc] using hxor
  le := h.le
  le' := h.le'
  lt := h.lt

end HasParts

/-! ## Whole doubles -/

/-- A double is an integer when it is finite and its magnitude is a whole number of ones. -/
theorem toInt?_eq_some_iff {d : Double} {n : ℤ} :
    d.toInt? = some n ↔ d.isFinite = true ∧
      ∃ k : ℕ, d.units = k * Nat.pow 2 1074 ∧ n = if d.isNegative then -(k : ℤ) else k := by
  rw [toInt?]
  -- the power is kept from being evaluated, here and below
  generalize 1074 = e
  have hpos : 0 < Nat.pow 2 e := Nat.two_pow_pos e
  generalize Nat.pow 2 e = one at hpos ⊢
  simp only [Bool.and_eq_true, beq_iff_eq, Int.ofNat_eq_natCast, Option.ite_none_right_eq_some,
    Option.some.injEq, and_assoc]
  refine and_congr_right fun _ => ⟨fun ⟨hmod, hn⟩ => ⟨d.units / one, ?_, hn.symm⟩, ?_⟩
  · exact (Nat.div_mul_cancel (Nat.dvd_of_mod_eq_zero hmod)).symm
  · rintro ⟨k, hk, rfl⟩
    rw [hk, Nat.mul_mod_left, Nat.mul_div_cancel _ hpos]
    exact ⟨rfl, rfl⟩

/-! ## Rounding -/

/-- The significand that `nearest` chooses has 53 bits, and nothing is lost if the bits below it are
zero. -/
theorem hasParts_nearest {h : ℕ} (hlow : 53 ≤ h.log2) (hhigh : h.log2 < 2097) :
    ∃ m, (nearest h).HasParts false (h.log2 - 53) m ∧
      (2 ^ (h.log2 - 52) ∣ h → m * 2 ^ (h.log2 - 52) = h) := by
  have hne : h ≠ 0 := by
    rintro rfl
    simp at hlow
  obtain ⟨hle, hlt⟩ := (Nat.log2_eq_iff hne).1 rfl
  rw [nearest, max_eq_right (by omega)]
  obtain ⟨s, hs⟩ := Nat.exists_eq_add_of_le hlow
  have hshift : h.log2 - 52 = s + 1 := by omega
  simp only [hshift, Nat.pow_eq, Nat.add_sub_cancel]
  have hpos : 0 < 2 ^ (s + 1) := Nat.two_pow_pos _
  have hquot : 2 ^ 52 ≤ h / 2 ^ (s + 1) ∧ h / 2 ^ (s + 1) < 2 ^ 53 := by
    rw [Nat.le_div_iff_mul_le hpos, Nat.div_lt_iff_lt_mul hpos, ← pow_add, ← pow_add]
    rw [hs] at hle hlt
    exact ⟨by convert hle using 2; omega, by convert hlt using 2; omega⟩
  -- the significand is the quotient, or one more if the remainder is large
  obtain ⟨m, hm, hexact⟩ : ∃ m, m = (if (decide (2 ^ (s + 1) < 2 * (h % 2 ^ (s + 1))) ||
        (2 * (h % 2 ^ (s + 1)) == 2 ^ (s + 1) && h / 2 ^ (s + 1) % 2 == 1)) = true
      then h / 2 ^ (s + 1) + 1 else h / 2 ^ (s + 1)) ∧
      (2 ^ (s + 1) ∣ h → m = h / 2 ^ (s + 1)) :=
    ⟨_, rfl, fun hdvd => if_neg (by simp [Nat.mod_eq_zero_of_dvd hdvd, hpos.ne])⟩
  have hm' : 2 ^ 52 ≤ m ∧ m ≤ 2 ^ 53 := by
    rw [hm]
    split <;> omega
  refine ⟨m, ⟨?_, hm'.1, hm'.2, by omega⟩, fun hdvd => ?_⟩
  · rw [← hm, min_eq_left (by omega), UInt64.toNat_ofNat', Nat.mod_eq_of_lt (by omega)]
    simp only [Bool.false_eq_true, if_false]
    omega
  · rw [hexact hdvd]
    exact Nat.div_mul_cancel hdvd

theorem log2_mul_two_pow {k : ℕ} (hk : k ≠ 0) (e : ℕ) : (k * 2 ^ e).log2 = k.log2 + e := by
  obtain ⟨hle, hlt⟩ := (Nat.log2_eq_iff hk).1 rfl
  have hpos : 0 < 2 ^ e := Nat.two_pow_pos e
  refine (Nat.log2_eq_iff (by positivity)).2 ⟨?_, ?_⟩
  · rw [pow_add]
    exact Nat.mul_le_mul_right _ hle
  · rw [Nat.add_right_comm, pow_add]
    exact Nat.mul_lt_mul_of_pos_right hlt hpos

/-- Nothing is lost of a number of at most 53 bits, wherever its bits stand. -/
theorem hasParts_nearest_mul {k e : ℕ} (hk : k ≠ 0) (hhigh : k.log2 + e < 2044) :
    ∃ m, (nearest (k * 2 ^ (e + 53))).HasParts false (k.log2 + e) m ∧
      (k ≤ 2 ^ 53 → m * 2 ^ (k.log2 + e) = k * 2 ^ (e + 52)) := by
  have hlog := log2_mul_two_pow hk (e + 53)
  obtain ⟨m, hparts, hexact⟩ :=
    hasParts_nearest (h := k * 2 ^ (e + 53)) (by omega) (by omega)
  rw [hlog] at hparts hexact
  refine ⟨m, hparts, fun hle => ?_⟩
  have hdvd : 2 ^ (k.log2 + e + 1) ∣ k * 2 ^ (e + 53) := by
    have hlog53 : k.log2 ≤ 53 := (Nat.log2_lt hk).2 (by omega) |> Nat.le_of_lt_succ
    rcases Nat.lt_or_eq_of_le hlog53 with hlt | heq
    · exact Dvd.dvd.mul_left (pow_dvd_pow 2 (by omega)) k
    · obtain rfl : k = 2 ^ 53 := by
        have := ((Nat.log2_eq_iff hk).1 heq).1
        omega
      rw [← pow_add]
      exact pow_dvd_pow 2 (by omega)
  have htwice := hexact (by convert hdvd using 2; omega)
  rw [show k.log2 + (e + 53) - 52 = k.log2 + e + 1 by omega, pow_succ, pow_succ _ (e + 52),
    ← mul_assoc, ← mul_assoc] at htwice
  exact Nat.eq_of_mul_eq_mul_right Nat.two_pos htwice

/-! ## The double nearest to an integer -/

theorem ofInt_zero : ofInt 0 = zero := by
  rw [ofInt, ofNat, Int.natAbs_zero]
  generalize 1075 = e
  rw [Nat.zero_mul]
  decide

/-- What the pattern of the nearest double says about an integer of at most 64 bits. -/
theorem parts_ofInt {n : ℤ} (hn : n ≠ 0) (hlt : n.natAbs < 2 ^ 64) :
    (ofInt n).isFinite = true ∧ (ofInt n).isNegative = decide (n < 0) ∧
      (n.natAbs ≤ 2 ^ 53 → (ofInt n).units = n.natAbs * Nat.pow 2 1074) ∧
      (2 ^ 53 ≤ n.natAbs → 2 ^ 53 * Nat.pow 2 1074 ≤ (ofInt n).units) := by
  obtain ⟨e, he⟩ : ∃ e, e = 1022 := ⟨_, rfl⟩
  have hne : n.natAbs ≠ 0 := Int.natAbs_ne_zero.2 hn
  have hlog : n.natAbs.log2 < 64 := (Nat.log2_lt hne).2 hlt
  obtain ⟨m, hnearest, hexact⟩ := hasParts_nearest_mul (e := e) hne (by omega)
  have hparts : (ofInt n).HasParts (decide (n < 0)) (n.natAbs.log2 + e) m := by
    rw [ofInt, ofNat, show 1075 = e + 53 by omega, Nat.pow_eq]
    by_cases hneg : n < 0
    · rw [if_pos hneg, decide_eq_true hneg]
      exact hnearest.negate
    · rw [if_neg hneg, decide_eq_false hneg]
      exact hnearest
  rw [hparts.isFinite, hparts.isNegative, hparts.units, show 1074 = e + 52 by omega, Nat.pow_eq]
  refine ⟨rfl, rfl, hexact, fun hle => ?_⟩
  have hlog53 : 53 ≤ n.natAbs.log2 := (Nat.le_log2 hne).2 hle
  calc 2 ^ 53 * 2 ^ (e + 52) = 2 ^ 52 * 2 ^ (53 + e) := by
        rw [← pow_add, ← pow_add]
        congr 1
        omega
    _ ≤ m * 2 ^ (n.natAbs.log2 + e) :=
        Nat.mul_le_mul hparts.le (Nat.pow_le_pow_right Nat.two_pos (by omega))

/-- Integers of at most 53 bits are doubles. -/
theorem toInt?_ofInt {n : ℤ} (hn : n.natAbs ≤ 2 ^ 53) : (ofInt n).toInt? = some n := by
  rw [toInt?_eq_some_iff]
  by_cases hzero : n = 0
  · rw [hzero, ofInt_zero]
    generalize 1074 = e
    exact ⟨by decide, 0, by rw [Nat.zero_mul]; decide, by decide⟩
  · obtain ⟨hfinite, hsign, hexact, -⟩ := parts_ofInt hzero (by omega)
    refine ⟨hfinite, n.natAbs, hexact hn, ?_⟩
    rw [hsign]
    simp only [decide_eq_true_eq]
    omega

/-- A larger integer, of at most 64 bits, is not rounded to a smaller one. -/
theorem two_pow_le_natAbs_of_ofInt {n q : ℤ} (hn : 2 ^ 53 ≤ n.natAbs) (hlt : n.natAbs < 2 ^ 64)
    (hq : (ofInt n).toInt? = some q) : 2 ^ 53 ≤ q.natAbs := by
  obtain ⟨-, -, -, hunits⟩ := parts_ofInt (by omega) hlt
  obtain ⟨-, k, hk, rfl⟩ := toInt?_eq_some_iff.1 hq
  have hle := hunits hn
  rw [hk] at hle
  generalize 1074 = e at hle
  have hk' : 2 ^ 53 ≤ k := Nat.le_of_mul_le_mul_right hle (Nat.two_pow_pos e)
  split <;> simpa using hk'

end HostBridge.Double
