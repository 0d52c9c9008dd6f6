/-!
# Doubles by their bit patterns

A `Double` is one of the `2^64` binary64 bit patterns. Everything a program can see of a double
except arithmetic is computed here in exact arithmetic on natural numbers: the magnitude of a finite
double is `units d` times `2^-1074`, so whole numbers, comparisons and roundings are statements
about `units`.

`toInt?` is the integer that a whole double is, `nearest` rounds a magnitude to the closest double
(ties to the even significand), `ofInt` is that rounding at an integer, and `clampInt64` cuts a
double off to an integer of 64 bits.
-/

namespace HostBridge

/-- A binary64 number, given by its bits. -/
structure Double where
  /-- Sign, eleven exponent bits and fifty-two fraction bits, high end first. -/
  bits : UInt64
deriving DecidableEq

namespace Double

/-! ## The parts of a pattern -/

/-- The sign bit is set. -/
def isNegative (d : Double) : Bool := decide (Nat.pow 2 63 ≤ d.bits.toNat)

/-- The eleven exponent bits. -/
def exponentField (d : Double) : Nat := d.bits.toNat / Nat.pow 2 52 % Nat.pow 2 11

/-- The fifty-two fraction bits. -/
def fraction (d : Double) : Nat := d.bits.toNat % Nat.pow 2 52

/-- Neither an infinity nor a NaN. -/
def isFinite (d : Double) : Bool := decide (d.exponentField ≠ 2047)

/-- One of the two infinities. -/
def isInfinite (d : Double) : Bool := decide (d.exponentField = 2047 ∧ d.fraction = 0)

/-- Not a number, whatever the payload. -/
def isNaN (d : Double) : Bool := decide (d.exponentField = 2047 ∧ d.fraction ≠ 0)

/-- One of the two zeros. -/
def isZero (d : Double) : Bool := decide (d.exponentField = 0 ∧ d.fraction = 0)

/-- The significand of a finite double, with the leading bit that normal numbers leave out. -/
def significand (d : Double) : Nat :=
  if d.exponentField = 0 then d.fraction else Nat.pow 2 52 + d.fraction

/-- The power of two by which the significand is scaled, counted from `2^-1074`. -/
def scale (d : Double) : Nat := d.exponentField - 1

/-- The magnitude of a finite double in units of `2^-1074`. -/
def units (d : Double) : Nat := d.significand * Nat.pow 2 d.scale

/-- The integer that a finite double is exactly, if it is whole. Both zeros are `0`. -/
def toInt? (d : Double) : Option Int :=
  if d.isFinite && d.units % Nat.pow 2 1074 == 0 then
    let n : Int := Int.ofNat (d.units / Nat.pow 2 1074)
    some (if d.isNegative then -n else n)
  else
    none

/-- Numeric equality: a NaN differs from everything, the two zeros are equal, and any other
double equals only itself. -/
def numEq (a b : Double) : Bool :=
  !a.isNaN && !b.isNaN && (a == b || (a.isZero && b.isZero))

theorem isNaN_of_isFinite {d : Double} (h : d.isFinite = true) : d.isNaN = false := by
  simp only [isFinite, isNaN, decide_eq_true_eq, decide_eq_false_iff_not] at *
  omega

theorem isNaN_of_isZero {d : Double} (h : d.isZero = true) : d.isNaN = false := by
  simp only [isZero, isNaN, decide_eq_true_eq, decide_eq_false_iff_not] at *
  omega

theorem numEq_iff {a b : Double} : a.numEq b = true ↔
    a.isNaN = false ∧ b.isNaN = false ∧ (a = b ∨ a.isZero = true ∧ b.isZero = true) := by
  simp [numEq, and_assoc]

/-! ## Rounding -/

/-- The double nearest to a magnitude of `h` half units of `2^-1074`. Ties go to the even
significand, and magnitudes beyond the largest finite double become infinite. -/
def nearest (h : Nat) : Double :=
  let shift := max 1 (h.log2 - 52)
  let low := h / Nat.pow 2 shift
  let twice := 2 * (h % Nat.pow 2 shift)
  let up := decide (Nat.pow 2 shift < twice) || (twice == Nat.pow 2 shift && low % 2 == 1)
  let m := if up then low + 1 else low
  ⟨UInt64.ofNat (min ((shift - 1) * Nat.pow 2 52 + m) (2047 * Nat.pow 2 52))⟩

/-- The double with the other sign. -/
def negate (d : Double) : Double := ⟨d.bits ^^^ 0x8000000000000000⟩

/-- The double without its sign. -/
def abs (d : Double) : Double := if d.isNegative then d.negate else d

/-- The double nearest to a natural number. -/
def ofNat (n : Nat) : Double := nearest (n * Nat.pow 2 1075)

/-- The double nearest to an integer, ties to the even significand. -/
def ofInt (i : Int) : Double := if i < 0 then (ofNat i.natAbs).negate else ofNat i.natAbs

/-! ## Constants -/

/-- Positive zero. -/
def zero : Double := ⟨0⟩

/-- Positive infinity. -/
def infinity : Double := ⟨0x7ff0000000000000⟩

/-- The quiet NaN with an empty payload. -/
def nan : Double := ⟨0x7ff8000000000000⟩

/-! ## Order and whole parts -/

/-- The place of a double that is not NaN among all others. -/
def rank (d : Double) : Int := if d.isNegative then -(d.units : Int) else d.units

/-- The first double is at most the second. There is no order with a NaN. -/
def atMost (a b : Double) : Bool := !a.isNaN && !b.isNaN && decide (a.rank ≤ b.rank)

/-- The first double is less than the second. There is no order with a NaN. -/
def less (a b : Double) : Bool := !a.isNaN && !b.isNaN && decide (a.rank < b.rank)

/-- What a double has besides its whole part. It has the sign of the double unless it is zero, and
it is NaN if the double is not finite. -/
def fractionalPart (d : Double) : Double :=
  if d.isFinite then
    let part := nearest (2 * (d.units % Nat.pow 2 1074))
    if d.isNegative && !part.isZero then part.negate else part
  else nan

/-- The whole part of a double, cut off towards zero, as a 64-bit integer. Beyond the range of these
it is the end of the range, and of a NaN it is zero. -/
def clampInt64 (d : Double) : Int64 :=
  let whole := d.rank.tdiv (Int.pow 2 1074)
  if d.isNaN then 0
  else if whole < -Int.pow 2 63 then Int64.minValue
  else if Int.pow 2 63 ≤ whole then Int64.maxValue
  else Int64.ofInt whole

/-! ## Arithmetic -/

/-- The sum, rounded to nearest. -/
def add (a b : Double) : Double := ⟨(Float.ofBits a.bits + Float.ofBits b.bits).toBits⟩

/-- The product, rounded to nearest. -/
def mul (a b : Double) : Double := ⟨(Float.ofBits a.bits * Float.ofBits b.bits).toBits⟩

/-- The difference, rounded to nearest. -/
def sub (a b : Double) : Double := ⟨(Float.ofBits a.bits - Float.ofBits b.bits).toBits⟩

/-- The quotient, rounded to nearest. -/
def div (a b : Double) : Double := ⟨(Float.ofBits a.bits / Float.ofBits b.bits).toBits⟩

/-- The square root, rounded to nearest. -/
def sqrt (a : Double) : Double := ⟨(Float.ofBits a.bits).sqrt.toBits⟩

/-- The power of two with an exponent between -1022 and 1023. -/
def powerOfTwo (e : Int) : Double := ⟨UInt64.ofNat ((1023 + e).toNat * Nat.pow 2 52)⟩

/-- Order of doubles without a sign. -/
def magnitudeLe (a b : Double) : Bool := decide (a.bits ≤ b.bits)

/-! ## Length of a vector -/

/-- The NaNs whose first fraction bit is clear. -/
def isSignaling (d : Double) : Bool := d.isNaN && decide (d.fraction < Nat.pow 2 51)

/-- The length of the vector with sides `x ≥ y ≥ 0` whose squares neither overflow nor vanish: the
rounded root `h` of the rounded sum, and then one step of Newton's iteration for
`h ^ 2 = x ^ 2 + y ^ 2`. The excess `h ^ 2 - x ^ 2 - y ^ 2` is put together from products of
small differences, so that little of it is lost. -/
def hypotScaled (x y : Double) : Double :=
  let two := ofNat 2
  let h := sqrt (add (mul x x) (mul y y))
  let excess :=
    if h.magnitudeLe (mul two y) then
      let δ := sub h y
      add (mul x (sub (mul two δ) x)) (mul (sub δ (mul two (sub x y))) δ)
    else
      let δ := sub h x
      add (mul (mul two δ) (sub x (mul two y)))
        (add (mul (sub (mul (ofNat 4) δ) y) y) (mul δ δ))
  sub h (div excess (mul two h))

/-- The length of the vector with sides `x ≥ y ≥ 0`. A side that is lost in rounding is added, and
sides whose squares would overflow or vanish are scaled by a power of two on the way. -/
def hypotOrdered (x y : Double) : Double :=
  let shrink := powerOfTwo (-600)
  let share := powerOfTwo (-54)
  if !x.magnitudeLe (powerOfTwo 511) then
    if y.magnitudeLe (mul x share) then add x y
    else div (hypotScaled (mul x shrink) (mul y shrink)) shrink
  else if !(powerOfTwo (-459)).magnitudeLe y then
    if (div y share).magnitudeLe x then add x y
    else mul (hypotScaled (div x shrink) (div y shrink)) shrink
  else if y.magnitudeLe (mul x share) then add x y
  else hypotScaled x y

/-- The length of the vector with the given sides, to within one unit in the last place. An
infinite side makes the length infinite even beside a NaN, unless the NaN is a signaling one. -/
def hypot (x y : Double) : Double :=
  if (x.isInfinite || y.isInfinite) && !x.isSignaling && !y.isSignaling then infinity
  else if !x.isFinite || !y.isFinite then nan
  else if x.abs.magnitudeLe y.abs then hypotOrdered y.abs x.abs
  else hypotOrdered x.abs y.abs

end Double

end HostBridge
