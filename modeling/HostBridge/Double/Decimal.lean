import HostBridge.Double

/-!
# Shortest decimals

The text of a double is the decimal with the fewest digits that lies in the double's rounding
interval, the nearest such decimal to the double, and the larger one when two are equally near. The
search tries one digit, then two, and so on; on each decimal grid only the two neighbours of the
double can be the answer, and all tests are exact.

`Double.text` writes that decimal positionally, without an exponent and without a fraction when
the number is whole.

Scripts write numbers in another way (`Double.scriptText`). They round the double to one digit, two
digits and so on, ties to the even digit, and take the first decimal that reads back. The two ways
differ below a power of two, where a decimal may read back though another one on its grid is
nearer, and in ties. Very large and very small magnitudes have an exponent.
-/

namespace HostBridge

/-- The decimal `coefficient * 10^exponent`. -/
structure Decimal where
  coefficient : Nat
  exponent : Int

namespace Decimal

/-- `coefficient * 10^exponent` compared with `n / 2^1076`, as a comparison of naturals: the two
sides after clearing denominators. -/
def sides (c : Decimal) (n : Nat) : Nat × Nat :=
  if c.exponent < 0 then (c.coefficient * Nat.pow 2 1076, n * Nat.pow 10 c.exponent.natAbs)
  else (c.coefficient * Nat.pow 10 c.exponent.natAbs * Nat.pow 2 1076, n)

/-- The decimal is at most `n / 2^1076`; equality counts iff `closed`. -/
def below (c : Decimal) (n : Nat) (closed : Bool) : Bool :=
  let (a, b) := c.sides n
  decide (a < b) || (closed && a == b)

/-- The decimal is at least `n / 2^1076`; equality counts iff `closed`. -/
def above (c : Decimal) (n : Nat) (closed : Bool) : Bool :=
  let (a, b) := c.sides n
  decide (b < a) || (closed && a == b)

/-- The digits of the coefficient without trailing zeros, and the place of the decimal point
counted from the front of the digits. -/
def digits (c : Decimal) : List Char × Int :=
  let ds := Nat.toDigits 10 c.coefficient
  ((ds.reverse.dropWhile (· == '0')).reverse, ds.length + c.exponent)

/-- Positional notation. -/
def positional (c : Decimal) : String :=
  let (ds, point) := c.digits
  if point ≤ 0 then
    "0." ++ String.ofList (List.replicate point.natAbs '0' ++ ds)
  else
    let n := point.toNat
    if ds.length ≤ n then String.ofList (ds ++ List.replicate (n - ds.length) '0')
    else String.ofList (ds.take n ++ '.' :: ds.drop n)

/-- Scientific notation: one digit before the point, and a signed exponent. -/
def scientific (c : Decimal) : String :=
  let (ds, point) := c.digits
  let mantissa := match ds with
    | [] => []
    | [d] => [d]
    | d :: rest => d :: '.' :: rest
  let e := point - 1
  String.ofList mantissa ++ (if e < 0 then "e-" else "e+") ++ Nat.repr e.natAbs

end Decimal

namespace Double

/-- The lower end of the rounding interval, in quarter units of `2^-1074`. Below a power of two
the neighbouring doubles are twice as dense. -/
def lowerEnd (d : Double) : Nat :=
  if d.fraction = 0 ∧ 1 < d.exponentField then 4 * d.units - Nat.pow 2 d.scale
  else 4 * d.units - 2 * Nat.pow 2 d.scale

/-- The upper end of the rounding interval, in quarter units of `2^-1074`. -/
def upperEnd (d : Double) : Nat := 4 * d.units + 2 * Nat.pow 2 d.scale

/-- The decimal reads back as the finite non-zero double's magnitude. The ends of the interval
belong to it iff the significand is even, since ties are read towards even. -/
def readsBack (d : Double) (c : Decimal) : Bool :=
  let closed := d.significand % 2 == 0
  c.above d.lowerEnd closed && c.below d.upperEnd closed

/-- The number of zeros after the decimal point of a magnitude below one: the least `j` with
`10^-(j+1)` at most the magnitude. -/
def leadingZeros (d : Double) : Nat → Nat → Nat
  | 0, j => j
  | fuel + 1, j =>
    if Nat.pow 2 1074 ≤ d.units * Nat.pow 10 (j + 1) then j else leadingZeros d fuel (j + 1)

/-- The place of the decimal point before the first significant digit: the `p` with
`10^(p-1) ≤ magnitude < 10^p`. -/
def pointPlace (d : Double) : Int :=
  let whole := d.units / Nat.pow 2 1074
  if whole = 0 then -(Int.ofNat (d.leadingZeros 400 0))
  else Int.ofNat (Nat.toDigits 10 whole).length

/-- The largest decimal on the grid of multiples of `10^e` that is at most the magnitude. -/
def floorOn (d : Double) (e : Int) : Decimal :=
  if e < 0 then ⟨d.units * Nat.pow 10 e.natAbs / Nat.pow 2 1074, e⟩
  else ⟨d.units / (Nat.pow 2 1074 * Nat.pow 10 e.natAbs), e⟩

/-- The magnitude is at least halfway from `c` to its upper neighbour on the grid. -/
def nearerAbove (d : Double) (c : Decimal) : Bool :=
  let half : Decimal := ⟨2 * c.coefficient + 1, c.exponent⟩
  half.below (8 * d.units) true

/-- The shortest decimal, looked for with at least `17 - fuel` digits. Seventeen digits always
read back, so the search ends with a hit. -/
def shortestFrom (d : Double) (p : Int) : Nat → Nat → Decimal
  | 0, n => d.floorOn (p - n)
  | fuel + 1, n =>
    let low := d.floorOn (p - n)
    let high : Decimal := ⟨low.coefficient + 1, low.exponent⟩
    match d.readsBack low, d.readsBack high with
    | true, true => if d.nearerAbove low then high else low
    | true, false => low
    | false, true => high
    | false, false => shortestFrom d p fuel (n + 1)

/-- The shortest decimal that reads back as the magnitude of a finite non-zero double. -/
def shortest (d : Double) : Decimal := d.shortestFrom d.pointPlace 17 1

/-- The multiple of `10^e` nearest to the magnitude, the even one when two are equally near. -/
def roundOn (d : Double) (e : Int) : Decimal :=
  let low := d.floorOn e
  let high : Decimal := ⟨low.coefficient + 1, e⟩
  let half : Decimal := ⟨2 * low.coefficient + 1, e⟩
  if half.below (8 * d.units) false then high
  else if half.below (8 * d.units) true && low.coefficient % 2 == 1 then high
  else low

/-- The first of the roundings to `n` digits, `n + 1` digits and so on that reads back. Rounding to
seventeen digits always does. -/
def roundedFrom (d : Double) (p : Int) : Nat → Nat → Decimal
  | 0, n => d.roundOn (p - n)
  | fuel + 1, n =>
    let c := d.roundOn (p - n)
    if d.readsBack c then c else roundedFrom d p fuel (n + 1)

/-- The decimal by which scripts write the magnitude of a finite non-zero double. -/
def shortestRounded (d : Double) : Decimal := d.roundedFrom d.pointPlace 16 1

/-- The sign in front of a text. -/
def signed (d : Double) (s : String) : String := if d.isNegative then "-" ++ s else s

/-- The text of a double: positional, whole numbers without a point, `-0` for negative zero, and
the words `NaN`, `inf` and `-inf`. -/
def text (d : Double) : String :=
  if d.isNaN then "NaN"
  else if d.isInfinite then d.signed "inf"
  else if d.isZero then d.signed "0"
  else d.signed d.shortest.positional

/-- The text of a double as scripts write it: positional from `10^-7` (exclusive of smaller ones)
up to `10^21`, scientific elsewhere, and no sign on zero. -/
def scriptText (d : Double) : String :=
  if d.isNaN then "NaN"
  else if d.isInfinite then d.signed "Infinity"
  else if d.isZero then "0"
  else
    let c := d.shortestRounded
    let point := c.digits.2
    d.signed (if -6 < point ∧ point ≤ 21 then c.positional else c.scientific)

end Double

end HostBridge
