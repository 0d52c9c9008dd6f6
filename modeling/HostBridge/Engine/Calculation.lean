import HostBridge.Engine.Coercion

/-!
# Functions on numbers

Remainders, powers and rounding of doubles, and the functions on numbers that scripts call by
their names (`Heap.calculate`).
-/

namespace HostBridge

namespace Double

/-- The remainder of a division whose quotient is cut off towards zero. It has the sign of the first
double. -/
def remainder (a b : Double) : Double :=
  if a.isNaN ∨ a.isInfinite ∨ b.isNaN ∨ b.isZero then nan
  else if b.isInfinite then a
  else Numeral.withSign a.isNegative (nearest (2 * (a.units % b.units)))

/-- The power. One to an infinite power is not a number. -/
def power (a b : Double) : Double :=
  if b.isNaN ∨ (b.isInfinite ∧ a.abs.numEq (ofNat 1)) then nan
  else ⟨((Float.ofBits a.bits).pow (Float.ofBits b.bits)).toBits⟩

/-- A function of the platform on doubles. -/
def through (f : Float → Float) (d : Double) : Double := ⟨(f (Float.ofBits d.bits)).toBits⟩

/-- The whole double next to a double, the larger one if there are two. -/
def round (d : Double) : Double :=
  if !d.isFinite || d.isZero then d
  else
    let low := d.through Float.floor
    let up := (d.sub low).rank < (Double.div (ofNat 1) (ofNat 2)).rank
    Numeral.withSign d.isNegative (if up then low else low.add (ofNat 1)).abs

/-- One with the sign of the double, or the double itself if it has none. -/
def sign (d : Double) : Double :=
  if d.isNaN || d.isZero then d else Numeral.withSign d.isNegative (ofNat 1)

/-- The larger of two doubles, or NaN if there is one. Positive zero is larger than negative
zero. -/
def larger (a b : Double) : Double :=
  if a.isNaN then a else if b.isNaN then b
  else if a.isZero && b.isZero then (if a.isNegative then b else a)
  else if a.rank < b.rank then b else a

/-- The smaller of two doubles, or NaN if there is one. -/
def smaller (a b : Double) : Double := (a.negate.larger b.negate).negate

end Double

namespace Heap

/-- The function on doubles of a name. -/
def onDouble? : String → Option (Double → Double)
  | "abs" => some Double.abs
  | "floor" => some (Double.through Float.floor)
  | "ceil" => some (Double.through Float.ceil)
  | "trunc" => some fun d => Numeral.withSign d.isNegative (d.abs.through Float.floor)
  | "round" => some Double.round
  | "sign" => some Double.sign
  | "sqrt" => some Double.sqrt
  | _ => none

/-- The function on any number of doubles of a name, and its answer for none. -/
def onDoubles? : String → Option ((Double → Double → Double) × Double)
  | "max" => some (Double.larger, Double.infinity.negate)
  | "min" => some (Double.smaller, Double.infinity)
  | _ => none

/-- A function on numbers. -/
def calculate (h : Heap) (name : String) (args : List EngineValue) :
    Except EngineValue EngineValue :=
  match onDouble? name, onDoubles? name with
  | some f, _ =>
    (h.number (args.headD .undefined)).map fun d => .ofDouble (f d)
  | none, some (f, start) =>
    (args.mapM h.number).map fun ds => .ofDouble (ds.foldl f start)
  | none, none =>
    if name = "pow" then do
      let a ← h.number (args.headD .undefined)
      let b ← h.number (args.getD 1 .undefined)
      return .ofDouble (a.power b)
    else .ok (.float .nan)

end Heap

end HostBridge
