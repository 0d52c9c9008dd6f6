import HostBridge.Engine.Builtin

/-!
# Operators of the engine

What operators make of values. Arithmetic is on doubles or on big integers and never mixes the two.
A sum of which one side is a text joins texts. Values are ordered as texts if both are texts, and as
numbers otherwise. Equality comes in two strengths: the strict one compares values as they are, the
loose one converts them first.
-/

namespace HostBridge

namespace OrderOp

/-- An order satisfies the operator. NaN is in no order. -/
def holds : OrderOp → Option Ordering → Bool
  | _, none => false
  | lt, some o => o == .lt
  | le, some o => o != .gt
  | gt, some o => o == .gt
  | ge, some o => o != .lt

end OrderOp

namespace Heap

/-! ## Arithmetic -/

/-- An operator on doubles. -/
def arithmetic : ArithmeticOp → Double → Double → Double
  | .sub => Double.sub
  | .mul => Double.mul
  | .div => Double.div
  | .rem => Double.remainder
  | .pow => Double.power

/-- An operator on big integers. -/
def arithmeticBig (op : ArithmeticOp) (a b : Int) : Except EngineValue Int :=
  match op with
  | .sub => .ok (a - b)
  | .mul => .ok (a * b)
  | .div => if b = 0 then .error (.error "BigInt division by zero") else .ok (a.tdiv b)
  | .rem => if b = 0 then .error (.error "BigInt division by zero") else .ok (a.tmod b)
  | .pow =>
    if b < 0 then .error (.error "BigInt negative exponent")
    else if 1 < a.natAbs ∧ 1000000 < b then .error (.error "BigInt is too large to allocate")
    else .ok (Int.pow a b.toNat)

/-- The answer of an operator on two numbers, of either kind. -/
def onNumbers (doubles : Double → Double → Double)
    (integers : Int → Int → Except EngineValue Int) :
    EngineValue → EngineValue → Except EngineValue EngineValue
  | .bigint a, .bigint b => (integers a b).map .bigint
  | a, b => do
    let x ← numberOf a
    let y ← numberOf b
    return .ofDouble (doubles x y)

/-- The sum of two values. -/
def sum (h : Heap) (a b : EngineValue) : Except EngineValue EngineValue := do
  let a ← h.primitive a
  let b ← h.primitive b
  match a, b with
  | .text s, _ => (primitiveText b).map fun t => .text (EngineText.append s t)
  | _, .text t => (primitiveText a).map fun s => .text (EngineText.append s t)
  | a, b => onNumbers Double.add (fun m n => .ok (m + n)) a b

/-- An operator on 32-bit integers. -/
def combine (op : BitOp) (a b : Int32) : EngineValue :=
  let places := b &&& 31
  match op with
  | .and => .int (a &&& b)
  | .or => .int (a ||| b)
  | .xor => .int (a ^^^ b)
  | .shiftLeft => .int (a <<< places)
  | .shiftRight => .int (a >>> places)
  | .shiftRightPlain => .ofNat (a.toUInt32 >>> places.toUInt32).toNat

/-- An operator on the bits of big integers, which have their sign in endless bits on the left. -/
def combineBig (op : BitOp) (a b : Int) : Except EngineValue Int :=
  let width := max a.natAbs.log2 b.natAbs.log2 + 2
  let wrap (n : Int) : Nat := (n % Int.pow 2 width).toNat
  let unwrap (n : Nat) : Int := if n < Nat.pow 2 (width - 1) then n else n - Int.pow 2 width
  let shift (places : Int) : Except EngineValue Int :=
    if places < 0 then .ok (a.fdiv (Int.pow 2 places.natAbs))
    else if a ≠ 0 ∧ 1000000 < places then .error (.error "BigInt is too large to allocate")
    else .ok (a * Int.pow 2 places.toNat)
  match op with
  | .and => .ok (unwrap (wrap a &&& wrap b))
  | .or => .ok (unwrap (wrap a ||| wrap b))
  | .xor => .ok (unwrap (wrap a ^^^ wrap b))
  | .shiftLeft => shift b
  | .shiftRight => shift (-b)
  | .shiftRightPlain => .error (.error "bigint operands are forbidden for >>>")

/-- The answer of an operator on bits. -/
def bits (op : BitOp) : EngineValue → EngineValue → Except EngineValue EngineValue
  | .bigint a, .bigint b => (combineBig op a b).map .bigint
  | a, b => do
    let x ← numberOf a
    let y ← numberOf b
    return combine op x.toInt32 y.toInt32

/-! ## Order -/

/-- The order of two sequences of units. -/
def unitOrder : List Nat → List Nat → Ordering
  | [], [] => .eq
  | [], _ :: _ => .lt
  | _ :: _, [] => .gt
  | a :: as, b :: bs => (compare a b).then (unitOrder as bs)

/-- The order of two doubles. -/
def doubleOrder (a b : Double) : Option Ordering :=
  if a.isNaN ∨ b.isNaN then none else some (compare a.rank b.rank)

/-- The order of a double and a big integer. -/
def mixedOrder (a : Double) (n : Int) : Option Ordering :=
  if a.isNaN then none
  else if a.isInfinite then some (if a.isNegative then .lt else .gt)
  else some (compare a.rank (n * Int.pow 2 1074))

/-- The big integer that a text stands for when it is compared with one. -/
def textInteger? (t : EngineText) : Option Int := t.decode.toOption.bind Numeral.bigInteger?

/-- The order of two values that are no objects. -/
def primitiveOrder : EngineValue → EngineValue → Except EngineValue (Option Ordering)
  | .text a, .text b => .ok (some (unitOrder (EngineText.units a) (EngineText.units b)))
  | .bigint a, .bigint b => .ok (some (compare a b))
  | .bigint a, .text t => .ok ((textInteger? t).map (compare a))
  | .text t, .bigint b => .ok ((textInteger? t).map fun a => compare a b)
  | .bigint a, b => (numberOf b).map fun d => (mixedOrder d a).map Ordering.swap
  | a, .bigint b => (numberOf a).map fun d => mixedOrder d b
  | a, b => do
    let x ← numberOf a
    let y ← numberOf b
    return doubleOrder x y

/-! ## Equality -/

/-- Strict equality. -/
def identical : EngineValue → EngineValue → Bool
  | .undefined, .undefined | .null, .null => true
  | .bool a, .bool b => a == b
  | .text a, .text b => EngineText.units a == EngineText.units b
  | .symbol a, .symbol b => a == b
  | .bigint a, .bigint b => a == b
  | .error a, .error b => a == b
  | .native f, .native g => f == g
  | .ref a, .ref b => a == b
  | a, b =>
    match double? a, double? b with
    | some x, some y => x.numEq y
    | _, _ => false

/-- A truth value as a number. -/
def unbool : EngineValue → EngineValue
  | .bool b => .int (if b then 1 else 0)
  | v => v

/-- Loose equality of values that are no objects and are not missing. -/
def alike (a b : EngineValue) : Bool :=
  match unbool a, unbool b with
  | .bigint a, .text t | .text t, .bigint a => textInteger? t == some a
  | .bigint n, .int i | .int i, .bigint n => n == i.toInt
  | .bigint n, .float d | .float d, .bigint n => mixedOrder d n == some .eq
  | .text t, .int i => alikeText t (Double.ofInt i.toInt)
  | .int i, .text t => alikeText t (Double.ofInt i.toInt)
  | .text t, .float d | .float d, .text t => alikeText t d
  | a, b => identical a b
where
  /-- A text reads as a double. -/
  alikeText (t : EngineText) (d : Double) : Bool :=
    match numberOf (.text t) with
    | .ok x => x.numEq d
    | .error _ => false

/-- Loose equality. -/
def looselyEqual (h : Heap) (a b : EngineValue) : Except EngineValue Bool :=
  match a, b with
  | .undefined, .undefined | .undefined, .null | .null, .undefined | .null, .null => .ok true
  | .undefined, _ | .null, _ | _, .undefined | _, .null => .ok false
  | a, b =>
    if a.isObject && b.isObject then .ok (identical a b)
    else do
      let a ← h.primitive a
      let b ← h.primitive b
      return alike a b

/-! ## Objects -/

/-- A value has a property, own or inherited. -/
def has (h : Heap) (v : EngineValue) (name : EngineText) : Bool :=
  match h.find v name with
  | .absent | .outside => false
  | _ => true

/-- The object with a number is among the parents of a value, at most `steps` further on. -/
def inherits (h : Heap) (ancestor : Nat) : Nat → EngineValue → Bool
  | 0, _ => false
  | steps + 1, v =>
    match (h.receiver v).parent with
    | .ref id => id == ancestor || inherits h ancestor steps (.ref id)
    | _ => false

/-- The first value was made by the second, which is a function. -/
def madeBy (h : Heap) (v f : EngineValue) : Except EngineValue Bool :=
  match h.functionBody? f with
  | none => .error (.error "invalid 'instanceof' right operand")
  | some _ =>
    if v.isObject then
      match h.get f "prototype" with
      | .value (.ref id) => .ok (h.inherits id (h.next + 1) v)
      | .value _ => .error (.error "operand 'prototype' property is not an object")
      | .throwing e => .error e
    else .ok false

/-! ## Operators -/

/-- The answer of an operator before a value. -/
def unary (h : Heap) (op : UnaryOp) (v : EngineValue) : Except EngineValue EngineValue :=
  match op with
  | .not => .ok (.bool !v.isTruthy)
  | .void => .ok .undefined
  | .typeof => .ok (.ofString (h.typeof v))
  | .plus => do
    match ← h.numeric v with
    | .bigint _ => .error (.error "bigint argument with unary +")
    | v => (numberOf v).map .ofDouble
  | .minus => do
    match ← h.numeric v with
    | .bigint n => .ok (.bigint (-n))
    | v => (numberOf v).map fun d => .ofDouble d.negate
  | .invert => do
    match ← h.numeric v with
    | .bigint n => .ok (.bigint (-n - 1))
    | v => (numberOf v).map fun d => .int (~~~ d.toInt32)

/-- The answer of an operator between two values. -/
def binary (h : Heap) (op : BinaryOp) (a b : EngineValue) : Except EngineValue EngineValue :=
  match op with
  | .add => h.sum a b
  | .arithmetic op => do
    let a ← h.numeric a
    let b ← h.numeric b
    onNumbers (arithmetic op) (arithmeticBig op) a b
  | .bits op => do
    let a ← h.numeric a
    let b ← h.numeric b
    bits op a b
  | .order op => do
    let a ← h.numeric a
    let b ← h.numeric b
    return .bool (op.holds (← primitiveOrder a b))
  | .equal expected => (h.looselyEqual a b).map fun e => .bool (e == expected)
  | .same expected => .ok (.bool (identical a b == expected))
  | .within =>
    if b.isObject then
      match a with
      | .symbol _ => .ok (.bool false)
      | a => (h.text a).map fun t => .bool (h.has b t)
    else .error (.error "invalid 'in' operand")
  | .instanceOf => (h.madeBy a b).map .bool

end Heap

end HostBridge
