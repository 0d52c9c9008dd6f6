import HostBridge.Double
import HostBridge.Record

/-!
# Values

A `Value` is what host and script exchange: scalars, arrays, objects with ordered entries, and
sealed values, which stand for something that exists on one side only and is known to the other by
its name. Arrays and objects are the containers.

The views (`toInt64?`, `toDouble?`, `text?`, ...) are exact: a view answers only when the value is
of that kind, and the integer view also of a double that is a whole number in the 64-bit range.
-/

namespace HostBridge

/-- A value exchanged between host and script. -/
inductive Value where
  | undefined
  | null
  | bool (b : Bool)
  | int (i : Int64)
  | float (d : Double)
  | text (s : String)
  | array (items : List Value)
  | object (entries : List (String × Value))
  | sealed (name : String)

namespace Value

instance : Inhabited Value := ⟨.undefined⟩

/-- A 32-bit integer as a value. -/
def ofInt32 (i : Int32) : Value := int i.toInt64

/-- An optional value: null stands for nothing. -/
def ofOption {α : Type} (inject : α → Value) : Option α → Value
  | some a => inject a
  | none => null

/-- The name of the value's kind, as argument faults report it. -/
def typeName : Value → String
  | undefined => "undefined"
  | null => "null"
  | bool _ => "bool"
  | int _ => "int"
  | float _ => "float"
  | text _ => "string"
  | array _ => "array"
  | object _ => "object"
  | sealed _ => "opaque"

/-- Undefined or null. -/
def isNullish : Value → Bool
  | undefined | null => true
  | _ => false

/-- The Boolean view. -/
def bool? : Value → Option Bool
  | bool b => some b
  | _ => none

/-- `2^63`, the end of the range of 64-bit integers. The largest of these is no double. -/
def int64Limit : Double := ⟨0x43e0000000000000⟩

/-- The double as a 64-bit integer, when it is exactly one: it has no fractional part, and it is in
the range of these, so that cutting it off changes nothing. -/
def wholeInt64? (d : Double) : Option Int64 :=
  if d.fractionalPart.numEq .zero && int64Limit.negate.atMost d && d.less int64Limit then
    some d.clampInt64
  else
    none

/-- The integer view: an integer, or a double that is exactly one. -/
def toInt64? : Value → Option Int64
  | int i => some i
  | float d => wholeInt64? d
  | _ => none

/-- The number view: a double, or an integer rounded to the nearest double. -/
def toDouble? : Value → Option Double
  | int i => some (Double.ofInt i.toInt)
  | float d => some d
  | _ => none

/-- The text view. -/
def text? : Value → Option String
  | text s => some s
  | _ => none

/-- The items of an array. -/
def items? : Value → Option (List Value)
  | array items => some items
  | _ => none

/-- The entries of an object. -/
def entries? : Value → Option (Record Value)
  | object entries => some entries
  | _ => none

/-- Arrays and objects. -/
def isContainer : Value → Bool
  | array _ | object _ => true
  | _ => false

/-- The name under which a container is known to a side that cannot look inside. -/
def sealContainer : Value → Value
  | array _ => sealed "Array"
  | object _ => sealed "Object"
  | v => v

/-! ## Equality

Arrays are equal item by item, objects when they have as many entries and equal values under each
name, whatever the order, and doubles by `Double.numEq`. -/

mutual

/-- Equality of values. -/
def eqv : Value → Value → Bool
  | undefined, undefined => true
  | null, null => true
  | bool a, bool b => a == b
  | int a, int b => a == b
  | float a, float b => a.numEq b
  | text a, text b => a == b
  | array a, array b => eqvItems a b
  | object a, object b => a.length == b.length && eqvEntries a b
  | sealed a, sealed b => a == b
  | _, _ => false

/-- Equality of item lists, position by position. -/
def eqvItems : List Value → List Value → Bool
  | [], [] => true
  | a :: as, b :: bs => eqv a b && eqvItems as bs
  | _, _ => false

/-- Every entry of the first record has an equal one under its name in the second. -/
def eqvEntries : List (String × Value) → List (String × Value) → Bool
  | [], _ => true
  | (k, a) :: as, bs =>
    (match Record.get? bs k with
      | some b => eqv a b
      | none => false) && eqvEntries as bs

end

/-! ## Size -/

mutual

/-- The number of containers in a value, itself included. -/
def containers : Value → Nat
  | array items => containersOfItems items + 1
  | object entries => containersOfEntries entries + 1
  | _ => 0

/-- The number of containers in a list of values. -/
def containersOfItems : List Value → Nat
  | [] => 0
  | v :: vs => containers v + containersOfItems vs

/-- The number of containers in a list of entries. -/
def containersOfEntries : List (String × Value) → Nat
  | [] => 0
  | (_, v) :: vs => containers v + containersOfEntries vs

end

mutual

/-- The greatest number of containers on a path from the value to a leaf. -/
def depth : Value → Nat
  | array items => depthOfItems items + 1
  | object entries => depthOfEntries entries + 1
  | _ => 0

/-- The depth of the deepest value of a list. -/
def depthOfItems : List Value → Nat
  | [] => 0
  | v :: vs => max (depth v) (depthOfItems vs)

/-- The depth of the deepest entry of a list. -/
def depthOfEntries : List (String × Value) → Nat
  | [] => 0
  | (_, v) :: vs => max (depth v) (depthOfEntries vs)

end

/-- How many values of each sort a value holds, itself included. -/
structure Census where
  arrays : Nat := 0
  objects : Nat := 0
  sealed : Nat := 0
  scalars : Nat := 0

/-- Two counts together. -/
def Census.add (a b : Census) : Census :=
  ⟨a.arrays + b.arrays, a.objects + b.objects, a.sealed + b.sealed, a.scalars + b.scalars⟩

mutual

/-- Count a value and everything in it, on top of an earlier count. -/
def censusOn (c : Census) : Value → Census
  | array items => censusOfItems { c with arrays := c.arrays + 1 } items
  | object entries => censusOfEntries { c with objects := c.objects + 1 } entries
  | sealed _ => { c with sealed := c.sealed + 1 }
  | _ => { c with scalars := c.scalars + 1 }

/-- Count the values of a list. -/
def censusOfItems (c : Census) : List Value → Census
  | [] => c
  | v :: vs => censusOfItems (censusOn c v) vs

/-- Count the values of a list of entries. -/
def censusOfEntries (c : Census) : List (String × Value) → Census
  | [] => c
  | (_, v) :: vs => censusOfEntries (censusOn c v) vs

end

/-- How many values of each sort a value holds. -/
def census (v : Value) : Census := censusOn {} v

end Value

end HostBridge
