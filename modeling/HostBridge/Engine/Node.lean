import HostBridge.Engine.Function
import HostBridge.Record
import HostBridge.Text.Unsigned

/-!
# Objects of the engine

An object has own properties and may inherit others from its parent. The parents that objects have
from the start are standard objects (`Standard`), which have the first numbers. A property holds a
value, which may be for reading only, or an accessor.

Some objects have properties that come from what they are (`NodeKind.own?`): the items and the
length of an array, the units and the length of a text, the bytes of an array of bytes.

The names of properties are texts of the engine, so a name may have no form outside the engine. The
properties of an object are listed with array indexes first, in ascending order, and then the other
names in the order of their definition (`inKeyOrder`).
-/

namespace HostBridge

/-! ## Properties -/

/-- What reading a place gives: a value, or an exception. -/
inductive Slot where
  | value (v : EngineValue)
  | throwing (v : EngineValue)

/-- What a property holds: a value, or an accessor that answers or throws when it is read and that
cannot be assigned. -/
inductive Content where
  | data (v : EngineValue) (writable : Bool)
  | accessor (s : Slot)

/-- A property of an object. Hidden ones are not listed. -/
structure Property where
  content : Content
  enumerable : Bool := true

namespace Property

/-- An ordinary property. -/
def plain (v : EngineValue) : Property := { content := .data v true }

/-- A property that is not listed. -/
def hidden (v : EngineValue) : Property := { content := .data v true, enumerable := false }

/-- A property that is not listed and cannot be assigned. -/
def fixed (v : EngineValue) : Property := { content := .data v false, enumerable := false }

/-- What reading a property gives. -/
def slot (p : Property) : Slot :=
  match p.content with
  | .data v _ => .value v
  | .accessor s => s

end Property

/-! ## Kinds of objects -/

/-- The standard objects: those from which others inherit, and those that hold functions. -/
inductive Standard where
  | object
  | array
  | function
  | error
  | typeError
  | promise
  | text
  | number
  | bool
  | symbol
  | bigint
  | map
  | date
  | regexp
  | bytes
  | buffer
  | math
  | json
  | reflect
  | atomics
  | performance
deriving DecidableEq

namespace Standard

/-- The standard objects, in the order of their numbers. -/
def all : List Standard :=
  [object, array, function, error, typeError, promise, text, number, bool, symbol, bigint, map,
    date, regexp, bytes, buffer, math, json, reflect, atomics, performance]

/-- The number of standard objects. Other objects have the numbers from here on. -/
def count : Nat := all.length

/-- The number of a standard object. -/
def id (s : Standard) : Nat := all.idxOf s

end Standard

/-- What an object is. -/
inductive NodeKind where
  | plain
  /-- An array: its length, and the items at its front, some of which may be missing. Items further
  on are among the named properties. -/
  | array (items : List (Option Property)) (length : Nat)
  | error
  | promise (state : PromiseState)
  | function (body : FunctionBody)
  | map (size : Nat)
  /-- A date, the beginning of the year 1970. -/
  | date
  /-- A regular expression: its source, and the letters of its flags. -/
  | regexp (source flags : String)
  /-- An object that holds a text. -/
  | text (t : EngineText)
  /-- An array of bytes. -/
  | bytes (items : List UInt8)

namespace NodeKind

/-- The standard object from which an object inherits when it is made. -/
def standard : NodeKind → Standard
  | plain => .object
  | array _ _ => .array
  | error => .error
  | promise _ => .promise
  | function _ => .function
  | map _ => .map
  | date => .date
  | regexp _ _ => .regexp
  | text _ => .text
  | bytes _ => .bytes

/-- The kind of an array of all these values. -/
def ofValues (vs : List EngineValue) : NodeKind :=
  .array (vs.map fun v => some (.plain v)) vs.length

end NodeKind

/-- An object: what it is, its own named properties, and the object from which it inherits
others. -/
structure Node where
  kind : NodeKind := .plain
  props : Record Property EngineText := []
  parent : Option Nat := some kind.standard.id

/-- A record with its names as texts of the engine. -/
def Record.inside {α : Type} (r : Record α) : Record α EngineText :=
  r.map fun e => (EngineText.ofString e.1, e.2)

namespace Record

variable {α : Type}

@[simp] theorem keys_inside (r : Record α) : r.inside.keys = r.keys.map EngineText.ofString := by
  simp [keys, inside]

@[simp] theorem get?_inside (r : Record α) (name : String) : r.inside.get? name = r.get? name := by
  induction r with
  | nil => rfl
  | cons e r ih =>
    obtain ⟨k, a⟩ := e
    show (if EngineText.ofString k = EngineText.ofString name then some a
      else get? (inside r) name) = if k = name then some a else get? r name
    rw [ih]
    simp only [EngineText.ofString_inj]

end Record

/-- A record with its names as they are outside the engine. -/
def Record.outside {α : Type} (r : Record α EngineText) : Record α :=
  r.map fun e => (e.1.plain, e.2)

/-! ## The order of names -/

/-- The number that a name denotes as an array index: written in the shortest way, and below
`2^32 - 1`. -/
def arrayIndex? (name : EngineText) : Option Nat :=
  name.decode.toOption.bind fun s =>
    (Unsigned.read? s.toList).filter fun n => n < Nat.pow 2 32 - 1 && Nat.repr n == s

/-- Entries in the order in which the engine lists them, by the array indexes that their names
denote. -/
def inKeyOrder {α κ : Type} (index? : κ → Option Nat) (entries : Record α κ) : Record α κ :=
  let numbered := entries.filter fun e => (index? e.1).isSome
  let others := entries.filter fun e => (index? e.1).isNone
  numbered.mergeSort (fun a b => (index? a.1).getD 0 ≤ (index? b.1).getD 0) ++ others

/-- Properties under the places of a list, in order. -/
def placed {α : Type} (items : List α) : Record α EngineText :=
  items.zipIdx.map fun e => (EngineText.ofString (Nat.repr e.2), e.1)

namespace NodeKind

/-- The property of one byte. -/
def byte (b : UInt8) : Property := .plain (.int (Int32.ofNat b.toNat))

/-- The property of one unit of a text. -/
def unit (t : EngineText) : Property := { content := .data (.text t) false }

/-- A property that an object has because of what it is. -/
def own? (kind : NodeKind) (name : EngineText) : Option Property :=
  match kind with
  | array items length =>
    if name = "length" then some (.hidden (.ofNat length))
    else (arrayIndex? name).bind fun i => (items[i]?).getD none
  | text t =>
    if name = "length" then some (.fixed (.ofNat (EngineText.units t).length))
    else (arrayIndex? name).bind fun i => (EngineText.unitAt? t i).map unit
  | bytes items => (arrayIndex? name).bind fun i => items[i]?.map byte
  | _ => none

/-- The listed properties that an object has because of what it is, those of an array apart. -/
def listed : NodeKind → Record Property EngineText
  | text t => placed ((EngineText.singles t).map unit)
  | bytes items => placed (items.map byte)
  | _ => []

end NodeKind

namespace Node

/-- A new function. What a function constructs inherits from an object, which is as empty as the
standard object to those who list it. The object that a class gives so cannot be replaced. -/
def ofBody (body : FunctionBody) (made : EngineValue := .ref Standard.object.id) : Node :=
  let props : Record Property :=
    [ ("length", .fixed (.ofNat body.parameters)), ("name", .fixed (.ofString "")) ] ++
    match body with
    | .classFactory => [("prototype", .fixed made)]
    | _ => if body.constructs then [("prototype", .hidden made)] else []
  { kind := .function body, props := props.inside }

/-- The hidden property that says where an error was made. -/
def stack : EngineText × Property :=
  ("stack", .hidden (.ofString "    at <eval> (eval_script:1:1)\n"))

/-- A new error without a message of its own. -/
def error : Node := { kind := .error, props := [stack] }

/-- A new error with a message. -/
def ofMessage (message : String) : Node :=
  { kind := .error, props := [("message", .hidden (.ofString message)), stack] }

/-- Define an own property. An item of an array may make it longer. -/
def define (n : Node) (name : EngineText) (p : Property) : Node :=
  match n.kind, arrayIndex? name with
  | .array items length, some i =>
    if i < items.length then { n with kind := .array (items.set i (some p)) length }
    else { n with kind := .array items (max length (i + 1)), props := n.props.put name p }
  | _, _ => { n with props := n.props.put name p }

/-- An array with a value more at its end. -/
def push (n : Node) (v : EngineValue) : Node :=
  match n.kind with
  | .array items length =>
    if items.length = length then
      { n with kind := .array (items ++ [some (.plain v)]) (length + 1) }
    else n.define (Nat.repr length) (.plain v)
  | _ => n

/-- The object without an own property. -/
def without (n : Node) (name : EngineText) : Node :=
  match n.kind, arrayIndex? name with
  | .array items length, some i =>
    { n with
      kind := .array (items.set i none) length
      props := n.props.filter fun e => e.1 != name }
  | _, _ => { n with props := n.props.filter fun e => e.1 != name }

/-- An own property. -/
def own? (n : Node) (name : EngineText) : Option Property :=
  match n.kind.own? name with
  | some p => some p
  | none => n.props.get? name

/-- What the items of an array give when they are read one after the other. -/
def items : Node → List Slot
  | { kind := .array items length, props, .. } =>
    (items.map fun i => (i.map (·.slot)).getD (.value .undefined)) ++
      (List.range' items.length (length - items.length)).map fun i =>
        ((props.get? (EngineText.ofString (Nat.repr i))).map (·.slot)).getD (.value .undefined)
  | _ => []

/-- The listed properties, in order, the items at the front of an array apart. -/
def listed (n : Node) : Record Slot EngineText :=
  (n.kind.listed ++ inKeyOrder arrayIndex? (n.props.filter fun e => e.2.enumerable)).map fun e =>
    (e.1, e.2.slot)

/-- The places of listed items, from a place on. -/
def listedItems : Nat → List (Option Property) → List EngineText
  | _, [] => []
  | i, some p :: items =>
    if p.enumerable then Nat.repr i :: listedItems (i + 1) items else listedItems (i + 1) items
  | i, none :: items => listedItems (i + 1) items

/-- The names of the listed properties, in order. -/
def keys (n : Node) : List EngineText :=
  match n.kind with
  | .array items _ => listedItems 0 items ++ Record.keys n.listed
  | _ => Record.keys n.listed

end Node

end HostBridge
