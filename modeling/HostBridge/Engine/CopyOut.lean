import HostBridge.Binding.Mode
import HostBridge.Engine.Coercion
import HostBridge.Value.Text

/-!
# Copying values out of the engine

Everything but arrays and plain objects is copied as it is, or as a sealed value that names what it
was. A container is copied with its contents, in order, unless

* it lies deeper than the mode allows: 64 levels in the transparent mode, one in the others,
* 10000 containers have been copied already, or
* it is being copied already, further out.

It is then sealed. Copying fails when a property throws, or when a text or a name has no form
outside the engine. Outside the engine a name ends before its first null character, and of several
properties whose names become the same the last one counts, at the place of the first.
`Heap.copyShallow` never looks inside a container and never fails.
-/

namespace HostBridge

/-- Why the engine does not do what it is asked. -/
inductive EngineError where
  /-- A text cannot leave the engine; the byte offset of the first lone half. -/
  | invalidText (offset : Nat)
  /-- A property threw an exception while it was read. -/
  | thrown
  /-- A value of the named type is called. -/
  | notFunction (type : String)
  /-- A text cannot enter the engine; the byte offset of the first null character. -/
  | nullCharacter (offset : Nat)
deriving DecidableEq

namespace EngineError

/-- The text of an engine error. -/
def message : EngineError → String
  | invalidText offset =>
    "Conversion from string failed: invalid utf-8 sequence of 1 bytes from index " ++
      Nat.repr offset
  | thrown => "Exception generated by QuickJS"
  | notFunction type => "Error converting from js '" ++ type ++ "' into type 'function'"
  | nullCharacter offset =>
    "String contained internal null bytes: nul byte found in provided data at position: " ++
      Nat.repr offset

end EngineError

/-- A value as copying sees it. -/
inductive Sight where
  /-- Copied without looking inside anything. -/
  | leaf (v : Value)
  /-- The container with this number. -/
  | container (id : Nat)

/-- The contents of a container. -/
inductive Contents where
  | items (slots : List Slot)
  | entries (slots : Record Slot EngineText)

namespace Heap

/-- The most levels of containers that are copied. -/
def maxDepth : Nat := 64

/-- The most containers that are copied. -/
def maxContainers : Nat := 10000

/-- The levels of containers that are copied in a mode. -/
def levels (mode : ConversionMode) : Nat := if mode.convertsNested then maxDepth else 1

/-- What a value is. -/
def look (h : Heap) : EngineValue → Except EngineError Sight
  | .undefined => .ok (.leaf .undefined)
  | .null => .ok (.leaf .null)
  | .bool b => .ok (.leaf (.bool b))
  | .int i => .ok (.leaf (.int i.toInt64))
  | .float d => .ok (.leaf (.float d))
  | .text t =>
    match t.decode with
    | .ok s => .ok (.leaf (.text s))
    | .error offset => .error (.invalidText offset)
  | .symbol _ => .ok (.leaf (.sealed "symbol"))
  | .bigint _ => .ok (.leaf (.sealed "big_int"))
  | .error message => .ok (.leaf (.text message))
  | .native _ => .ok (.leaf (.sealed "Function"))
  | .ref id =>
    match (h.node id).kind with
    | .promise _ => .ok (.leaf (.sealed "Promise"))
    | .function _ => .ok (.leaf (.sealed "Function"))
    | .error => .ok (.leaf (.text ((h.errorMessage? (.ref id)).getD "")))
    | _ => .ok (.container id)

/-- What a container holds. -/
def contents (h : Heap) (id : Nat) : Contents :=
  match (h.node id).kind with
  | .array _ _ => .items (h.node id).items
  | _ => .entries (h.node id).listed

/-- A container as a value that is not looked into. -/
def asSealed (h : Heap) (id : Nat) : Value :=
  match (h.node id).kind with
  | .array _ _ => .sealed "Array"
  | _ => .sealed "Object"

/-- Copy what a slot gives, with a number of containers that may still be copied; the number left
comes with the copy. -/
def copySlot (copy : Nat → EngineValue → Except EngineError (Value × Nat)) (budget : Nat) :
    Slot → Except EngineError (Value × Nat)
  | .value v => copy budget v
  | .throwing _ => .error .thrown

/-- Copy slots one after the other. -/
def copyItems (copy : Nat → EngineValue → Except EngineError (Value × Nat)) :
    Nat → List Slot → Except EngineError (List Value × Nat)
  | budget, [] => .ok ([], budget)
  | budget, slot :: slots =>
    match copySlot copy budget slot with
    | .error e => .error e
    | .ok (v, budget) =>
      match copyItems copy budget slots with
      | .error e => .error e
      | .ok (vs, budget) => .ok (v :: vs, budget)

/-- The part of a name that is looked at when it leaves the engine. -/
def seenName (name : EngineText) : EngineText := name.takeWhile (· != .char '\x00')

/-- Why a name cannot leave the engine. -/
def nameFault? (name : EngineText) : Option EngineError :=
  match (seenName name).decode with
  | .ok _ => none
  | .error offset => some (.invalidText offset)

/-- Copy named slots one after the other, each name before what is under it. -/
def copyEntries (copy : Nat → EngineValue → Except EngineError (Value × Nat)) :
    Nat → Record Slot EngineText → Except EngineError (Record Value × Nat)
  | budget, [] => .ok ([], budget)
  | budget, (name, slot) :: slots =>
    match nameFault? name with
    | some e => .error e
    | none =>
      match copySlot copy budget slot with
      | .error e => .error e
      | .ok (v, budget) =>
        match copyEntries copy budget slots with
        | .error e => .error e
        | .ok (vs, budget) => .ok ((name.plain, v) :: vs, budget)

/-- A name outside the engine. -/
def outerName (name : String) : String := String.ofList (name.toList.takeWhile (· != '\x00'))

/-- A name that comes from outside can leave. -/
@[simp] theorem nameFault?_ofString (name : String) : nameFault? name = none := by
  have hseen : seenName name = EngineText.ofString (outerName name) := by
    rw [seenName, outerName, EngineText.ofString, EngineText.ofString, List.takeWhile_map,
      String.toList_ofList]
    congr 2
    funext c
    rw [Bool.eq_iff_iff]
    simp
  rw [nameFault?, hseen, EngineText.decode_ofString]

/-- The object of copied entries. -/
def objectOf (entries : Record Value) : Value :=
  .object (Record.ofList (entries.map fun e => (outerName e.1, e.2)))

/-- Copy a value: at most `levels` containers deep, with at most `budget` containers in all, and
sealing the containers on `path`, which are being copied. The number of containers that may still
be copied comes with the copy. -/
def copyWithin (h : Heap) (levels : Nat) (path : List Nat) (budget : Nat) (x : EngineValue) :
    Except EngineError (Value × Nat) :=
  match h.look x with
  | .error e => .error e
  | .ok (.leaf v) => .ok (v, budget)
  | .ok (.container id) =>
    match levels with
    | 0 => .ok (h.asSealed id, budget)
    | levels + 1 =>
      if budget = 0 ∨ id ∈ path then .ok (h.asSealed id, budget)
      else
        match h.contents id with
        | .items slots =>
          (copyItems (h.copyWithin levels (id :: path)) (budget - 1) slots).map fun r =>
            (.array r.1, r.2)
        | .entries slots =>
          (copyEntries (h.copyWithin levels (id :: path)) (budget - 1) slots).map fun r =>
            (objectOf r.1, r.2)

/-- Copy a value out of the engine. -/
def copyOut (h : Heap) (mode : ConversionMode) (x : EngineValue) : Except EngineError Value :=
  (h.copyWithin (levels mode) [] maxContainers x).map (·.1)

/-- Copy a value without looking inside containers. A text that cannot leave the engine is sealed
under the name of its type. -/
def copyShallow (h : Heap) (x : EngineValue) : Value :=
  match h.look x with
  | .ok (.leaf v) => v
  | .ok (.container id) => h.asSealed id
  | .error _ => .sealed (h.typeName x)

/-- The text by which an exception is known: the text of its copy, or the name of its type. -/
def describe (h : Heap) (x : EngineValue) : String :=
  match h.copyOut .transparent x with
  | .ok v => v.display
  | .error _ => h.typeName x

end Heap

end HostBridge
