import HostBridge.Engine.Globals
import HostBridge.Engine.Heap
import HostBridge.Engine.Numeral

/-!
# Reading properties in the engine

Looking for a property goes through an object's own properties and then through those it inherits
(`Heap.find`). An accessor of a standard object answers for the object that the search started from,
so it may refuse one that is of another kind.
-/

namespace HostBridge

/-- What looking for a property finds. -/
inductive Found where
  | property (p : Property)
  | accessor (a : Accessor)
  /-- A place outside an array of bytes, where nothing can be. -/
  | outside
  | absent

/-- What an accessor sees of the value that it is read of. -/
structure Receiver where
  /-- What the value is, if it is an object with properties of its own. -/
  kind : Option NodeKind
  /-- The object from which the value inherits. -/
  parent : EngineValue

namespace Receiver

/-- An exception with a message. -/
def refusal (message : String) : Slot := .throwing (.error message)

/-- What an accessor answers. The letters of the flags depend on other properties and are put
together elsewhere (`Heap.flagLetters`). -/
def compute (r : Receiver) : Accessor → Slot
  | .parent => .value r.parent
  | .size =>
    match r.kind with
    | some (.map size) => .value (.ofNat size)
    | _ => refusal "Map object expected"
  | .source =>
    match r.kind with
    | some (.regexp source _) => .value (.ofString source)
    | _ => refusal "RegExp object expected"
  | .flag letter =>
    match r.kind with
    | some (.regexp _ flags) => .value (.bool (flags.toList.contains letter))
    | _ => refusal "RegExp object expected"
  | .count =>
    match r.kind with
    | some (.bytes items) => .value (.ofNat items.length)
    | _ => refusal "not a TypedArray"
  | .offset =>
    match r.kind with
    | some (.bytes _) => .value (.int 0)
    | _ => refusal "not a TypedArray"
  | .buffer =>
    match r.kind with
    | some (.bytes _) => .value (.ref Standard.buffer.id)
    | _ => refusal "not a TypedArray"
  | .refused => refusal "invalid property access"
  | .flags => .value .undefined

/-- What reading gives that found something. -/
def answer (r : Receiver) : Found → Slot
  | .property p => p.slot
  | .accessor a => r.compute a
  | .outside | .absent => .value .undefined

end Receiver

namespace Heap

/-- What an object itself has under a name. -/
def findOwn (n : Node) (name : EngineText) : Found :=
  match n.own? name, n.kind with
  | some p, _ => .property p
  | none, .bytes _ => if name.decode.toOption.any Numeral.isNumericName then .outside else .absent
  | none, _ => .absent

/-- What the object with a number itself has under a name. -/
def findAt (h : Heap) (id : Nat) (name : EngineText) : Found :=
  match findOwn (h.node id) name with
  | .absent =>
    match (Standard.all[id]?).bind fun s => name.decode.toOption.bind s.accessor? with
    | some a => .accessor a
    | none => .absent
  | found => found

/-- Look for a property at an object and along at most `steps` parents. -/
def findFrom (h : Heap) (name : EngineText) : Nat → Nat → Found
  | steps, id =>
    match h.findAt id name with
    | .absent =>
      match steps, (h.node id).parent with
      | steps + 1, some parent => findFrom h name steps parent
      | _, _ => .absent
    | found => found

/-- Look for a property of an object that need not be on the heap. -/
def findNode (h : Heap) (n : Node) (name : EngineText) : Found :=
  match findOwn n name, n.parent with
  | .absent, some parent => h.findFrom name h.next parent
  | found, _ => found

/-- The standard object that is behind a value that is no object with a number. -/
def standardOf : EngineValue → Option Standard
  | .undefined | .null | .ref _ => none
  | .bool _ => some .bool
  | .int _ | .float _ => some .number
  | .text _ => some .text
  | .symbol _ => some .symbol
  | .bigint _ => some .bigint
  | .error _ => some .error
  | .native _ => some .function

/-- The properties that a value has without an object: the length and units of a text, the message
of an error, and what a function of the engine has. -/
def immediate? (v : EngineValue) (name : EngineText) : Option Property :=
  match v with
  | .text t => (NodeKind.text t).own? name
  | .error message => (Node.ofMessage message).own? name
  | .symbol description =>
    if name = "description" then some (.fixed (.ofString description)) else none
  | .native f => f.own? name
  | _ => none

/-- Look for a property of a value. Undefined and null have none. -/
def find (h : Heap) (v : EngineValue) (name : EngineText) : Found :=
  match v with
  | .ref id => h.findFrom name h.next id
  | _ =>
    match immediate? v name, standardOf v with
    | some p, _ => .property p
    | none, some s => h.findFrom name h.next s.id
    | none, none => .absent

/-- A value itself has a property. -/
def hasOwn (h : Heap) (v : EngineValue) (name : EngineText) : Bool :=
  match v with
  | .ref id =>
    match h.findAt id name with
    | .absent | .outside => false
    | _ => true
  | v => (immediate? v name).isSome

/-- The parent of an object, as a value. -/
def parentValue : Option Nat → EngineValue
  | some id => .ref id
  | none => .null

/-- An object as the receiver of an accessor. -/
def nodeReceiver (n : Node) : Receiver := ⟨some n.kind, parentValue n.parent⟩

/-- A value as the receiver of an accessor. -/
def receiver (h : Heap) : EngineValue → Receiver
  | .ref id => nodeReceiver (h.node id)
  | v => ⟨none, parentValue ((standardOf v).map Standard.id)⟩

/-- The letters of the flags whose properties count as true. -/
def flagLetters (read : String → Slot) : List (String × Char) → Except EngineValue (List Char)
  | [] => .ok []
  | (name, letter) :: rest =>
    match read name with
    | .throwing e => .error e
    | .value v =>
      (flagLetters read rest).map fun letters => if v.isTruthy then letter :: letters else letters

/-- Read a property, given how properties are found. -/
def readBy (find : EngineText → Found) (r : Receiver) (name : EngineText) : Slot :=
  match find name with
  | .accessor .flags =>
    match flagLetters (fun name => r.answer (find name)) flagNames with
    | .ok letters => .value (.ofString (String.ofList letters))
    | .error e => .throwing e
  | found => r.answer found

/-- Read a property of an object that need not be on the heap. -/
def readNode (h : Heap) (n : Node) (name : EngineText) : Slot :=
  readBy (h.findNode n) (nodeReceiver n) name

/-- Read a property of a value. Undefined and null have none. -/
def get (h : Heap) (v : EngineValue) (name : EngineText) : Slot :=
  readBy (h.find v) (h.receiver v) name

/-- The keys of a value that a script can list. Nothing is listed of undefined and null. -/
def keys? (h : Heap) : EngineValue → Option (List EngineText)
  | .undefined | .null => none
  | .text t =>
    some ((List.range (EngineText.units t).length).map fun i => EngineText.ofString (Nat.repr i))
  | .ref id => some (h.node id).keys
  | _ => some []

end Heap

end HostBridge
