import HostBridge.Engine.Standard

/-!
# The heap

The objects of an engine by their numbers. The standard objects have the first numbers and stay as
they are; objects that are made later get the numbers after those, one after the other.
-/

namespace HostBridge

/-- The objects of an engine that are not standard, by number from `Standard.count` on. -/
structure Heap where
  nodes : Array Node := #[]

namespace Heap

/-- The object with a number. Numbers that were never given out stand for a plain empty object. -/
def node (h : Heap) (id : Nat) : Node :=
  if id < Standard.count then ((Standard.all[id]?).map Standard.node).getD {}
  else h.nodes.getD (id - Standard.count) {}

/-- The number that the next object gets. -/
def next (h : Heap) : Nat := Standard.count + h.nodes.size

/-- The object that was made after `i` others. -/
def made (i : Nat) : EngineValue := .ref (Standard.count + i)

/-- Add an object. -/
def alloc (h : Heap) (n : Node) : EngineValue × Heap := (.ref h.next, ⟨h.nodes.push n⟩)

/-- Put another object under a number that was given out. -/
def update (h : Heap) (id : Nat) (n : Node) : Heap :=
  if id < Standard.count then h else ⟨h.nodes.setIfInBounds (id - Standard.count) n⟩

/-- Add an array of values. -/
def allocArray (h : Heap) (items : List EngineValue) : EngineValue × Heap :=
  h.alloc { kind := .ofValues items }

/-- The promise with a number. -/
def promise? (h : Heap) (id : Nat) : Option PromiseState :=
  match (h.node id).kind with
  | .promise p => some p
  | _ => none

/-- Give a promise another state. -/
def setPromise (h : Heap) (id : Nat) (p : PromiseState) : Heap :=
  h.update id { h.node id with kind := .promise p }

/-- The number of promises that are rejected with no handler attached so far. -/
def unhandled (h : Heap) : Nat :=
  (h.nodes.toList.filter fun n =>
    match n.kind with
    | .promise p => p.isUnhandled
    | _ => false).length

/-- The body of a function. -/
def functionBody? (h : Heap) : EngineValue → Option FunctionBody
  | .native f => some (.native f)
  | .ref id =>
    match (h.node id).kind with
    | .function body => some body
    | _ => none
  | _ => none

/-- The engine's name for the type of a value. -/
def typeName (h : Heap) : EngineValue → String
  | .undefined => "undefined"
  | .null => "null"
  | .bool _ => "bool"
  | .int _ => "int"
  | .float _ => "float"
  | .text _ => "string"
  | .symbol _ => "symbol"
  | .bigint _ => "big_int"
  | .error _ => "exception"
  | .native _ => "function"
  | .ref id =>
    match (h.node id).kind with
    | .array _ _ => "array"
    | .error => "exception"
    | .promise _ => "promise"
    | .function body => if body.constructs then "constructor" else "function"
    | _ => "object"

end Heap

end HostBridge
