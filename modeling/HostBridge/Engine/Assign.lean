import HostBridge.Engine.Coercion

/-!
# Definitions and assignments in the engine

A definition puts a property into an object whatever the object inherits (`Heap.define`). An
assignment looks for the property first (`Heap.assign`): one that is for reading only, or an
accessor, refuses it, even if it is inherited. The name of the parent sets the object from which the
object inherits, removes it for null, does nothing for another value that is no object, and makes no
property.
-/

namespace HostBridge.Heap

/-- Define an own property of an object. What is put into an array of bytes is kept as a byte. -/
def define (h : Heap) (n : Node) (name : EngineText) (p : Property) : Node :=
  match n.kind, arrayIndex? name, p.content with
  | .bytes items, some i, .data v _ =>
    { n with kind := .bytes (items.set i ((h.number v).toOption.getD .zero).toByte) }
  | _, _, _ => n.define name p

/-- Set the object from which an object inherits. An error that is no object of the heap yet becomes
one. -/
def setParent (h : Heap) (n : Node) : EngineValue → Node × Heap
  | .ref id => ({ n with parent := some id }, h)
  | .null => ({ n with parent := none }, h)
  | .error message => ({ n with parent := some h.next }, (h.alloc (.ofMessage message)).2)
  | _ => (n, h)

/-- An object with a value under a name of its own. It is listed as it was before. -/
def withValue (n : Node) (name : EngineText) (v : EngineValue) : Node :=
  let enumerable := ((n.props.get? name).map (·.enumerable)).getD true
  { n with props := n.props.put name { content := .data v true, enumerable } }

/-- Assign a property of a plain object that is not on the heap, or the exception with which that is
refused. A place outside an array of bytes takes any number and keeps none. -/
def assign (h : Heap) (n : Node) (name : EngineText) (v : EngineValue) :
    Except EngineValue (Node × Heap) :=
  match h.findNode n name with
  | .absent => .ok (withValue n name v, h)
  | .property p =>
    match p.content with
    | .data _ true => .ok (withValue n name v, h)
    | .data _ false => .error (.error ("'" ++ name.plain ++ "' is read-only"))
    | .accessor _ => .error (.error "no setter for property")
  | .accessor a =>
    match a with
    | .parent => .ok (h.setParent n v)
    | .refused => .error (.error "invalid property access")
    | _ => .error (.error "no setter for property")
  | .outside =>
    match h.number v with
    | .ok _ => .ok (n, h)
    | .error e => .error e

end HostBridge.Heap
