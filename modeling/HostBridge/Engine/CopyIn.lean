import HostBridge.Engine.CopyOut

/-!
# Copying values into the engine

Arrays and objects become fresh objects. An integer beyond 32 bits becomes a double, a sealed value
becomes undefined, since what it stood for cannot be made again. Properties are assigned one by
one. Nothing that a fresh object can inherit refuses an assignment, and only the name of the parent
is special: it sets the object from which the object inherits, removes it for null, does nothing for
another value that is no object, and makes no property.
-/

namespace HostBridge.Heap

/-- An integer as the engine holds it. -/
def ofInt64 (i : Int64) : EngineValue :=
  if -Int.pow 2 31 ≤ i.toInt ∧ i.toInt < Int.pow 2 31 then .int (Int32.ofInt i.toInt)
  else EngineValue.ofDouble (Double.ofInt i.toInt)

/-- Assign a property of an object under construction. -/
def enter (n : Node) (name : String) (v : EngineValue) : Node :=
  if name = parentName then
    match v with
    | .ref id => { n with parent := some id }
    | .null => { n with parent := none }
    | _ => n
  else { n with props := n.props.put (EngineText.ofString name) (.plain v) }

mutual

/-- Copy a value into the engine. -/
def copyIn (h : Heap) : Value → EngineValue × Heap
  | .undefined | .sealed _ => (.undefined, h)
  | .null => (.null, h)
  | .bool b => (.bool b, h)
  | .int i => (ofInt64 i, h)
  | .float d => (EngineValue.ofDouble d, h)
  | .text s => (EngineValue.ofString s, h)
  | .array items =>
    let r := copyInItems h items
    r.2.allocArray r.1
  | .object entries =>
    let r := copyInEntries h {} entries
    r.2.alloc r.1

/-- Copy values one after the other. -/
def copyInItems (h : Heap) : List Value → List EngineValue × Heap
  | [] => ([], h)
  | v :: vs =>
    let first := copyIn h v
    let rest := copyInItems first.2 vs
    (first.1 :: rest.1, rest.2)

/-- Copy entries one after the other, assigning each to a node under construction. -/
def copyInEntries (h : Heap) (n : Node) : List (String × Value) → Node × Heap
  | [] => (n, h)
  | (name, v) :: vs =>
    let first := copyIn h v
    copyInEntries first.2 (enter n name first.1) vs

end

end HostBridge.Heap
