import HostBridge.Binding.Builder
import HostBridge.Host.Types

/-!
# The vector class

Plane vectors as a class: a constructor from two numbers, writable components `x` and `y`, a
getter `length`, and a method `scale` that multiplies both components.
-/

namespace HostBridge.Vec2

/-- How vectors present themselves. -/
def info : ClassInfo := { path := "demo::Vec2", name := "Vec2" }

/-- Store a number in a component. -/
def writeComponent (store : Vec2 → Double → Vec2) (v : Vec2) (value : Value) :
    Except InvokeError Unit × Vec2 :=
  match Args.double [value] 0 with
  | .ok d => (.ok (), store v d)
  | .error e => (.error e, v)

/-- A vector from its components. -/
def make (args : List Value) : Except InvokeError Vec2 :=
  match Args.double args 0 with
  | .error e => .error e
  | .ok x =>
    match Args.double args 1 with
    | .error e => .error e
    | .ok y => .ok ⟨x, y⟩

/-- Multiply both components. -/
def scale (v : Vec2) (args : List Value) : Except InvokeError Value × Vec2 :=
  match Args.double args 0 with
  | .ok factor => (.ok .undefined, ⟨v.x.mul factor, v.y.mul factor⟩)
  | .error e => (.error e, v)

/-- The members of the vector class. -/
def declaration (info : ClassInfo) : List (BuildStep HostType) :=
  [ .add (.factory { arity := .exactly 2, owner := .vector info, make := make }),
    .add (.field
      { name := "x", owner := .vector info, read := fun v => .float v.x,
        write := some (writeComponent fun v d => { v with x := d }) }),
    .add (.field
      { name := "y", owner := .vector info, read := fun v => .float v.y,
        write := some (writeComponent fun v d => { v with y := d }) }),
    .add (.getter (Method.getter "length" (HostType.vector info) fun v =>
      .float (Double.hypot v.x v.y))),
    .add (.method
      { name := "scale", arity := .exactly 1, owner := .vector info, body := scale }) ]

end HostBridge.Vec2
