import HostBridge.Loop
import HostBridge.Script.Machine

/-!
# Work on a machine

What script code does on a machine is work: it answers or throws, or it never comes to an end and
then gives nothing at all (`Script.Work`). Loops are work that is done again and again
(`Script.Work.again`).

A name is looked for among the variables in sight and then on the global object. A name that is
nowhere is an exception, also when it is assigned. Blocks and functions have variables of their own,
which stay for the functions that were made where they are in sight.
-/

namespace HostBridge.Script

/-- Work on a machine that answers or throws, if it comes to an end. -/
abbrev Work (α : Type) := ExceptT EngineValue (StateT Machine Option) α

/-- How a piece of code ends: with a value to go on with, if it has one, by leaving the function
with a value, or by leaving the present time of a loop, to go on with the next one or not. -/
inductive Ending where
  | next (v : Option EngineValue)
  | answer (v : EngineValue)
  | leave (again : Bool) (v : Option EngineValue)

namespace Ending

/-- The value that a function has whose code ends so. -/
def value : Ending → EngineValue
  | answer v => v
  | _ => .undefined

/-- The value that a text has whose code ends so. -/
def result : Ending → EngineValue
  | next v => v.getD .undefined
  | ending => ending.value

/-- The ending after code that had a value, which counts where the code ends without one. -/
def after (v : Option EngineValue) : Ending → Ending
  | next w => next (w.or v)
  | leave again w => leave again (w.or v)
  | answer w => answer w

end Ending

namespace Work

variable {α β : Type}

/-- Work that ends in a completion. -/
def ofRun (f : Machine → Completion × Machine) : Work EngineValue :=
  ExceptT.mk fun m =>
    match f m with
    | (.normal v, m) => some (.ok v, m)
    | (.thrown e, m) => some (.error e, m)

/-- How work ends on a machine. -/
def complete (a : Work EngineValue) (m : Machine) : Option (Completion × Machine) :=
  (a.run m).map fun r => (Machine.completion r.1, r.2)

/-- An exception with a message. -/
def refuse (message : String) : Work α := throw (.error message)

/-- Ask the heap. -/
def ask (f : Heap → Except EngineValue α) : Work α := do
  ofExcept (f (← get).heap)

/-- Add an object to the heap. -/
def make (n : Node) : Work EngineValue := do
  let r := (← get).alloc n
  set r.2
  return r.1

/-- The body of a function. -/
def bodyOf? (f : EngineValue) : Work (Option FunctionBody) := do return (← get).heap.functionBody? f

/-- Work whose exception is kept. -/
def attempt (a : Work α) : Work (Except EngineValue α) :=
  ExceptT.mk fun m => (a.run m).map fun r => (.ok r.1, r.2)

/-- What a time comes to that work is done: what to do it with once more, or how it ends. -/
def verdict : Except EngineValue (β ⊕ α) × Machine →
    (β × Machine) ⊕ (Except EngineValue α × Machine)
  | (.ok (.inl b), m) => .inl (b, m)
  | (.ok (.inr x), m) => .inr (.ok x, m)
  | (.error e, m) => .inr (.error e, m)

/-- Do work again and again, each time with what the time before gave, until it answers. -/
def again (a : β → Work (β ⊕ α)) (b : β) : Work α :=
  ExceptT.mk fun m => Loop.run (fun s => ((a s.1).run s.2).map verdict) (b, m)

/-! ## Properties -/

/-- Read a property. -/
def readProperty (access : Machine.Access) (v : EngineValue) (name : EngineText) :
    Work EngineValue :=
  ofRun fun m => (m.property access v name, m)

/-- Read a property of the global object. -/
def readGlobal (name : EngineText) : Work EngineValue :=
  ofRun fun m => (Machine.slotCompletion (m.global name), m)

/-- The global object as it is now. -/
def globalObject : Work EngineValue := do make (← get).globals

/-- Assign a property of the global object. -/
def writeGlobal (name : EngineText) (v : EngineValue) : Work Unit := do
  set (← ofExcept ((← get).store name v))

/-- Assign a property. Items of arrays are defined. -/
def write (target : EngineValue) (name : EngineText) (v : EngineValue) : Work Unit := do
  let m ← get
  match target with
  | .undefined | .null =>
    refuse ("cannot set property '" ++ name.plain ++ "' of " ++ m.heap.typeName target)
  | .ref id =>
    let n := m.heap.node id
    match n.kind, arrayIndex? name with
    | .array _ _, some _ | .bytes _, some _ =>
      set { m with heap := m.heap.update id (m.heap.define n name (.plain v)) }
    | _, _ =>
      let (n, heap) ← ofExcept (m.heap.assign n name v)
      set { m with heap := heap.update id n }
  | .error _ | .native _ => return ()
  | _ => refuse "not an object"

/-- Remove a property. -/
def remove (target : EngineValue) (name : EngineText) : Work EngineValue := do
  let m ← get
  match target with
  | .undefined | .null => refuse "cannot convert to object"
  | .ref id =>
    set { m with heap := m.heap.update id ((m.heap.node id).without name) }
    return .bool true
  | _ => return .bool true

/-- Remove a property of the global object. -/
def removeGlobal (name : EngineText) : Work EngineValue := do
  modify fun m => { m with globals := m.globals.without name }
  return .bool true

/-! ## Names -/

/-- Read a name. -/
def lookup (name : String) : Work EngineValue := do
  let m ← get
  match m.number? name with
  | some i =>
    match (m.variableAt i).value with
    | some v => return v
    | none => refuse (name ++ " is not initialized")
  | none =>
    match m.heap.findNode m.globals name with
    | .absent =>
      if name = "globalThis" ∨ name = "this" then globalObject
      else refuse (name ++ " is not defined")
    | _ => readGlobal name

/-- A name can be read. -/
def isKnown (name : String) : Work Bool := do
  let m ← get
  match m.number? name, m.heap.findNode m.globals name with
  | none, .absent => return name = "globalThis" || name = "this"
  | _, _ => return true

/-- The expression means the global object. -/
def isGlobalObject (e : Expr) : Work Bool := do
  match e with
  | .name x => return (x = "globalThis" || x = "this") && ((← get).number? x).isNone
  | _ => return false

/-- Assign a name. -/
def assignName (name : String) (v : EngineValue) : Work Unit := do
  let m ← get
  match m.number? name with
  | some i =>
    let x := m.variableAt i
    match x.value, x.assignable with
    | none, _ => refuse (name ++ " is not initialized")
    | some _, false => refuse ("'" ++ name ++ "' is read-only")
    | some _, true => set (m.setVariable i { x with value := some v })
  | none =>
    match m.heap.findNode m.globals name with
    | .absent => refuse (name ++ " is not defined")
    | _ => writeGlobal name v

/-- Give a declared name its value. In a function a name for all of it takes the place of a
global. -/
def declare (kind : Declaration) (name : String) (v : EngineValue) : Work Unit := do
  let m ← get
  match kind with
  | .block assignable =>
    match m.number? name with
    | some i => set (m.setVariable i { value := some v, assignable })
    | none => refuse (name ++ " is not defined")
  | .global | .hoisted =>
    match m.names.lookup name with
    | some i => set (m.setVariable i { value := some v })
    | none => writeGlobal name v

/-! ## Scopes -/

/-- Work with new variables, beside the names of the place where its code stands. -/
def inScope (names : List (String × Nat)) (new : List (String × Variable)) (a : Work α) : Work α :=
  ExceptT.mk fun m =>
    let added := m.addVariables new
    (a.run { added.2 with names := added.1 ++ names }).map fun r =>
      (r.1, { r.2 with names := m.names })

/-- Work with new variables beside those in sight. -/
def withNames (new : List (String × Variable)) (a : Work α) : Work α := do
  inScope (← get).names new a

/-- Names that are declared later. -/
def undeclared (cs : List Code) : List (String × Variable) :=
  (blockNames cs).map fun e => (e.1, { assignable := e.2 })

/-- The names of parameters with their arguments. -/
def arguments : List String → List EngineValue → List (String × Variable)
  | [], _ => []
  | x :: xs, [] => (x, { value := some .undefined }) :: arguments xs []
  | x :: xs, v :: vs => (x, { value := some v }) :: arguments xs vs

/-- The names that code declares for all of the function around it, other than these. -/
def locals (except : List String) (body : List Code) : List (String × Variable) :=
  ((globalsOf body).filter fun x => !except.contains x).map fun x =>
    (x, { value := some .undefined })

/-- The variables of a function that is called on a value. -/
def frame (c : Closure) (receiver : EngineValue) (args : List EngineValue) :
    List (String × Variable) :=
  undeclared c.body ++ arguments c.parameters args ++ locals c.parameters c.body ++
    if c.constructible then [("this", { value := some receiver, assignable := false })] else []

/-- Declare names as globals, where there are none. -/
def declareGlobals (names : List String) : Work Unit := do
  let m ← get
  let missing := (names.map EngineText.ofString).filter fun x => (m.globals.own? x).isNone
  set { m with globals := missing.foldl (fun n x => n.define x (.plain .undefined)) m.globals }

/-- A name cannot be declared in the outermost block: it is there already, or is a constant. -/
def isTaken (m : Machine) (name : String) : Bool :=
  (m.outermost.lookup name).isSome || (m.globals.own? name).any fun p =>
    match p.content with
    | .data _ false => true
    | _ => false

/-- Declare the names of the outermost code of a text, which stay. -/
def declareNames (body : List Code) : Work Unit := do
  let m ← get
  let new := undeclared body
  match new.find? fun e => isTaken m e.1 with
  | some (name, _) => refuse ("redeclaration of '" ++ name ++ "'")
  | none =>
    match (globalsOf body).find? fun x => (m.outermost.lookup x).isSome with
    | some name => refuse ("redeclaration of '" ++ name ++ "'")
    | none =>
      declareGlobals (globalsOf body)
      modify fun m =>
        let added := m.addVariables new
        { added.2 with outermost := added.1 ++ m.outermost }

end Work

end HostBridge.Script
