import HostBridge.Engine.Builtin
import HostBridge.Engine.CopyIn
import HostBridge.Engine.Operator
import HostBridge.Engine.Rejection
import HostBridge.Script.Statement

/-!
# The script machine

A heap, the global object, the variables of blocks and functions, and a queue of jobs. A job calls a
function, either by itself or because a promise was settled; in the second case the job also settles
the derived promise. Settling a promise queues the reactions that wait for it, in the order in which
they were attached, so a job may queue others. New jobs go to the end of the queue.

A promise that would be fulfilled with an object that has a `then` function is left to that object
instead: a job calls the function with two others that settle the promise. A promise may be left
many times, and only the functions of the latest time count. A promise that is left to another
promise follows it.

The machine writes down the transitions of promises that are to be reported (`rejections`): a
rejection while no handler is attached, and the first handler attached after that.
-/

namespace HostBridge

/-- What waits for a promise: the derived promise that is settled after it, as one that was left so
often, and functions for the two settlements that decide how. Without one the derived promise is
settled in the same way. -/
structure Reaction where
  derived : Nat
  pledges : Nat := 0
  fulfilment : Option FunctionBody := none
  rejection : Option FunctionBody := none

/-- The function for a settlement. -/
def Reaction.handler? (r : Reaction) : Settlement → Option FunctionBody
  | .fulfilled _ => r.fulfilment
  | .rejected _ => r.rejection

/-- A queued piece of work. -/
inductive Job where
  | direct (body : FunctionBody)
  | reaction (r : Reaction) (s : Settlement)
  /-- Call the `then` function of an object to which a promise was left, now so often. -/
  | pledge (promise pledges : Nat) (v : EngineValue) (body : FunctionBody)

/-- What is known of a variable. -/
structure Variable where
  /-- Nothing until the declaration has run. -/
  value : Option EngineValue := none
  assignable : Bool := true

/-- The state of a script engine. -/
structure Machine where
  heap : Heap := {}
  /-- The global object: its properties are the globals. -/
  globals : Node := { props := Globals.props.inside }
  /-- The variables of blocks and functions, by number. -/
  cells : Array Variable := #[]
  /-- The names of variables in sight, the innermost first. -/
  names : List (String × Nat) := []
  /-- The names that the outermost blocks of scripts declared, which are in sight everywhere. -/
  outermost : List (String × Nat) := []
  /-- The promises that scripts can settle, by the names they were made under. -/
  resolvers : Record Nat := []
  /-- Queued jobs, the next one first. -/
  jobs : List Job := []
  /-- Reactions to promises that are not settled yet, in the order in which they were attached. -/
  waiting : List (Nat × Reaction) := []
  /-- The tags that script code logged and nobody collected yet. -/
  tags : List String := []
  /-- The transitions of promises that nobody was told of yet. -/
  rejections : List RejectionEvent := []

namespace Machine

/-- Read a global, undefined if there is none. -/
def global (m : Machine) (name : EngineText) : Slot := m.heap.readNode m.globals name

/-- Store a global, or the exception with which that is refused. -/
def store (m : Machine) (name : EngineText) (v : EngineValue) : Except EngineValue Machine :=
  (m.heap.assign m.globals name v).map fun r => { m with globals := r.1, heap := r.2 }

/-- Add an object to the heap. -/
def alloc (m : Machine) (n : Node) : EngineValue × Machine :=
  let r := m.heap.alloc n
  (r.1, { m with heap := r.2 })

/-- Queue a function as a job of its own. -/
def queue (m : Machine) (body : FunctionBody) : Machine :=
  { m with jobs := m.jobs ++ [.direct body] }

/-- Log the tag of a handler that runs. -/
def logTag (m : Machine) (h : Handler) : Machine := { m with tags := m.tags ++ h.tag.toList }

/-! ## Variables -/

/-- The number of the variable that a name means, unless it means a global. -/
def number? (m : Machine) (name : String) : Option Nat :=
  (m.names.lookup name).or (m.outermost.lookup name)

/-- The variable with a number. -/
def variableAt (m : Machine) (i : Nat) : Variable := m.cells.getD i {}

/-- Change the variable with a number. -/
def setVariable (m : Machine) (i : Nat) (x : Variable) : Machine :=
  { m with cells := m.cells.setIfInBounds i x }

/-- New variables after the present ones, and their numbers under their names. -/
def addVariables (m : Machine) (new : List (String × Variable)) : List (String × Nat) × Machine :=
  ((new.zipIdx m.cells.size).map fun e => (e.1.1, e.2),
    { m with cells := m.cells ++ (new.map (·.2)).toArray })

/-- A name in sight means another variable. -/
def rename (name : String) (i : Nat) : List (String × Nat) → List (String × Nat)
  | [] => []
  | e :: rest => if e.1 = name then (name, i) :: rest else e :: rename name i rest

/-- A name means a new variable, with the value of the one before. -/
def renew (m : Machine) (name : String) : Machine :=
  match m.names.lookup name with
  | some i =>
    { m with
      cells := m.cells.push (m.variableAt i)
      names := rename name m.cells.size m.names }
  | none => m

/-! ## Promises -/

/-- Settle a promise. A promise that is settled stays as it is. -/
def settle (m : Machine) (id : Nat) (s : Settlement) : Machine :=
  match m.heap.promise? id with
  | some ⟨none, handled, pledges⟩ =>
    let heap := m.heap.setPromise id ⟨some s, handled, pledges⟩
    let due := m.waiting.filter fun w => w.1 == id
    { m with
      heap
      jobs := m.jobs ++ due.map fun w => .reaction w.2 s
      waiting := m.waiting.filter fun w => w.1 != id
      rejections := m.rejections ++
        match s, handled with
        | .rejected reason, false => [heap.rejection (.ref id) reason false]
        | _, _ => [] }
  | _ => m

/-- Leave a promise to an object with this `then` function. -/
def leave (m : Machine) (id : Nat) (p : PromiseState) (v : EngineValue) (body : FunctionBody) :
    Machine :=
  { m with
    heap := m.heap.setPromise id { p with pledges := p.pledges + 1 }
    jobs := m.jobs ++ [.pledge id (p.pledges + 1) v body] }

/-- The `then` of a value, for an object. -/
def thenOf (m : Machine) (v : EngineValue) : Slot :=
  if v.isObject then m.heap.get v "then" else .value .undefined

/-- Settle a promise as scripts do, by functions that were made when it had been left so often. A
promise that is settled, or has been left again, stays as it is; one that would be fulfilled with an
object is left to that object's `then`, if it has one. -/
def resolve (m : Machine) (id pledges : Nat) (s : Settlement) : Machine :=
  match m.heap.promise? id with
  | none => m
  | some p =>
    if p.isOpen pledges then
      match s with
      | .rejected _ => m.settle id s
      | .fulfilled v =>
        match m.thenOf v with
        | .throwing e => m.settle id (.rejected e)
        | .value f =>
          match m.heap.functionBody? f with
          | some body => m.leave id p v body
          | none => m.settle id s
    else m

/-- A new promise, settled from the start. -/
def settled (m : Machine) (s : Settlement) : EngineValue × Machine :=
  let fresh := m.alloc { kind := .promise {} }
  (fresh.1, fresh.2.resolve m.heap.next 0 s)

/-- A promise for a settlement. A promise in the place of a value stands for itself, as long as its
`constructor` is the one that promises have. -/
def promiseFor (m : Machine) (s : Settlement) : Completion × Machine :=
  let fresh := m.settled s
  match s with
  | .fulfilled (.ref id) =>
    if (m.heap.promise? id).isSome then
      match m.heap.get (.ref id) "constructor" with
      | .throwing e => (.thrown e, m)
      | .value (.native (.other "Promise" _)) => (.normal (.ref id), m)
      | .value _ => (.normal fresh.1, fresh.2)
    else (.normal fresh.1, fresh.2)
  | _ => (.normal fresh.1, fresh.2)

/-- Let a reaction wait for a promise in a known state. -/
def react (m : Machine) (id : Nat) (p : PromiseState) (r : Reaction) : Machine :=
  let heap := m.heap.setPromise id { p with handled := true }
  match p.settlement with
  | none => { m with heap, waiting := m.waiting ++ [(id, r)] }
  | some s =>
    { m with
      heap
      jobs := m.jobs ++ [.reaction r s]
      rejections := m.rejections ++
        match s, p.handled with
        | .rejected reason, false => [heap.rejection (.ref id) reason true]
        | _, _ => [] }

/-- Why no promise can be derived from a promise: its `constructor` throws, or is something but no
object. -/
def underivable? (m : Machine) (v : EngineValue) : Option EngineValue :=
  match m.heap.get v "constructor" with
  | .throwing e => some e
  | .value .undefined => none
  | .value c => if c.isObject then none else some (.error "not an object")

/-- Attach functions to a promise by its own function. The derived promise is the answer. -/
def attach (m : Machine) (v : EngineValue) (fulfilment rejection : Option FunctionBody) :
    Completion × Machine :=
  let expected : Completion × Machine := (.thrown (.error "Promise object expected"), m)
  match v with
  | .ref id =>
    match m.heap.promise? id, m.underivable? v with
    | some p, none =>
      let derived := m.alloc { kind := .promise {} }
      (.normal derived.1, derived.2.react id p { derived := m.heap.next, fulfilment, rejection })
    | some _, some e => (.thrown e, m)
    | none, _ => expected
  | _ => expected

/-- Let a promise follow another one to which it was left. -/
def follow (m : Machine) (id pledges other : Nat) : Machine :=
  match m.heap.promise? other, m.underivable? (.ref other) with
  | some p, none => m.react other p { derived := id, pledges }
  | some _, some e => m.resolve id pledges (.rejected e)
  | none, _ => m.resolve id pledges (.rejected (.error "Promise object expected"))

/-! ## Properties -/

/-- The array of a value's keys. -/
def keys (m : Machine) (v : EngineValue) : Completion × Machine :=
  match m.heap.keys? v with
  | none => (.thrown (.error "Cannot convert undefined or null to object"), m)
  | some names =>
    let r := m.alloc { kind := .ofValues (names.map .text) }
    (.normal r.1, r.2)

/-- The completion of what answers or throws. -/
def completion : Except EngineValue EngineValue → Completion
  | .ok v => .normal v
  | .error e => .thrown e

/-- The completion of reading a slot. -/
def slotCompletion : Slot → Completion
  | .value v => .normal v
  | .throwing v => .thrown v

/-- How script code names a property. -/
inductive Access where
  /-- By a value that is computed first. -/
  | computed
  /-- By a name in the code. -/
  | named

/-- Read a property of a value. An exception names the property only if the code does. -/
def property (m : Machine) (access : Access) (v : EngineValue) (key : EngineText) : Completion :=
  let refused : Completion := .thrown (.error ("cannot read property " ++
    (match access with
      | .computed => ""
      | .named => "'" ++ key.plain ++ "' ") ++ "of " ++ m.heap.typeName v))
  match v with
  | .undefined | .null => refused
  | _ => slotCompletion (m.heap.get v key)

end Machine

end HostBridge
