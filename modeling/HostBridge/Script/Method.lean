import HostBridge.Script.Grammar
import HostBridge.Script.Work

/-!
# Calling functions

A function is called on a value with arguments (`Script.callBody`). A function that a script wrote
runs its code with variables of its own, beside the names that were in sight where it was made. How
that is done is left open here (`Script.Runner`), since code in turn calls functions.

A function of the engine that is called on a value works on it. Those that make promises, attach
functions to them or queue jobs change the machine, and the one that takes a script runs it. Others
call no functions of scripts.
-/

namespace HostBridge

namespace Machine

/-- Run a part of the heap's work. -/
def withHeap (m : Machine) (r : Except EngineValue EngineValue × Heap) : Completion × Machine :=
  (completion r.1, { m with heap := r.2 })

/-- A function that a value without an object inherits, by its name. -/
def ofPrimitive? (v : EngineValue) (name : String) : Option EngineValue :=
  match v, name with
  | .symbol description, "toString" => some (.ofString ("Symbol(" ++ description ++ ")"))
  | .int _, "toString" | .float _, "toString" | .bool _, "toString" | .bigint _, "toString" =>
    (Heap.primitiveText v).toOption.map .text
  | .int _, "valueOf" | .float _, "valueOf" | .bool _, "valueOf" | .bigint _, "valueOf"
  | .symbol _, "valueOf" => some v
  | _, _ => none

/-- Make an object with a function of the engine that calls no others. -/
def constructNative (m : Machine) (name : String) (parameters : Nat) (args : List EngineValue) :
    Completion × Machine :=
  let first := args.headD .undefined
  let refused (message : String) : Completion × Machine := (.thrown (.error message), m)
  let made (n : Node) : Completion × Machine :=
    let r := m.alloc n
    (.normal r.1, r.2)
  let alone := m.withHeap (m.heap.callNative (.other name parameters) args)
  match name with
  | "Object" | "Array" | "Function" | "RegExp" | "AggregateError" => alone
  | "Symbol" | "BigInt" => refused "not a constructor"
  | "String" =>
    match args with
    | [] => made { kind := .text [] }
    | v :: _ =>
      match m.heap.text v with
      | .ok t => made { kind := .text t }
      | .error e => (.thrown e, m)
  | "Date" => made { kind := .date }
  | "Map" => made { kind := .map 0 }
  | "TypeError" =>
    match m.heap.toError first with
    | .ok (.error message) =>
      made { Node.ofMessage message with parent := some Standard.typeError.id }
    | .ok v => (.normal v, m)
    | .error e => (.thrown e, m)
  | _ =>
    if name ∈ Heap.makeErrors then alone
    else
      match Globals.constructors.lookup name with
      | some (_, s) => made { parent := some s.id }
      | none => refused (name ++ " is not a constructor")

/-- Put values at the end of an array. The answer is its new length. -/
def push (m : Machine) (id length : Nat) (args : List EngineValue) : EngineValue × Machine :=
  (.ofNat (length + args.length),
    { m with heap := m.heap.update id (args.foldl Node.push (m.heap.node id)) })

end Machine

namespace Script

open Work

/-- How code is run that has variables of its own: given the names of the place where it stands, and
the variables. -/
abbrev Runner := List (String × Nat) → List (String × Variable) → List Code → Work Ending

/-- Calls are inside each other without an end. -/
def overflow {α : Type} : Work α := refuse "Maximum call stack size exceeded"

section Calls

variable (runs : Runner)

/-- Run a script that a function was given. Where the code of a script says so itself, the names in
sight are in sight in the script too, and all that it declares is its own; else what it declares for
all code stays. -/
def runSource (direct : Bool) (source : String) : Work EngineValue :=
  match parse source with
  | .error f => refuse f.message
  | .ok body => do
    if direct then
      return (← runs (← get).names (undeclared body ++ locals [] body) body).result
    else
      declareGlobals (globalsOf body)
      return (← runs [] (undeclared body) body).result

/-- Run the script in a text of the engine. -/
def runText (direct : Bool) (t : EngineText) : Work EngineValue :=
  match t.decode with
  | .ok source => runSource runs direct source
  | .error _ => refuse SyntaxFault.strayCharacter.message

/-- Call a function of the engine on a value, or on nothing, which is undefined. -/
def callNative (receiver : EngineValue) (f : Native) (args : List EngineValue) :
    Work EngineValue :=
  let first := args.headD .undefined
  let alone : Work EngineValue := ofRun fun m => m.withHeap (m.heap.callNative f args)
  match receiver, f with
  | _, .other "queueMicrotask" _ => do
    match ← bodyOf? first with
    | some body =>
      modify fun m => m.queue body
      return .undefined
    | none => refuse "not a function"
  | _, .other "eval" _ =>
    match first with
    | .text t => runText runs false t
    | v => return v
  -- only a promise whose `then` is this function gets here, and calls it again and again
  | _, .attachRejectionHandler => overflow
  | .undefined, _ => alone
  | v, .attachHandlers => do
    let fulfilment ← bodyOf? first
    let rejection ← bodyOf? (args.getD 1 .undefined)
    ofRun fun m => m.attach v fulfilment rejection
  | .native (.other "Promise" _), .member "Promise" "resolve" _ =>
    ofRun fun m => m.promiseFor (.fulfilled first)
  | .native (.other "Promise" _), .member "Promise" "reject" _ =>
    ofRun fun m => m.promiseFor (.rejected first)
  | .text t, .heldText => return .text t
  | _, .other _ _ => alone
  | v, .member "Object" "hasOwnProperty" _ =>
    ask fun h => (h.text first).map fun t => .bool (h.hasOwn v t)
  | .ref id, .member "Array" "push" _ => do
    match ((← get).heap.node id).kind with
    | .array _ length => ofRun fun m =>
      let r := m.push id length args
      (.normal r.1, r.2)
    | _ => alone
  | v, .member _ name _ =>
    match Machine.ofPrimitive? v name with
    | some a => return a
    | none => alone
  | v, f => ask fun h => h.respond h.text v (.native f)

/-- Call a function on a value, without asking for another function first. -/
def callAlone (receiver : EngineValue) (body : FunctionBody) (args : List EngineValue) :
    Work EngineValue :=
  let first := args.headD .undefined
  match body with
  | .closure c => do
    return (← runs c.names (frame c receiver args) c.body).value
  | .identity => return first
  | .arguments => make { kind := .ofValues args }
  | .count => return .int (Int32.ofNat args.length)
  | .throw => throw first
  | .typeof => ask fun h => .ok (.ofString (h.typeof first))
  | .keys => ofRun fun m => m.keys first
  | .reject => ofRun fun m => (.normal (.ofString "rejected"), (m.settled (.rejected first)).2)
  | .job => ofRun fun m => (.normal .undefined, m.queue (.handler { tag := m.heap.text? first }))
  | .one _ => return .int 1
  | .handler h => ofRun fun m => (h.ending, m.logTag h)
  | .settle id pledges rejects => ofRun fun m =>
    (.normal .undefined,
      m.resolve id pledges (if rejects then .rejected first else .fulfilled first))
  | .native f => callNative runs receiver f args
  | .classFactory => refuse "class constructors must be invoked with 'new'"

/-- Call a function on a value. The function that attaches a handler for rejections does so by the
value's `then`. -/
def callBody (receiver : EngineValue) (body : FunctionBody) (args : List EngineValue) :
    Work EngineValue :=
  match body with
  | .native .attachRejectionHandler => do
    match ← bodyOf? (← readProperty .named receiver "then") with
    | some body => callAlone runs receiver body [.undefined, args.headD .undefined]
    | none => refuse "not a function"
  | body => callAlone runs receiver body args

/-- Call a value on another. -/
def invoke (receiver f : EngineValue) (args : List EngineValue) : Work EngineValue := do
  match ← bodyOf? f with
  | some body => callBody runs receiver body args
  | none => refuse "not a function"

/-! ## Constructing -/

/-- The two functions that settle a promise which was left so often. -/
def settlers (id pledges : Nat) : Work (List EngineValue) := do
  let resolve ← make (.ofBody (.settle id pledges false))
  let reject ← make (.ofBody (.settle id pledges true))
  return [resolve, reject]

/-- Let a function settle a promise that was left so often. An exception is the reason of a
rejection. -/
def entrust (id pledges : Nat) (receiver : EngineValue) (body : FunctionBody) : Work Unit :=
  tryCatch
    (do
      let fs ← settlers id pledges
      let _ ← callBody runs receiver body fs)
    fun e => modify fun m => m.resolve id pledges (.rejected e)

/-- Make a promise that a function settles. -/
def constructPromise (executor : EngineValue) : Work EngineValue := do
  match ← bodyOf? executor with
  | none => refuse "not a function"
  | some body =>
    let id := (← get).heap.next
    let p ← make { kind := .promise {} }
    entrust runs id 0 .undefined body
    return p

/-- A new object that inherits from the `prototype` of a function. -/
def inheriting (f : EngineValue) : Work EngineValue := do
  match ← readProperty .named f "prototype" with
  | .ref id => make { parent := some id }
  | _ => make {}

/-- Make an object with a function. -/
def construct (f : EngineValue) (args : List EngineValue) : Work EngineValue := do
  match ← bodyOf? f with
  | none => refuse (if f.isObject then "not a constructor" else "not a function")
  | some (.native (.other "Promise" _)) => constructPromise runs (args.headD .undefined)
  | some (.native (.other name parameters)) => ofRun fun m => m.constructNative name parameters args
  | some (.native f) => refuse (f.signature.1 ++ " is not a constructor")
  | some body =>
    if body.constructs then
      let made ← inheriting f
      match body with
      | .classFactory => return made
      | body =>
        let v ← callBody runs made body args
        return if v.isObject then v else made
    else refuse "not a constructor"

end Calls

end Script

end HostBridge
