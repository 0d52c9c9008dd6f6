import HostBridge.Engine.Snapshot
import HostBridge.File
import HostBridge.Script.Engine

/-!
# The script runtime

A machine with the engine that works on it, a rejection callback and a switch that says whether
evaluations run the job queue afterwards. Each operation answers, leaves a runtime and emits events.
One that never comes to an end has an error of its own in the place of an answer
(`ScriptError.unending`), and nothing is known of the runtime after it.

An evaluation that throws, or whose value cannot be copied out, ends there and leaves the queue as
it is. Otherwise the value is copied out first and the queue is run after that; a job that fails
replaces the value.
-/

namespace HostBridge

/-- Why a runtime operation fails. -/
inductive ScriptError where
  | engine (e : EngineError)
  /-- A script threw; the exception's text. -/
  | exception (text : String)
  | file (e : FileError)
  /-- A queued job threw; the exception's text. -/
  | job (text : String)
  | invoke (e : InvokeError)
  /-- The operation never comes to an end, so nobody is ever told of this. -/
  | unending

namespace ScriptError

/-- The text of a script error. -/
def message : ScriptError → String
  | engine e => "script engine error: " ++ e.message
  | exception text => "uncaught exception: " ++ text
  | file e => "failed to read script: " ++ e.message
  | job text => "pending job failed: " ++ text
  | invoke e => e.message
  | unending => "the operation does not come to an end"

/-- The name of the kind of error. -/
def cause : ScriptError → String
  | engine _ => "Engine"
  | exception _ => "Exception"
  | file _ => "Io"
  | job _ => "Job"
  | invoke e => "Invoke::" ++ e.cause
  | unending => "Unending"

end ScriptError

/-- What reading a script file gives: the script in it, unless the file cannot be read or the engine
does not take the text. -/
abbrev ScriptFile := Except FileError (Except EngineError Script)

/-- A machine and the engine that works on it, the callback that is told of rejections, and whether
evaluations run the queue. -/
structure Runtime (σ : Type) where
  engine : Engine := .interpreter
  machine : Machine := {}
  callback : Option (Callback σ) := none
  drainsJobs : Bool := true

/-- What a runtime operation does. -/
structure Ran (σ α : Type) where
  result : Except ScriptError α
  runtime : Runtime σ
  events : List Event := []

/-- An operation that never comes to an end. -/
def Ran.unending {σ α : Type} (r : Runtime σ) : Ran σ α := ⟨.error .unending, r, []⟩

namespace Runtime

variable {σ α : Type}

/-- Install a callback, or remove the present one. -/
def setCallback (r : Runtime σ) (callback : Option (Callback σ)) : Runtime σ × List Event :=
  ({ r with callback },
    [{ level := .debug, target := .runtime, message := "promise rejection tracker updated",
       fields := [("installed", .flag callback.isSome)] }])

/-- Tell a callback of events, one after the other. -/
def tell (l : Listener σ) (c : Callback σ) : List RejectionEvent → Callback σ × List Event
  | [] => (c, [])
  | e :: es =>
    let first := c.track l e
    let rest := tell l first.1 es
    (rest.1, first.2 ++ rest.2)

/-- Go on with a machine, telling the callback of the transitions it wrote down. -/
def adopt (l : Listener σ) (r : Runtime σ) (m : Machine) : Runtime σ × List Event :=
  let machine := { m with rejections := [] }
  match r.callback with
  | none => ({ r with machine }, [])
  | some c =>
    let told := tell l c m.rejections
    ({ r with machine, callback := some told.1 }, told.2)

/-- Run queued jobs until the queue is empty. The answer is the number of jobs run. -/
def runJobs (l : Listener σ) (r : Runtime σ) : Ran σ Nat :=
  match r.engine.drain r.machine with
  | none => .unending r
  | some d =>
    let (r, told) := r.adopt l d.machine
    match d.failure with
    | some (_, v) =>
      let text := d.machine.heap.describe v
      ⟨.error (.job text), r, told ++ [{ level := .warn, target := .runtime, message := text }]⟩
    | none =>
      let n := d.completed.length
      ⟨.ok n, r, told ++
        if n = 0 then []
        else
          [{ level := .trace, target := .runtime, message := "drained pending jobs",
             fields := [("executed", .count n)] }]⟩

/-- Finish an operation that has its answer: run the queue if evaluations do. -/
def finish (l : Listener σ) (r : Runtime σ) (a : α) : Ran σ α :=
  if r.drainsJobs then
    let d := r.runJobs l
    ⟨d.result.map fun _ => a, d.runtime, d.events⟩
  else ⟨.ok a, r, []⟩

/-- Take the value of script code that has run, and finish. -/
def conclude (l : Listener σ) (r : Runtime σ) (ran : Option (Completion × Machine))
    (take : Heap → EngineValue → Except EngineError α) : Ran σ α :=
  match ran with
  | none => .unending r
  | some (completion, m) =>
    let (r, told) := r.adopt l m
    match completion with
    | .thrown v => ⟨.error (.exception (m.heap.describe v)), r, told⟩
    | .normal v =>
      match take m.heap v with
      | .error e => ⟨.error (.engine e), r, told⟩
      | .ok a =>
        let f := r.finish l a
        { f with events := told ++ f.events }

/-- Run a script. -/
def execute (l : Listener σ) (r : Runtime σ) (script : Script) : Ran σ Unit :=
  r.conclude l (r.engine.run r.machine script) fun _ _ => .ok ()

/-- Run a script and copy its value out. -/
def eval (l : Listener σ) (r : Runtime σ) (mode : ConversionMode) (script : Script) :
    Ran σ Value :=
  r.conclude l (r.engine.run r.machine script) fun h v => h.copyOut mode v

/-- Run the script in a file. -/
def executeFile (l : Listener σ) (r : Runtime σ) (path : String)
    (content : ScriptFile) : Ran σ Unit :=
  match content with
  | .error e => ⟨.error (.file e), r, []⟩
  | .ok content =>
    let ran := match content with
      | .ok script => r.execute l script
      | .error e => ⟨.error (.engine e), r, []⟩
    { ran with events := { level := .info, target := .runtime, message := "executing script file",
                           fields := [("path", .plain path)] } :: ran.events }

/-- Call a global function and copy its answer out. -/
def call (l : Listener σ) (r : Runtime σ) (name : String) (args : List Value) : Ran σ Value :=
  let m := r.machine
  match m.global name with
  | .throwing _ => ⟨.error (.engine .thrown), r, []⟩
  | .value f =>
    match m.heap.functionBody? f with
    | none => ⟨.error (.engine (.notFunction (m.heap.typeName f))), r, []⟩
    | some body =>
      let copied := m.heap.copyInItems args
      r.conclude l (r.engine.call { m with heap := copied.2 } body copied.1)
        fun h v => h.copyOut .transparent v

/-- Show a bound instance to scripts as a global. -/
def expose {κ : Type} [HostTypes κ] [DecidableEq κ] (r : Runtime σ) (name : String)
    (b : Binding κ) (o : Object κ) : Ran σ Unit :=
  let shown := r.machine.heap.copyInstance b o
  match shown.result with
  | .error e => ⟨.error (.invoke e), r, shown.events⟩
  | .ok (v, heap) =>
    match Machine.store { r.machine with heap } name v with
    | .ok machine => ⟨.ok (), { r with machine }, shown.events⟩
    | .error _ => ⟨.error (.engine .thrown), r, shown.events⟩

/-- The tags logged since they were last collected. -/
def collectTags (r : Runtime σ) : List String × Runtime σ :=
  (r.machine.tags, { r with machine := { r.machine with tags := [] } })

end Runtime

end HostBridge
