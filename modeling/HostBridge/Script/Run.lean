import HostBridge.Script.Evaluation

/-!
# Running scripts and jobs

Statements run one after the other. The value of a script is that of its last statement, and an
exception ends it. A job calls a function; only the exception of a function that was queued by
itself makes its job fail, others become reasons of rejections.
-/

namespace HostBridge

namespace Script

open Work

/-- Store a value as a global. It is also the value of the statement. -/
def keep (name : String) (v : EngineValue) : Work EngineValue := do
  writeGlobal name v
  return v

/-- Run a statement. -/
def step : Statement → Work EngineValue
  | .store name v => keep name v
  | .value v => return v
  | .read name none => readGlobal name
  | .read name (some key) => do readProperty .computed (← readGlobal name) key
  | .keys name => do
    let v ← readGlobal name
    ofRun fun m => m.keys v
  | .log tag => ofRun fun m => (.normal .undefined, { m with tags := m.tags ++ [tag] })
  | .throw v => throw v
  | .settled (some name) s => do keep name (← ofRun fun m => m.promiseFor s)
  | .settled none s => ofRun fun m => m.promiseFor s
  | .pending name => do
    let id := (← get).heap.next
    let p ← make { kind := .promise {} }
    modify fun m => { m with resolvers := m.resolvers.put name id }
    keep name p
  | .settle promise s => do
    match (← get).resolvers.get? promise with
    | some id => ofRun fun m => (.normal .undefined, m.resolve id 0 s)
    | none => refuse "cannot read property of undefined"
  | .attach name promise branch handler => do
    let v ← readGlobal promise
    let f ← readProperty .named v branch.method
    let h ← make (.ofBody (.handler handler))
    keep name (← invoke runs v f [h])
  | .microtask handler => ofRun fun m => (.normal .undefined, m.queue (.handler handler))
  | .function name body => do keep name (← make (.ofBody body))
  | .code body => runCode body

/-- Run statements one after the other, with the value of the one before. -/
def runFrom (v : EngineValue) : Script → Work EngineValue
  | [] => return v
  | s :: rest => do runFrom (← step s) rest

/-- How a reaction settles the derived promise. -/
def derive (r : Reaction) (s : Settlement) : Work Settlement :=
  match r.handler? s with
  | none => return s
  | some body => do
    match ← attempt (callBody runs .undefined body [s.value]) with
    | .ok v => return .fulfilled v
    | .error e => return .rejected e

/-- Run a job that was taken off the queue. -/
def runJob : Job → Work Unit
  | .direct body => do let _ ← callBody runs .undefined body []
  | .reaction r s => do
    let derived ← derive r s
    modify fun m => m.resolve r.derived r.pledges derived
  | .pledge id pledges v body =>
    match v, body with
    | .ref other, .native .attachHandlers => modify fun m => m.follow id pledges other
    | v, body => entrust runs id pledges v body

end Script

namespace Machine

/-- Run a script. Its value is that of its last statement, undefined for the empty script. -/
def run (m : Machine) (script : Script) : Option (Completion × Machine) :=
  (Script.runFrom .undefined script).complete m

/-- Call a function from outside. -/
def call (m : Machine) (body : FunctionBody) (args : List EngineValue) :
    Option (Completion × Machine) :=
  (Script.callBody Script.runs .undefined body args).complete m

/-- Run a job that was taken off the queue. The answer is the exception of a job that fails. -/
def runJob (m : Machine) (j : Job) : Option (Option EngineValue × Machine) :=
  ((Script.runJob j).run m).map fun r =>
    (match r.1 with
      | .ok _ => none
      | .error e => some e, r.2)

end Machine

end HostBridge
