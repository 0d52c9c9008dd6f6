import HostBridge.Script.Method

/-!
# Running code

What expressions and code do on a machine, by recursion on the code. Where code calls a function, a
runner runs the code of that function (`Script.evaluate`, `Script.run`). The runner that is used in
the end (`Script.runner`) runs code that has a runner for one call less inside each other; when none
is left the call is an exception, which scripts can catch.

An expression that can be assigned is a reference first (`Script.Reference`), so what it is made of
is looked at once, whether it is read, called, assigned or all of these.
-/

namespace HostBridge.Script

open Work

section

variable (runs : Runner)

/-! ## Conversions -/

/-- What a function says when an object is asked for a value that is no object. -/
def say (v : EngineValue) : FunctionBody → Work EngineValue
  | .closure c => callBody runs v (.closure c) []
  | body => ask fun h => h.respond h.text v body

/-- The value that is no object and stands for an object that is asked under names, one after the
other. -/
def primitiveBy (v : EngineValue) : List String → Work EngineValue
  | [] => refuse "toPrimitive"
  | name :: names => do
    match ← bodyOf? (← readProperty .named v name) with
    | none => primitiveBy v names
    | some body =>
      let a ← say runs v body
      if a.isObject then primitiveBy v names else return a

/-- The names under which an object is asked for a text. -/
def forText : List String := ["toString", "valueOf"]

/-- The names under which an object is asked for a number. -/
def forNumber : List String := ["valueOf", "toString"]

/-- The value that is no object and stands for a value. -/
def primitive (names : List String) (v : EngineValue) : Work EngineValue :=
  if v.isObject then primitiveBy runs v names else return v

/-- The value that is no object and stands for a value where neither a text nor a number is asked
for. -/
def primitiveOf (v : EngineValue) : Work EngineValue := do
  primitive runs (if (← get).heap.className v = "Date" then forText else forNumber) v

/-- The text of a value. -/
def text (v : EngineValue) : Work EngineText := do
  let v ← primitive runs forText v
  ask fun h => h.text v

/-- The name that a value is as a key. -/
def key (v : EngineValue) : Work EngineText :=
  match v with
  | .symbol description => return "Symbol(" ++ description ++ ")"
  | v => text runs v

/-- The value to which an operator that stands before a value is applied. -/
def operand (op : UnaryOp) (v : EngineValue) : Work EngineValue :=
  match op with
  | .plus | .minus | .invert => primitive runs forNumber v
  | .not | .typeof | .void => return v

/-- The answer of an operator before a value. -/
def applyUnary (op : UnaryOp) (v : EngineValue) : Work EngineValue := do
  let v ← operand runs op v
  ask fun h => h.unary op v

/-- An object is converted to be compared with this value. -/
def isScalar : EngineValue → Bool
  | .undefined | .null => false
  | v => !v.isObject

/-- The values to which an operator between two values is applied. -/
def operands (op : BinaryOp) (a b : EngineValue) : Work (EngineValue × EngineValue) := do
  match op with
  | .arithmetic _ | .bits _ | .order _ =>
    let x ← primitive runs forNumber a
    let y ← primitive runs forNumber b
    return (x, y)
  | .add =>
    let x ← primitiveOf runs a
    let y ← primitiveOf runs b
    return (x, y)
  | .equal _ =>
    -- an object is converted if the other value is none
    if isScalar b then return (← primitiveOf runs a, b)
    else if isScalar a then return (a, ← primitiveOf runs b)
    else return (a, b)
  | .within => if b.isObject then return (← primitive runs forText a, b) else return (a, b)
  | .same _ | .instanceOf => return (a, b)

/-- The answer of an operator between two values. -/
def applyBinary (op : BinaryOp) (a b : EngineValue) : Work EngineValue := do
  let (a, b) ← operands runs op a b
  ask fun h => h.binary op a b

/-- The first value is enough for the operator. -/
def isEnough (op : LogicalOp) (v : EngineValue) : Bool :=
  match op, v with
  | .and, v => !v.isTruthy
  | .or, v => v.isTruthy
  | .orElse, .undefined | .orElse, .null => false
  | .orElse, _ => true

/-! ## References -/

/-- What an expression refers to: something that can be assigned, or only a value. -/
inductive Reference where
  | name (x : String)
  | global (key : EngineText)
  | property (v : EngineValue) (key : String)
  | item (v key : EngineValue)
  | value (v : EngineValue)

namespace Reference

/-- The value on which a function is called that is read there. -/
def receiver : Reference → EngineValue
  | property v _ | item v _ => v
  | _ => .undefined

/-- Read what is referred to. -/
def fetch : Reference → Work EngineValue
  | name x => lookup x
  | global key => readGlobal key
  | property v key => readProperty .named v key
  | item .undefined _ => readProperty .computed .undefined []
  | item .null _ => readProperty .computed .null []
  | item v k => do readProperty .computed v (← key runs k)
  | value v => return v

/-- Assign what is referred to. -/
def assign (v : EngineValue) : Reference → Work Unit
  | name x => assignName x v
  | global key => writeGlobal key v
  | property target key => write target key v
  | item target k => do write target (← key runs k) v
  | value _ => refuse SyntaxFault.badTarget.message

/-- Remove what is referred to. -/
def remove : Reference → Work EngineValue
  | global key => removeGlobal key
  | property target key => Work.remove target key
  | item target k => do Work.remove target (← key runs k)
  | name _ | value _ => return .bool true

end Reference

/-- The property of an expression's value. -/
def member (e : Expr) (v : Work EngineValue) (key : String) : Work Reference := do
  if ← isGlobalObject e then return .global key else return .property (← v) key

/-- The item of an expression's value. -/
def itemOf (e : Expr) (v k : Work EngineValue) : Work Reference := do
  if ← isGlobalObject e then return .global (← key runs (← k))
  else
    let v ← v
    return .item v (← k)

/-- Call what is referred to. -/
def callAt (target : Work Reference) (args : Work (List EngineValue)) : Work EngineValue := do
  let r ← target
  let f ← r.fetch runs
  let args ← args
  invoke runs r.receiver f args

/-- Assign what is referred to. -/
def assignAt (target : Work Reference) (value : Work EngineValue) : Work EngineValue := do
  let r ← target
  let v ← value
  r.assign runs v
  return v

/-- Assign what an operator makes of what is referred to. -/
def updateAt (target : Work Reference) (op : Operation) (value : Work EngineValue) :
    Work EngineValue := do
  let r ← target
  let before ← r.fetch runs
  match op with
  | .binary op =>
    let v ← value
    let after ← applyBinary runs op before v
    r.assign runs after
    return after
  | .logical op =>
    if isEnough op before then return before
    else
      let v ← value
      r.assign runs v
      return v

/-- The number of a value, and one of the same kind. -/
def numberAndOne (v : EngineValue) : Work (EngineValue × EngineValue) := do
  match ← primitive runs forNumber v with
  | .bigint n => return (.bigint n, .bigint 1)
  | v => return (← ask fun h => h.unary .plus v, .int 1)

/-- Assign the number that is referred to changed by one. -/
def stepAt (target : Work Reference) (op : BinaryOp) (after : Bool) : Work EngineValue := do
  let r ← target
  let v ← r.fetch runs
  let (before, one) ← numberAndOne runs v
  let changed ← ask fun h => h.binary op before one
  r.assign runs changed
  return if after then changed else before

/-! ## Functions and loops -/

/-- Make a function. One that constructs comes with the object from which what it constructs
inherits. -/
def makeFunction (parameters : List String) (body : List Code) (constructible : Bool) :
    Work EngineValue := do
  let m ← get
  let f : FunctionBody := .closure ⟨parameters, body, constructible, m.names⟩
  if constructible then
    let made ← make { props := [("constructor", .hidden (.ref (m.heap.next + 1)))] }
    make (.ofBody f made)
  else make (.ofBody f)

/-- One time of a loop: the test, unless it is left out this time, then the code, and a step. The
loop goes on with the value of the code, or it ends. -/
def turn (renewed : List String) (test : Work Bool) (body : Work Ending) (step : Work Unit)
    (testNow : Bool) (v : Option EngineValue) :
    Work ((Bool × Option EngineValue) ⊕ Ending) := do
  if ← (if testNow then test else return true) then
    match (← body).after v with
    | .answer w => return .inr (.answer w)
    | .leave false w => return .inr (.next w)
    | .leave true w | .next w =>
      modify fun m => renewed.foldl Machine.renew m
      step
      return .inl (true, w)
  else return .inr (.next v)

/-- The parts of a text with values between them. -/
def fill : List EngineText → List EngineText → EngineText
  | t :: ts, v :: vs => EngineText.append t (EngineText.append v (fill ts vs))
  | t :: _, [] => t
  | [], _ => []

/-! ## Expressions -/

mutual

/-- The value of an expression. -/
def evaluate : Expr → Work EngineValue
  | .literal v => return v
  | .name x => lookup x
  | .property e key => do (← member e (evaluate e) key).fetch runs
  | .item e k => do (← itemOf runs e (evaluate e) (evaluate k)).fetch runs
  | .optional e key => do
    match ← evaluate e with
    | .undefined | .null => return .undefined
    | v => readProperty .named v key
  | .unary .typeof (.name x) => do
    if ← isKnown x then applyUnary runs .typeof (← lookup x) else return .ofString "undefined"
  | .unary op e => do
    let v ← evaluate e
    applyUnary runs op v
  | .delete e k => do (← itemOf runs e (evaluate e) (evaluate k)).remove runs
  | .binary op a b => do
    let x ← evaluate a
    let y ← evaluate b
    applyBinary runs op x y
  | .logical op a b => do
    let v ← evaluate a
    if isEnough op v then return v else evaluate b
  | .conditional test yes no => do
    if (← evaluate test).isTruthy then evaluate yes else evaluate no
  | .sequence a b => do
    let _ ← evaluate a
    evaluate b
  | .template texts es => do
    let vs ← evaluateAll es
    return .text (fill texts (← vs.mapM (text runs)))
  | .array items => do
    let items ← evaluateItems items
    make { kind := .array items items.length }
  | .hole => return .undefined
  | .object entries => do make (← evaluateEntries {} entries)
  | .entry _ e => evaluate e
  | .regexp source flags => make { kind := .regexp source flags }
  | .function parameters body constructible => makeFunction parameters body constructible
  | .call (.name "eval") args => do
    let f ← lookup "eval"
    let args ← evaluateAll args
    match ← bodyOf? f, args with
    | some (.native (.other "eval" _)), .text t :: _ => runText runs true t
    | _, args => invoke runs .undefined f args
  | .call (.property e key) args => callAt runs (member e (evaluate e) key) (evaluateAll args)
  | .call (.item e k) args =>
    callAt runs (itemOf runs e (evaluate e) (evaluate k)) (evaluateAll args)
  | .call f args => callAt runs (do return .value (← evaluate f)) (evaluateAll args)
  | .construct f args => do
    let f ← evaluate f
    let args ← evaluateAll args
    construct runs f args
  | .assign (.name x) e => assignAt runs (return .name x) (evaluate e)
  | .assign (.property e key) value => assignAt runs (member e (evaluate e) key) (evaluate value)
  | .assign (.item e k) value =>
    assignAt runs (itemOf runs e (evaluate e) (evaluate k)) (evaluate value)
  | .assign _ e => assignAt runs (return .value .undefined) (evaluate e)
  | .update (.name x) op e => updateAt runs (return .name x) op (evaluate e)
  | .update (.property e key) op value =>
    updateAt runs (member e (evaluate e) key) op (evaluate value)
  | .update (.item e k) op value =>
    updateAt runs (itemOf runs e (evaluate e) (evaluate k)) op (evaluate value)
  | .update _ op e => updateAt runs (return .value .undefined) op (evaluate e)
  | .step (.name x) op after => stepAt runs (return .name x) op after
  | .step (.property e key) op after => stepAt runs (member e (evaluate e) key) op after
  | .step (.item e k) op after =>
    stepAt runs (itemOf runs e (evaluate e) (evaluate k)) op after
  | .step _ op after => stepAt runs (return .value .undefined) op after

/-- The values of expressions, one after the other. -/
def evaluateAll : List Expr → Work (List EngineValue)
  | [] => return []
  | e :: es => do
    let v ← evaluate e
    let vs ← evaluateAll es
    return v :: vs

/-- The items of an array, some of which may be left out. -/
def evaluateItems : List Expr → Work (List (Option Property))
  | [] => return []
  | .hole :: es => do
    let vs ← evaluateItems es
    return none :: vs
  | e :: es => do
    let v ← evaluate e
    let vs ← evaluateItems es
    return some (.plain v) :: vs

/-- An object with further entries. The name of the parent sets the object from which the object
inherits. -/
def evaluateEntries (n : Node) : List Expr → Work Node
  | [] => return n
  | .entry (.literal (.text name)) e :: es => do
    let v ← evaluate e
    if name = parentName then
      let m ← get
      let (n, heap) := m.heap.setParent n v
      set { m with heap }
      evaluateEntries n es
    else evaluateEntries (n.define name (.plain v)) es
  | .entry k e :: es => do
    let k ← evaluate k
    let name ← key runs k
    let v ← evaluate e
    evaluateEntries (n.define name (.plain v)) es
  | _ :: es => evaluateEntries n es

end

/-! ## Code -/

mutual

/-- Run a piece of code. -/
def run : Code → Work Ending
  | .expression e => do
    let v ← evaluate runs e
    return .next (some v)
  | .throw e => do
    let v ← evaluate runs e
    throw v
  | .answer e => do
    let v ← evaluate runs e
    return .answer v
  | .declare kind name e => do
    let v ← evaluate runs e
    declare kind name v
    return .next none
  | .branch test yes no => do
    let v ← evaluate runs test
    return (← (if v.isTruthy then run yes else run no)).after (some .undefined)
  | .block body => withNames (undeclared body) (runAll none body)
  | .loop testFirst renewed test body step =>
    let test : Work Bool := do return (← evaluate runs test).isTruthy
    let step : Work Unit := do let _ ← evaluate runs step
    again (fun b => turn renewed test (run body) step b.1 b.2) (testFirst, some .undefined)
  | .leaveLoop => return .leave false none
  | .nextTime => return .leave true none
  | .rescue body parameter handler => do
    let ending ← tryCatch (withNames (undeclared body) (runAll none body)) fun e =>
      let names := parameter.toList.map fun x => (x, { value := some e : Variable })
      withNames (undeclared handler ++ names) (runAll none handler)
    return ending.after (some .undefined)
  | .ensure body after => do
    let r ← attempt (withNames (undeclared body) (runAll none body))
    match ← withNames (undeclared after) (runAll none after) with
    | .next _ => return (← ofExcept r).after (some .undefined)
    | ending => return ending

/-- Run pieces of code, with the value of those before. -/
def runAll (v : Option EngineValue) : List Code → Work Ending
  | [] => return .next v
  | c :: cs => do
    match (← run c).after v with
    | .next w => runAll w cs
    | ending => return ending

end

end

/-! ## The runner -/

/-- The most calls inside each other. -/
def maxCalls : Nat := 1000

/-- Run code with variables of its own and so many calls inside each other. -/
def runner : Nat → Runner
  | 0 => fun _ _ _ => overflow
  | calls + 1 => fun names new body => inScope names new (runAll (runner calls) none body)

/-- The runner of a machine. -/
def runs : Runner := runner maxCalls

/-- Run the outermost code of a text. The names that it declares stay. -/
def runCode (body : List Code) : Work EngineValue := do
  declareNames body
  return (← runAll runs none body).result

end HostBridge.Script
