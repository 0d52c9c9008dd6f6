import HostBridge.Engine.Assign
import HostBridge.Engine.Calculation
import HostBridge.Text.Percent

/-!
# Calling functions of the engine

What the functions of the engine answer when they are called by themselves, so without an object on
which they could work (`Heap.callNative`). The functions that make objects of the simple kinds
convert their first argument; those that only construct refuse the call, and so does whatever needs
an object.
-/

namespace HostBridge.Heap

/-- The functions that make objects only when they construct. -/
def onlyConstruct : List String :=
  [ "Promise", "Proxy", "Map", "Set", "WeakMap", "WeakSet", "ArrayBuffer", "SharedArrayBuffer",
    "DataView" ] ++
  Globals.itemSizes.map (·.1)

/-- The functions that make objects only when they construct, and say so in other words. -/
def requireNew : List String := ["Iterator", "WeakRef", "FinalizationRegistry"]

/-- The functions that make errors. -/
def makeErrors : List String :=
  [ "Error", "EvalError", "RangeError", "ReferenceError", "SyntaxError", "TypeError", "URIError",
    "InternalError" ]

/-- An exception with a message. -/
def refuse {α : Type} (message : String) : Except EngineValue α := .error (.error message)

/-- The exception of a function that needs an object. -/
def needsObject {α : Type} : Except EngineValue α :=
  refuse "Cannot convert undefined or null to object"

/-- The text of a value, with lone halves left out. -/
def plainText (h : Heap) (v : EngineValue) : Except EngineValue String :=
  (h.text v).map EngineText.plain

/-- The value as an object. -/
def toObject (h : Heap) : EngineValue → EngineValue × Heap
  | .undefined | .null => h.alloc {}
  | .text t => h.alloc { kind := .text t }
  | v =>
    match v.isObject, standardOf v with
    | false, some s => h.alloc { parent := some s.id }
    | _, _ => (v, h)

/-- The array that the function for arrays makes of its arguments: of a given length for a number,
or of the arguments. -/
def toArray (h : Heap) (args : List EngineValue) : Except EngineValue EngineValue × Heap :=
  let made (n : Node) := (Except.ok (h.alloc n).1, (h.alloc n).2)
  let refused := (refuse "invalid array length", h)
  match args with
  | [.int n] => if 0 ≤ n then made { kind := .array [] n.toInt.toNat } else refused
  | [.float d] =>
    match d.toInt? with
    | some n => if 0 ≤ n ∧ n < Int.pow 2 32 then made { kind := .array [] n.toNat } else refused
    | none => refused
  | args => made { kind := .ofValues args }

/-- The big integer that a value is converted to. -/
def toBigInteger (h : Heap) (v : EngineValue) : Except EngineValue EngineValue := do
  let read (n : Option Int) (message : String) : Except EngineValue EngineValue :=
    match n with
    | some n => .ok (.bigint n)
    | none => refuse message
  match ← h.numeric v with
  | .bigint n => .ok (.bigint n)
  | .bool b => .ok (.bigint b.toNat)
  | .int i => .ok (.bigint i.toInt)
  | .float d => read d.toInt? "cannot convert to BigInt: not an integer"
  | .text t => read (t.decode.toOption.bind Numeral.bigInteger?) "invalid BigInt literal"
  | _ => refuse "cannot convert to BigInt"

/-- The integer at the front of a text, in a radix that is a number. -/
def toInteger (radix : Double) (s : String) : Double :=
  let radix := radix.toInt32.toInt
  if radix = 0 ∨ (2 ≤ radix ∧ radix ≤ 36) then Numeral.leadingInteger radix.toNat s else .nan

/-- The values of a value that is gone through from one to the next. -/
def iterable (h : Heap) (v : EngineValue) : Except EngineValue Unit :=
  match v with
  | .undefined | .null => refuse ("cannot read property 'Symbol.iterator' of " ++ h.typeName v)
  | .text _ => .ok ()
  | .ref id =>
    match (h.node id).kind with
    | .array _ _ | .map _ | .text _ | .bytes _ => .ok ()
    | _ => refuse "value is not iterable"
  | _ => refuse "value is not iterable"

/-- The error that a function makes of a message, which may be missing. -/
def toError (h : Heap) : EngineValue → Except EngineValue EngineValue
  | .undefined => .ok (.error "")
  | v => (h.plainText v).map .error

/-- What percent escapes are read as. -/
def decoded (kept : Char → Bool) (s : String) : Except EngineValue EngineValue :=
  match Percent.decode kept s.toList with
  | .ok cs => .ok (.ofString (String.ofList cs))
  | .error .noPercent => refuse "expecting %"
  | .error .noDigit => refuse "expecting hex digit"
  | .error .malformed => refuse "malformed UTF-8"

/-- The answer of a function that only reads its arguments, by its name. -/
def readNative (h : Heap) (name : String) (args : List EngineValue) :
    Except EngineValue EngineValue :=
  let first := args.headD .undefined
  let second := args.getD 1 .undefined
  match name with
  | "String" =>
    match args with
    | [] => .ok (.ofString "")
    | .symbol description :: _ => .ok (.ofString ("Symbol(" ++ description ++ ")"))
    | v :: _ => (h.text v).map .text
  | "Number" =>
    match args with
    | [] => .ok (.int 0)
    | v :: _ => (h.numeric v).bind fun
      | .bigint n => .ok (.ofDouble (.ofInt n))
      | v => (numberOf v).map .ofDouble
  | "Boolean" => .ok (.bool first.isTruthy)
  | "Symbol" =>
    match first with
    | .undefined => .ok (.symbol "")
    | v => (h.plainText v).map .symbol
  | "BigInt" => h.toBigInteger first
  | "Function" => .ok (.native (.other "anonymous" (args.length - 1)))
  | "Date" => .ok (.ofString "Thu Jan 01 1970 00:00:00 GMT+0000 (GMT)")
  | "isNaN" => (h.number first).map fun d => .bool d.isNaN
  | "isFinite" => (h.number first).map fun d => .bool d.isFinite
  | "parseFloat" => (h.plainText first).map fun s => .ofDouble (Numeral.leadingNumber s)
  | "parseInt" => do
    let s ← h.plainText first
    let radix ← h.number second
    return .ofDouble (toInteger radix s)
  | "encodeURI" => (h.plainText first).map fun s =>
    .ofString (String.ofList (Percent.encode Percent.isReserved s.toList))
  | "encodeURIComponent" => (h.plainText first).map fun s =>
    .ofString (String.ofList (Percent.encode (fun _ => false) s.toList))
  | "decodeURI" => (h.plainText first).bind (decoded Percent.isReserved)
  | "decodeURIComponent" => (h.plainText first).bind (decoded fun _ => false)
  | "escape" => (h.text first).map fun t =>
    .ofString (String.ofList (Percent.escape (EngineText.units t)))
  | "unescape" => (h.text first).map fun t =>
    .text (EngineText.ofUnits (Percent.unescape (EngineText.units t)))
  | "eval" => .ok first
  | "queueMicrotask" => refuse "not a function"
  | "AggregateError" => do
    let e ← h.toError second
    h.iterable first
    return e
  | _ =>
    if name ∈ onlyConstruct then refuse "must be called with new"
    else if name ∈ requireNew then refuse "constructor requires 'new'"
    else if name ∈ makeErrors then h.toError first
    else needsObject

/-- What a function that works on a value throws when there is none, by its owner and its name. -/
def withoutReceiver (owner name : String) : EngineValue :=
  .error (match owner with
    | "String" =>
      if name ∈ ["match", "matchAll", "search", "split", "replace", "replaceAll"] then
        "cannot convert to object"
      else "null or undefined are forbidden"
    | "Number" => "not a number"
    | "Boolean" => "not a boolean"
    | "Symbol" => "not a symbol"
    | "BigInt" => "not a BigInt"
    | "Map" => "Map object expected"
    | "Date" => "not a Date object"
    | "RegExp" => "RegExp object expected"
    | "Uint8Array" => "not a TypedArray"
    | "ArrayBuffer" => "ArrayBuffer object expected"
    | "Function" => "not a function"
    | "Promise" => "not an object"
    | _ => "Cannot convert undefined or null to object")

/-- A number of the engine as a double. -/
def double? : EngineValue → Option Double
  | .int i => some (Double.ofInt i.toInt)
  | .float d => some d
  | _ => none

/-- The answer of a function that needs no value to work on, by its owner and its name. Any other
refuses the call. -/
def readMember (h : Heap) (owner name : String) (args : List EngineValue) :
    Except EngineValue EngineValue :=
  let first := args.headD .undefined
  let answer (b : Bool) : Except EngineValue EngineValue := .ok (.bool b)
  match owner, name with
  | "Object", "hasOwnProperty" =>
    match first with
    | .symbol _ => needsObject
    | v => (h.text v).bind fun _ => needsObject
  | "Object", "isPrototypeOf" => if first.isObject then needsObject else answer false
  | "Object", "toLocaleString" => refuse "cannot read property 'toString' of undefined"
  | "Array", "isArray" => answer (h.typeName first == "array")
  | "Error", "isError" => answer (h.typeName first == "exception")
  | "Number", "isInteger" => answer ((double? first).any fun d => d.toInt?.isSome)
  | "Number", "isSafeInteger" =>
    answer ((double? first).any fun d => d.toInt?.any fun n => n.natAbs < Nat.pow 2 53)
  | "Number", "isNaN" => answer ((double? first).any Double.isNaN)
  | "Number", "isFinite" => answer ((double? first).any Double.isFinite)
  | "Number", "parseInt" | "Number", "parseFloat" => h.readNative name args
  | "String", "fromCharCode" =>
    (args.mapM h.number).map fun ds =>
      .text (EngineText.ofUnits (ds.map fun d => (d.whole % 0x10000).toNat))
  | "Math", _ => h.calculate name args
  | _, _ => .error (withoutReceiver owner name)

/-- The regular expression that the function for them makes of a source and flags. -/
def toRegexp (h : Heap) (source flags : EngineValue) : Except EngineValue NodeKind := do
  let text (v : EngineValue) : Except EngineValue String :=
    match v with
    | .undefined => .ok ""
    | v => h.plainText v
  let source ← text source
  let flags ← text flags
  let letters := flags.toList
  if letters.all (fun c => flagNames.any fun f => f.2 == c) ∧ letters.Nodup ∧
      ¬ (letters.contains 'u' ∧ letters.contains 'v') then
    return .regexp (if source = "" then "(?:)" else source) flags
  else refuse "invalid regular expression flags"

/-- Call a function of the engine by itself. -/
def callNative (h : Heap) (f : Native) (args : List EngineValue) :
    Except EngineValue EngineValue × Heap :=
  let first := args.headD .undefined
  match f with
  | .objectText => (.ok (.ofString "[object Undefined]"), h)
  | .errorText | .regexpText => (refuse "not an object", h)
  | .functionText => (refuse "not a function", h)
  | .heldText => (refuse "not a string", h)
  | .dateText | .dateTime => (refuse "not a Date object", h)
  | .attachHandlers => (refuse "Promise object expected", h)
  | .attachRejectionHandler => (refuse "cannot read property 'then' of undefined", h)
  | .receiver | .arrayText | .join => (needsObject, h)
  | .other "Object" _ =>
    let r := h.toObject first
    (.ok r.1, r.2)
  | .other "Array" _ => h.toArray args
  | .other "RegExp" _ =>
    match h.toRegexp first (args.getD 1 .undefined) with
    | .ok kind =>
      let r := h.alloc { kind }
      (.ok r.1, r.2)
    | .error e => (.error e, h)
  | .other name _ => (h.readNative name args, h)
  | .member "Object" "keys" _ =>
    match h.keys? first with
    | none => (needsObject, h)
    | some names =>
      let r := h.allocArray (names.map .text)
      (.ok r.1, r.2)
  | .member "Array" "of" _ =>
    let r := h.allocArray args
    (.ok r.1, r.2)
  | .member owner name _ => (h.readMember owner name args, h)

end HostBridge.Heap
