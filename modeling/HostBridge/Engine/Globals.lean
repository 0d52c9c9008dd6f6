import HostBridge.Engine.Standard

/-!
# Globals

The globals that are there from the start: functions that make objects, other functions, objects
that hold functions, and three constants that cannot be assigned. A function that belongs to the
engine has a name and a number of parameters, and those that make objects have further properties
(`Native.own?`).
-/

namespace HostBridge

namespace Globals

/-- The functions that make objects: their names, the numbers of their parameters, and the standard
objects from which what they make inherits. Where those hold nothing that is listed, the standard
object stands for them. -/
def constructors : List (String × Nat × Standard) :=
  [ ("Object", 1, .object), ("Function", 1, .function), ("Array", 1, .array), ("Error", 1, .error),
    ("EvalError", 1, .object), ("RangeError", 1, .object), ("ReferenceError", 1, .object),
    ("SyntaxError", 1, .object), ("TypeError", 1, .typeError), ("URIError", 1, .object),
    ("InternalError", 1, .object), ("AggregateError", 2, .object), ("Number", 1, .number),
    ("Boolean", 1, .bool), ("String", 1, .text), ("Symbol", 0, .symbol), ("BigInt", 1, .bigint),
    ("Date", 7, .date), ("RegExp", 2, .regexp), ("Promise", 1, .promise), ("Iterator", 0, .object),
    ("Map", 0, .map), ("Set", 0, .object), ("WeakMap", 0, .object), ("WeakSet", 0, .object),
    ("WeakRef", 1, .object), ("FinalizationRegistry", 1, .object), ("ArrayBuffer", 1, .buffer),
    ("SharedArrayBuffer", 1, .object), ("DataView", 1, .object), ("Uint8ClampedArray", 3, .object),
    ("Int8Array", 3, .object), ("Uint8Array", 3, .bytes), ("Int16Array", 3, .object),
    ("Uint16Array", 3, .object), ("Int32Array", 3, .object), ("Uint32Array", 3, .object),
    ("BigInt64Array", 3, .object), ("BigUint64Array", 3, .object), ("Float16Array", 3, .object),
    ("Float32Array", 3, .object), ("Float64Array", 3, .object) ]

/-- The bytes of an item in arrays of fixed-width numbers. -/
def itemSizes : List (String × Int32) :=
  [ ("Uint8ClampedArray", 1), ("Int8Array", 1), ("Uint8Array", 1), ("Int16Array", 2),
    ("Uint16Array", 2), ("Int32Array", 4), ("Uint32Array", 4), ("BigInt64Array", 8),
    ("BigUint64Array", 8), ("Float16Array", 2), ("Float32Array", 4), ("Float64Array", 8) ]

/-- The symbols that the engine itself looks for. -/
def symbols : List String :=
  [ "toPrimitive", "iterator", "match", "matchAll", "replace", "search", "split", "toStringTag",
    "isConcatSpreadable", "hasInstance", "species", "unscopables", "asyncIterator" ]

/-- The further properties of a function that makes objects, by its name and theirs. -/
def memberTable (name : String) : Record Property :=
  match name with
  | "Object" =>
    Standard.functionsOf 1
      [ "getPrototypeOf", "getOwnPropertyNames", "getOwnPropertySymbols", "keys", "values",
        "entries", "isExtensible", "preventExtensions", "getOwnPropertyDescriptors", "seal",
        "freeze", "isSealed", "isFrozen", "fromEntries" ] ++
    Standard.functionsOf 2
      [ "create", "setPrototypeOf", "defineProperties", "groupBy", "getOwnPropertyDescriptor", "is",
        "assign", "hasOwn" ] ++
    Standard.functionsOf 3 ["defineProperty"]
  | "Array" => Standard.functions [("isArray", 1), ("from", 1), ("fromAsync", 1), ("of", 0)]
  | "Error" =>
    Standard.functions [("captureStackTrace", 2), ("isError", 1)] ++
    Standard.constants [("stackTraceLimit", .ofNat 10)]
  | "Number" =>
    Standard.functionsOf 1 ["parseFloat", "isNaN", "isFinite", "isInteger", "isSafeInteger"] ++
    Standard.functionsOf 2 ["parseInt"] ++
    Standard.constants
      [ ("MAX_VALUE", ⟨0x7fefffffffffffff⟩), ("MIN_VALUE", ⟨1⟩), ("NaN", .nan),
        ("NEGATIVE_INFINITY", Double.infinity.negate), ("POSITIVE_INFINITY", .infinity),
        ("EPSILON", ⟨0x3cb0000000000000⟩), ("MAX_SAFE_INTEGER", .ofInt (Int.pow 2 53 - 1)),
        ("MIN_SAFE_INTEGER", .ofInt (1 - Int.pow 2 53)) ]
  | "String" => Standard.functionsOf 1 ["fromCharCode", "fromCodePoint", "raw"]
  | "Symbol" =>
    Standard.functionsOf 1 ["for", "keyFor"] ++
    symbols.map fun name => (name, .fixed (.symbol ("Symbol." ++ name)))
  | "BigInt" => Standard.functionsOf 2 ["asUintN", "asIntN"]
  | "Date" => Standard.functions [("now", 0), ("parse", 1), ("UTC", 7)]
  | "Promise" =>
    Standard.functionsOf 0 ["withResolvers"] ++
    Standard.functionsOf 1 ["resolve", "reject", "all", "allSettled", "any", "try", "race"]
  | "RegExp" => Standard.functionsOf 1 ["escape"]
  | "Proxy" => Standard.functionsOf 2 ["revocable"]
  | "Iterator" => Standard.functions [("from", 1), ("concat", 0)]
  | "Map" => Standard.functionsOf 2 ["groupBy"]
  | "ArrayBuffer" => Standard.functionsOf 1 ["isView"]
  | _ =>
    match itemSizes.lookup name with
    | some size =>
      ("BYTES_PER_ELEMENT", .fixed (.int size)) :: Standard.functions [("from", 1), ("of", 0)]
    | none => []

/-- The further properties of a function that makes objects, by its name. -/
def members (name : String) : Record Property := Standard.ownedBy name (memberTable name)

/-- The globals that are there from the start. -/
def props : Record Property :=
  Standard.functions (constructors.map fun c => (c.1, c.2.1)) ++
  Standard.functionsOf 1
    [ "parseFloat", "isNaN", "isFinite", "decodeURI", "decodeURIComponent", "encodeURI",
      "encodeURIComponent", "escape", "unescape", "eval", "queueMicrotask" ] ++
  Standard.functionsOf 2 ["parseInt", "Proxy"] ++
  [ ("Math", .hidden (.ref Standard.math.id)), ("JSON", .hidden (.ref Standard.json.id)),
    ("Reflect", .hidden (.ref Standard.reflect.id)),
    ("Atomics", .hidden (.ref Standard.atomics.id)),
    ("performance", .plain (.ref Standard.performance.id)), ("undefined", .fixed .undefined) ] ++
  Standard.constants [("NaN", .nan), ("Infinity", .infinity)]

end Globals

namespace Native

/-- The name of a function and the number of its parameters. -/
def signature : Native → String × Nat
  | receiver | dateTime => ("valueOf", 0)
  | heldText | objectText | arrayText | errorText | functionText | regexpText | dateText =>
    ("toString", 0)
  | join => ("join", 1)
  | attachHandlers => ("then", 2)
  | attachRejectionHandler => ("catch", 1)
  | member _ name parameters | other name parameters => (name, parameters)

/-- An own property of a function that belongs to the engine. -/
def own? (f : Native) (name : EngineText) : Option Property :=
  if name = "length" then some (.fixed (.ofNat f.signature.2))
  else if name = "name" then some (.fixed (.ofString f.signature.1))
  else
    match f with
    | .other maker _ =>
      if name = "prototype" then
        (Globals.constructors.lookup maker).map fun c => .fixed (.ref c.2.id)
      else (Globals.members maker).inside.get? name
    | _ => none

end Native

end HostBridge
