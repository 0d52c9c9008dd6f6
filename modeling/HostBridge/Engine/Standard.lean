import HostBridge.Engine.Node

/-!
# Standard objects

What the standard objects hold. None of their properties is listed, those of the clock apart. Most
are functions of which it only matters that they are functions; those that take part in writing an
object as text, or in attaching handlers to promises, are named for what they do. Some names are
accessors (`Standard.accessor?`), which compute an answer from the object they are read of.
-/

namespace HostBridge

/-- What the accessors of the standard objects compute. -/
inductive Accessor where
  /-- The object from which an object inherits. It can be assigned. -/
  | parent
  /-- The number of entries of a map. -/
  | size
  /-- The source of a regular expression. -/
  | source
  /-- Whether a regular expression has the flag with this letter. -/
  | flag (letter : Char)
  /-- The letters of the flags, as the properties for the flags say. -/
  | flags
  /-- The number of bytes in an array of bytes. -/
  | count
  /-- The place at which an array of bytes starts. -/
  | offset
  /-- The object that holds the bytes of an array of bytes. -/
  | buffer
  /-- Refuses to be read or assigned. -/
  | refused

/-- The name that reads and assigns the object from which an object inherits. -/
def parentName : String := "__proto__"

/-- The properties for the flags of a regular expression, in the order of their letters. -/
def flagNames : List (String × Char) :=
  [ ("hasIndices", 'd'), ("global", 'g'), ("ignoreCase", 'i'), ("multiline", 'm'), ("dotAll", 's'),
    ("unicode", 'u'), ("unicodeSets", 'v'), ("sticky", 'y') ]

namespace Standard

/-- The accessor that a standard object has under a name. -/
def accessor? : Standard → String → Option Accessor
  | object, name => if name = parentName then some .parent else none
  | function, name => if name = "caller" ∨ name = "arguments" then some .refused else none
  | map, name => if name = "size" then some .size else none
  | regexp, name =>
    if name = "source" then some .source
    else if name = "flags" then some .flags
    else (flagNames.lookup name).map .flag
  | bytes, name =>
    if name = "length" ∨ name = "byteLength" then some .count
    else if name = "byteOffset" then some .offset
    else if name = "buffer" then some .buffer
    else none
  | _, _ => none

/-- Functions by their names, with the numbers of their parameters. -/
def functions (entries : List (String × Nat)) : Record Property :=
  entries.map fun e => (e.1, .hidden (.native (.other e.1 e.2)))

/-- Functions that have the same number of parameters. -/
def functionsOf (parameters : Nat) (names : List String) : Record Property :=
  functions (names.map fun name => (name, parameters))

/-- Numbers that cannot be assigned. -/
def constants (entries : List (String × Double)) : Record Property :=
  entries.map fun e => (e.1, .fixed (.ofDouble e.2))

/-- The name under which the functions of a standard object are known. -/
def owner : Standard → String
  | object => "Object"
  | array => "Array"
  | function => "Function"
  | error => "Error"
  | typeError => "TypeError"
  | promise => "Promise"
  | text => "String"
  | number => "Number"
  | bool => "Boolean"
  | symbol => "Symbol"
  | bigint => "BigInt"
  | map => "Map"
  | date => "Date"
  | regexp => "RegExp"
  | bytes => "Uint8Array"
  | buffer => "ArrayBuffer"
  | math => "Math"
  | json => "JSON"
  | reflect => "Reflect"
  | atomics => "Atomics"
  | performance => "Performance"

/-- Functions as those of an owner, the one under `constructor` apart. -/
def ownedBy (owner : String) (r : Record Property) : Record Property :=
  r.map fun e =>
    match e.1, e.2.content with
    | "constructor", _ => e
    | name, .data (.native (.other _ parameters)) writable =>
      (name, { e.2 with content := .data (.native (.member owner name parameters)) writable })
    | _, _ => e

/-- The function under `constructor`, by its own name. -/
def constructor (name : String) (parameters : Nat) : String × Property :=
  ("constructor", .hidden (.native (.other name parameters)))

/-- The properties of a standard object by name, accessors apart. -/
def table : Standard → Record Property
  | object =>
    [ constructor "Object" 1, ("toString", .hidden (.native .objectText)),
      ("valueOf", .hidden (.native .receiver)) ] ++
    functionsOf 0 ["toLocaleString"] ++
    functionsOf 1
      [ "hasOwnProperty", "isPrototypeOf", "propertyIsEnumerable", "__lookupGetter__",
        "__lookupSetter__" ] ++
    functionsOf 2 ["__defineGetter__", "__defineSetter__"]
  | array =>
    [ constructor "Array" 1, ("toString", .hidden (.native .arrayText)),
      ("join", .hidden (.native .join)) ] ++
    functionsOf 0
      [ "toLocaleString", "pop", "shift", "reverse", "toReversed", "flat", "values", "keys",
        "entries" ] ++
    functionsOf 1
      [ "at", "concat", "every", "some", "forEach", "map", "filter", "reduce", "reduceRight",
        "fill", "find", "findIndex", "findLast", "findLastIndex", "indexOf", "lastIndexOf",
        "includes", "push", "unshift", "sort", "toSorted", "flatMap" ] ++
    functionsOf 2 ["with", "slice", "splice", "toSpliced", "copyWithin"]
  | function =>
    [ constructor "Function" 1, ("toString", .hidden (.native .functionText)),
      ("name", .fixed (.ofString "")), ("length", .fixed (.int 0)) ] ++
    functionsOf 1 ["call", "bind"] ++ functionsOf 2 ["apply"]
  | error =>
    [ constructor "Error" 1, ("toString", .hidden (.native .errorText)),
      ("name", .hidden (.ofString "Error")), ("message", .hidden (.ofString "")) ]
  | typeError =>
    [ constructor "TypeError" 1, ("name", .hidden (.ofString "TypeError")),
      ("message", .hidden (.ofString "")) ]
  | promise =>
    [ constructor "Promise" 1, ("then", .hidden (.native .attachHandlers)),
      ("catch", .hidden (.native .attachRejectionHandler)) ] ++ functionsOf 1 ["finally"]
  | text =>
    [ constructor "String" 1, ("toString", .hidden (.native .heldText)),
      ("valueOf", .hidden (.native .heldText)) ] ++
    functionsOf 0
      [ "isWellFormed", "toWellFormed", "trim", "trimEnd", "trimRight", "trimStart", "trimLeft",
        "normalize", "toLowerCase", "toUpperCase", "toLocaleLowerCase", "toLocaleUpperCase", "big",
        "blink", "bold", "fixed", "italics", "small", "strike", "sub", "sup" ] ++
    functionsOf 1
      [ "at", "charCodeAt", "charAt", "concat", "codePointAt", "indexOf", "lastIndexOf", "includes",
        "endsWith", "startsWith", "match", "matchAll", "search", "repeat", "padEnd", "padStart",
        "localeCompare", "anchor", "fontcolor", "fontsize", "link" ] ++
    functionsOf 2 ["split", "substring", "substr", "slice", "replace", "replaceAll"]
  | number =>
    constructor "Number" 1 :: functionsOf 0 ["toLocaleString", "valueOf"] ++
    functionsOf 1 ["toExponential", "toFixed", "toPrecision", "toString"]
  | bool => constructor "Boolean" 1 :: functionsOf 0 ["toString", "valueOf"]
  | symbol => constructor "Symbol" 0 :: functionsOf 0 ["toString", "valueOf"]
  | bigint => constructor "BigInt" 1 :: functionsOf 0 ["toString", "toLocaleString", "valueOf"]
  | map =>
    constructor "Map" 0 :: functionsOf 0 ["clear", "values", "keys", "entries"] ++
    functionsOf 1 ["get", "has", "delete", "forEach"] ++ functionsOf 2 ["set"]
  | date =>
    [ constructor "Date" 7, ("toString", .hidden (.native .dateText)),
      ("valueOf", .hidden (.native .dateTime)) ] ++
    functionsOf 0
      [ "toISOString", "toDateString", "toTimeString", "toUTCString", "toGMTString",
        "toLocaleString", "toLocaleDateString", "toLocaleTimeString", "getTimezoneOffset",
        "getTime", "getYear", "getFullYear", "getMonth", "getDate", "getDay", "getHours",
        "getMinutes", "getSeconds", "getMilliseconds", "getUTCFullYear", "getUTCMonth",
        "getUTCDate", "getUTCDay", "getUTCHours", "getUTCMinutes", "getUTCSeconds",
        "getUTCMilliseconds" ] ++
    functionsOf 1
      [ "toJSON", "setTime", "setYear", "setDate", "setMilliseconds", "setUTCDate",
        "setUTCMilliseconds" ] ++
    functionsOf 2 ["setMonth", "setSeconds", "setUTCMonth", "setUTCSeconds"] ++
    functionsOf 3 ["setFullYear", "setMinutes", "setUTCFullYear", "setUTCMinutes"] ++
    functionsOf 4 ["setHours", "setUTCHours"]
  | regexp =>
    [constructor "RegExp" 2, ("toString", .hidden (.native .regexpText))] ++
    functionsOf 1 ["exec", "test"] ++ functionsOf 2 ["compile"]
  | bytes =>
    [ constructor "Uint8Array" 3, ("BYTES_PER_ELEMENT", .fixed (.int 1)),
      ("toString", .hidden (.native .arrayText)), ("join", .hidden (.native .join)) ] ++
    functionsOf 0 ["values", "keys", "entries", "reverse", "toReversed", "toLocaleString"] ++
    functionsOf 1
      [ "at", "set", "every", "some", "forEach", "map", "filter", "reduce", "reduceRight", "fill",
        "find", "findIndex", "findLast", "findLastIndex", "sort", "toSorted", "indexOf",
        "lastIndexOf", "includes" ] ++
    functionsOf 2 ["with", "subarray", "copyWithin", "slice"]
  | buffer =>
    constructor "ArrayBuffer" 1 :: functionsOf 0 ["transfer", "transferToFixedLength"] ++
    functionsOf 1 ["resize"] ++ functionsOf 2 ["slice"]
  | math =>
    constants
      [ ("E", ⟨0x4005bf0a8b145769⟩), ("LN10", ⟨0x40026bb1bbb55516⟩), ("LN2", ⟨0x3fe62e42fefa39ef⟩),
        ("LOG2E", ⟨0x3ff71547652b82fe⟩), ("LOG10E", ⟨0x3fdbcb7b1526e50e⟩),
        ("PI", ⟨0x400921fb54442d18⟩), ("SQRT1_2", ⟨0x3fe6a09e667f3bcd⟩),
        ("SQRT2", ⟨0x3ff6a09e667f3bcd⟩) ] ++
    functionsOf 0 ["random"] ++
    functionsOf 1
      [ "abs", "floor", "ceil", "round", "sqrt", "acos", "asin", "atan", "cos", "exp", "log", "sin",
        "tan", "trunc", "sign", "cosh", "sinh", "tanh", "acosh", "asinh", "atanh", "expm1", "log1p",
        "log2", "log10", "cbrt", "clz32", "fround", "f16round", "sumPrecise" ] ++
    functionsOf 2 ["min", "max", "atan2", "pow", "hypot", "imul"]
  | json => functions [("parse", 2), ("stringify", 3)]
  | reflect =>
    functionsOf 1 ["getPrototypeOf", "isExtensible", "ownKeys", "preventExtensions"] ++
    functionsOf 2
      [ "construct", "deleteProperty", "get", "getOwnPropertyDescriptor", "has",
        "setPrototypeOf" ] ++
    functionsOf 3 ["apply", "defineProperty", "set"]
  | atomics =>
    functions
      [("pause", 0), ("isLockFree", 1), ("load", 2), ("compareExchange", 4), ("wait", 4)] ++
    functionsOf 3 ["add", "and", "or", "sub", "xor", "exchange", "store", "notify"]

  | performance =>
    [ ("now", .plain (.native (.other "now" 0))), ("timeOrigin", .plain (.int 0)) ]

/-- The properties of a standard object, accessors apart. -/
def props (s : Standard) : Record Property := ownedBy s.owner s.table

/-- What a standard object is. -/
def kind : Standard → NodeKind
  | array => .ofValues []
  | function => .function (.native (.other "" 0))
  | text => .text []
  | _ => .plain

/-- The object from which a standard object inherits. -/
def parent : Standard → Option Standard
  | object => none
  | typeError => some error
  | _ => some object

/-- A standard object. -/
def node (s : Standard) : Node where
  kind := s.kind
  props := s.props.inside
  parent := s.parent.map id

end Standard

end HostBridge
