import HostBridge.Engine.Read

/-!
# Conversions in the engine

A value that is no object is converted to a text or a number by what it is. An object is asked for
such a value first (`Heap.primitive`): for a text it is asked by its `toString` and then by its
`valueOf`, for a number the other way round. Arrays, errors and the other standard objects answer in
their own ways. A conversion fails with the exception that a script sees: symbols are not converted,
an object may throw when it is asked, or have no answer.
-/

namespace HostBridge

namespace Heap

/-- The name of a value's type as scripts ask for it. -/
def typeof (h : Heap) : EngineValue → String
  | .undefined => "undefined"
  | .bool _ => "boolean"
  | .int _ | .float _ => "number"
  | .text _ => "string"
  | .symbol _ => "symbol"
  | .bigint _ => "bigint"
  | .null | .error _ => "object"
  | .native _ => "function"
  | .ref id =>
    match (h.node id).kind with
    | .function _ => "function"
    | _ => "object"

/-! ## Texts -/

/-- The text of a value that is no object. Objects get here only when they contain themselves. -/
def primitiveText : EngineValue → Except EngineValue EngineText
  | .undefined => .ok (EngineText.ofString "undefined")
  | .null => .ok (EngineText.ofString "null")
  | .bool b => .ok (EngineText.ofString (if b then "true" else "false"))
  | .int i => .ok (EngineText.ofString (Int.repr i.toInt))
  | .float d => .ok (EngineText.ofString d.scriptText)
  | .text t => .ok t
  | .bigint n => .ok (EngineText.ofString (Int.repr n))
  | .symbol _ => .error (.error "cannot convert symbol to string")
  | .error _ | .native _ | .ref _ => .error (.error "Maximum call stack size exceeded")

/-- What an object calls itself. -/
def className (h : Heap) : EngineValue → String
  | .error _ => "Error"
  | .native _ => "Function"
  | .ref id =>
    match (h.node id).kind with
    | .plain => "Object"
    | .array _ _ => "Array"
    | .error => "Error"
    | .promise _ => "Promise"
    | .function _ => "Function"
    | .map _ => "Map"
    | .date => "Date"
    | .regexp _ _ => "RegExp"
    | .text _ => "String"
    | .bytes _ => "Uint8Array"
  | _ => "Object"

/-- The text of an object that has no better one. -/
def objectText (h : Heap) (v : EngineValue) : EngineValue :=
  .ofString ("[object " ++ h.className v ++ "]")

/-- The items of an object that has a length, read by their places. -/
def countedItems (h : Heap) (v : EngineValue) : Except EngineValue (List Slot) :=
  match h.get v "length" with
  | .throwing e => .error e
  | .value (.int n) => .ok ((List.range n.toInt.toNat).map fun i => h.get v (Nat.repr i))
  | .value _ => .ok []

/-- The items of an object that is read like an array. An array of bytes knows its own. -/
def itemsOf (h : Heap) (v : EngineValue) : Except EngineValue (List Slot) :=
  match v with
  | .ref id =>
    match (h.node id).kind with
    | .array _ _ => .ok (h.node id).items
    | .bytes items => .ok (items.map fun b => (NodeKind.byte b).slot)
    | _ => h.countedItems v
  | _ => h.countedItems v

/-- The source of a function. That of a function which a script wrote is not kept. -/
def source? : FunctionBody → Option String
  | .closure _ => none
  | .one false => some "() => 1"
  | .one true => some "function () \x7b return 1; \x7d"
  | .classFactory => some "class \x7b\x7d"
  | .native _ => some "function () \x7b\n    [native code]\n\x7d"
  | _ => some "function () \x7b \x7d"

section Text

variable (h : Heap) (write : EngineValue → Except EngineValue EngineText)

/-- The text of what a slot gives. -/
def slotText : Slot → Except EngineValue EngineText
  | .value v => write v
  | .throwing e => .error e

/-- The text of what a slot gives, or another text if that is undefined. -/
def slotTextOr (fallback : String) : Slot → Except EngineValue EngineText
  | .value .undefined => .ok (EngineText.ofString fallback)
  | slot => slotText write slot

/-- The texts of items with commas between them. Undefined and null are left out. -/
def joined (v : EngineValue) : Except EngineValue EngineText := do
  let items ← h.itemsOf v
  let texts ← items.mapM fun (slot : Slot) =>
    match slot with
    | .value .undefined | .value .null => .ok []
    | slot => slotText write slot
  return (texts.intersperse [.char ',']).flatten

/-- The text of an error: its name and its message, with a colon between them if there are both. -/
def errorText (v : EngineValue) : Except EngineValue EngineText := do
  let name ← slotTextOr write "Error" (h.get v "name")
  let message ← slotTextOr write "" (h.get v "message")
  return if name.isEmpty then message
    else if message.isEmpty then name
    else name ++ EngineText.ofString ": " ++ message

/-- The text of a regular expression: its source between slashes, and its flags. -/
def regexpText (v : EngineValue) : Except EngineValue EngineText := do
  let source ← slotText write (h.get v "source")
  let flags ← slotText write (h.get v "flags")
  return EngineText.ofString "/" ++ source ++ EngineText.ofString "/" ++ flags

/-- What a function answers that an object is asked by. The code of a script cannot be run here, so
a function that a script wrote is refused. -/
def answer (v : EngineValue) : FunctionBody → Except EngineValue EngineValue
  | .closure _ => .error (.error "cannot convert by a script's own function here")
  | .handler h =>
    match h.ending with
    | .normal v => .ok v
    | .thrown e => .error e
  | .one _ => .ok (.int 1)
  | .classFactory => .error (.error "class constructors must be invoked with 'new'")
  | .throw => .error .undefined
  | .keys => .error (.error "Cannot convert undefined or null to object")
  | .count => .ok (.int 0)
  | .typeof => .ok (.ofString "undefined")
  | .reject => .ok (.ofString "rejected")
  | .arguments => .ok v
  | .native f =>
    match f with
    | .receiver => .ok v
    | .heldText =>
      match v with
      | .ref id =>
        match (h.node id).kind with
        | .text t => .ok (.text t)
        | _ => .error (.error "not a string")
      | _ => .error (.error "not a string")
    | .objectText | .arrayText => .ok (h.objectText v)
    | .join => (h.joined write v).map .text
    | .errorText => (h.errorText write v).map .text
    | .functionText =>
      match h.functionBody? v with
      | none => .error (.error "not a function")
      | some body =>
        match source? body with
        | some s => .ok (.ofString s)
        | none => .error (.error "the source of a script's own function is not kept")
    | .regexpText => (h.regexpText write v).map .text
    | .dateText => .ok (.ofString "Thu Jan 01 1970 00:00:00 GMT+0000")
    | .dateTime => .ok (.int 0)
    | _ => .ok .undefined
  | _ => .ok .undefined

/-- What a function answers that is called on a value. An array is written by its `join`. -/
def respond (v : EngineValue) : FunctionBody → Except EngineValue EngineValue
  | .native .arrayText =>
    match h.get v "join" with
    | .throwing e => .error e
    | .value join => h.answer write v ((h.functionBody? join).getD (.native .objectText))
  | body => h.answer write v body

/-- Ask an object by calling the function under a name. There is no answer when there is no function
or it answers with an object. -/
def ask (v : EngineValue) (name : String) : Except EngineValue (Option EngineValue) :=
  match h.get v name with
  | .throwing e => .error e
  | .value f =>
    match h.functionBody? f with
    | none => .ok none
    | some body => (h.respond write v body).map fun a => if a.isObject then none else some a

/-- The value that is no object and stands for an object that is asked under names, one after the
other. -/
def primitiveBy (v : EngineValue) : List String → Except EngineValue EngineValue
  | [] => .error (.error "toPrimitive")
  | name :: names =>
    match h.ask write v name with
    | .error e => .error e
    | .ok (some a) => .ok a
    | .ok none => primitiveBy v names

end Text

/-- The text of a value, looking into objects up to `levels` deep. -/
def coerce (h : Heap) : Nat → EngineValue → Except EngineValue EngineText
  | 0, v => primitiveText v
  | levels + 1, v =>
    if v.isObject then
      (h.primitiveBy (coerce h levels) v ["toString", "valueOf"]).bind primitiveText
    else primitiveText v

/-- The text of a value as a script coerces it, or the exception that a script sees instead. -/
def text (h : Heap) (v : EngineValue) : Except EngineValue EngineText :=
  h.coerce (h.nodes.size + 2) v

/-- The text of a value as a script coerces it, if there is one and it can leave the engine. -/
def text? (h : Heap) (v : EngineValue) : Option String :=
  match h.text v with
  | .ok t => t.decode.toOption
  | .error _ => none

/-- The message of an error: none when it is undefined or null, or cannot be read as a text. -/
def errorMessage? (h : Heap) (v : EngineValue) : Option String :=
  match h.get v "message" with
  | .throwing _ | .value .undefined | .value .null => none
  | .value v => h.text? v

/-! ## Values that are no objects, and numbers -/

/-- The value that is no object and stands for a value where no text is asked for. A date prefers
its text. -/
def primitive (h : Heap) (v : EngineValue) : Except EngineValue EngineValue :=
  if v.isObject then
    h.primitiveBy h.text v
      (if h.className v = "Date" then ["toString", "valueOf"] else ["valueOf", "toString"])
  else .ok v

/-- The number that a value which is no object is converted to. Symbols and big integers are not
converted. -/
def numberOf : EngineValue → Except EngineValue Double
  | .undefined => .ok .nan
  | .null => .ok .zero
  | .bool b => .ok (Double.ofNat b.toNat)
  | .int i => .ok (Double.ofInt i.toInt)
  | .float d => .ok d
  | .text t => .ok (match t.decode with
    | .ok s => Numeral.number s
    | .error _ => .nan)
  | .bigint _ => .error (.error "cannot convert bigint to number")
  | .symbol _ => .error (.error "cannot convert symbol to number")
  | .error _ | .native _ | .ref _ => .error (.error "toPrimitive")

/-- The value that is no object and stands for a value where a number is asked for. -/
def numeric (h : Heap) (v : EngineValue) : Except EngineValue EngineValue :=
  if v.isObject then h.primitiveBy h.text v ["valueOf", "toString"] else .ok v

/-- The number that a value is converted to. -/
def number (h : Heap) (v : EngineValue) : Except EngineValue Double := (h.numeric v).bind numberOf

end Heap

end HostBridge
