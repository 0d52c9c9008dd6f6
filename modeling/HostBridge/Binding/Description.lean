import HostBridge.Binding.Member

/-!
# Class descriptions

The members of one class in the tables that lookups use. A description is immutable; it comes from
a `Builder`. Lookups that need no strategy are here: each names the member that is served and runs
it, and `none` says that the description has nothing to serve.
-/

namespace HostBridge

/-- The members of a class. -/
structure Description (κ : Type) [HostTypes κ] where
  targetClass : κ
  /-- The conversion mode under which members are admitted. -/
  mode : ConversionMode
  constructors : List (Constructor κ) := []
  fields : Record (Field κ) := []
  methods : Record (List (Method κ)) := []
  getters : Record (List (Method κ)) := []
  setters : Record (List (Method κ)) := []
  genericGetters : List (GenericGetter κ) := []
  genericSetters : List (GenericSetter κ) := []
  applyFunctions : List (Method κ) := []
  /-- The names of fields, getters, setters and methods, in the order of first registration. -/
  keys : List String := []
  collisions : List Collision := []

/-- The first overload that takes so many arguments. -/
def firstAccepting {κ : Type} [HostTypes κ] (overloads : List (Method κ)) (count : Nat) :
    Option (Method κ) :=
  overloads.find? fun m => m.accepts count

namespace Description

variable {κ : Type} [HostTypes κ] [DecidableEq κ]

/-- Instances can be called. -/
def isInvocable (d : Description κ) : Bool := !d.applyFunctions.isEmpty

/-- There is no member at all. -/
def isEmpty (d : Description κ) : Bool :=
  d.constructors.isEmpty && d.fields.isEmpty && d.methods.isEmpty && d.getters.isEmpty &&
    d.setters.isEmpty && d.genericGetters.isEmpty && d.genericSetters.isEmpty &&
    d.applyFunctions.isEmpty

/-- Ask generic getters in order until one answers or fails. -/
def readGeneric (o : Object κ) (name : String) :
    List (GenericGetter κ) → Except InvokeError (Option Value)
  | [] => .ok none
  | g :: gs =>
    match g.get o name with
    | .ok none => readGeneric o name gs
    | answer => answer

/-- Offer a value to generic setters in order until one takes it or fails. -/
def writeGeneric (name : String) (v : Value) :
    Object κ → List (GenericSetter κ) → Except InvokeError Bool × Object κ
  | o, [] => (.ok false, o)
  | o, g :: gs =>
    match g.set o name v with
    | (.ok false, o') => writeGeneric name v o' gs
    | answer => answer

/-- Read a property: the first getter of that name that takes no argument, then the field, then
the generic getters. -/
def read (d : Description κ) (o : Object κ) (name : String) :
    Except InvokeError (Option Value) × Object κ :=
  match firstAccepting ((Record.get? d.getters name).getD []) 0 with
  | some getter =>
    let r := getter.invoke o []
    (r.1.map some, r.2)
  | none =>
    match Record.get? d.fields name with
    | some field => ((field.get o).map some, o)
    | none => (readGeneric o name d.genericGetters, o)

/-- Write a property: the first setter of that name that takes one argument, then the field, then
the generic setters. The answer is whether anything took the value. -/
def write (d : Description κ) (o : Object κ) (name : String) (v : Value) :
    Except InvokeError Bool × Object κ :=
  match firstAccepting ((Record.get? d.setters name).getD []) 1 with
  | some setter =>
    let r := setter.invoke o [v]
    (r.1.map fun _ => true, r.2)
  | none =>
    match Record.get? d.fields name with
    | some field =>
      let r := field.set o v
      (r.1.map fun _ => true, r.2)
    | none => writeGeneric name v o d.genericSetters

/-- Choose among overloads and run the choice. `member` names them in the fault that none takes so
many arguments. -/
def invokeFirst (member : String) (overloads : List (Method κ)) (o : Object κ)
    (args : List Value) : Except InvokeError Value × Object κ :=
  match firstAccepting overloads args.length with
  | some m => m.invoke o args
  | none => (.error (.arityMismatch member args.length), o)

/-- Call a method by name. -/
def call (d : Description κ) (o : Object κ) (name : String) (args : List Value) :
    Except InvokeError (Option Value) × Object κ :=
  match Record.get? d.methods name with
  | none => (.ok none, o)
  | some overloads =>
    let r := invokeFirst name overloads o args
    (r.1.map some, r.2)

/-- Make an instance with the first constructor that takes so many arguments. -/
def construct (d : Description κ) (args : List Value) : Except InvokeError (Option (Object κ)) :=
  if d.constructors.isEmpty then .ok none
  else
    match d.constructors.find? fun c => c.accepts args.length with
    | some c => (c.construct args).map some
    | none => .error (.arityMismatch (HostTypes.name d.targetClass) args.length)

/-- Call the instance itself. -/
def apply (d : Description κ) (o : Object κ) (args : List Value) :
    Except InvokeError (Option Value) × Object κ :=
  if d.applyFunctions.isEmpty then (.ok none, o)
  else
    let r := invokeFirst (HostTypes.name d.targetClass) d.applyFunctions o args
    (r.1.map some, r.2)

/-- The names of the properties that are enumerated: fields, then the getters that are not also
fields. -/
def propertyKeys (d : Description κ) : List String :=
  Record.keys d.fields ++ (Record.keys d.getters).filter fun k => !(Record.keys d.fields).contains k

end Description

end HostBridge
