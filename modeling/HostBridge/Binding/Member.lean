import HostBridge.Binding.Host
import HostBridge.Value

/-!
# Members

The members a host class can have: fields, methods (also used as getters, setters and apply
functions), generic accessors that are asked by key, and constructors. Each is written for one
host type, its owner, and runs on no other.

The order of checks is fixed: a method looks at the number of arguments before it looks at the
receiver, and a field that cannot be written says so before it looks at the receiver.
-/

namespace HostBridge

/-- The number of arguments that something callable takes. -/
inductive Arity where
  | exactly (n : Nat)
  | atLeast (n : Nat)
deriving DecidableEq

/-- The number of arguments is accepted. -/
def Arity.accepts : Arity → Nat → Bool
  | exactly n, count => count == n
  | atLeast n, count => decide (n ≤ count)

/-! ## Reading arguments -/

namespace Args

/-- The argument at an index, or the fault that it is missing where `expected` was wanted. -/
def get (args : List Value) (index : Nat) (expected : String) : Except InvokeError Value :=
  match args[index]? with
  | some v => .ok v
  | none => .error (.argumentType index expected "undefined")

/-- The argument at an index through a view, or the fault that it is missing or not of the
`expected` kind. -/
def through {α : Type} (view : Value → Option α) (expected : String) (args : List Value)
    (index : Nat) : Except InvokeError α :=
  match get args index expected with
  | .error e => .error e
  | .ok v =>
    match view v with
    | some a => .ok a
    | none => .error (.argumentType index expected v.typeName)

/-- The argument as a number. -/
def double (args : List Value) (index : Nat) : Except InvokeError Double :=
  through Value.toDouble? "number" args index

/-- The argument as an integer. -/
def int64 (args : List Value) (index : Nat) : Except InvokeError Int64 :=
  through Value.toInt64? "integer" args index

/-- The argument as text. -/
def text (args : List Value) (index : Nat) : Except InvokeError String :=
  through Value.text? "string" args index

end Args

/-! ## Kinds of member -/

/-- A data field. -/
structure Field (κ : Type) [HostTypes κ] where
  name : String
  exposure : Exposure := .unmarked
  owner : κ
  read : HostTypes.State owner → Value
  /-- Absent for a read-only field. -/
  write : Option (HostTypes.State owner → Value →
    Except InvokeError Unit × HostTypes.State owner) := none

/-- One overload of a method, getter, setter or apply function. -/
structure Method (κ : Type) [HostTypes κ] where
  name : String
  arity : Arity
  exposure : Exposure := .unmarked
  owner : κ
  body : HostTypes.State owner → List Value → Except InvokeError Value × HostTypes.State owner

/-- A reader asked for keys that no named member has. It answers nothing for keys it does not
know. -/
structure GenericGetter (κ : Type) [HostTypes κ] where
  name : String
  exposure : Exposure := .unmarked
  owner : κ
  read : HostTypes.State owner → String → Option Value

/-- A writer offered keys that no named member has. It answers whether it took the value. -/
structure GenericSetter (κ : Type) [HostTypes κ] where
  name : String
  exposure : Exposure := .unmarked
  owner : κ
  write : HostTypes.State owner → String → Value → Bool × HostTypes.State owner

/-- A constructor. -/
structure Constructor (κ : Type) [HostTypes κ] where
  arity : Arity
  exposure : Exposure := .unmarked
  owner : κ
  make : List Value → Except InvokeError (HostTypes.State owner)

variable {κ : Type} [HostTypes κ] [DecidableEq κ]

namespace Field

/-- Read the field. -/
def get (f : Field κ) (o : Object κ) : Except InvokeError Value := o.view f.owner f.read

/-- Write the field. -/
def set (f : Field κ) (o : Object κ) (v : Value) : Except InvokeError Unit × Object κ :=
  match f.write with
  | none => (.error (.readOnly f.name), o)
  | some write => o.run f.owner fun s => write s v

end Field

namespace Method

/-- A getter: no argument, reads only. -/
def getter (name : String) (owner : κ) (read : HostTypes.State owner → Value) : Method κ where
  name := name
  arity := .exactly 0
  owner := owner
  body s _ := (.ok (read s), s)

/-- A setter: one argument, answers nothing. -/
def setter (name : String) (owner : κ)
    (write : HostTypes.State owner → Value → Except InvokeError Unit × HostTypes.State owner) :
    Method κ where
  name := name
  arity := .exactly 1
  owner := owner
  body s args :=
    let r := write s (args.head?.getD .undefined)
    (r.1.map fun _ => .undefined, r.2)

/-- The overload takes so many arguments. -/
def accepts (m : Method κ) (count : Nat) : Bool := m.arity.accepts count

/-- Run this overload. -/
def invoke (m : Method κ) (o : Object κ) (args : List Value) :
    Except InvokeError Value × Object κ :=
  if m.accepts args.length then o.run m.owner fun s => m.body s args
  else (.error (.arityMismatch m.name args.length), o)

end Method

namespace GenericGetter

/-- Ask for a key. -/
def get (g : GenericGetter κ) (o : Object κ) (key : String) : Except InvokeError (Option Value) :=
  o.view g.owner fun s => g.read s key

end GenericGetter

namespace GenericSetter

/-- Offer a key and a value. -/
def set (g : GenericSetter κ) (o : Object κ) (key : String) (v : Value) :
    Except InvokeError Bool × Object κ :=
  o.run g.owner fun s =>
    let r := g.write s key v
    (.ok r.1, r.2)

end GenericSetter

namespace Constructor

/-- The constructor takes so many arguments. -/
def accepts (c : Constructor κ) (count : Nat) : Bool := c.arity.accepts count

/-- Make an instance. The number of arguments is not checked here. -/
def construct (c : Constructor κ) (args : List Value) : Except InvokeError (Object κ) :=
  (c.make args).map fun s => ⟨c.owner, s⟩

end Constructor

end HostBridge
