import HostBridge.Double
import HostBridge.Engine.Text

/-!
# Engine values

Inside the engine, values are immediate or references to objects. Objects may refer to each other in
any way, cycles included, and only references are compared: two objects are the same when their
numbers are.

A whole double in the 32-bit range, other than negative zero, is an integer in the engine
(`EngineValue.ofDouble`).
-/

namespace HostBridge

/-! ## Values -/

/-- A function that belongs to the engine, as far as it matters what it does. -/
inductive Native where
  /-- Answers the receiver. -/
  | receiver
  /-- Answers the text that a text object holds. -/
  | heldText
  | objectText
  | arrayText
  | join
  | errorText
  | functionText
  | regexpText
  | dateText
  /-- Answers the time of a date. -/
  | dateTime
  | attachHandlers
  | attachRejectionHandler
  /-- A function that the objects of an owner inherit, or that belongs to the owner itself. -/
  | member (owner name : String) (parameters : Nat)
  /-- Any other function, by its name and the number of its parameters. -/
  | other (name : String) (parameters : Nat)
deriving DecidableEq

/-- A value in the engine. -/
inductive EngineValue where
  | undefined
  | null
  | bool (b : Bool)
  | int (i : Int32)
  | float (d : Double)
  | text (t : EngineText)
  | symbol (description : String)
  | bigint (n : Int)
  /-- An error made from a message alone. Nothing tells two of them apart but the message. -/
  | error (message : String)
  /-- A function that belongs to the engine. -/
  | native (f : Native)
  /-- The object with this number. -/
  | ref (id : Nat)
deriving Inhabited

namespace EngineValue

/-- A double as the engine holds it. -/
def ofDouble (d : Double) : EngineValue :=
  match d.toInt? with
  | some n =>
    if -Int.pow 2 31 ≤ n ∧ n < Int.pow 2 31 ∧ ¬ (d.isZero ∧ d.isNegative) then int (Int32.ofInt n)
    else float d
  | none => float d

/-- A natural number as the engine holds it. -/
def ofNat (n : Nat) : EngineValue := ofDouble (Double.ofNat n)

/-- A text from outside the engine. -/
def ofString (s : String) : EngineValue := text (EngineText.ofString s)

/-- The value is an object. -/
def isObject : EngineValue → Bool
  | error _ | native _ | ref _ => true
  | _ => false

/-- The value counts as true. -/
def isTruthy : EngineValue → Bool
  | undefined | null => false
  | bool b => b
  | int i => i != 0
  | float d => !(d.isZero || d.isNaN)
  | text t => !t.isEmpty
  | bigint n => n != 0
  | symbol _ | error _ | native _ | ref _ => true

end EngineValue

/-! ## Promises and completions -/

/-- How a promise was settled. -/
inductive Settlement where
  | fulfilled (v : EngineValue)
  | rejected (reason : EngineValue)

/-- The value or the reason of a settlement. -/
def Settlement.value : Settlement → EngineValue
  | fulfilled v | rejected v => v

/-- A promise: how it was settled, if it was, whether a handler was ever attached to it, and how
often it was left to another object to settle it. -/
structure PromiseState where
  settlement : Option Settlement := none
  handled : Bool := false
  pledges : Nat := 0

namespace PromiseState

/-- Rejected, and no handler was attached so far. -/
def isUnhandled (p : PromiseState) : Bool :=
  match p.settlement with
  | some (.rejected _) => !p.handled
  | _ => false

/-- The functions can still settle it that were made when it had been left so often. -/
def isOpen (p : PromiseState) (pledges : Nat) : Bool := p.settlement.isNone && p.pledges == pledges

end PromiseState

/-- How a piece of script code ends. -/
inductive Completion where
  | normal (v : EngineValue)
  | thrown (v : EngineValue)

namespace Completion

/-- How code that ends in this way settles a promise. -/
def settlement : Completion → Settlement
  | normal v => .fulfilled v
  | thrown v => .rejected v

end Completion

end HostBridge
