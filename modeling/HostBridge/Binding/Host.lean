import HostBridge.Binding.Fault
import HostBridge.Binding.Mode

/-!
# Host types and objects

The library is generic in the types a host has. `HostTypes κ` says that `κ` lists them: what the
instances of each hold, and how each presents itself as a class. An `Object` is an instance
together with its type, and code written for one type runs on an object only if that is the
object's type (`Object.run`, `Object.view`); otherwise nothing runs and the object stays as it is.
-/

namespace HostBridge

/-- The types of a host. Equality of two members of `κ` is identity of types: two types may share
a name. -/
class HostTypes (κ : Type) where
  /-- What an instance holds. -/
  State : κ → Type
  /-- The class name that scripts see. -/
  name : κ → String
  /-- The full name of the type, for messages. -/
  path : κ → String
  /-- The names of the classes that an instance may stand in for. -/
  supertypes : κ → List String
  /-- The conversion mode that the class declares, if any. -/
  declaredMode : κ → Option ConversionMode

namespace HostTypes

variable {κ : Type} [HostTypes κ]

/-- The conversion mode of a class: the declared one, or transparent. -/
def mode (c : κ) : ConversionMode := (declaredMode c).getD .transparent

/-- Instances of `c` may stand in for instances of `d`: the types are the same, or `d` is named
among the supertypes of `c`. -/
def assignable [DecidableEq κ] (c d : κ) : Bool := c == d || (supertypes c).contains (name d)

end HostTypes

/-- An instance of a host type. -/
structure Object (κ : Type) [HostTypes κ] where
  type : κ
  state : HostTypes.State type

namespace Object

variable {κ : Type} [HostTypes κ] [DecidableEq κ] {α : Type}

/-- Run code written for `owner` on an object, leaving the object in its new state also when the
code fails. -/
def run (o : Object κ) (owner : κ)
    (code : HostTypes.State owner → Except InvokeError α × HostTypes.State owner) :
    Except InvokeError α × Object κ :=
  if h : o.type = owner then
    let r := code (h ▸ o.state)
    (r.1, ⟨owner, r.2⟩)
  else
    (.error (.receiverMismatch (HostTypes.path owner)), o)

/-- Look at an object with code written for `owner`. -/
def view (o : Object κ) (owner : κ) (look : HostTypes.State owner → α) : Except InvokeError α :=
  if h : o.type = owner then .ok (look (h ▸ o.state))
  else .error (.receiverMismatch (HostTypes.path owner))

/-- Code runs on an object of its own type. -/
theorem run_self (c : κ) (s : HostTypes.State c)
    (code : HostTypes.State c → Except InvokeError α × HostTypes.State c) :
    run ⟨c, s⟩ c code = ((code s).1, ⟨c, (code s).2⟩) := by
  simp [run]

/-- No code runs on an object of another type. -/
theorem run_of_ne (o : Object κ) (owner : κ) (h : o.type ≠ owner)
    (code : HostTypes.State owner → Except InvokeError α × HostTypes.State owner) :
    o.run owner code = (.error (.receiverMismatch (HostTypes.path owner)), o) := by
  simp [run, h]

theorem view_self (c : κ) (s : HostTypes.State c) (look : HostTypes.State c → α) :
    view ⟨c, s⟩ c look = .ok (look s) := by
  simp [view]

theorem view_of_ne (o : Object κ) (owner : κ) (h : o.type ≠ owner)
    (look : HostTypes.State owner → α) :
    o.view owner look = .error (.receiverMismatch (HostTypes.path owner)) := by
  simp [view, h]

end Object

end HostBridge
