import HostBridge.Value

/-!
# Rejection events

The four things that can be reported of a promise, with their codes and names, and the event that
carries the promise and the reason.
-/

namespace HostBridge

/-- What is reported of a promise. -/
inductive RejectionKind where
  /-- It was rejected and has no handler. -/
  | noHandler
  /-- A handler was attached after it had been rejected. -/
  | handlerAdded
  /-- It was rejected after it had been resolved. -/
  | rejectedAgain
  /-- It was resolved after it had been resolved. -/
  | resolvedAgain
deriving DecidableEq

namespace RejectionKind

/-- The number of a kind. -/
def code : RejectionKind → Nat
  | noHandler => 0
  | handlerAdded => 1
  | rejectedAgain => 2
  | resolvedAgain => 3

/-- The kind with a number. -/
def ofCode? : Nat → Option RejectionKind
  | 0 => some noHandler
  | 1 => some handlerAdded
  | 2 => some rejectedAgain
  | 3 => some resolvedAgain
  | _ => none

/-- The name of a kind. -/
def name : RejectionKind → String
  | noHandler => "PromiseRejectWithNoHandler"
  | handlerAdded => "PromiseHandlerAddedAfterReject"
  | rejectedAgain => "PromiseRejectAfterResolved"
  | resolvedAgain => "PromiseResolveAfterResolved"

/-- The kind that an engine's notification means. An engine tells only these two apart. -/
def ofHandled (handled : Bool) : RejectionKind := if handled then handlerAdded else noHandler

@[simp] theorem ofCode?_code (k : RejectionKind) : ofCode? k.code = some k := by cases k <;> rfl

end RejectionKind

/-- A report on a promise. -/
structure RejectionEvent where
  kind : RejectionKind
  promise : Value
  reason : Value

end HostBridge
