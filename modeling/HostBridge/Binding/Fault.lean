import HostBridge.Binding.Claim

/-!
# Faults of bindings

Why running a member, publishing a description or making a policy failed, and the wording of each
cause.
-/

namespace HostBridge

/-- Why running a member failed. -/
inductive InvokeError where
  /-- The receiver is of another type than the member's. -/
  | receiverMismatch (expected : String)
  /-- No overload, or not this one, takes so many arguments. -/
  | arityMismatch (member : String) (count : Nat)
  /-- An argument is missing or of the wrong kind. -/
  | argumentType (index : Nat) (expected found : String)
  /-- The field has no way to write it. -/
  | readOnly (name : String)
  /-- The host's own code refused. -/
  | host (reason : String)
deriving DecidableEq

/-- The wording of a failed call. -/
def InvokeError.message : InvokeError → String
  | receiverMismatch expected => "receiver is not an instance of " ++ expected
  | arityMismatch member count =>
    "'" ++ member ++ "' does not accept " ++ Nat.repr count ++ " argument(s)"
  | argumentType index expected found =>
    "argument " ++ Nat.repr index ++ " expected " ++ expected ++ ", found " ++ found
  | readOnly name => "field '" ++ name ++ "' is read-only"
  | host reason => reason

/-- The name of the cause. -/
def InvokeError.cause : InvokeError → String
  | receiverMismatch _ => "ReceiverMismatch"
  | arityMismatch _ _ => "ArityMismatch"
  | argumentType _ _ _ => "ArgumentType"
  | readOnly _ => "ReadOnly"
  | host _ => "Host"

/-- Why a description could not be redirected or published, or a binding not made. -/
inductive RegistryError where
  | collisions (className : String) (recorded : List Collision)
  | incompatibleRedirect (source target : String)
  | classMismatch (policy description : String)
deriving DecidableEq

/-- The wording of a failed registration. -/
def RegistryError.message : RegistryError → String
  | collisions className recorded =>
    "class '" ++ className ++ "' has " ++ Nat.repr recorded.length ++
      " conflicting member claim(s)"
  | incompatibleRedirect source target =>
    "cannot redirect binding from '" ++ source ++ "' to incompatible class '" ++ target ++ "'"
  | classMismatch policy description =>
    "policy targets '" ++ policy ++ "' but descriptor targets '" ++ description ++ "'"

/-- The name of the cause. -/
def RegistryError.cause : RegistryError → String
  | collisions _ _ => "Collisions"
  | incompatibleRedirect _ _ => "IncompatibleRedirect"
  | classMismatch _ _ => "ClassMismatch"

/-- The collisions that the cause consists of. -/
def RegistryError.recorded : RegistryError → List Collision
  | collisions _ recorded => recorded
  | _ => []

/-- Why a policy could not be made. -/
inductive PolicyError where
  | missingStrategy (className : String)
deriving DecidableEq

/-- The wording of a policy that could not be made. -/
def PolicyError.message : PolicyError → String
  | missingStrategy className =>
    "proxy policy for class '" ++ className ++ "' requires an interception strategy"

/-- The name of the cause. -/
def PolicyError.cause : PolicyError → String
  | missingStrategy _ => "MissingStrategy"

end HostBridge
