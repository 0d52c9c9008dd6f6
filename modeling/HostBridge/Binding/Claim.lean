import HostBridge.Record

/-!
# Claims on member names

Six kinds of member claim a name. Claims on one name get along when they are overloads of one
another or make up one property; any other pair is a collision. `claim` records a claim and says
which earlier one it collides with: the earliest that does.
-/

namespace HostBridge

/-- The kinds of member that claim a name. -/
inductive MemberKind where
  | field
  | getter
  | setter
  | method
  | genericGetter
  | genericSetter
deriving DecidableEq

namespace MemberKind

/-- The name of a kind in messages. -/
def label : MemberKind → String
  | field => "field"
  | getter => "getter"
  | setter => "setter"
  | method => "method"
  | genericGetter => "generic getter"
  | genericSetter => "generic setter"

/-- The kind with a name. -/
def ofLabel? (s : String) : Option MemberKind :=
  [field, getter, setter, method, genericGetter, genericSetter].find? fun k => k.label == s

/-- The name of a kind in debugging texts. -/
def debugLabel : MemberKind → String
  | field => "Field"
  | getter => "Getter"
  | setter => "Setter"
  | method => "Method"
  | genericGetter => "GenericGetter"
  | genericSetter => "GenericSetter"

/-- Two claims on one name get along: getters and setters form one property, and repeated getters,
setters, methods and generic accessors are overloads. A field gets along with nothing. -/
def compatible : MemberKind → MemberKind → Bool
  | getter, setter | setter, getter => true
  | field, _ => false
  | a, b => a == b

end MemberKind

/-- Two claims on one name that do not get along. -/
structure Collision where
  name : String
  existing : MemberKind
  incoming : MemberKind
deriving DecidableEq

/-- The wording of a collision. -/
def Collision.message (c : Collision) : String :=
  "'" ++ c.name ++ "' claimed as " ++ c.existing.label ++ " and " ++ c.incoming.label

/-- The claims made so far, by name. -/
abbrev Claims := Record (List MemberKind)

namespace Claims

/-- The kinds that have claimed a name, in order. -/
def of (claims : Claims) (name : String) : List MemberKind := (Record.get? claims name).getD []

/-- The collision that a claim would make: with the earliest claim it does not get along with. -/
def collision? (claims : Claims) (name : String) (kind : MemberKind) : Option Collision :=
  ((claims.of name).find? fun earlier => !earlier.compatible kind).map fun earlier =>
    ⟨name, earlier, kind⟩

/-- The claims with one more. -/
def claim (claims : Claims) (name : String) (kind : MemberKind) : Claims :=
  Record.push claims name kind

end Claims

end HostBridge
