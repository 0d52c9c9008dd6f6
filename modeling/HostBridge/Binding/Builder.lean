import HostBridge.Binding.Description
import HostBridge.Log

/-!
# Building a description

A builder takes members one at a time. A member whose mark the class does not let through is
skipped and leaves no trace. Any other is entered in its table, and if its name is already claimed
in a way that does not get along with it, the collision is recorded as well; of several fields of
one name only the first is kept. `redirect` moves the builder to a related class, whose conversion
mode governs the members that follow.

`publish` freezes the tables, unless there are collisions and the policy rejects them.
-/

namespace HostBridge

/-- A member to be added. -/
inductive Addition (κ : Type) [HostTypes κ] where
  | factory (c : Constructor κ)
  | field (f : Field κ)
  | method (m : Method κ)
  | getter (m : Method κ)
  | setter (m : Method κ)
  | genericGetter (g : GenericGetter κ)
  | genericSetter (g : GenericSetter κ)
  | applyFunction (m : Method κ)

/-- What adding a member did. -/
inductive Registration where
  | added
  | collided (c : Collision)
  | skipped
deriving DecidableEq

namespace Addition

variable {κ : Type} [HostTypes κ]

/-- The mark of the member. -/
def exposure : Addition κ → Exposure
  | factory c => c.exposure
  | field f => f.exposure
  | method m | getter m | setter m | applyFunction m => m.exposure
  | genericGetter g => g.exposure
  | genericSetter g => g.exposure

/-- The name that the member claims, and as what. Constructors and apply functions claim none. -/
def claimed? : Addition κ → Option (String × MemberKind)
  | factory _ | applyFunction _ => none
  | field f => some (f.name, .field)
  | method m => some (m.name, .method)
  | getter m => some (m.name, .getter)
  | setter m => some (m.name, .setter)
  | genericGetter g => some (g.name, .genericGetter)
  | genericSetter g => some (g.name, .genericSetter)

end Addition

/-- A description in the making. -/
structure Builder (κ : Type) [HostTypes κ] extends Description κ where
  claims : Claims := []

/-- One step of building. -/
inductive BuildStep (κ : Type) [HostTypes κ] where
  | add (a : Addition κ)
  | redirect (c : κ)

namespace Builder

variable {κ : Type} [HostTypes κ]

/-- The empty builder for a class. -/
def new (c : κ) : Builder κ := { targetClass := c, mode := HostTypes.mode c }

/-- The list with a name at its end, if it was not in it. -/
def insertKey (keys : List String) (name : String) : List String :=
  if name ∈ keys then keys else keys ++ [name]

/-- Enter a member in its table. -/
def enter (b : Builder κ) : Addition κ → Builder κ
  | .factory c => { b with constructors := b.constructors ++ [c] }
  | .field f =>
    if Record.has b.fields f.name then b
    else { b with fields := Record.put b.fields f.name f, keys := insertKey b.keys f.name }
  | .method m =>
    { b with methods := Record.push b.methods m.name m, keys := insertKey b.keys m.name }
  | .getter m =>
    { b with getters := Record.push b.getters m.name m, keys := insertKey b.keys m.name }
  | .setter m =>
    { b with setters := Record.push b.setters m.name m, keys := insertKey b.keys m.name }
  | .genericGetter g => { b with genericGetters := b.genericGetters ++ [g] }
  | .genericSetter g => { b with genericSetters := b.genericSetters ++ [g] }
  | .applyFunction m => { b with applyFunctions := b.applyFunctions ++ [m] }

/-- Record the claim of a member, and the collision if it makes one. -/
def claim (b : Builder κ) (a : Addition κ) : Registration × Builder κ :=
  match a.claimed? with
  | none => (.added, b)
  | some (name, kind) =>
    let claimed := { b with claims := b.claims.claim name kind }
    match b.claims.collision? name kind with
    | none => (.added, claimed)
    | some c => (.collided c, { claimed with collisions := b.collisions ++ [c] })

/-- Add a member. -/
def add (b : Builder κ) (a : Addition κ) : Registration × Builder κ :=
  if b.mode.admits a.exposure then
    let r := b.claim a
    (r.1, r.2.enter a)
  else
    (.skipped, b)

/-- The events of adding a member. -/
def addEvents (b : Builder κ) : Registration → List Event
  | .collided c =>
    [{ level := .debug, target := .builder, message := "member collision recorded",
       fields := [("class", .quoted (HostTypes.name b.targetClass)),
         ("collision", .plain c.message)] }]
  | _ => []

/-- Move to a class that can stand in for the present one, or that the present one can stand in
for. -/
def redirect [DecidableEq κ] (b : Builder κ) (c : κ) : Except RegistryError (Builder κ) :=
  if HostTypes.assignable c b.targetClass || HostTypes.assignable b.targetClass c then
    .ok { b with targetClass := c, mode := HostTypes.mode c }
  else
    .error (.incompatibleRedirect (HostTypes.name b.targetClass) (HostTypes.name c))

/-- The event of a redirect that succeeded. -/
def redirectEvents (b : Builder κ) (c : κ) : List Event :=
  [{ level := .debug, target := .builder, message := "redirecting class descriptor",
     fields := [("from", .quoted (HostTypes.name b.targetClass)),
       ("to", .quoted (HostTypes.name c))] }]

/-- One step of building. A redirect that fails changes nothing. -/
def step [DecidableEq κ] (b : Builder κ) : BuildStep κ → Builder κ × List Event
  | .add a =>
    let r := b.add a
    (r.2, b.addEvents r.1)
  | .redirect c =>
    match b.redirect c with
    | .ok b' => (b', b.redirectEvents c)
    | .error _ => (b, [])

/-- Steps of building, one after the other. -/
def run [DecidableEq κ] (b : Builder κ) : List (BuildStep κ) → Builder κ × List Event
  | [] => (b, [])
  | s :: steps =>
    let first := b.step s
    let rest := run first.1 steps
    (rest.1, first.2 ++ rest.2)

/-- Freeze the tables. -/
def publish (b : Builder κ) (policy : CollisionPolicy) : Except RegistryError (Description κ) :=
  if policy = .reject ∧ b.collisions ≠ [] then
    .error (.collisions (HostTypes.name b.targetClass) b.collisions)
  else
    .ok b.toDescription

/-- The events of freezing the tables: a warning for each collision that is rejected, or the sizes
of what is published. -/
def publishEvents (b : Builder κ) (policy : CollisionPolicy) : List Event :=
  let className : String × FieldText := ("class", .quoted (HostTypes.name b.targetClass))
  match b.publish policy with
  | .error _ =>
    b.collisions.map fun c =>
      { level := .warn, target := .builder, message := "member collision",
        fields := [className, ("collision", .plain c.message)] }
  | .ok d =>
    [{ level := .debug, target := .builder, message := "published class descriptor",
       fields := [className, ("fields", .count d.fields.length),
         ("methods", .count d.methods.length), ("getters", .count d.getters.length),
         ("setters", .count d.setters.length), ("collisions", .count d.collisions.length)] }]

end Builder

end HostBridge
