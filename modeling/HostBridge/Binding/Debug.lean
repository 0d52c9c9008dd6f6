import HostBridge.Binding.Policy

/-!
# Debugging texts

One-line texts of classes, members, collisions and policies: the name of the structure, then its
fields between braces.
-/

namespace HostBridge.Debug

/-- A structure with its fields. -/
def struct (name : String) (fields : List (String × String)) : String :=
  name ++ " \x7b " ++ ", ".intercalate (fields.map fun f => f.1 ++ ": " ++ f.2) ++ " \x7d"

/-- A name between quotes. -/
def quoted (s : String) : String := (FieldText.quoted s).line

/-- A list between brackets. -/
def list (items : List String) : String := "[" ++ ", ".intercalate items ++ "]"

/-- A truth value. -/
def flag (b : Bool) : String := if b then "true" else "false"

/-- An arity. -/
def arity : Arity → String
  | .exactly n => "Exact(" ++ Nat.repr n ++ ")"
  | .atLeast n => "AtLeast(" ++ Nat.repr n ++ ")"

variable {κ : Type} [HostTypes κ]

/-- A class. -/
def hostClass (c : κ) : String :=
  struct "ClassRef" [("name", quoted (HostTypes.name c)), ("type", quoted (HostTypes.path c)),
    ("conversion_mode", (HostTypes.mode c).label)]

/-- A field. -/
def field (f : Field κ) : String :=
  struct "FieldDescriptor" [("name", quoted f.name), ("exposure", f.exposure.label),
    ("writable", flag f.write.isSome)]

/-- A method. -/
def method (m : Method κ) : String :=
  struct "MethodDescriptor" [("name", quoted m.name), ("arity", arity m.arity),
    ("exposure", m.exposure.label)]

/-- A constructor. -/
def factory (c : Constructor κ) : String :=
  struct "ConstructorDescriptor" [("arity", arity c.arity), ("exposure", c.exposure.label)]

/-- A generic getter. -/
def genericGetter (g : GenericGetter κ) : String :=
  struct "GenericGetter" [("name", quoted g.name), ("exposure", g.exposure.label)]

/-- A generic setter. -/
def genericSetter (g : GenericSetter κ) : String :=
  struct "GenericSetter" [("name", quoted g.name), ("exposure", g.exposure.label)]

/-- A collision. -/
def collision (c : Collision) : String :=
  struct "Collision" [("name", quoted c.name), ("existing", c.existing.debugLabel),
    ("incoming", c.incoming.debugLabel)]

/-- A policy. The strategy has no text. -/
def policy (p : Policy κ) : String :=
  "ProxyPolicy \x7b proxy_mode: " ++ p.proxyMode.label ++ ", target_class: " ++
    hostClass p.targetClass ++ ", conversion_mode: " ++ p.conversionMode.label ++ ", .. \x7d"

/-- The parts of a description. -/
def description (d : Description κ) : List (String × String) :=
  [ ("class", hostClass d.targetClass),
    ("constructors", list (d.constructors.map factory)),
    ("fields", list (d.fields.map fun e => field e.2)),
    ("methods", list (d.methods.map fun e => list (e.2.map method))),
    ("generic_getters", list (d.genericGetters.map genericGetter)),
    ("generic_setters", list (d.genericSetters.map genericSetter)),
    ("collisions", list (d.collisions.map collision)) ]

end HostBridge.Debug
