import HostBridge.Binding.Host
import HostBridge.Value

/-!
# A host with property bags and vectors

A concrete host: its types are property bags, which hold an ordered record of values, plane
vectors, and one type that no class is made of. Bags and vectors present themselves as the classes
that their `ClassInfo` describes; two bag types may share a class name.
-/

namespace HostBridge

/-- How a type presents itself as a class. -/
structure ClassInfo where
  /-- The full name of the type. -/
  path : String
  name : String
  supertypes : List String := []
  declaredMode : Option ConversionMode := none
deriving DecidableEq

/-- A vector in the plane. -/
structure Vec2 where
  x : Double
  y : Double
deriving DecidableEq

/-- The types of the host. -/
inductive HostType where
  | bag (info : ClassInfo)
  | vector (info : ClassInfo)
  | foreign
deriving DecidableEq

namespace HostType

/-- The class that a type presents itself as. The foreign type presents itself as nothing. -/
def info : HostType → ClassInfo
  | bag info | vector info => info
  | foreign => ⟨"", "", [], none⟩

/-- What an instance holds. -/
@[reducible] def State : HostType → Type
  | bag _ => Record Value
  | vector _ => Vec2
  | foreign => Unit

instance : HostTypes HostType where
  State := State
  name t := t.info.name
  path t := t.info.path
  supertypes t := t.info.supertypes
  declaredMode t := t.info.declaredMode

end HostType

/-- An instance of one of the host's types. -/
abbrev HostObject := Object HostType

namespace HostObject

/-- A property bag. -/
def bag (info : ClassInfo) (props : Record Value) : HostObject := ⟨.bag info, props⟩

/-- A vector. -/
def vector (info : ClassInfo) (v : Vec2) : HostObject := ⟨.vector info, v⟩

/-- An instance of no class. -/
def foreign : HostObject := ⟨.foreign, ()⟩

/-- Store a property in a bag. Other objects have none to store. -/
def putProp (o : HostObject) (key : String) (v : Value) : HostObject :=
  match o with
  | ⟨.bag info, props⟩ => bag info (Record.put props key v)
  | o => o

end HostObject

end HostBridge
