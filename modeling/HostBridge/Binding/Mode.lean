/-!
# Modes of exposure

How a class is shown to scripts (`ProxyMode`), how a member is marked (`Exposure`), which members
and how much of their values a class lets through (`ConversionMode`), and what publishing does
with conflicting members (`CollisionPolicy`).
-/

namespace HostBridge

/-- How scripts see a bound class. -/
inductive ProxyMode where
  | classProxy
  | objectProxy
  | functionProxy
deriving DecidableEq

/-- The name of a proxy mode. -/
def ProxyMode.label : ProxyMode → String
  | classProxy => "Class"
  | objectProxy => "Object"
  | functionProxy => "Function"

/-- The proxy mode with a name. -/
def ProxyMode.ofLabel? (s : String) : Option ProxyMode :=
  [classProxy, objectProxy, functionProxy].find? fun m => m.label == s

theorem ProxyMode.ofLabel?_label (m : ProxyMode) : ofLabel? m.label = some m := by
  cases m <;> decide

/-- How a member is marked. -/
inductive Exposure where
  | unmarked
  | allow
  | block
deriving DecidableEq

/-- The name of a mark. -/
def Exposure.label : Exposure → String
  | unmarked => "Default"
  | allow => "Allow"
  | block => "Block"

/-- The mark with a name. -/
def Exposure.ofLabel? (s : String) : Option Exposure :=
  [unmarked, allow, block].find? fun e => e.label == s

/-- Which members of a class, and how much of their values, get through to scripts. -/
inductive ConversionMode where
  /-- Every member, containers in full. -/
  | transparent
  /-- Only members marked `allow`, containers sealed. -/
  | allowOnly
  /-- All members but those marked `block`, containers sealed. -/
  | blockOnly
deriving DecidableEq

namespace ConversionMode

/-- The name of a conversion mode. -/
def label : ConversionMode → String
  | transparent => "Transparent"
  | allowOnly => "AllowOnly"
  | blockOnly => "BlockOnly"

/-- The conversion mode with a name. -/
def ofLabel? (s : String) : Option ConversionMode :=
  [transparent, allowOnly, blockOnly].find? fun m => m.label == s

/-- The mode lets a member with this mark through. -/
def admits : ConversionMode → Exposure → Bool
  | transparent, _ => true
  | allowOnly, e => e == .allow
  | blockOnly, e => e != .block

/-- Containers inside a value are converted too. -/
def convertsNested : ConversionMode → Bool
  | transparent => true
  | _ => false

end ConversionMode

/-- What publishing does with recorded collisions. -/
inductive CollisionPolicy where
  | reject
  | allow
deriving DecidableEq

/-- The name of a collision policy. -/
def CollisionPolicy.label : CollisionPolicy → String
  | reject => "Reject"
  | allow => "Allow"

/-- The collision policy with a name. -/
def CollisionPolicy.ofLabel? (s : String) : Option CollisionPolicy :=
  [reject, allow].find? fun p => p.label == s

theorem CollisionPolicy.ofLabel?_label (p : CollisionPolicy) : ofLabel? p.label = some p := by
  cases p <;> decide

end HostBridge
