import HostBridge.Engine.Node

/-!
# Specimens

Objects of unusual kinds, one of each, to show what reading, listing and copying make of them.
-/

namespace HostBridge

/-- The unusual objects. -/
inductive Specimen where
  /-- A map with one entry. -/
  | map
  | date
  /-- The regular expression `/x/g`. -/
  | regexp
  /-- An object that inherits from nothing. -/
  | orphan
  /-- An empty object that inherits a listed property. -/
  | heir
  /-- An object that holds the text `hi`. -/
  | boxedText
  | typeError
  /-- An array in which the second of three items is missing. -/
  | sparse
  | bytes
deriving DecidableEq

namespace Specimen

/-- The specimen that goes by a label. -/
def ofLabel? : String → Option Specimen
  | "map" => some map
  | "date" => some date
  | "regexp" => some regexp
  | "null_proto" => some orphan
  | "inherits" => some heir
  | "boxed" => some boxedText
  | "type_error" => some typeError
  | "holes" => some sparse
  | "bytes" => some bytes
  | _ => none

/-- A specimen. -/
def node : Specimen → Node
  | map => { kind := .map 1 }
  | date => { kind := .date }
  | regexp => { kind := .regexp "x" "g", props := [("lastIndex", .hidden (.int 0))] }
  | orphan => { parent := none }
  | heir => {}
  | boxedText => { kind := .text (EngineText.ofString "hi") }
  | typeError => { Node.ofMessage "typed" with parent := some Standard.typeError.id }
  | sparse => { kind := .array [some (.plain (.int 1)), none, some (.plain (.int 3))] 3 }
  | bytes => { kind := .bytes [7, 8] }

/-- The object from which a specimen inherits, if it has one of its own. -/
def parent? : Specimen → Option Node
  | heir => some { props := [("inherited", .plain (.int 1))] }
  | _ => none

/-- A specimen and the further objects that it needs, the first of which gets the number `next`. -/
def make (s : Specimen) (next : Nat) : Node × List Node :=
  match s.parent? with
  | some parent => ({ s.node with parent := some next }, [parent])
  | none => (s.node, [])

end Specimen

end HostBridge
