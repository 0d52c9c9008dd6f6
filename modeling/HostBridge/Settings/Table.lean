import HostBridge.Json.Struct

/-!
# Tables of fields

A structure of settings is described once, by a table of its fields (`Column`): their names, what
they hold, and how that is got from the structure and put into it. Reading and writing both follow
the table. Structures inside a structure have a table of their own each (`Section`).
-/

namespace HostBridge.Settings

open Json (Reader)

/-! ## Writing -/

/-- A quoted text. -/
def quoted (s : String) : List Char := Json.Quoted.encode s.toList

/-- A flag. -/
def flagText (b : Bool) : List Char := if b then "true".toList else "false".toList

/-- A line break and two blanks for each level. -/
def newline (level : Nat) : List Char := '\n' :: List.replicate (2 * level) ' '

/-- An object with each entry on a line of its own. -/
def objectText (level : Nat) (entries : List (String × List Char)) : List Char :=
  let lines := entries.map fun e => newline (level + 1) ++ quoted e.1 ++ ": ".toList ++ e.2
  '{' :: (lines.intersperse [',']).flatten ++ newline level ++ ['}']

/-! ## Fields -/

/-- What a field holds: a flag, a text, or one of some variants, each of which has a name. -/
inductive Scalar : Type → Type 1 where
  | flag : Scalar Bool
  | text : Scalar String
  | choice {α : Type} (variant : String → Option α) (label : α → String)
      (known : ∀ a, variant (label a) = some a) : Scalar α

namespace Scalar

/-- Read what a field holds. -/
def read : {α : Type} → Scalar α → Reader α
  | _, flag => Json.readFlag
  | _, text => Json.readText
  | _, choice variant _ _ => Json.readChoice variant

/-- Write what a field holds. -/
def write : {α : Type} → Scalar α → α → List Char
  | _, flag, b => flagText b
  | _, text, t => quoted t
  | _, choice _ label _, a => quoted (label a)

theorem shrinks {α : Type} (k : Scalar α) : k.read.Shrinks := by
  cases k with
  | flag => exact fun _ _ _ h => Nat.le_of_lt (Json.length_readFlag_lt h)
  | text => exact fun _ _ _ h => Nat.le_of_lt (Json.length_readText_lt h)
  | choice => exact fun _ _ _ h => Nat.le_of_lt (Json.length_readChoice_lt h)

end Scalar

/-- A field of a structure. -/
structure Column (σ : Type) where
  name : String
  {content : Type}
  scalar : Scalar content
  get : σ → content
  put : σ → content → σ

/-- A structure in a structure. What is not given of it is as in `start`. -/
structure Section (σ : Type) where
  name : String
  {content : Type}
  columns : List (Column content)
  distinct : (columns.map Column.name).Nodup
  start : content
  get : σ → content
  put : σ → content → σ

variable {σ : Type}

theorem Column.shrinks (c : Column σ) : c.scalar.read.Shrinks := c.scalar.shrinks

/-- How a field is read. -/
def Column.field (c : Column σ) : Json.Field σ := .storing c.name c.scalar.read c.put c.shrinks

/-- How a field is written. -/
def Column.line (c : Column σ) (s : σ) : String × List Char := (c.name, c.scalar.write (c.get s))

/-- How a structure in a structure is read. -/
def Section.field (e : Section σ) : Json.Field σ :=
  .struct e.name (e.columns.map Column.field) e.start e.put

/-- How a structure in a structure is written. -/
def Section.line (e : Section σ) (s : σ) : String × List Char :=
  (e.name, objectText 1 (e.columns.map fun c => c.line (e.get s)))

end HostBridge.Settings
