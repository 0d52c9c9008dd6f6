/-!
# Faults of a JSON text

A text is read in one pass and the first problem that is met decides the fault.
-/

namespace HostBridge.Json

/-- Why a text is refused. -/
inductive Fault where
  /-- It is not what the grammar allows, or escapes half of a surrogate pair in a text that has to
  be read. -/
  | malformed
  /-- It could be read so far, but a value is not what its place asks for. -/
  | mismatch
  /-- It ends too early. -/
  | ended
deriving DecidableEq

/-- The name of a fault. -/
def Fault.category : Fault → String
  | malformed => "Syntax"
  | mismatch => "Data"
  | ended => "Eof"

/-- Reading off the front of a text: a result and the rest of the text. -/
abbrev Reader (α : Type) := List Char → Except Fault (α × List Char)

/-- What a reader leaves is no longer than what it was given. -/
def Reader.Shrinks {α : Type} (p : Reader α) : Prop :=
  ∀ cs a rest, p cs = .ok (a, rest) → rest.length ≤ cs.length

/-- The white space between tokens. -/
def isBlank (c : Char) : Bool := c == ' ' || c == '\t' || c == '\n' || c == '\r'

/-- The text from its first token on. -/
def dropBlanks (cs : List Char) : List Char := cs.dropWhile isBlank

theorem length_dropBlanks_le (cs : List Char) : (dropBlanks cs).length ≤ cs.length :=
  (List.dropWhile_sublist isBlank).length_le

end HostBridge.Json
