import HostBridge.Value
import HostBridge.Double.Decimal
import HostBridge.Text.Integer

/-!
# The text of a value

Scalars are written plainly, text without quotes. Arrays read `[a, b]`, objects
`{ k: v, l: w }` with their entries in order and `{}` when empty, and a sealed value
`[object Name]`.
-/

namespace HostBridge

namespace Value

mutual

/-- The text of a value. -/
def display : Value → String
  | undefined => "undefined"
  | null => "null"
  | bool b => if b then "true" else "false"
  | int i => Integer.text i
  | float d => d.text
  | text s => s
  | array items => "[" ++ displayItems items ++ "]"
  | object [] => "\x7b\x7d"
  | object (e :: es) => "\x7b " ++ displayEntries (e :: es) ++ " \x7d"
  | sealed name => "[object " ++ name ++ "]"

/-- The items of an array, separated by commas. -/
def displayItems : List Value → String
  | [] => ""
  | [v] => display v
  | v :: w :: vs => display v ++ ", " ++ displayItems (w :: vs)

/-- The entries of an object, separated by commas. -/
def displayEntries : List (String × Value) → String
  | [] => ""
  | [(k, v)] => k ++ ": " ++ display v
  | (k, v) :: e :: es => k ++ ": " ++ display v ++ ", " ++ displayEntries (e :: es)

end

end Value

end HostBridge
