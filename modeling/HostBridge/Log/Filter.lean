import HostBridge.Log
import HostBridge.Text.Blank
import HostBridge.Text.Unsigned

/-!
# Log filters

A filter lets through the events of a level and of all graver ones, or none at all.
-/

namespace HostBridge

/-- Which events are let through. -/
inductive Filter where
  | off
  | upTo (l : Level)
deriving DecidableEq

namespace Filter

/-- All filters, from the narrowest to the widest. -/
def all : List Filter :=
  [off, upTo .error, upTo .warn, upTo .info, upTo .debug, upTo .trace]

/-- The name of a filter. -/
def label : Filter → String
  | off => "off"
  | upTo .error => "error"
  | upTo .warn => "warn"
  | upTo .info => "info"
  | upTo .debug => "debug"
  | upTo .trace => "trace"

/-- The filter lets an event of this level through. -/
def admits : Filter → Level → Bool
  | off, _ => false
  | upTo l, m => m.rank ≤ l.rank

/-- The filter that a text means, white space around it aside: its number from 0 to 5, its name in
any case, or nothing at all, which is `error`. -/
def read? (s : String) : Option Filter :=
  let cs := Blank.trim s.toList
  match (Unsigned.read? cs).bind fun n => all[n]? with
  | some f => some f
  | none =>
    if cs = [] then some (upTo .error)
    else all.find? fun f => f.label.toList == cs.map Char.toLower

end Filter

end HostBridge
