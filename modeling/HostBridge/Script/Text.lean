import HostBridge.Engine.CopyOut
import HostBridge.Script.Grammar
import HostBridge.Script.Statement

/-!
# Scripts in text

A text with a null character never gets into the engine. Any other text is a script; one that makes
no sense is a script that only throws, so nothing of it takes effect (`Script.read`).
-/

namespace HostBridge.Script

/-- The byte offset of the first null character in a text, from an offset on. -/
def nullOffset? (offset : Nat) : List Char → Option Nat
  | [] => none
  | c :: cs => if c = '\x00' then some offset else nullOffset? (offset + c.utf8Size) cs

/-- The script in a text. -/
def read (text : String) : Except EngineError Script :=
  match nullOffset? 0 text.toList with
  | some offset => .error (.nullCharacter offset)
  | none =>
    .ok (match parse text with
      | .ok body => [.code body]
      | .error f => [.throw (.error f.message)])

end HostBridge.Script
