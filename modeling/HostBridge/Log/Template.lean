import HostBridge.Value.Text
import HostBridge.Text.Unsigned

/-!
# Message templates

A template is text with placeholders: an unsigned number between braces, which stands for the
argument of that index. Rendering is one pass from left to right; the text of an argument is
inserted as it is and never looked at again. A closing brace outside a placeholder is text.

The first fault from the left ends the rendering: a placeholder that is not closed or holds
something other than a number (`malformedPlaceholder`, with the byte at which it opens), one whose
argument is not there (`missingArgument`), or one whose argument fails to be displayed (`sink`).
Nothing is asked of an argument but to be displayed (`Display`).
-/

namespace HostBridge

/-- Things that can be displayed. -/
class Display (α : Type) where
  /-- The text of a thing, unless displaying it fails. -/
  text? : α → Option String

instance : Display Value := ⟨fun v => some v.display⟩

instance : Display String := ⟨some⟩

instance : Display Nat := ⟨fun n => some (Nat.repr n)⟩

/-- A thing of which nothing is known but how it is displayed. -/
structure Argument where
  text? : Option String

instance : Display Argument := ⟨Argument.text?⟩

/-- A thing as an argument. -/
def Argument.of {α : Type} [Display α] (a : α) : Argument := ⟨Display.text? a⟩

/-- Why a log entry was not written. -/
inductive LogError where
  | missingArgument (index count : Nat)
  | malformedPlaceholder (position : Nat)
  | sink (reason : String)
deriving DecidableEq

/-- An argument failed to be displayed. -/
def LogError.undisplayed : LogError := sink "an error occurred when formatting an argument"

/-- The wording of a fault. -/
def LogError.message : LogError → String
  | missingArgument index count =>
    "placeholder \x7b" ++ Nat.repr index ++ "\x7d has no matching argument (" ++ Nat.repr count ++
      " supplied)"
  | malformedPlaceholder position => "malformed placeholder at byte " ++ Nat.repr position
  | sink reason => "log sink failed: " ++ reason

/-- The name of the cause. -/
def LogError.cause : LogError → String
  | missingArgument _ _ => "MissingArgument"
  | malformedPlaceholder _ => "MalformedPlaceholder"
  | sink _ => "Sink"

namespace Template

mutual

/-- Render text outside a placeholder, starting at byte `pos`. -/
def literal (args : List (Option (List Char))) (pos : Nat) :
    List Char → Except LogError (List Char)
  | [] => .ok []
  | c :: cs =>
    if c = '\x7b' then placeholder args pos [] (pos + 1) cs
    else (literal args (pos + c.utf8Size) cs).map (c :: ·)

/-- Render from inside a placeholder that opened at byte `start`; `seen` is what stands between
the brace and byte `pos`, last character first. -/
def placeholder (args : List (Option (List Char))) (start : Nat) (seen : List Char) (pos : Nat) :
    List Char → Except LogError (List Char)
  | [] => .error (.malformedPlaceholder start)
  | c :: cs =>
    if c = '\x7d' then
      match Unsigned.read? seen.reverse with
      | none => .error (.malformedPlaceholder start)
      | some index =>
        match args[index]? with
        | none => .error (.missingArgument index args.length)
        | some none => .error .undisplayed
        | some (some arg) => (literal args (pos + 1) cs).map (arg ++ ·)
    else placeholder args start (c :: seen) (pos + c.utf8Size) cs

end

variable {α : Type} [Display α]

/-- The texts of the arguments, as far as they can be displayed. -/
def texts (args : List α) : List (Option (List Char)) :=
  args.map fun a => (Display.text? a).map String.toList

/-- Render a template with the texts of the arguments. -/
def render (template : String) (args : List α) : Except LogError String :=
  (literal (texts args) 0 template.toList).map String.ofList

end Template

end HostBridge
