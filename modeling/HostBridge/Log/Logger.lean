import HostBridge.Log
import HostBridge.Log.Template

/-!
# Host loggers

A logger takes an entry (a level, a template and its arguments) and writes it, refuses it with a
`LogError`, or panics. It may keep a state of its own, which survives all three, and may emit
events.
-/

namespace HostBridge

/-- What became of an entry. -/
inductive Delivery where
  | written
  | refused (e : LogError)
  | panicked

/-- A logger's answer: what became of the entry, its state afterwards and the events emitted. -/
structure LogAnswer (σ : Type) where
  delivery : Delivery
  state : σ
  events : List Event := []

/-- A logger with states in `σ`. -/
structure Logger (σ : Type) where
  log : σ → Level → String → List Argument → LogAnswer σ

/-- The loggers a host comes with. -/
inductive HostLogger where
  /-- Emits each rendered entry as an event. -/
  | emitting
  /-- Keeps each rendered entry, oldest first. -/
  | recording (entries : List (Level × String))
  /-- Refuses every entry. -/
  | failing (reason : String)
  /-- Panics on every entry. -/
  | exploding

namespace HostLogger

/-- How a host logger takes an entry. A template that cannot be rendered is refused. -/
def log {α : Type} [Display α] (l : HostLogger) (level : Level) (template : String)
    (args : List α) : LogAnswer HostLogger :=
  match l with
  | emitting =>
    match Template.render template args with
    | .ok message => ⟨.written, l, [{ level, target := .host, message }]⟩
    | .error e => ⟨.refused e, l, []⟩
  | recording entries =>
    match Template.render template args with
    | .ok message => ⟨.written, recording (entries ++ [(level, message)]), []⟩
    | .error e => ⟨.refused e, l, []⟩
  | failing reason => ⟨.refused (.sink reason), l, []⟩
  | exploding => ⟨.panicked, l, []⟩

/-- The host loggers as one logger whose state says which of them it is. -/
def logger : Logger HostLogger := ⟨log⟩

end HostLogger

end HostBridge
