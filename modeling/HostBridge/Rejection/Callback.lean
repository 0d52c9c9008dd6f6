import HostBridge.Log.Logger
import HostBridge.Rejection.Stats

/-!
# Rejection callbacks

A callback is told of every rejection event and may panic; its state survives that. A `Listener`
is an innermost callback with states of its own, and a `Callback` is any number of counting layers
over one, or over nothing. A counting layer counts first and then tells the layer below, so a
panic further down does not undo the count.

`Callback.tracker` is how the engine tells a callback: the event is built from copies that look into
no container, and a panic stops there.
-/

namespace HostBridge

/-- What telling a callback did: whether it panicked, the callback afterwards, and the events
emitted. -/
structure Notice (σ : Type) where
  panicked : Bool
  state : σ
  events : List Event := []

/-- Let a panic stop here. What is left of it is a report. -/
def Notice.contain {σ : Type} (n : Notice σ) (report : Event) : Notice σ :=
  if n.panicked then ⟨false, n.state, n.events ++ [report]⟩ else n

/-- An innermost callback with states in `σ`. -/
structure Listener (σ : Type) where
  notify : σ → RejectionEvent → Notice σ

namespace Listener

/-- The template of the warning that a logging listener writes for each event. -/
def warningTemplate : String := "Received promise reject callback with event \x7b0\x7d \x7b1\x7d."

/-- Write one warning for each event. A logger that refuses the entry or panics costs only that
entry. -/
def logging {σ : Type} (l : Logger σ) : Listener σ where
  notify s e :=
    let answer := l.log s .warn warningTemplate [.of e.kind.code, .of e.kind.name]
    match answer.delivery with
    | .written => ⟨false, answer.state, answer.events⟩
    | .refused fault =>
      ⟨false, answer.state, answer.events ++
        [{ level := .debug, target := .callback, message := "rejection log entry dropped",
           fields := [("error", .plain fault.message), ("event", .quoted e.kind.name)] }]⟩
    | .panicked =>
      ⟨false, answer.state, answer.events ++
        [{ level := .debug, target := .callback,
           message := "host logger panicked; rejection log entry dropped",
           fields := [("event", .quoted e.kind.name)] }]⟩

end Listener

/-- Counting layers over an innermost callback in state `σ`, or over nothing. -/
inductive Callback (σ : Type) where
  | silent
  | listener (s : σ)
  | counting (stats : RejectionStats) (below : Callback σ)

namespace Callback

variable {σ : Type}

/-- Tell a callback of an event. -/
def notify (l : Listener σ) : Callback σ → RejectionEvent → Notice (Callback σ)
  | silent, _ => ⟨false, silent, []⟩
  | listener s, e =>
    let n := l.notify s e
    ⟨n.panicked, listener n.state, n.events⟩
  | counting stats below, e =>
    let n := notify l below e
    ⟨n.panicked, counting (stats.record e) n.state, n.events⟩

/-- Tell a callback of an event on behalf of the engine. A panic is contained and reported. -/
def tracker (l : Listener σ) (c : Callback σ) (e : RejectionEvent) : Notice (Callback σ) :=
  (notify l c e).contain
    { level := .debug, target := .tracker, message := "rejection callback panicked",
      fields := [("event", .quoted e.kind.name)] }

/-- What is left of a callback that the engine told of an event, and the events emitted. -/
def track (l : Listener σ) (c : Callback σ) (e : RejectionEvent) : Callback σ × List Event :=
  let n := tracker l c e
  (n.state, n.events)

/-- The counts of the outermost layer. -/
def stats? : Callback σ → Option RejectionStats
  | counting stats _ => some stats
  | _ => none

end Callback

/-- The innermost callbacks a host comes with. -/
inductive Endpoint where
  /-- Keeps every event, oldest first. -/
  | recording (kept : List RejectionEvent)
  /-- Panics on every event. -/
  | exploding
  /-- Writes a warning for each event through a host logger. -/
  | logging (logger : HostLogger)

namespace Endpoint

/-- How an innermost callback takes an event. -/
def notify : Endpoint → RejectionEvent → Notice Endpoint
  | recording kept, e => ⟨false, recording (kept ++ [e]), []⟩
  | exploding, _ => ⟨true, exploding, []⟩
  | logging logger, e =>
    let n := (Listener.logging HostLogger.logger).notify logger e
    ⟨n.panicked, logging n.state, n.events⟩

/-- The host's innermost callbacks as one listener whose state says which of them it is. -/
def listener : Listener Endpoint := ⟨notify⟩

/-- Forget what was kept. -/
def cleared : Endpoint → Endpoint
  | recording _ => recording []
  | logging (.recording _) => logging (.recording [])
  | e => e

end Endpoint

/-- The callbacks a host comes with. -/
abbrev HostCallback := Callback Endpoint

/-- Forget what the innermost callback kept; counts stay. -/
def HostCallback.cleared : HostCallback → HostCallback
  | .silent => .silent
  | .listener e => .listener e.cleared
  | .counting stats below => .counting stats (cleared below)

end HostBridge
