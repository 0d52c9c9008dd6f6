import HostBridge.Loop
import HostBridge.Script.Run

/-!
# Script engines

All that a runtime asks of a script engine: to run a script, to call a function and to run a queued
job (`Engine`). Each takes a machine to another one, or never comes to an end. `Engine.interpreter`
is the engine that runs scripts as this library describes them.

`Engine.drain` runs jobs, the first in the queue first, until the queue is empty or a job fails. A
job may queue others, so this need not come to an end either.
-/

namespace HostBridge

/-- A script engine. Nothing comes of what never ends. -/
structure Engine where
  run : Machine → Script → Option (Completion × Machine)
  call : Machine → FunctionBody → List EngineValue → Option (Completion × Machine)
  /-- Run a job that was taken off the queue. The answer is the exception of a job that fails. -/
  runJob : Machine → Job → Option (Option EngineValue × Machine)

/-- What running the queue did: the jobs that were run to their end, in order, the job that failed
with its exception, if one did, and the machine afterwards. -/
structure Drained where
  completed : List Job
  failure : Option (Job × EngineValue)
  machine : Machine

namespace Engine

/-- The engine that interprets scripts. -/
def interpreter : Engine := ⟨Machine.run, Machine.call, Machine.runJob⟩

/-- Run the first queued job, after those that were run to their end. This is the last turn if the
queue is empty, or if the job fails. -/
def turn (e : Engine) (s : List Job × Machine) : Option ((List Job × Machine) ⊕ Drained) :=
  match s.2.jobs with
  | [] => some (.inr ⟨s.1, none, s.2⟩)
  | j :: rest => do
    match ← e.runJob { s.2 with jobs := rest } j with
    | (some v, m) => return .inr ⟨s.1, some (j, v), m⟩
    | (none, m) => return .inl (s.1 ++ [j], m)

/-- Run queued jobs until the queue is empty or a job fails. -/
def drain (e : Engine) (m : Machine) : Option Drained := Loop.run e.turn ([], m)

/-! ## Turns -/

variable {e : Engine}

/-- What a turn is: the queue is empty, or its first job is run and fails, or it does not fail. -/
theorem turn_cases {s : List Job × Machine} {x : (List Job × Machine) ⊕ Drained}
    (h : e.turn s = some x) :
    (s.2.jobs = [] ∧ x = .inr ⟨s.1, none, s.2⟩) ∨
    ∃ j rest m, s.2.jobs = j :: rest ∧
      ((∃ v, e.runJob { s.2 with jobs := rest } j = some (some v, m) ∧
          x = .inr ⟨s.1, some (j, v), m⟩) ∨
        (e.runJob { s.2 with jobs := rest } j = some (none, m) ∧ x = .inl (s.1 ++ [j], m))) := by
  unfold turn at h
  split at h
  · next queued => exact .inl ⟨queued, (Option.some.inj h).symm⟩
  · next j rest queued =>
    obtain ⟨⟨failure, m⟩, hrun, hx⟩ := Option.bind_eq_some_iff.1 h
    cases failure with
    | some v => exact .inr ⟨j, rest, m, queued, .inl ⟨v, hrun, (Option.some.inj hx).symm⟩⟩
    | none => exact .inr ⟨j, rest, m, queued, .inr ⟨hrun, (Option.some.inj hx).symm⟩⟩

/-- Induction over the turns of running the queue. -/
theorem drain_induct {P : Machine → Drained → Prop}
    (empty : ∀ m, m.jobs = [] → P m ⟨[], none, m⟩)
    (fails : ∀ m j rest v m', m.jobs = j :: rest →
      e.runJob { m with jobs := rest } j = some (some v, m') → P m ⟨[], some (j, v), m'⟩)
    (goes : ∀ m j rest m' d, m.jobs = j :: rest →
      e.runJob { m with jobs := rest } j = some (none, m') → P m' d →
      P m { d with completed := j :: d.completed })
    {m : Machine} {d : Drained} (h : e.drain m = some d) : P m d := by
  -- the jobs that were run before do not matter to what comes
  have hleads {s : List Job × Machine} {d : Drained} (h : Loop.Leads e.turn s d) :
      ∃ d', d = { d' with completed := s.1 ++ d'.completed } ∧ P s.2 d' := by
    induction h with
    | answers h =>
      rcases turn_cases h with ⟨queued, hx⟩ | ⟨j, rest, m, queued, ⟨v, hrun, hx⟩ | ⟨-, hx⟩⟩
      · cases hx
        exact ⟨⟨[], none, _⟩, by rw [List.append_nil], empty _ queued⟩
      · cases hx
        exact ⟨⟨[], some (j, v), m⟩, by rw [List.append_nil], fails _ j rest v m queued hrun⟩
      · cases hx
    | goes h _ ih =>
      rcases turn_cases h with ⟨-, hx⟩ | ⟨j, rest, m, queued, ⟨_, -, hx⟩ | ⟨hrun, hx⟩⟩
      · cases hx
      · cases hx
      · cases hx
        obtain ⟨d', rfl, hd'⟩ := ih
        refine ⟨{ d' with completed := j :: d'.completed }, ?_, goes _ j rest m d' queued hrun hd'⟩
        rw [List.append_assoc, List.singleton_append]
  obtain ⟨d', rfl, hd'⟩ := hleads (Loop.run_eq_some_iff.1 h)
  exact hd'

end Engine

end HostBridge
