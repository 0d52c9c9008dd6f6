import HostBridge.Proofs.RejectionCount
import HostBridge.Proofs.TemplateGrammar

/-!
# Warnings about rejections

A listener that logs asks its logger for one warning about each event. The template of the warning
can always be rendered (`Listener.render_warningTemplate`), and what the logger does with one entry
stays between the two of them: the listener never panics, and the next event is logged as if nothing
had happened.

So what a logger has kept after any events is one warning for each event on which it did not fail,
in order (`Listener.kept_after`). Which these are is read off its answers (`Listener.deliveries`),
or, for a logger whose failures are planned in advance (`Logger.planned`), off the plan.
-/

namespace HostBridge

/-- The warning about an event of a kind. -/
def RejectionKind.warning (k : RejectionKind) : String :=
  "Received promise reject callback with event " ++ Nat.repr k.code ++ " " ++ k.name ++ "."

/-- The entry was written. -/
def Delivery.isWritten : Delivery → Bool
  | written => true
  | _ => false

/-! ## Loggers that keep entries -/

namespace Logger

variable {σ : Type}

/-- The logger keeps what it writes, as it is rendered, and nothing else. It may refuse an entry or
panic whenever it likes. -/
structure Keeps (l : Logger σ) (kept : σ → List (Level × String)) : Prop where
  written : ∀ (s : σ) (level : Level) (template : String) (args : List Argument),
    (l.log s level template args).delivery.isWritten = true →
      ∃ text, Template.render template args = .ok text ∧
        kept (l.log s level template args).state = kept s ++ [(level, text)]
  failed : ∀ (s : σ) (level : Level) (template : String) (args : List Argument),
    (l.log s level template args).delivery.isWritten = false →
      kept (l.log s level template args).state = kept s

/-- What a logger does when it is called. -/
inductive Conduct where
  | record
  | refuse (e : LogError)
  | panic

/-- The entry is recorded. -/
def Conduct.isRecord : Conduct → Bool
  | record => true
  | _ => false

/-- The calls of a logger so far and the entries that it kept. -/
structure Journal where
  calls : ℕ := 0
  kept : List (Level × String) := []

/-- A logger whose conduct at each call is planned in advance. A template that cannot be rendered is
refused. -/
def planned (plan : ℕ → Conduct) : Logger Journal where
  log s level template args :=
    match plan s.calls, Template.render template args with
    | .record, .ok text => ⟨.written, ⟨s.calls + 1, s.kept ++ [(level, text)]⟩, []⟩
    | .record, .error e => ⟨.refused e, ⟨s.calls + 1, s.kept⟩, []⟩
    | .refuse e, _ => ⟨.refused e, ⟨s.calls + 1, s.kept⟩, []⟩
    | .panic, _ => ⟨.panicked, ⟨s.calls + 1, s.kept⟩, []⟩

theorem keeps_planned (plan : ℕ → Conduct) : (planned plan).Keeps Journal.kept where
  written s level template args := by
    simp only [planned]
    split
    · next text _ htext => exact fun _ => ⟨text, htext, rfl⟩
    all_goals exact nofun
  failed s level template args := by
    simp only [planned]
    split
    · exact nofun
    all_goals exact fun _ => rfl

end Logger

/-! ## One event -/

namespace Listener

variable {σ : Type} (l : Logger σ)

/-- What the template of the warning is about. -/
def warningArguments (k : RejectionKind) : List Argument := [.of k.code, .of k.name]

theorem read?_zero : Unsigned.read? ['0'] = some 0 := by decide

/-- The template of the warning in parts. -/
def warningParts : Template.Parts where
  first := ⟨"Received promise reject callback with event ".toList, by decide⟩
  rest :=
    [ (⟨['0'], 0, read?_zero⟩, ⟨[' '], by decide⟩),
      (⟨['1'], 1, by decide⟩, ⟨['.'], by decide⟩) ]

theorem written_warningParts : String.ofList warningParts.written = warningTemplate := by
  decide

/-- The template can be rendered with any two arguments that can be displayed. -/
theorem render_warningTemplate (a b : String) :
    Template.render warningTemplate [Argument.of a, Argument.of b] =
      .ok ("Received promise reject callback with event " ++ a ++ " " ++ b ++ ".") := by
  have hfits : warningParts.Fits [Argument.of a, Argument.of b].length :=
    show warningParts.Fits 2 by decide
  have hdisplays : warningParts.Displays (Template.texts [Argument.of a, Argument.of b]) :=
    Template.Parts.displays_texts
      (List.forall_mem_cons.2 ⟨rfl, List.forall_mem_singleton.2 rfl⟩) warningParts
  have hfilled : warningParts.filled (Template.texts [Argument.of a, Argument.of b]) =
      "Received promise reject callback with event ".toList ++
        (a.toList ++ " ".toList ++ (b.toList ++ ".".toList ++ [])) := rfl
  rw [← written_warningParts, Template.render_written hfits, if_pos hdisplays, hfilled,
    Except.ok.injEq, ← String.toList_inj]
  simp only [String.toList_ofList, String.toList_append, List.append_assoc, List.append_nil]

theorem render_warning (k : RejectionKind) :
    Template.render warningTemplate (warningArguments k) = .ok k.warning :=
  render_warningTemplate (Nat.repr k.code) k.name

/-- What the logger answers when it is asked for the warning about an event. -/
def answer (s : σ) (e : RejectionEvent) : LogAnswer σ :=
  l.log s .warn warningTemplate (warningArguments e.kind)

theorem state_logging (s : σ) (e : RejectionEvent) :
    ((logging l).notify s e).state = (answer l s e).state := by
  simp only [logging]
  split <;> rfl

/-- One event adds its warning, if the logger does not fail. -/
theorem kept_logging {kept : σ → List (Level × String)} (hl : l.Keeps kept) (s : σ)
    (e : RejectionEvent) :
    kept ((logging l).notify s e).state =
      kept s ++ if (answer l s e).delivery.isWritten then [(.warn, e.kind.warning)] else [] := by
  rw [state_logging]
  split
  · next hwritten =>
    obtain ⟨text, htext, hkept⟩ := hl.written _ _ _ _ hwritten
    rw [render_warning] at htext
    cases htext
    exact hkept
  · next hfailed =>
    rw [List.append_nil]
    exact hl.failed _ _ _ _ (Bool.eq_false_iff.2 hfailed)

/-! ## Any number of events -/

/-- What becomes of the warnings about events, one after the other. -/
def deliveries (s : σ) : List RejectionEvent → List Delivery
  | [] => []
  | e :: es => (answer l s e).delivery :: deliveries ((logging l).notify s e).state es

/-- The warnings about the events on which the logger did not fail. -/
def warnings (es : List RejectionEvent) (ds : List Delivery) : List (Level × String) :=
  ((es.zip ds).filter fun p => p.2.isWritten).map fun p => (.warn, p.1.kind.warning)

theorem warnings_cons (e : RejectionEvent) (es : List RejectionEvent) (d : Delivery)
    (ds : List Delivery) :
    warnings (e :: es) (d :: ds) =
      (if d.isWritten then [(.warn, e.kind.warning)] else []) ++ warnings es ds := by
  rw [warnings, List.zip_cons_cons, List.filter_cons]
  split <;> rfl

/-- **Any number of events** adds the warnings about those on which the logger did not fail. -/
theorem kept_after {kept : σ → List (Level × String)} (hl : l.Keeps kept) (s : σ)
    (es : List RejectionEvent) :
    kept ((logging l).after s es) = kept s ++ warnings es (deliveries l s es) := by
  induction es generalizing s with
  | nil => exact (List.append_nil _).symm
  | cons e es ih =>
    rw [deliveries, warnings_cons, ← List.append_assoc, ← kept_logging l hl]
    exact ih _

theorem length_deliveries (s : σ) (es : List RejectionEvent) :
    (deliveries l s es).length = es.length := by
  induction es generalizing s with
  | nil => rfl
  | cons e es ih => exact congrArg (· + 1) (ih _)

/-- A logger with a plan follows it, one step of it for each event. -/
theorem answer_planned (plan : ℕ → Logger.Conduct) (s : Logger.Journal) (e : RejectionEvent) :
    (answer (.planned plan) s e).delivery.isWritten = (plan s.calls).isRecord ∧
      (answer (.planned plan) s e).state.calls = s.calls + 1 := by
  simp only [answer, Logger.planned, render_warning]
  cases plan s.calls with
  | record => exact ⟨rfl, rfl⟩
  | refuse e => exact ⟨rfl, rfl⟩
  | panic => exact ⟨rfl, rfl⟩

theorem warnings_planned (plan : ℕ → Logger.Conduct) (s : Logger.Journal)
    (es : List RejectionEvent) :
    warnings es (deliveries (.planned plan) s es) =
      ((es.zipIdx s.calls).filter fun p => (plan p.2).isRecord).map fun p =>
        (.warn, p.1.kind.warning) := by
  induction es generalizing s with
  | nil => rfl
  | cons e es ih =>
    obtain ⟨hwritten, hcalls⟩ := answer_planned plan s e
    rw [deliveries, warnings_cons, ih, state_logging, hwritten, hcalls, List.zipIdx_cons,
      List.filter_cons]
    split <;> rfl

/-- What is logged about an event depends on its kind only. -/
theorem notify_logging_congr (s : σ) {e e' : RejectionEvent} (h : e.kind = e'.kind) :
    (logging l).notify s e = (logging l).notify s e' ∧ answer l s e = answer l s e' := by
  simp only [logging, answer, h, and_self]

theorem after_logging_congr (s : σ) {es es' : List RejectionEvent}
    (h : es.map (·.kind) = es'.map (·.kind)) :
    (logging l).after s es = (logging l).after s es' ∧ deliveries l s es = deliveries l s es' := by
  induction es generalizing s es' with
  | nil =>
    rw [List.map_nil, eq_comm, List.map_eq_nil_iff] at h
    rw [h]
    exact ⟨rfl, rfl⟩
  | cons e es ih =>
    obtain ⟨e', es', rfl, he, hes⟩ := List.map_eq_cons_iff.1 h.symm
    obtain ⟨hnotify, hanswer⟩ := notify_logging_congr l s he
    obtain ⟨hafter, hdeliveries⟩ := ih ((logging l).notify s e).state hes.symm
    rw [deliveries, deliveries, hnotify, hanswer, ← hdeliveries, ← hnotify]
    refine ⟨hafter.trans ?_, rfl⟩
    rw [← hnotify]
    rfl

/-- **One warning for each event, and no failure.** Whatever the logger does, a listener that logs
does not panic, and it asks the logger once about each event. If the logger keeps what it writes, it
has kept after any events one warning with the code and the name of the kind for each event on which
it did not fail, in order, and it is told the same whatever the promises and the reasons are. In
particular the failures may be planned in any way: each costs the warning about its own event. The
template of the warning can always be rendered. -/
theorem logging_warns_once (l : Logger σ) :
    (∀ (s : σ) (e : RejectionEvent), ((logging l).notify s e).panicked = false) ∧
    (∀ (s : σ) (es : List RejectionEvent), (deliveries l s es).length = es.length ∧
      ∀ kept, l.Keeps kept →
        kept ((logging l).after s es) = kept s ++ warnings es (deliveries l s es)) ∧
    (∀ (s : σ) (es es' : List RejectionEvent), es.map (·.kind) = es'.map (·.kind) →
      (logging l).after s es = (logging l).after s es' ∧
        deliveries l s es = deliveries l s es') ∧
    (∀ (plan : ℕ → Logger.Conduct) (es : List RejectionEvent),
      ((logging (.planned plan)).after {} es).kept =
        (es.zipIdx.filter fun p => (plan p.2).isRecord).map fun p => (.warn, p.1.kind.warning)) ∧
    ∀ k : RejectionKind, Template.render warningTemplate (warningArguments k) = .ok k.warning := by
  refine ⟨panicked_logging l, fun s es => ⟨length_deliveries l s es, fun kept hl => ?_⟩,
    fun s es es' => after_logging_congr l s, fun plan es => ?_, render_warning⟩
  · exact kept_after l hl s es
  · rw [kept_after _ (Logger.keeps_planned plan), warnings_planned]
    rfl

end Listener

end HostBridge
