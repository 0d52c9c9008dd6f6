import HostBridge.Proofs.Admission

/-!
# Steps of building that take effect

A step of building reports what it did: a member was added, with or without a collision, or
skipped; the builder was moved, or the redirect refused. A step that skips its member or is refused
takes no effect, and leaves the builder as it was. Such steps can be left out of a run:
the builder, its events (`run_effective`) and the reports of the other steps (`reports_effective`)
stay the same.

The tables that a run leaves are put together in `run_new_tables`.
-/

namespace HostBridge

variable {κ : Type} [HostTypes κ] [DecidableEq κ]

namespace Builder

/-- What a step reports. -/
inductive Report where
  | registered (r : Registration)
  | redirected
  | refused (e : RegistryError)
deriving DecidableEq

/-- The step added a member or moved the builder. -/
def Report.effective : Report → Bool
  | registered .skipped | refused _ => false
  | _ => true

/-- What a step reports on a builder. -/
def report (b : Builder κ) : BuildStep κ → Report
  | .add a => .registered (b.add a).1
  | .redirect c =>
    match b.redirect c with
    | .ok _ => .redirected
    | .error e => .refused e

/-- What steps report, one after the other. -/
def reports (b : Builder κ) : List (BuildStep κ) → List Report
  | [] => []
  | s :: steps => b.report s :: reports (b.step s).1 steps

/-- The steps that took effect. -/
def effective (b : Builder κ) (steps : List (BuildStep κ)) : List (BuildStep κ) :=
  ((steps.zip (b.reports steps)).filter fun p => p.2.effective).map (·.1)

theorem effective_cons (b : Builder κ) (s : BuildStep κ) (steps : List (BuildStep κ)) :
    b.effective (s :: steps) =
      if (b.report s).effective then s :: (b.step s).1.effective steps
      else (b.step s).1.effective steps := by
  rw [effective, reports, List.zip_cons_cons, List.filter_cons]
  split <;> rfl

/-- A step without effect leaves the builder as it was, and silently. -/
theorem step_of_not_effective {b : Builder κ} {s : BuildStep κ}
    (h : (b.report s).effective = false) : b.step s = (b, []) := by
  cases s with
  | add a =>
    simp only [report, add] at h
    by_cases ha : b.mode.admits a.exposure = true
    · rw [if_pos ha] at h
      simp only [claim] at h
      split at h
      · simp [Report.effective] at h
      · split at h <;> simp [Report.effective] at h
    · simp [step, add, ha, addEvents]
  | redirect c =>
    cases hr : b.redirect c with
    | ok b' => simp [report, hr, Report.effective] at h
    | error e => simp [step, hr]

/-- Leaving out the steps without effect changes neither the builder nor the events. -/
theorem run_effective (b : Builder κ) (steps : List (BuildStep κ)) :
    b.run (b.effective steps) = b.run steps := by
  induction steps generalizing b with
  | nil => rfl
  | cons s steps ih =>
    rw [effective_cons]
    split
    · rw [run, run, ih]
    · rename_i h
      rw [run, step_of_not_effective (by simpa using h), ih]
      simp

/-- Leaving out the steps without effect leaves the reports of the others as they were. -/
theorem reports_effective (b : Builder κ) (steps : List (BuildStep κ)) :
    b.reports (b.effective steps) = (b.reports steps).filter Report.effective := by
  induction steps generalizing b with
  | nil => rfl
  | cons s steps ih =>
    rw [effective_cons, reports, List.filter_cons]
    split
    · rw [reports, ih]
    · rename_i h
      rw [step_of_not_effective (by simpa using h), ih]

theorem report_add_ofLog (c : κ) (log : List (Addition κ)) (a : Addition κ) :
    (ofLog c log).report (.add a) = .registered
      (if (HostTypes.mode c).admits a.exposure then Admitted.registration log a
       else .skipped) := by
  rw [report, add_ofLog]
  split <;> rfl

theorem effective_report_add_ofLog (c : κ) (log : List (Addition κ)) (a : Addition κ) :
    ((ofLog c log).report (.add a)).effective = (HostTypes.mode c).admits a.exposure := by
  rw [report_add_ofLog]
  split
  · rename_i h
    have hne := Admitted.registration_ne_skipped log a
    cases hr : Admitted.registration log a <;> simp_all [Report.effective]
  · rename_i h
    simpa [Report.effective] using h

/-- The members of the steps that took effect are the admitted ones. -/
theorem addition?_effective_ofLog (c : κ) (log : List (Addition κ)) (steps : List (BuildStep κ)) :
    ((ofLog c log).effective steps).filterMap BuildStep.addition? = admitted c steps := by
  induction steps generalizing c log with
  | nil => rfl
  | cons s steps ih =>
    rw [effective_cons, step_ofLog, admitted]
    cases s with
    | add a =>
      rw [effective_report_add_ofLog]
      simp only [BuildStep.admitted?]
      split <;> simp [BuildStep.addition?, ih]
    | redirect d =>
      split <;> simp [List.filterMap_cons, BuildStep.addition?, BuildStep.admitted?, ih]

/-! ## The tables of a run -/

/-- **A builder is a faithful log of what it admitted.** After any steps from the empty builder of
a class, every table is read off the admitted members: methods, getters and setters by name, all
of a name in order; the first field of each name; constructors, generic accessors and apply
functions in order; the claims on a name in order. Publishing with collisions allowed copies the
tables. The admitted members are those of the steps that took effect, and the steps that did not
can be left out: the builder, the events and the reports of the others stay the same. -/
theorem run_new_tables (c : κ) (steps : List (BuildStep κ)) :
    let b := ((new c).run steps).1
    let log := admitted c steps
    (b.targetClass = classAfter c steps ∧ b.mode = HostTypes.mode (classAfter c steps)) ∧
    (b.methods = Record.group (log.filterMap Addition.method?) ∧
      b.getters = Record.group (log.filterMap Addition.getter?) ∧
      b.setters = Record.group (log.filterMap Addition.setter?) ∧
      b.fields = Record.firsts (log.filterMap Addition.field?) ∧
      b.constructors = log.filterMap Addition.factory? ∧
      b.genericGetters = log.filterMap Addition.genericGetter? ∧
      b.genericSetters = log.filterMap Addition.genericSetter? ∧
      b.applyFunctions = log.filterMap Addition.applyFunction? ∧
      ∀ name, b.claims.of name = Admitted.kindsOn log name) ∧
    b.publish .allow = .ok b.toDescription ∧
    ((new c).effective steps).filterMap BuildStep.addition? = log ∧
    (new c).run ((new c).effective steps) = (new c).run steps ∧
    (new c).reports ((new c).effective steps) =
      ((new c).reports steps).filter Report.effective := by
  intro b log
  have hb : b = ofLog (classAfter c steps) log := run_new c steps
  refine ⟨?_, ?_, ?_, ?_, run_effective (new c) steps, reports_effective (new c) steps⟩
  · rw [hb]
    exact ⟨rfl, rfl⟩
  · rw [hb]
    exact ⟨rfl, rfl, rfl, rfl, rfl, rfl, rfl, rfl, claims_of_ofLog _ _⟩
  · simp [publish]
  · exact addition?_effective_ofLog c [] steps

end Builder

end HostBridge
