/-!
# Loops

A loop goes from state to state until a step answers (`Loop.run`). It need not come to an end, nor
need one of its steps, and then it gives nothing. What it gives is what finitely many steps lead to,
and it gives that whenever they do (`Loop.run_eq_some_iff`).

`repeatM` gives a solution of the equation of a loop, of which there are many if the loop does not
come to an end. So each state is kept together with the knowledge that it is on the way from the
first one, and an answer with the knowledge that it is reached.
-/

namespace HostBridge.Loop

variable {σ ρ : Type} (step : σ → Option (σ ⊕ ρ))

/-- Finitely many steps lead from a state to an answer. -/
inductive Leads : σ → ρ → Prop
  | answers {s : σ} {r : ρ} (h : step s = some (.inr r)) : Leads s r
  | goes {s t : σ} {r : ρ} (h : step s = some (.inl t)) (rest : Leads t r) : Leads s r

/-- A state on the way from another one: that one leads to what it leads to. -/
structure OnWay (s : σ) where
  state : σ
  leads : ∀ r, Leads step state r → Leads step s r

/-- An answer to which a state leads, if there is one. -/
structure Reached (s : σ) where
  answer? : Option ρ
  leads : ∀ r, answer? = some r → Leads step s r

instance (s : σ) : Nonempty (Reached step s) := ⟨none, fun _ h => by cases h⟩

/-- A step from a state on the way. -/
def advance (s : σ) (t : OnWay step s) : Option (OnWay step s ⊕ Reached step s) :=
  match h : step t.state with
  | none => none
  | some (.inl u) => some (.inl ⟨u, fun r hr => t.leads r (.goes h hr)⟩)
  | some (.inr r) =>
    some (.inr ⟨some r, fun r' hr => t.leads r' (.answers (Option.some.inj hr ▸ h))⟩)

/-- Step on until a step answers. -/
def run (s : σ) : Option ρ := (repeatM (advance step s) ⟨s, fun _ h => h⟩).bind Reached.answer?

variable {step}

theorem advance_of_goes {s : σ} {t : OnWay step s} {u : σ} (h : step t.state = some (.inl u)) :
    ∃ v : OnWay step s, advance step s t = some (.inl v) ∧ v.state = u := by
  unfold advance
  split
  · next h' => cases h.symm.trans h'
  · next h' =>
    cases h.symm.trans h'
    exact ⟨_, rfl, rfl⟩
  · next h' => cases h.symm.trans h'

theorem advance_of_answers {s : σ} {t : OnWay step s} {r : ρ}
    (h : step t.state = some (.inr r)) :
    ∃ a : Reached step s, advance step s t = some (.inr a) ∧ a.answer? = some r := by
  unfold advance
  split
  · next h' => cases h.symm.trans h'
  · next h' => cases h.symm.trans h'
  · next h' =>
    cases h.symm.trans h'
    exact ⟨_, rfl, rfl⟩

/-- By induction on the steps, each of which is one turn of the loop. -/
theorem repeatM_of_leads {s u : σ} {r : ρ} (h : Leads step u r) {t : OnWay step s}
    (ht : t.state = u) :
    ∃ a, repeatM (advance step s) t = some a ∧ a.answer? = some r := by
  induction h generalizing t with
  | answers h =>
    obtain ⟨a, hadvance, ha⟩ := advance_of_answers (ht ▸ h)
    refine ⟨a, ?_, ha⟩
    rw [repeatM_eq_of_monadTail, repeatM.body, hadvance]
    rfl
  | goes h _ ih =>
    obtain ⟨v, hadvance, hv⟩ := advance_of_goes (ht ▸ h)
    obtain ⟨a, hrest, ha⟩ := ih hv
    refine ⟨a, ?_, ha⟩
    rw [repeatM_eq_of_monadTail, repeatM.body, hadvance]
    exact hrest

/-- **What a loop gives** is what finitely many steps lead to. -/
theorem run_eq_some_iff {s : σ} {r : ρ} : run step s = some r ↔ Leads step s r := by
  constructor
  · intro h
    obtain ⟨a, -, ha⟩ := Option.bind_eq_some_iff.1 h
    exact a.leads r ha
  · intro h
    obtain ⟨a, hrepeat, ha⟩ := repeatM_of_leads h (t := ⟨s, fun _ h => h⟩) rfl
    rw [run, hrepeat]
    exact ha

end HostBridge.Loop
