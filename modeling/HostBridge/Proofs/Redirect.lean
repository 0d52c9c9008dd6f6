import HostBridge.Host.Bag
import HostBridge.Proofs.Effect
import Mathlib.Data.List.Chain

/-!
# Redirects

A builder may be moved to another class, and back. The class that it is on decides alone what it
admits, because the mode that it keeps is always that of its class (`Builder.HasClassMode`). So a
redirect that succeeds can be undone by a redirect to the class before (`redirect_back`), and a
whole chain of redirects by the redirects to its classes in the opposite order
(`redirectAll_back`).
-/

namespace HostBridge

variable {κ : Type} [HostTypes κ]

theorem HostTypes.Related.symm {c d : κ} (h : Related c d) : Related d c := by
  rcases h with h | h | h
  exacts [.inl h.symm, .inr (.inr h), .inr (.inl h)]

namespace Builder

/-- The mode that is kept is the one of the class. -/
def HasClassMode (b : Builder κ) : Prop := b.mode = HostTypes.mode b.targetClass

/-- The builder on another class, with all its members. -/
def moved (b : Builder κ) (c : κ) : Builder κ :=
  { b with targetClass := c, mode := HostTypes.mode c }

theorem hasClassMode_moved (b : Builder κ) (c : κ) : (b.moved c).HasClassMode := rfl

theorem moved_moved (b : Builder κ) (c d : κ) : (b.moved c).moved d = b.moved d := rfl

theorem HasClassMode.moved_self {b : Builder κ} (h : b.HasClassMode) :
    b.moved b.targetClass = b := by
  have hmode : HostTypes.mode b.targetClass = b.mode := h.symm
  rw [moved, hmode]

variable [DecidableEq κ]

/-- Whatever steps lead to a builder, it has the mode of its class. -/
theorem hasClassMode_run (c : κ) (steps : List (BuildStep κ)) :
    ((new c).run steps).1.HasClassMode := by
  rw [run_new]
  rfl

/-! ## One redirect -/

theorem redirect_eq (b : Builder κ) (d : κ) :
    b.redirect d =
      if HostTypes.Related b.targetClass d then .ok (b.moved d)
      else .error (.incompatibleRedirect (HostTypes.name b.targetClass) (HostTypes.name d)) := by
  rw [redirect]
  exact if_congr (related_iff_assignable b.targetClass d) rfl rfl

theorem redirect_eq_ok_iff {b b' : Builder κ} {d : κ} :
    b.redirect d = .ok b' ↔ HostTypes.Related b.targetClass d ∧ b' = b.moved d := by
  rw [redirect_eq]
  split
  · next h => simp [h, eq_comm]
  · next h => simp [h]

/-- A redirect is undone by the redirect to the class before. -/
theorem redirect_back {b b' : Builder κ} {d : κ} (hb : b.HasClassMode)
    (h : b.redirect d = .ok b') : b'.redirect b.targetClass = .ok b := by
  obtain ⟨hrelated, rfl⟩ := redirect_eq_ok_iff.1 h
  refine redirect_eq_ok_iff.2 ⟨hrelated.symm, ?_⟩
  rw [moved_moved, hb.moved_self]

section Refused

variable {b : Builder κ} {d : κ} {e : RegistryError}

theorem report_of_refused (h : b.redirect d = .error e) :
    b.report (.redirect d) = .refused e := by
  rw [report, h]

theorem step_of_refused (h : b.redirect d = .error e) : b.step (.redirect d) = (b, []) :=
  step_of_not_effective (by rw [report_of_refused h]; rfl)

/-- Later steps do and report what they would have without a redirect that is refused. -/
theorem run_of_refused (h : b.redirect d = .error e) (later : List (BuildStep κ)) :
    b.run (.redirect d :: later) = b.run later ∧
      b.reports (.redirect d :: later) = .refused e :: b.reports later := by
  constructor
  · rw [run, step_of_refused h]
    rfl
  · rw [reports, report_of_refused h, step_of_refused h]

end Refused

/-! ## Chains of redirects -/

/-- Redirects one after the other: the builders that they lead to, or the first refusal. -/
def redirectAll (b : Builder κ) : List κ → Except RegistryError (List (Builder κ))
  | [] => .ok []
  | d :: ds =>
    match b.redirect d with
    | .error e => .error e
    | .ok b' => (redirectAll b' ds).map fun bs => b' :: bs

/-- One redirect leads from one builder to the other. -/
def Leads (b b' : Builder κ) : Prop := b.redirect b'.targetClass = .ok b'

/-- The builders of a chain of redirects: each leads to the next, on the classes asked for. -/
theorem redirectAll_eq_ok_iff {b : Builder κ} {ds : List κ} {bs : List (Builder κ)} :
    b.redirectAll ds = .ok bs ↔ (b :: bs).IsChain Leads ∧ ds = bs.map (·.targetClass) := by
  induction ds generalizing b bs with
  | nil => cases bs <;> simp [redirectAll]
  | cons d ds ih =>
    rw [redirectAll]
    constructor
    · intro h
      cases hr : b.redirect d with
      | error e => simp [hr] at h
      | ok b' =>
        simp only [hr] at h
        cases hrest : b'.redirectAll ds with
        | error e => simp [hrest, Except.map] at h
        | ok rest =>
          simp only [hrest, Except.map, Except.ok.injEq] at h
          subst h
          obtain ⟨hchain, rfl⟩ := ih.1 hrest
          have hclass : b'.targetClass = d := by rw [(redirect_eq_ok_iff.1 hr).2, moved]
          have hleads : b.Leads b' := by rw [Leads, hclass, hr]
          exact ⟨.cons_cons hleads hchain, by rw [List.map_cons, hclass]⟩
    · rintro ⟨hchain, hds⟩
      cases bs with
      | nil => cases hds
      | cons b' rest =>
        obtain ⟨rfl, rfl⟩ := List.cons.inj hds
        obtain ⟨hleads, hrest⟩ := List.isChain_cons_cons.1 hchain
        have hr : b.redirect b'.targetClass = .ok b' := hleads
        simp only [hr, ih.2 ⟨hrest, rfl⟩, Except.map]

/-- Each builder of a chain leads back to the one before. -/
theorem isChain_leads_back {b : Builder κ} {bs : List (Builder κ)} (hb : b.HasClassMode)
    (h : (b :: bs).IsChain Leads) : (b :: bs).IsChain (flip Leads) := by
  induction bs generalizing b with
  | nil => exact .singleton b
  | cons b' bs ih =>
    obtain ⟨hleads, hrest⟩ := List.isChain_cons_cons.1 h
    have hb' : b'.HasClassMode := by
      rw [(redirect_eq_ok_iff.1 hleads).2]
      exact hasClassMode_moved b b'.targetClass
    exact .cons_cons (redirect_back hb hleads) (ih hb' hrest)

/-- The builders of a chain are met again, last first, on the way back through their classes. -/
theorem redirectAll_back {b : Builder κ} {ds : List κ} {bs : List (Builder κ)}
    (hb : b.HasClassMode) (h : b.redirectAll ds = .ok bs) :
    ((b :: bs).getLast (List.cons_ne_nil b bs)).redirectAll
      ((b :: bs).dropLast.reverse.map (·.targetClass)) = .ok (b :: bs).dropLast.reverse := by
  have hback := isChain_leads_back hb (redirectAll_eq_ok_iff.1 h).1
  rw [← List.isChain_reverse, ← List.dropLast_concat_getLast (List.cons_ne_nil b bs),
    List.reverse_append] at hback
  exact redirectAll_eq_ok_iff.2 ⟨hback, rfl⟩

/-! ## What is admitted -/

/-- Which steps take effect depends on the class alone, not on the members that are there. -/
theorem map_effective_reports_ofLog (c : κ) (log log' : List (Addition κ))
    (steps : List (BuildStep κ)) :
    ((ofLog c log).reports steps).map Report.effective =
      ((ofLog c log').reports steps).map Report.effective := by
  induction steps generalizing c log log' with
  | nil => rfl
  | cons s steps ih =>
    have hreport : ((ofLog c log).report s).effective = ((ofLog c log').report s).effective := by
      cases s with
      | add a => rw [effective_report_add_ofLog, effective_report_add_ofLog]
      | redirect d =>
        rw [report, report, redirect_ofLog, redirect_ofLog]
        by_cases h : HostTypes.Related c d <;> simp [h]
    rw [reports, reports, List.map_cons, List.map_cons, hreport, step_ofLog, step_ofLog, ih]

/-- **Redirects are all or nothing, and can be undone.** A builder, whatever steps led to it, can be
moved to a class exactly if that is its own, or one of the two is named among the supertypes of the
other. A redirect that is refused leaves the builder as it was, and later steps do and report what
they would have without it. One that succeeds changes the class and the mode, to that of the class,
and nothing else, and a redirect to the class before takes it back; so a chain of redirects is taken
back, builder by builder, through its classes in the opposite order. A member is admitted exactly
if the mode of the present class admits its mark, and builders on one class let the same later steps
take effect, whatever led to them. -/
theorem redirect_allOrNothing (c : κ) (steps : List (BuildStep κ)) :
    let b := ((new c).run steps).1
    (∀ d,
      ((∃ b', b.redirect d = .ok b') ↔
        b.targetClass = d ∨ HostTypes.name d ∈ HostTypes.supertypes b.targetClass ∨
          HostTypes.name b.targetClass ∈ HostTypes.supertypes d) ∧
      (∀ e, b.redirect d = .error e →
        b.step (.redirect d) = (b, []) ∧
        ∀ later, b.run (.redirect d :: later) = b.run later ∧
          b.reports (.redirect d :: later) = .refused e :: b.reports later) ∧
      ∀ b', b.redirect d = .ok b' →
        b' = { b with targetClass := d, mode := HostTypes.mode d } ∧
        b'.redirect b.targetClass = .ok b) ∧
    (∀ ds bs, b.redirectAll ds = .ok bs →
      ((b :: bs).getLast (List.cons_ne_nil b bs)).redirectAll
        ((b :: bs).dropLast.reverse.map (·.targetClass)) = .ok (b :: bs).dropLast.reverse) ∧
    (∀ a, (b.add a).1 ≠ .skipped ↔
      (HostTypes.mode b.targetClass).admits a.exposure = true) ∧
    ∀ c' steps', ((new c').run steps').1.targetClass = b.targetClass → ∀ later,
      (((new c').run steps').1.reports later).map Report.effective =
        (b.reports later).map Report.effective := by
  intro b
  have hmode : b.HasClassMode := hasClassMode_run c steps
  have hlog : b = ofLog (classAfter c steps) (admitted c steps) := run_new c steps
  refine ⟨fun d => ⟨?_, fun e he => ?_, fun b' hb' => ?_⟩, fun ds bs => redirectAll_back hmode,
    fun a => ?_, fun c' steps' hclass later => ?_⟩
  · simp only [redirect_eq_ok_iff, exists_and_left, exists_eq, and_true]
    rfl
  · exact ⟨step_of_refused he, run_of_refused he⟩
  · exact ⟨(redirect_eq_ok_iff.1 hb').2, redirect_back hmode hb'⟩
  · rw [hlog, add_ofLog]
    split
    · next h => exact iff_of_true (Admitted.registration_ne_skipped _ a) h
    · next h => exact iff_of_false (not_not_intro rfl) h
  · rw [run_new] at hclass ⊢
    rw [hlog] at hclass ⊢
    have hsame : classAfter c' steps' = classAfter c steps := hclass
    rw [hsame]
    exact map_effective_reports_ofLog _ _ _ later

end Builder

namespace Lineage

/-- A class that lets everything through. -/
def base : ClassInfo := { path := "host::Base", name := "Base" }

/-- A stricter class that can stand in for it. -/
def derived : ClassInfo :=
  { path := "host::Derived", name := "Derived", supertypes := ["Base"],
    declaredMode := some .allowOnly }

/-- A class that can stand in for the stricter one, and is not related to the first. -/
def leaf : ClassInfo :=
  { path := "host::Leaf", name := "Leaf", supertypes := ["Derived"],
    declaredMode := some .blockOnly }

/-- Of two fields, one before and one after the move to the stricter class, the second is skipped;
the move past that class is refused. -/
def steps : List (BuildStep HostType) :=
  [ .add ((BagMember.field "id" (.prop "id") none).addition base .unmarked),
    .redirect (.bag leaf),
    .redirect (.bag derived),
    .add ((BagMember.field "note" (.prop "note") none).addition derived .unmarked) ]

def builder : Builder HostType := ((Builder.new (.bag base)).run steps).1

end Lineage

section Walk

open Lineage

/-- A chain from the stricter class up, back and down is walked back builder by builder. The first
class cannot be left for the last, and then admits what it did before. -/
theorem Builder.redirect_allOrNothing_lineage :
    builder.keys = ["id"] ∧
    builder.redirectAll [.bag base, .bag derived, .bag leaf] =
      .ok [builder.moved (.bag base), builder, builder.moved (.bag leaf)] ∧
    (builder.moved (.bag leaf)).redirectAll [.bag derived, .bag base, .bag derived] =
      .ok [builder, builder.moved (.bag base), builder] ∧
    (new (HostType.bag base)).redirect (.bag leaf) = .error (.incompatibleRedirect "Base" "Leaf") ∧
    ∀ later, (new (HostType.bag base)).run (.redirect (.bag leaf) :: later) =
      (new (HostType.bag base)).run later := by
  have hclass : builder.targetClass = .bag derived := rfl
  have hup : builder.Leads (builder.moved (.bag base)) :=
    redirect_eq_ok_iff.2 ⟨by rw [hclass]; decide, rfl⟩
  have hdown : builder.Leads (builder.moved (.bag leaf)) :=
    redirect_eq_ok_iff.2 ⟨by rw [hclass]; decide, rfl⟩
  have hmode : builder.HasClassMode := hasClassMode_run (HostType.bag base) steps
  have hback : (builder.moved (.bag base)).Leads builder := redirect_back hmode hup
  have hchain : builder.redirectAll [.bag base, .bag derived, .bag leaf] =
      .ok [builder.moved (.bag base), builder, builder.moved (.bag leaf)] :=
    redirectAll_eq_ok_iff.2
      ⟨.cons_cons hup (.cons_cons hback (.cons_cons hdown (.singleton _))), rfl⟩
  have hrefused : (new (HostType.bag base)).redirect (.bag leaf) =
      .error (.incompatibleRedirect "Base" "Leaf") := rfl
  refine ⟨rfl, hchain, (redirect_allOrNothing (HostType.bag base) steps).2.1 _ _ hchain, hrefused,
    ?_⟩
  intro later
  exact (((redirect_allOrNothing (HostType.bag base) []).1 (.bag leaf)).2.1 _ hrefused).2 later |>.1

end Walk

end HostBridge
