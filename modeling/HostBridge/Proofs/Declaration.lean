import HostBridge.Host.Bag
import HostBridge.Host.Rules
import HostBridge.Proofs.Agreement
import HostBridge.Proofs.CacheMap
import HostBridge.Proofs.Collision

/-!
# Bindings from declarations

A class declares its members by code that works on a builder: it adds members and may redirect the
builder to other classes, and what a step returns may decide how it goes on (`Declaration`). The
steps that it takes make a trace, in which each has its report. Two things are read off the trace
(`Declaration.targetClass_run`, `Declaration.collisions_run`): the class that the builder ends on,
which is that of the last redirect that was not refused, and the collisions that were recorded.

When a cache builds a binding, up to four classes are in play: the one that is asked for, under
which the binding is kept and which the strategy is asked about, and those of builder, description
and policy. The last three are the class that the declaration ends on, so policy and description
always fit together, and rejected collisions are the only error (`Cache.bind_of_declaration`).
-/

namespace HostBridge

variable {κ : Type} [HostTypes κ]

/-! ## Code that declares members -/

/-- Code that declares members: its next step, and how it goes on after each report. -/
inductive Declaration (κ : Type) [HostTypes κ] where
  | done
  | step (s : BuildStep κ) (next : Builder.Report → Declaration κ)

/-- The class that a step moved the builder to, by what it reported. -/
def BuildStep.moved? : BuildStep κ → Builder.Report → Option κ
  | .redirect c, .redirected => some c
  | _, _ => none

/-- The collision that a step recorded. -/
def Builder.Report.collision? : Report → Option Collision
  | registered r => r.collision?
  | _ => none

variable [DecidableEq κ]

namespace Declaration

/-- The builder that the code leaves. -/
def run : Declaration κ → Builder κ → Builder κ
  | done, b => b
  | step s next, b => (next (b.report s)).run (b.step s).1

/-- The steps that the code takes, each with its report. -/
def trace : Declaration κ → Builder κ → List (BuildStep κ × Builder.Report)
  | done, _ => []
  | step s next, b => (s, b.report s) :: (next (b.report s)).trace (b.step s).1

/-- The steps that the code takes. -/
def steps (d : Declaration κ) (b : Builder κ) : List (BuildStep κ) := (d.trace b).map (·.1)

/-- The classes that the builder was moved to, in order. -/
def moves (d : Declaration κ) (b : Builder κ) : List κ :=
  (d.trace b).filterMap fun p => p.1.moved? p.2

/-- The collisions that were reported, in order. -/
def collisions (d : Declaration κ) (b : Builder κ) : List Collision :=
  (d.trace b).filterMap fun p => p.2.collision?

/-- The code does to a builder what its steps do. -/
theorem run_steps (d : Declaration κ) (b : Builder κ) : (b.run (d.steps b)).1 = d.run b := by
  induction d generalizing b with
  | done => rfl
  | step s next ih => exact ih (b.report s) (b.step s).1

end Declaration

/-! ## What a trace tells -/

namespace Builder

omit [DecidableEq κ] in
/-- A member that is added does not move the builder. -/
theorem targetClass_add (b : Builder κ) (a : Addition κ) :
    (b.add a).2.targetClass = b.targetClass := by
  have henter : ∀ b' : Builder κ, (b'.enter a).targetClass = b'.targetClass := by
    intro b'
    cases a with
    | field f =>
      rw [enter]
      split <;> rfl
    | _ => rfl
  have hclaim : (b.claim a).2.targetClass = b.targetClass := by
    rw [claim]
    split
    · rfl
    · dsimp only
      split <;> rfl
  rw [add]
  split
  · exact (henter _).trans hclaim
  · rfl

theorem targetClass_of_redirect {b b' : Builder κ} {c : κ} (h : b.redirect c = .ok b') :
    b'.targetClass = c := by
  rw [redirect] at h
  split at h
  · rw [← Except.ok.inj h]
  · cases h

/-- A step moves the builder to the class that its report tells, or leaves it. -/
theorem targetClass_step (b : Builder κ) (s : BuildStep κ) :
    (b.step s).1.targetClass = (s.moved? (b.report s)).getD b.targetClass := by
  cases s with
  | add a => exact targetClass_add b a
  | redirect c =>
    rw [step, report]
    cases hr : b.redirect c with
    | ok b' => exact targetClass_of_redirect hr
    | error e => rfl

theorem collisions_step_eq (b : Builder κ) (s : BuildStep κ) :
    (b.step s).1.collisions = b.collisions ++ (b.report s).collision?.toList := by
  rw [collisions_step]
  cases s with
  | add a =>
    rw [report]
    cases hr : (b.add a).1 <;> rfl
  | redirect c =>
    rw [report]
    cases b.redirect c <;> rfl

end Builder

namespace Declaration

/-- **The class that a declaration ends on** is that of the last redirect that was not refused. -/
theorem targetClass_run (d : Declaration κ) (b : Builder κ) :
    (d.run b).targetClass = (d.moves b).getLast?.getD b.targetClass := by
  induction d generalizing b with
  | done => rfl
  | step s next ih =>
    rw [run, ih, Builder.targetClass_step, moves, moves, trace, List.filterMap_cons]
    cases s.moved? (b.report s) with
    | none => rfl
    | some c => rw [List.getLast?_cons]; rfl

/-- **The collisions that a declaration leaves** are those that its steps reported. -/
theorem collisions_run (d : Declaration κ) (b : Builder κ) :
    (d.run b).collisions = b.collisions ++ d.collisions b := by
  induction d generalizing b with
  | done => simp [run, collisions, trace]
  | step s next ih =>
    rw [run, ih, Builder.collisions_step_eq, collisions, collisions, trace, List.filterMap_cons]
    cases (b.report s).collision? <;> simp

end Declaration

/-! ## Building through a cache -/

namespace Cache

variable {cache : Cache κ} {c : κ} {build : Unit → Except RegistryError (Binding κ) × List Event}

/-- A class without a binding gets what is built. -/
theorem result_getOrPublish (hnone : cache.get? c = none) :
    (cache.getOrPublish c build).result = (build ()).1.map fun b => ⟨cache.issued, b⟩ := by
  rcases hbuild : build () with ⟨e | b, events⟩
  · rw [getOrPublish_of_error hnone hbuild]
    rfl
  · rw [getOrPublish_of_ok hnone hbuild]
    rfl

/-- A binding that is built is found under the class that was asked for, and under no other. -/
theorem get?_getOrPublish_of_ok (hnone : cache.get? c = none) {b : Binding κ}
    (hok : (build ()).1 = .ok b) (x : κ) :
    (cache.getOrPublish c build).cache.get? x =
      if x = c then some ⟨cache.issued, b⟩ else cache.get? x := by
  have hbuild : build () = (.ok b, (build ()).2) := Prod.ext hok rfl
  rw [getOrPublish_of_ok hnone hbuild, get?, slot?_fillSlot]
  by_cases hx : x = c
  · obtain ⟨q, hq⟩ := Option.isSome_iff_exists.1 (isSome_slot?_openSlot cache.slots c)
    simp [hx, hq]
  · simp only [if_neg hx, Option.map_id']
    exact get?_openSlot x

/-- **A binding is built from a declaration.** Let a class have no published binding. Then asking
for one fails exactly if collisions are rejected and the declaration recorded some. The error lists
them, under the name of the class that the declaration ended on, which is the one asked for or that
of the last redirect that was not refused; a mismatch of classes or a refused redirect is never
returned. Otherwise the binding is for the class that the declaration ended on, with the tables that
the declaration left, and in the proxy mode that was asked for, or as an object if that is a class
proxy and the strategy refuses the class asked for. It is kept under the class asked for. -/
theorem bind_of_declaration (hnone : cache.get? c = none) (d : Declaration κ)
    (proxyMode : ProxyMode) (strategy : Strategy κ) (policy : CollisionPolicy) :
    let built := d.run (.new c)
    let final := (d.moves (.new c)).getLast?.getD c
    let answer := cache.bind c (d.steps (.new c)) proxyMode strategy policy
    (built.targetClass = final ∧ built.collisions = d.collisions (.new c)) ∧
    ((∃ e, answer.result = .error e) ↔ policy = .reject ∧ d.collisions (.new c) ≠ []) ∧
    (∀ e, answer.result = .error e →
      e = .collisions (HostTypes.name final) built.collisions) ∧
    (∀ source target, answer.result ≠ .error (.classMismatch source target) ∧
      answer.result ≠ .error (.incompatibleRedirect source target)) ∧
    ∀ p, answer.result = .ok p →
      p.binding.targetClass = final ∧ p.binding.policy.targetClass = final ∧
      p.binding.description = built.toDescription ∧ p.binding.policy.strategy = strategy ∧
      p.binding.policy.proxyMode =
        (if proxyMode = .classProxy ∧ (strategy.proxyable c).1 = false then .objectProxy
          else proxyMode) ∧
      ∀ x, answer.cache.get? x = if x = c then some p else cache.get? x := by
  intro built final answer
  have hclass : built.targetClass = final := d.targetClass_run (.new c)
  have hcollisions : built.collisions = d.collisions (.new c) := d.collisions_run (.new c)
  have hresult : answer.result = _ := result_getOrPublish hnone
  have hrun : ((Builder.new c).run (d.steps (.new c))).1 = built := d.run_steps (.new c)
  have hbuild := build_fst c (d.steps (.new c)) proxyMode strategy policy
  simp only [hrun, hclass] at hbuild
  refine ⟨⟨hclass, hcollisions⟩, ?_⟩
  rw [← hcollisions]
  by_cases hreject : policy = .reject ∧ built.collisions ≠ []
  · rw [if_pos hreject] at hbuild
    rw [hresult, hbuild]
    refine ⟨⟨fun _ => hreject, fun _ => ⟨_, rfl⟩⟩, ?_, ?_, nofun⟩
    · intro e he
      exact (Except.error.inj he).symm
    · exact fun source target => ⟨nofun, nofun⟩
  · rw [if_neg hreject] at hbuild
    have hget : ∀ x, answer.cache.get? x = if x = c then some _ else cache.get? x :=
      get?_getOrPublish_of_ok hnone hbuild
    rw [hresult, hbuild]
    refine ⟨⟨nofun, fun h => absurd h hreject⟩, nofun, fun _ _ => ⟨nofun, nofun⟩, ?_⟩
    intro p hp
    obtain rfl := Except.ok.inj hp
    exact ⟨hclass, rfl, rfl, rfl, rfl, hget⟩

end Cache

namespace Wary

/-- A class that lets everything through. -/
def shape : HostType := .bag { path := "host::Shape", name := "Shape" }

/-- A class that may stand in for it. -/
def circleInfo : ClassInfo :=
  { path := "host::Circle", name := "Circle", supertypes := ["Shape"] }

/-- A class that has nothing to do with the others. -/
def stone : HostType := .bag { path := "host::Stone", name := "Stone" }

/-- Claims a name as a field and as a method. -/
def members : Declaration HostType :=
  .step (.add ((BagMember.field "r" (.prop "r") none).addition circleInfo .unmarked)) fun _ =>
    .step (.add ((BagMember.method "r" (.exactly 0) .echo).addition circleInfo .unmarked)) fun _ =>
      .done

/-- Tries a class that is refused, and goes on with another. -/
def declaration : Declaration HostType :=
  .step (.redirect stone) fun
    | .refused _ => .step (.redirect (.bag circleInfo)) fun _ => members
    | _ => .done

/-- A strategy that makes no class proxies of the class asked for. -/
def strategy : Strategy HostType := RuleStrategy.strategy { unproxyable := ["Shape"] }

/-- What a new cache answers. -/
def answer (policy : CollisionPolicy) : CacheAnswer HostType :=
  ({} : Cache HostType).bind shape (declaration.steps (.new shape)) .classProxy strategy policy

end Wary

open Wary in
/-- The refused redirect shows nowhere. The error names the class that the declaration went on to,
and where collisions are allowed there is a binding of that class, kept under the other and shown as
an object. -/
theorem Cache.bind_of_declaration_wary :
    (answer .reject).result = .error (.collisions "Circle" [⟨"r", .field, .method⟩]) ∧
    ∃ p, (answer .allow).result = .ok p ∧ p.binding.targetClass = .bag circleInfo ∧
      p.binding.policy.proxyMode = .objectProxy ∧ (answer .allow).cache.get? shape = some p ∧
      (answer .allow).cache.get? (.bag circleInfo) = none := by
  have hnone : ({} : Cache HostType).get? shape = none := rfl
  constructor
  · obtain ⟨-, hiff, heq, -⟩ := bind_of_declaration hnone declaration .classProxy strategy .reject
    obtain ⟨e, he⟩ := hiff.2 ⟨rfl, by decide⟩
    exact he.trans (congrArg Except.error (heq e he))
  · obtain ⟨-, hiff, -, -, hok⟩ :=
      bind_of_declaration hnone declaration .classProxy strategy .allow
    cases hr : (answer .allow).result with
    | error e => exact absurd (hiff.1 ⟨e, hr⟩).1 (by decide)
    | ok p =>
      obtain ⟨hclass, -, -, -, hmode, hget⟩ := hok p hr
      exact ⟨p, rfl, hclass, hmode, hget shape, hget (.bag circleInfo)⟩

end HostBridge
