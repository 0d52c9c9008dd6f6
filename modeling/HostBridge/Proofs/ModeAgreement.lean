import HostBridge.Proofs.CacheMap
import HostBridge.Proofs.Keys

/-!
# Bindings agree on their mode

A conversion mode is kept in three places: with a class, in the description of its members, where it
follows the redirects of the builder, and in the policy. In every binding that can be had
(`Binding.Obtainable`), by pairing a policy with a description or from a cache, and in whatever
proxy mode it is shown by now, the three are the same, and policy and description are for one class.
-/

namespace HostBridge

variable {κ : Type} [HostTypes κ]

/-! ## Bindings that can be had -/

/-- The policies that can be made. -/
inductive Policy.Made : Policy κ → Prop
  | new (proxyMode : ProxyMode) (c : κ) (strategy : Strategy κ) : Made (.new proxyMode c strategy)
  | new? {proxyMode : ProxyMode} {c : κ} {strategy : Option (Strategy κ)} {policy : Policy κ}
      (made : Policy.new? proxyMode c strategy = .ok policy) : Made policy

variable [DecidableEq κ]

mutual

/-- The bindings that can be had. -/
inductive Binding.Obtainable : Binding κ → Prop
  /-- A policy is paired with the description that any steps of building lead to. -/
  | paired {policy : Policy κ} {c : κ} {steps : List (BuildStep κ)} {collisions : CollisionPolicy}
      {d : Description κ} {b : Binding κ} (made : policy.Made)
      (published : ((Builder.new c).run steps).1.publish collisions = .ok d)
      (paired : Binding.new policy d = .ok b) : Binding.Obtainable b
  /-- A cache hands it out. -/
  | handed {cache : Cache κ} {r : Cache.Request κ} {p : Published κ}
      (reachable : Cache.Reachable cache)
      (builds : ∀ c build, r = .publish c build →
        ∀ b, (build ()).1 = .ok b → Binding.Obtainable b)
      (handed : (cache.handle r).1.published? = some p) : Binding.Obtainable p.binding
  /-- It is shown in another proxy mode. -/
  | switched {b : Binding κ} (h : Binding.Obtainable b) (mode : ProxyMode) :
      Binding.Obtainable (b.withProxyMode mode)

/-- The caches that calls lead to if all builds give such bindings. -/
inductive Cache.Reachable : Cache κ → Prop
  | empty : Cache.Reachable {}
  | handled {cache : Cache κ} {r : Cache.Request κ} (reachable : Cache.Reachable cache)
      (builds : ∀ c build, r = .publish c build →
        ∀ b, (build ()).1 = .ok b → Binding.Obtainable b) :
      Cache.Reachable (cache.handle r).2
  /-- A published binding is shown in another proxy mode. -/
  | switched {cache : Cache κ} {p : Published κ} (reachable : Cache.Reachable cache)
      (h : Binding.Obtainable p.binding) (mode : ProxyMode) :
      Cache.Reachable (cache.refresh { p with binding := p.binding.withProxyMode mode })

end

/-! ## What all bindings in a cache have -/

namespace Cache

variable {P : Binding κ → Prop} {cache : Cache κ}

/-- All published bindings have a property. -/
def Holds (P : Binding κ → Prop) (cache : Cache κ) : Prop :=
  ∀ c p, cache.get? c = some p → P p.binding

/-- Changing what is in the slots changes it for each class. -/
theorem slot?_map (f : Option (Published κ) → Option (Published κ))
    (slots : List (κ × Option (Published κ))) (c : κ) :
    slot? (slots.map fun e => (e.1, f e.2)) c = (slot? slots c).map f := by
  induction slots with
  | nil => rfl
  | cons e rest ih =>
    rw [List.map_cons, slot?, slot?, ih]
    split <;> rfl

namespace Holds

theorem getOrPublish (h : cache.Holds P) (c : κ)
    {build : Unit → Except RegistryError (Binding κ) × List Event}
    (hbuild : ∀ b, (build ()).1 = .ok b → P b) :
    (cache.getOrPublish c build).cache.Holds P ∧
      ∀ p, (cache.getOrPublish c build).result = .ok p → P p.binding := by
  cases hget : cache.get? c with
  | some p =>
    rw [getOrPublish_of_get?_eq_some hget]
    refine ⟨h, fun q hq => ?_⟩
    cases hq
    exact h c p hget
  | none =>
    rcases hb : build () with ⟨e | b, events⟩
    · rw [getOrPublish_of_error hget hb]
      exact ⟨fun x p hp => h x p ((get?_openSlot x).symm.trans hp), nofun⟩
    · have hP : P b := hbuild b (congrArg Prod.fst hb)
      rw [getOrPublish_of_ok hget hb]
      refine ⟨fun x p hp => ?_, fun q hq => ?_⟩
      · rw [get?, slot?_fillSlot] at hp
        by_cases hx : x = c
        · obtain ⟨q, -, hq⟩ := Option.map_eq_some_iff.1 (Option.join_eq_some_iff.1 hp)
          rw [if_pos hx] at hq
          cases hq
          exact hP
        · simp only [if_neg hx, Option.map_id'] at hp
          exact h x p ((get?_openSlot x).symm.trans hp)
      · cases hq
        exact hP

theorem refresh (h : cache.Holds P) {p : Published κ} (hP : P p.binding) :
    (cache.refresh p).Holds P := by
  intro x q hq
  rw [Cache.refresh, get?, slot?_map] at hq
  obtain ⟨slot, hslot, hq⟩ := Option.map_eq_some_iff.1 (Option.join_eq_some_iff.1 hq)
  obtain ⟨old, rfl, rfl⟩ := Option.map_eq_some_iff.1 hq
  split
  · exact hP
  · exact h x old (Option.join_eq_some_iff.2 hslot)

theorem evict (h : cache.Holds P) (c : κ) : (cache.evict c).2.Holds P := by
  intro x p hp
  rw [Cache.evict, get?, slot?_filter_ne] at hp
  split at hp
  · cases hp
  · exact h x p hp

/-- One call keeps the property, if what is built for it has it. -/
theorem handle (h : cache.Holds P) {r : Request κ}
    (hpublish : ∀ c build, r = .publish c build → ∀ b, (build ()).1 = .ok b → P b)
    (hbind : ∀ c declaration mode strategy policy b,
      (Cache.build c declaration mode strategy policy).1 = .ok b → P b) :
    (cache.handle r).2.Holds P ∧
      ∀ p, (cache.handle r).1.published? = some p → P p.binding := by
  have hanswer {a : CacheAnswer κ}
      (ha : a.cache.Holds P ∧ ∀ p, a.result = .ok p → P p.binding) :
      a.cache.Holds P ∧
        ∀ p, (Reply.answer a.result a.built a.events).published? = some p → P p.binding := by
    refine ⟨ha.1, fun p hp => ha.2 p ?_⟩
    cases hr : a.result with
    | error e =>
      rw [hr] at hp
      cases hp
    | ok q =>
      rw [hr] at hp
      cases hp
      rfl
  cases r with
  | get c => exact ⟨h, h c⟩
  | publish c build => exact hanswer (h.getOrPublish c (hpublish c build rfl))
  | bind c declaration mode strategy policy =>
    exact hanswer (h.getOrPublish c (hbind c declaration mode strategy policy))
  | evict c => exact ⟨h.evict c, h c⟩
  | size | isEmpty => exact ⟨h, nofun⟩

end Holds

end Cache

/-! ## Agreement -/

/-- The three places of the conversion mode agree, and policy and description are for one class. -/
structure Binding.Agrees (b : Binding κ) : Prop where
  classes : b.policy.targetClass = b.description.targetClass
  policyMode : b.policy.conversionMode = b.description.mode
  classMode : b.description.mode = HostTypes.mode b.targetClass

omit [DecidableEq κ] in
theorem Policy.Made.conversionMode {policy : Policy κ} (h : policy.Made) :
    policy.conversionMode = HostTypes.mode policy.targetClass := by
  cases h with
  | new => rfl
  | @new? _ _ strategy _ made =>
    cases strategy with
    | none => cases made
    | some s =>
      cases made
      rfl

/-- Whatever redirects there were, a description has the mode of its class. -/
theorem Builder.mode_of_publish {c : κ} {steps : List (BuildStep κ)} {policy : CollisionPolicy}
    {d : Description κ} (h : ((new c).run steps).1.publish policy = .ok d) :
    d.mode = HostTypes.mode d.targetClass := by
  rw [eq_toDescription_of_publish h, run_new]
  rfl

namespace Binding

theorem new_eq_ok_iff {policy : Policy κ} {d : Description κ} {b : Binding κ} :
    Binding.new policy d = .ok b ↔ policy.targetClass = d.targetClass ∧ b = ⟨policy, d⟩ := by
  unfold Binding.new
  split
  · next h =>
    rw [Except.ok.injEq]
    exact ⟨fun hb => ⟨h, hb.symm⟩, fun hb => hb.2.symm⟩
  · next h => exact ⟨nofun, fun hb => absurd hb.1 h⟩

theorem agrees_of_new {policy : Policy κ} {d : Description κ} {b : Binding κ}
    (hpolicy : policy.conversionMode = HostTypes.mode policy.targetClass)
    (hd : d.mode = HostTypes.mode d.targetClass) (h : Binding.new policy d = .ok b) :
    b.Agrees := by
  obtain ⟨hclass, rfl⟩ := new_eq_ok_iff.1 h
  exact ⟨hclass, by rw [hpolicy, hd, hclass], hd⟩

omit [DecidableEq κ] in
theorem Agrees.withProxyMode {b : Binding κ} (h : b.Agrees) (mode : ProxyMode) :
    (b.withProxyMode mode).Agrees :=
  ⟨h.classes, h.policyMode, h.classMode⟩

theorem agrees_of_build {c : κ} {declaration : List (BuildStep κ)} {mode : ProxyMode}
    {strategy : Strategy κ} {policy : CollisionPolicy} {b : Binding κ}
    (h : (Cache.build c declaration mode strategy policy).1 = .ok b) : b.Agrees := by
  unfold Cache.build at h
  dsimp only at h
  split at h
  · cases h
  · next d hd => exact agrees_of_new rfl (Builder.mode_of_publish hd) h

end Binding

mutual

theorem Binding.Obtainable.agrees {b : Binding κ} : Binding.Obtainable b → b.Agrees
  | .paired made published paired =>
    Binding.agrees_of_new made.conversionMode (Builder.mode_of_publish published) paired
  | .handed reachable builds handed =>
    (reachable.holds.handle (fun c build hr b hb => (builds c build hr b hb).agrees)
      fun _ _ _ _ _ _ => Binding.agrees_of_build).2 _ handed
  | .switched h mode => h.agrees.withProxyMode mode

theorem Cache.Reachable.holds {cache : Cache κ} :
    Cache.Reachable cache → cache.Holds Binding.Agrees
  | .empty => nofun
  | .handled reachable builds =>
    (reachable.holds.handle (fun c build hr b hb => (builds c build hr b hb).agrees)
      fun _ _ _ _ _ _ => Binding.agrees_of_build).1
  | .switched reachable h mode => reachable.holds.refresh (h.agrees.withProxyMode mode)

end

/-- **Bindings agree on their mode and class.** Every binding that can be had does, and a policy and
a description are paired exactly if they are for the same class, whatever the classes are called. -/
theorem Binding.obtainable_agrees :
    (∀ b : Binding κ, b.Obtainable → b.Agrees) ∧
    ∀ (policy : Policy κ) (d : Description κ),
      (Binding.new policy d = .error (.classMismatch (HostTypes.name policy.targetClass)
        (HostTypes.name d.targetClass)) ↔ policy.targetClass ≠ d.targetClass) ∧
      (Binding.new policy d = .ok ⟨policy, d⟩ ↔ policy.targetClass = d.targetClass) := by
  refine ⟨fun b h => h.agrees, fun policy d => ⟨?_, ?_⟩⟩
  · unfold Binding.new
    split
    · next h => exact ⟨nofun, fun hne => absurd h hne⟩
    · next h => exact ⟨fun _ => h, fun _ => rfl⟩
  · rw [Binding.new_eq_ok_iff]
    exact and_iff_left rfl

namespace Relatives

/-- A class that lets everything through. -/
def shape : HostType := .bag { path := "base::Shape", name := "Shape" }

/-- A stricter class of the same name, which can stand in for it. -/
def strict : HostType :=
  .bag { path := "strict::Shape", name := "Shape", supertypes := ["Shape"],
         declaredMode := some .allowOnly }

/-- What a cache publishes for the first class if its declaration moves on to the second. -/
def published : Published HostType where
  serial := 0
  binding := ⟨.new .classProxy strict (.passThrough _), (Builder.new strict).toDescription⟩

end Relatives

open Relatives in
/-- The binding is for the stricter class and has its mode everywhere, in another proxy mode too. A
policy for the first class does not go with it. -/
theorem Binding.obtainable_agrees_relatives :
    (({} : Cache HostType).bind shape [.redirect strict] .classProxy (.passThrough _)
      .reject).result = .ok published ∧
    (published.binding.withProxyMode .functionProxy).Agrees ∧
    published.binding.description.mode = .allowOnly ∧
    Binding.new (.new .objectProxy shape (.passThrough _)) published.binding.description =
      .error (.classMismatch "Shape" "Shape") := by
  have hbound : (({} : Cache HostType).handle (.bind shape [.redirect strict] .classProxy
      (.passThrough _) .reject)).1.published? = some published := rfl
  refine ⟨rfl, Binding.obtainable_agrees.1 _ (.switched (.handed .empty nofun hbound) _), rfl, ?_⟩
  exact (Binding.obtainable_agrees.2 _ _).1.2 (by decide)

end HostBridge
