import HostBridge.Proofs.Collision
import HostBridge.Proofs.Keys
import HostBridge.Proofs.Overload

/-!
# Declarations in another order

The order in which members are added matters only among members that stand in one line: the fields,
getters, setters or methods of one name, the generic getters, the generic setters, the constructors,
the apply functions (`Addition.line`). A declaration in another order that keeps every line as it is
leads to a binding that behaves alike in every access (`SameLines.alike`), although its tables list
their names in another order and its collisions may be others.

Which names have collisions does not depend on the order at all, not even on that within a line:
a name has one exactly if two claims on it do not get along (`Admitted.exists_collision_iff`), and
that relation is symmetric. So rejecting collisions accepts the one order if it accepts the other.
-/

namespace HostBridge

/-- The lines of members. Only the order within a line shows in accesses. -/
inductive Line where
  | factories
  | fields (name : String)
  | methods (name : String)
  | getters (name : String)
  | setters (name : String)
  | genericGetters
  | genericSetters
  | applyFunctions
deriving DecidableEq

variable {κ : Type} [HostTypes κ]

/-- The line in which a member stands. -/
def Addition.line : Addition κ → Line
  | factory _ => .factories
  | field f => .fields f.name
  | method m => .methods m.name
  | getter m => .getters m.name
  | setter m => .setters m.name
  | genericGetter _ => .genericGetters
  | genericSetter _ => .genericSetters
  | applyFunction _ => .applyFunctions

/-- Two lists of members have the same members in every line, in the same order. -/
def SameLines (xs ys : List (Addition κ)) : Prop :=
  ∀ line, xs.filter (fun a => a.line = line) = ys.filter fun a => a.line = line

namespace SameLines

variable {xs ys : List (Addition κ)}

/-- Neighbours that stand in different lines can change places. -/
theorem swap (before after : List (Addition κ)) {a b : Addition κ} (h : a.line ≠ b.line) :
    SameLines (before ++ a :: b :: after) (before ++ b :: a :: after) := by
  intro line
  simp only [List.filter_append]
  congr 1
  by_cases ha : a.line = line
  · have hb : b.line ≠ line := fun hb => h (ha.trans hb.symm)
    simp [ha, hb]
  · simp [ha, List.filter_cons]

theorem trans {zs : List (Addition κ)} (h : SameLines xs ys) (h' : SameLines ys zs) :
    SameLines xs zs := fun line => (h line).trans (h' line)

theorem filter (h : SameLines xs ys) (p : Addition κ → Bool) :
    SameLines (xs.filter p) (ys.filter p) := by
  intro line
  have hcomm : ∀ zs : List (Addition κ), (zs.filter p).filter (fun a => a.line = line) =
      (zs.filter fun a => a.line = line).filter p := fun zs => by
    rw [List.filter_filter, List.filter_filter]
    exact List.filter_congr fun a _ => Bool.and_comm _ _
  rw [hcomm, hcomm, h line]

/-- What is taken from one line only is taken alike from both lists. -/
theorem filterMap_eq {β : Type} (h : SameLines xs ys) (line : Line) (part : Addition κ → Option β)
    (hpart : ∀ a, a.line ≠ line → part a = none) : xs.filterMap part = ys.filterMap part := by
  have hline : ∀ zs : List (Addition κ),
      (zs.filter fun a => a.line = line).filterMap part = zs.filterMap part := fun zs => by
    rw [List.filterMap_filter]
    refine List.filterMap_congr fun a _ => ?_
    by_cases ha : a.line = line
    · simp [ha]
    · simp [ha, hpart a ha]
  rw [← hline xs, ← hline ys, h line]

/-- The first find in one line is the same in both lists. -/
theorem findSome?_eq {β : Type} (h : SameLines xs ys) (line : Line) (part : Addition κ → Option β)
    (hpart : ∀ a, a.line ≠ line → part a = none) : xs.findSome? part = ys.findSome? part := by
  rw [← List.head?_filterMap, ← List.head?_filterMap, h.filterMap_eq line part hpart]

/-- Going through both lists with steps that only one line makes ends alike. -/
theorem foldl_eq {β : Type} (h : SameLines xs ys) (line : Line) (step : β → Addition κ → β)
    (hstep : ∀ s a, a.line ≠ line → step s a = s) (s : β) : xs.foldl step s = ys.foldl step s := by
  have hline : ∀ zs : List (Addition κ),
      (zs.filter fun a => a.line = line).foldl step s = zs.foldl step s := fun zs => by
    rw [List.foldl_filter]
    congr 1
    funext s a
    by_cases ha : a.line = line
    · simp [ha]
    · simp [ha, hstep s a ha]
  rw [← hline xs, ← hline ys, h line]

/-! ## Accesses -/

theorem methodFor?_eq (h : SameLines xs ys) (name : String) :
    xs.filterMap (Addition.methodFor? name) = ys.filterMap (Addition.methodFor? name) :=
  h.filterMap_eq (.methods name) _ fun a ha => by cases a <;> simp_all [Addition.line]

theorem factory?_eq (h : SameLines xs ys) :
    xs.filterMap Addition.factory? = ys.filterMap Addition.factory? :=
  h.filterMap_eq .factories _ fun a ha => by cases a <;> simp_all [Addition.line]

theorem applyFunction?_eq (h : SameLines xs ys) :
    xs.filterMap Addition.applyFunction? = ys.filterMap Addition.applyFunction? :=
  h.filterMap_eq .applyFunctions _ fun a ha => by cases a <;> simp_all [Addition.line]

variable [DecidableEq κ]

theorem read_eq (h : SameLines xs ys) (o : Object κ) (name : String) :
    Admitted.read xs o name = Admitted.read ys o name := by
  have hgetter := h.findSome?_eq (.getters name) (Addition.getterFor? name) fun a ha => by
    cases a <;> simp_all [Addition.line, Addition.getterFor?]
  have hfield := h.findSome?_eq (.fields name) (Addition.fieldFor? name) fun a ha => by
    cases a <;> simp_all [Addition.line, Addition.fieldFor?]
  have hgeneric := h.findSome?_eq .genericGetters (Addition.answer? o name) fun a ha => by
    cases a <;> simp_all [Addition.line, Addition.answer?]
  rw [Admitted.read, Admitted.read, hgetter, hfield, hgeneric]

theorem write_eq (h : SameLines xs ys) (o : Object κ) (name : String) (v : Value) :
    Admitted.write xs o name v = Admitted.write ys o name v := by
  have hsetter := h.findSome?_eq (.setters name) (Addition.setterFor? name) fun a ha => by
    cases a <;> simp_all [Addition.line, Addition.setterFor?]
  have hfield := h.findSome?_eq (.fields name) (Addition.fieldFor? name) fun a ha => by
    cases a <;> simp_all [Addition.line, Addition.fieldFor?]
  have hgeneric := h.foldl_eq .genericSetters (Addition.offer name v)
    (fun s a ha => by cases a <;> simp_all [Addition.line, Addition.offer]) (.ok false, o)
  rw [Admitted.write, Admitted.write, hsetter, hfield, hgeneric]

end SameLines

/-- Two bindings cannot be told apart by accesses, and they have the same names. -/
structure Binding.Alike [DecidableEq κ] (b b' : Binding κ) : Prop where
  get : ∀ o name, b.get o name = b'.get o name
  set : ∀ o name v, b.set o name v = b'.set o name v
  call : ∀ o name args, b.call o name args = b'.call o name args
  construct : ∀ args, b.construct args = b'.construct args
  apply : ∀ o args, b.apply o args = b'.apply o args
  mem_keys : ∀ name, name ∈ b.description.keys ↔ name ∈ b'.description.keys
  mem_propertyKeys : ∀ name, name ∈ b.keys ↔ name ∈ b'.keys

/-- The names of members of one kind are the same in any order. -/
theorem mem_keys_filterMap_of_perm {β : Type} {xs ys : List (Addition κ)} (h : xs.Perm ys)
    (part : Addition κ → Option (String × β)) (name : String) :
    name ∈ Record.keys (xs.filterMap part) ↔ name ∈ Record.keys (ys.filterMap part) :=
  ((h.filterMap part).map Prod.fst).mem_iff

/-- **Lines decide accesses.** Bindings of one class and strategy behave alike if they have the same
members and these stand in the same lines. -/
theorem SameLines.alike [DecidableEq κ] {xs ys : List (Addition κ)} (h : SameLines xs ys)
    (hperm : xs.Perm ys) {c : κ} {p p' : Policy κ} (hstrategy : p.strategy = p'.strategy) :
    Binding.Alike ⟨p, (Builder.ofLog c xs).toDescription⟩
      ⟨p', (Builder.ofLog c ys).toDescription⟩ where
  get o name := by
    rw [Binding.get_eq_admitted_get rfl, Binding.get_eq_admitted_get rfl]
    simp only [Admitted.get, hstrategy, h.read_eq]
  set o name v := by
    rw [Binding.set_eq_admitted_set rfl, Binding.set_eq_admitted_set rfl]
    simp only [Admitted.set, hstrategy, h.write_eq]
  call o name args := by
    simp only [Binding.call, Binding.interceptedEvent, Binding.targetClass, hstrategy,
      Description.call_ofLog, h.methodFor?_eq]
    rfl
  construct args := by
    have hfactories : (Builder.ofLog c xs).constructors = (Builder.ofLog c ys).constructors :=
      h.factory?_eq
    have hmembers : (Builder.ofLog c xs).toDescription.construct args =
        (Builder.ofLog c ys).toDescription.construct args := by
      rw [Description.construct, Description.construct, hfactories]
      rfl
    simp only [Binding.construct, Binding.targetClass, hstrategy, hmembers]
    rfl
  apply o args := by
    simp only [Binding.apply, Description.apply_ofLog, h.applyFunction?_eq]
  mem_keys name := by
    simp only [Builder.ofLog, List.mem_eraseDups]
    exact (hperm.filterMap Addition.key?).mem_iff
  mem_propertyKeys name := by
    simp only [Binding.keys, Description.mem_propertyKeys, Builder.ofLog, Record.keys_firsts,
      Record.keys_group, List.mem_eraseDups]
    exact or_congr (mem_keys_filterMap_of_perm hperm _ name)
      (mem_keys_filterMap_of_perm hperm _ name)

/-! ## Collisions -/

theorem MemberKind.Coexist.symm {j k : MemberKind} (h : j.Coexist k) : k.Coexist j := by
  rcases h with ⟨rfl, hne⟩ | ⟨rfl, rfl⟩ | ⟨rfl, rfl⟩
  · exact .inl ⟨rfl, hne⟩
  · exact .inr (.inr ⟨rfl, rfl⟩)
  · exact .inr (.inl ⟨rfl, rfl⟩)

namespace Admitted

/-- A member collides on a name exactly if it claims the name and does not get along with a claim
on it before. -/
theorem exists_collision?_iff (log : List (Addition κ)) (a : Addition κ) (name : String) :
    (∃ x, collision? log a = some x ∧ x.name = name) ↔
      ∃ existing ∈ kindsOn log name, ∃ incoming ∈ kindsOn [a] name,
        ¬existing.Coexist incoming := by
  constructor
  · rintro ⟨x, hx, rfl⟩
    obtain ⟨hclaim, before, e, after, rfl, hexisting, hnot, -⟩ :=
      (collision?_eq_some_iff _ _ _).1 hx
    have hmem : e ∈ before ++ e :: after := by simp
    exact ⟨_, mem_kindsOn.2 ⟨e, hmem, hexisting⟩, _,
      mem_kindsOn.2 ⟨a, List.mem_singleton_self a, hclaim⟩, hnot⟩
  · rintro ⟨existing, hexisting, incoming, hincoming, hnot⟩
    obtain ⟨e, he, hclaim⟩ := mem_kindsOn.1 hexisting
    obtain ⟨a', ha', hclaim'⟩ := mem_kindsOn.1 hincoming
    obtain rfl := List.mem_singleton.1 ha'
    cases hx : collision? log a' with
    | none =>
      have hagrees := (collision?_eq_none_iff log a').1 hx
      exact absurd (hagrees e he name existing incoming hclaim hclaim') hnot
    | some x =>
      refine ⟨x, rfl, ?_⟩
      obtain ⟨hclaimed, -⟩ := (collision?_eq_some_iff log a' x).1 hx
      rw [hclaim', Option.some.injEq, Prod.mk.injEq] at hclaimed
      exact hclaimed.1.symm

/-- **A name has a collision** exactly if its claims do not all get along in pairs. -/
theorem exists_collision_iff (log : List (Addition κ)) (name : String) :
    (∃ x ∈ collisions log, x.name = name) ↔
      ¬(kindsOn log name).Pairwise MemberKind.Coexist := by
  induction log using List.reverseRecOn with
  | nil => simp [collisions, kindsOn, Record.named]
  | append_singleton log a ih =>
    -- a collision on the name is one of the earlier members, or that of the last member
    have hsplit : (∃ x ∈ collisions (log ++ [a]), x.name = name) ↔
        (∃ x ∈ collisions log, x.name = name) ∨
          ∃ x, collision? log a = some x ∧ x.name = name := by
      simp only [collisions_concat, List.mem_append, Option.mem_toList, or_and_right, exists_or]
    have hpairs : (kindsOn (log ++ [a]) name).Pairwise MemberKind.Coexist ↔
        (kindsOn log name).Pairwise MemberKind.Coexist ∧
          ∀ existing ∈ kindsOn log name, ∀ incoming ∈ kindsOn [a] name,
            existing.Coexist incoming := by
      rw [kindsOn_append, List.pairwise_append]
      simp only [pairwise_kindsOn_singleton, true_and]
    rw [hsplit, hpairs, ih, exists_collision?_iff, not_and_or]
    refine or_congr_right ?_
    simp only [not_forall, exists_prop]

/-- Which names have collisions does not depend on the order of the members. -/
theorem exists_collision_iff_of_perm {xs ys : List (Addition κ)} (h : xs.Perm ys) (name : String) :
    (∃ x ∈ collisions xs, x.name = name) ↔ ∃ x ∈ collisions ys, x.name = name := by
  have hkinds : (kindsOn xs name).Perm (kindsOn ys name) :=
    (h.filterMap Addition.claimed?).filterMap _
  rw [exists_collision_iff, exists_collision_iff, hkinds.pairwise_iff MemberKind.Coexist.symm]

end Admitted

/-! ## A declaration in two orders -/

namespace TwoOrders

/-- A class that lets everything through. -/
def info : ClassInfo := { path := "host::Ordered", name := "Ordered" }

def getter : Addition HostType := (BagMember.getter "x" (.prop "p")).addition info .unmarked

def field : Addition HostType := (BagMember.field "x" (.prop "q") none).addition info .unmarked

def fallback : Addition HostType := (BagMember.genericGetter "g" .keyText).addition info .unmarked

def method : Addition HostType :=
  (BagMember.method "m" (.exactly 0) (.prop "p")).addition info .unmarked

/-- The getter comes before the field of its name. -/
def getterFirst : List (Addition HostType) := [getter, field, fallback, method]

/-- The field comes before the getter of its name, and the others have changed places too. -/
def fieldFirst : List (Addition HostType) := [field, getter, method, fallback]

theorem perm : getterFirst.Perm fieldFirst :=
  (List.Perm.swap _ _ _).trans (((List.Perm.swap _ _ _).cons _).cons _)

theorem sameLines : SameLines getterFirst fieldFirst :=
  (SameLines.swap [] [fallback, method] (by decide)).trans
    (SameLines.swap [field, getter] [] (by decide))

end TwoOrders

namespace Builder

variable [DecidableEq κ]

/-- **Independent registrations commute.** Two declarations of one class that have the same members
in another order have collisions on the same names, and rejecting collisions publishes the one if it
publishes the other. If moreover every line of members is kept in its order, then the bindings that
are published with collisions allowed, under one strategy, answer every access alike, leave the
receiver alike, and have the same names. -/
theorem reordering (c : κ) {xs ys : List (Addition κ)} (hperm : xs.Perm ys) :
    let b := ((new c).run (xs.map .add)).1
    let b' := ((new c).run (ys.map .add)).1
    (SameLines xs ys → ∀ p p' : Policy κ, p.targetClass = c → p'.targetClass = c →
      p.strategy = p'.strategy → ∃ d d' e e',
        b.publish .allow = .ok d ∧ b'.publish .allow = .ok d' ∧
        Binding.new p d = .ok e ∧ Binding.new p' d' = .ok e' ∧ e.Alike e') ∧
    ((∃ d, b.publish .reject = .ok d) ↔ ∃ d, b'.publish .reject = .ok d) ∧
    ∀ name, (∃ x ∈ b.collisions, x.name = name) ↔ ∃ x ∈ b'.collisions, x.name = name := by
  intro b b'
  have hrun : ∀ zs : List (Addition κ), ((new c).run (zs.map .add)).1 =
      ofLog c (zs.filter fun a => (HostTypes.mode c).admits a.exposure) := fun zs => by
    rw [run_new, classAfter_map_add, admitted_map_add]
  have hb := hrun xs
  have hb' := hrun ys
  have hlogs := hperm.filter fun a => (HostTypes.mode c).admits a.exposure
  have hnames : ∀ name,
      (∃ x ∈ b.collisions, x.name = name) ↔ ∃ x ∈ b'.collisions, x.name = name := by
    intro name
    simp only [b, b', hb, hb']
    exact Admitted.exists_collision_iff_of_perm hlogs name
  refine ⟨?_, ?_, hnames⟩
  · intro hlines p p' hp hp' hstrategy
    refine ⟨b.toDescription, b'.toDescription, ⟨p, b.toDescription⟩, ⟨p', b'.toDescription⟩,
      by simp [publish], by simp [publish], ?_, ?_, ?_⟩
    · simp only [b, hb]
      exact if_pos hp
    · simp only [b', hb']
      exact if_pos hp'
    · simp only [b, b', hb, hb']
      exact (hlines.filter _).alike hlogs hstrategy
  · -- there is a collision on some name or there is none at all
    simp only [publish_reject_eq_ok_iff, exists_eq_right, List.eq_nil_iff_forall_not_mem]
    constructor
    · intro hnone x hx
      obtain ⟨y, hy, -⟩ := (hnames x.name).2 ⟨x, hx, rfl⟩
      exact hnone y hy
    · intro hnone x hx
      obtain ⟨y, hy, -⟩ := (hnames x.name).1 ⟨x, hx, rfl⟩
      exact hnone y hy

/-- Whether the getter or the field of its name comes first does not show in accesses. The
collisions on record are others, but they are on the same name. -/
theorem reordering_twoOrders :
    let c := HostType.bag TwoOrders.info
    let p := Policy.new .objectProxy c (Strategy.passThrough HostType)
    let b := ((new c).run (TwoOrders.getterFirst.map .add)).1
    let b' := ((new c).run (TwoOrders.fieldFirst.map .add)).1
    (TwoOrders.getterFirst.Perm TwoOrders.fieldFirst ∧
      SameLines TwoOrders.getterFirst TwoOrders.fieldFirst) ∧
    (∃ d d' e e', b.publish .allow = .ok d ∧ b'.publish .allow = .ok d' ∧
      Binding.new p d = .ok e ∧ Binding.new p d' = .ok e' ∧ e.Alike e') ∧
    b.collisions = [⟨"x", .getter, .field⟩] ∧ b'.collisions = [⟨"x", .field, .getter⟩] ∧
    ((∃ d, b.publish .reject = .ok d) ↔ ∃ d, b'.publish .reject = .ok d) := by
  intro c p b b'
  obtain ⟨halike, hverdict, -⟩ := reordering c TwoOrders.perm
  exact ⟨⟨TwoOrders.perm, TwoOrders.sameLines⟩, halike TwoOrders.sameLines p p rfl rfl rfl, rfl,
    rfl, hverdict⟩

end Builder

end HostBridge
