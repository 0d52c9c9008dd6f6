import HostBridge.Binding.Builder
import HostBridge.Proofs.Grouping
import Mathlib.Data.List.Basic

/-!
# What a builder admits

The steps of building leave behind only the members that were admitted: `admitted c steps` lists
them, in order, for a builder that starts on the class `c`. Whether a member is admitted depends
on its mark and on the class that the builder is on at that moment, which the redirects before it
decide (`classAfter`).

`Builder.ofLog` is the builder as a function of such a list, each table given outright. A step
takes it to the builder of the list after the step (`add_ofLog`, `redirect_ofLog`), so a run of
any length ends in the builder of its admitted members (`run_new`).
-/

namespace HostBridge

variable {κ : Type} [HostTypes κ]

/-! ## Parts of a list of members -/

namespace Addition

/-- The constructor that is added. -/
@[simp] def factory? : Addition κ → Option (Constructor κ)
  | factory c => some c
  | _ => none

/-- The field that is added, with its name. -/
@[simp] def field? : Addition κ → Option (String × Field κ)
  | field f => some (f.name, f)
  | _ => none

/-- The method that is added, with its name. -/
@[simp] def method? : Addition κ → Option (String × Method κ)
  | method m => some (m.name, m)
  | _ => none

/-- The getter that is added, with its name. -/
@[simp] def getter? : Addition κ → Option (String × Method κ)
  | getter m => some (m.name, m)
  | _ => none

/-- The setter that is added, with its name. -/
@[simp] def setter? : Addition κ → Option (String × Method κ)
  | setter m => some (m.name, m)
  | _ => none

/-- The generic getter that is added. -/
@[simp] def genericGetter? : Addition κ → Option (GenericGetter κ)
  | genericGetter g => some g
  | _ => none

/-- The generic setter that is added. -/
@[simp] def genericSetter? : Addition κ → Option (GenericSetter κ)
  | genericSetter g => some g
  | _ => none

/-- The apply function that is added. -/
@[simp] def applyFunction? : Addition κ → Option (Method κ)
  | applyFunction m => some m
  | _ => none

/-- The name of a field, method, getter or setter. -/
@[simp] def key? : Addition κ → Option String
  | field f => some f.name
  | method m | getter m | setter m => some m.name
  | _ => none

end Addition

namespace Admitted

/-- The kinds that claim a name, in order. -/
def kindsOn (log : List (Addition κ)) (name : String) : List MemberKind :=
  Record.named (log.filterMap Addition.claimed?) name

/-- The collision of a member with those before it: with the earliest claim on its name that it
does not get along with. -/
def collision? (earlier : List (Addition κ)) (a : Addition κ) : Option Collision :=
  a.claimed?.bind fun claimed =>
    ((kindsOn earlier claimed.1).find? fun kind => !kind.compatible claimed.2).map fun kind =>
      ⟨claimed.1, kind, claimed.2⟩

/-- The collision of the member at an index with those before it. -/
def collisionAt? (log : List (Addition κ)) (i : Nat) : Option Collision :=
  log[i]?.bind (collision? (log.take i))

/-- The collisions of all members, each with those before it. -/
def collisions (log : List (Addition κ)) : List Collision :=
  (List.range log.length).filterMap (collisionAt? log)

/-- What adding a member reports once it is admitted. -/
def registration (earlier : List (Addition κ)) (a : Addition κ) : Registration :=
  (collision? earlier a).elim .added .collided

theorem mem_kindsOn {log : List (Addition κ)} {name : String} {kind : MemberKind} :
    kind ∈ kindsOn log name ↔ ∃ a ∈ log, a.claimed? = some (name, kind) := by
  simp only [kindsOn, Record.named, List.mem_filterMap, Option.ite_none_right_eq_some,
    Option.some.injEq]
  constructor
  · rintro ⟨p, ⟨a, ha, hp⟩, rfl, rfl⟩
    exact ⟨a, ha, hp⟩
  · rintro ⟨a, ha, hp⟩
    exact ⟨_, ⟨a, ha, hp⟩, rfl, rfl⟩

theorem registration_ne_skipped (earlier : List (Addition κ)) (a : Addition κ) :
    registration earlier a ≠ .skipped := by
  rw [registration]
  cases collision? earlier a <;> simp

theorem collisionAt?_concat_of_lt (log : List (Addition κ)) (a : Addition κ) {i : Nat}
    (h : i < log.length) : collisionAt? (log ++ [a]) i = collisionAt? log i := by
  rw [collisionAt?, collisionAt?, List.getElem?_append_left h,
    List.take_append_of_le_length (Nat.le_of_lt h)]

theorem collisionAt?_concat_length (log : List (Addition κ)) (a : Addition κ) :
    collisionAt? (log ++ [a]) log.length = collision? log a := by
  simp [collisionAt?]

/-- A further member adds its own collision at the end and changes none before it. -/
theorem collisions_concat (log : List (Addition κ)) (a : Addition κ) :
    collisions (log ++ [a]) = collisions log ++ (collision? log a).toList := by
  have hold : (List.range log.length).filterMap (collisionAt? (log ++ [a])) = collisions log :=
    List.filterMap_congr fun i hi => collisionAt?_concat_of_lt log a (List.mem_range.1 hi)
  rw [collisions, List.length_append, List.length_singleton, List.range_succ,
    List.filterMap_append, hold, List.filterMap_cons, collisionAt?_concat_length]
  cases collision? log a <;> rfl

end Admitted

/-! ## The class and the members of a run -/

/-- A builder may move from one class to the other: they are the same type, or one is named among
the supertypes of the other. -/
def HostTypes.Related (c d : κ) : Prop :=
  c = d ∨ HostTypes.name d ∈ HostTypes.supertypes c ∨ HostTypes.name c ∈ HostTypes.supertypes d

variable [DecidableEq κ]

instance (c d : κ) : Decidable (HostTypes.Related c d) :=
  inferInstanceAs (Decidable (_ ∨ _ ∨ _))

namespace BuildStep

/-- The class after a step: another only if the step moves to a related one. -/
def classAfter (c : κ) : BuildStep κ → κ
  | .add _ => c
  | .redirect d => if HostTypes.Related c d then d else c

/-- The member that a step adds on a class that lets it through. -/
def admitted? (c : κ) : BuildStep κ → Option (Addition κ)
  | .add a => if (HostTypes.mode c).admits a.exposure then some a else none
  | .redirect _ => none

/-- The member that a step adds or tries to add. -/
def addition? : BuildStep κ → Option (Addition κ)
  | .add a => some a
  | .redirect _ => none

end BuildStep

/-- The class that steps lead to. -/
def classAfter (c : κ) (steps : List (BuildStep κ)) : κ := steps.foldl BuildStep.classAfter c

/-- The members that steps from a class on add, each let through by the class of its moment. -/
def admitted (c : κ) : List (BuildStep κ) → List (Addition κ)
  | [] => []
  | s :: steps => (s.admitted? c).toList ++ admitted (s.classAfter c) steps

/-- Without redirects the class stays. -/
theorem classAfter_map_add (c : κ) (members : List (Addition κ)) :
    classAfter c (members.map .add) = c := by
  induction members with
  | nil => rfl
  | cons a members ih => exact ih

/-- Without redirects the members that the class lets through are admitted. -/
theorem admitted_map_add (c : κ) (members : List (Addition κ)) :
    admitted c (members.map .add) =
      members.filter fun a => (HostTypes.mode c).admits a.exposure := by
  induction members with
  | nil => rfl
  | cons a members ih =>
    rw [List.map_cons, admitted, List.filter_cons]
    simp only [BuildStep.admitted?, BuildStep.classAfter, ih]
    split <;> simp

/-! ## The builder of a list of members -/

namespace Builder

/-- The builder on a class that has admitted the given members and no others. -/
def ofLog (c : κ) (log : List (Addition κ)) : Builder κ where
  targetClass := c
  mode := HostTypes.mode c
  constructors := log.filterMap Addition.factory?
  fields := Record.firsts (log.filterMap Addition.field?)
  methods := Record.group (log.filterMap Addition.method?)
  getters := Record.group (log.filterMap Addition.getter?)
  setters := Record.group (log.filterMap Addition.setter?)
  genericGetters := log.filterMap Addition.genericGetter?
  genericSetters := log.filterMap Addition.genericSetter?
  applyFunctions := log.filterMap Addition.applyFunction?
  keys := (log.filterMap Addition.key?).eraseDups
  collisions := Admitted.collisions log
  claims := Record.group (log.filterMap Addition.claimed?)

omit [DecidableEq κ] in
theorem new_eq_ofLog (c : κ) : new c = ofLog c [] := rfl

theorem insertKey_eraseDups (names : List String) (name : String) :
    insertKey names.eraseDups name = (names ++ [name]).eraseDups := by
  rw [insertKey, eraseDups_concat]
  simp only [List.mem_eraseDups]

omit [DecidableEq κ] in
/-- The kinds on record under a name are those of the admitted members that claim it. -/
theorem claims_of_ofLog (c : κ) (log : List (Addition κ)) (name : String) :
    (ofLog c log).claims.of name = Admitted.kindsOn log name :=
  Record.getD_get?_group _ name

omit [DecidableEq κ] in
theorem claim_ofLog (c : κ) (log : List (Addition κ)) (a : Addition κ) :
    (ofLog c log).claim a = (Admitted.registration log a,
      { ofLog c log with
        claims := Record.group ((log ++ [a]).filterMap Addition.claimed?)
        collisions := Admitted.collisions (log ++ [a]) }) := by
  rw [Admitted.collisions_concat, Admitted.registration, Admitted.collision?, claim]
  cases hc : a.claimed? with
  | none => simp [hc, ofLog]
  | some claimed =>
    obtain ⟨name, kind⟩ := claimed
    have hpush : (ofLog c log).claims.claim name kind =
        Record.group ((log ++ [a]).filterMap Addition.claimed?) := by
      simp [Claims.claim, ofLog, Record.push_group, hc]
    have hfind : (ofLog c log).claims.collision? name kind =
        ((Admitted.kindsOn log name).find? fun k => !k.compatible kind).map fun k =>
          ⟨name, k, kind⟩ := by
      rw [Claims.collision?, claims_of_ofLog]
    simp only [hpush, hfind, Option.bind_some]
    cases (Admitted.kindsOn log name).find? fun k => !k.compatible kind <;> simp [ofLog]

omit [DecidableEq κ] in
theorem mem_key?_of_field? {log : List (Addition κ)} {name : String}
    (h : name ∈ Record.keys (log.filterMap Addition.field?)) :
    name ∈ log.filterMap Addition.key? := by
  obtain ⟨p, hp, rfl⟩ := List.mem_map.1 h
  obtain ⟨a, ha, hf⟩ := List.mem_filterMap.1 hp
  refine List.mem_filterMap.2 ⟨a, ha, ?_⟩
  cases a <;> simp at hf
  simp [← hf]

omit [DecidableEq κ] in
/-- Entering a member whose claim is on record gives the builder of one more member. -/
theorem enter_claim_ofLog (c : κ) (log : List (Addition κ)) (a : Addition κ) :
    ((ofLog c log).claim a).2.enter a = ofLog c (log ++ [a]) := by
  rw [claim_ofLog]
  cases a with
  | field f =>
    -- a field whose name has one already changes neither table, and its name is among the keys
    have hkeys : Record.has (ofLog c log).fields f.name = true →
        (log.filterMap Addition.key? ++ [f.name]).eraseDups =
          (log.filterMap Addition.key?).eraseDups := by
      intro h
      rw [Record.has_iff_mem_keys, ofLog, Record.keys_firsts, List.mem_eraseDups] at h
      rw [eraseDups_concat, if_pos (mem_key?_of_field? h)]
    have hfields := Record.put_firsts (log.filterMap Addition.field?) f.name f
    by_cases h : Record.has (ofLog c log).fields f.name = true
    · have hk := hkeys h
      simp only [ofLog] at h
      rw [if_pos h] at hfields
      simp [enter, ofLog, List.filterMap_cons, h, hk, ← hfields]
    · simp only [ofLog] at h
      rw [if_neg h] at hfields
      simp [enter, ofLog, List.filterMap_cons, h, ← hfields, insertKey_eraseDups]
  | _ => simp [enter, ofLog, List.filterMap_cons, Record.push_group, insertKey_eraseDups]

omit [DecidableEq κ] in
/-- **Adding a member** to the builder of a list of members: the list grows by the member if its
mark is let through, and else nothing changes. -/
theorem add_ofLog (c : κ) (log : List (Addition κ)) (a : Addition κ) :
    (ofLog c log).add a =
      if (HostTypes.mode c).admits a.exposure then
        (Admitted.registration log a, ofLog c (log ++ [a]))
      else (.skipped, ofLog c log) := by
  have hmode : (ofLog c log).mode = HostTypes.mode c := rfl
  have hreg : ((ofLog c log).claim a).1 = Admitted.registration log a := by rw [claim_ofLog]
  simp only [add, hmode, hreg, enter_claim_ofLog]

theorem related_iff_assignable (c d : κ) :
    (HostTypes.assignable d c || HostTypes.assignable c d) = true ↔ HostTypes.Related c d := by
  simp only [HostTypes.assignable, HostTypes.Related, Bool.or_eq_true, beq_iff_eq,
    List.contains_iff_mem]
  constructor
  · rintro ((h | h) | (h | h))
    exacts [.inl h.symm, .inr (.inr h), .inl h, .inr (.inl h)]
  · rintro (h | h | h)
    exacts [.inr (.inl h), .inr (.inr h), .inl (.inr h)]

theorem redirect_ofLog (c : κ) (log : List (Addition κ)) (d : κ) :
    (ofLog c log).redirect d =
      if HostTypes.Related c d then .ok (ofLog d log)
      else .error (.incompatibleRedirect (HostTypes.name c) (HostTypes.name d)) := by
  have hclass : (ofLog c log).targetClass = c := rfl
  rw [redirect, hclass]
  by_cases h : HostTypes.Related c d
  · rw [if_pos ((related_iff_assignable c d).2 h), if_pos h]
    rfl
  · rw [if_neg (mt (related_iff_assignable c d).1 h), if_neg h]

/-- One step takes the builder of a list of members to the builder of the list after it. -/
theorem step_ofLog (c : κ) (log : List (Addition κ)) (s : BuildStep κ) :
    ((ofLog c log).step s).1 = ofLog (s.classAfter c) (log ++ (s.admitted? c).toList) := by
  cases s with
  | add a =>
    simp only [step, add_ofLog, BuildStep.classAfter, BuildStep.admitted?]
    split <;> simp
  | redirect d =>
    by_cases h : HostTypes.Related c d <;>
      simp [step, redirect_ofLog, BuildStep.classAfter, BuildStep.admitted?, h]

theorem run_ofLog (c : κ) (log : List (Addition κ)) (steps : List (BuildStep κ)) :
    ((ofLog c log).run steps).1 = ofLog (classAfter c steps) (log ++ admitted c steps) := by
  induction steps generalizing c log with
  | nil => simp [run, classAfter, admitted]
  | cons s steps ih =>
    rw [run, step_ofLog, ih, admitted, List.append_assoc]
    rfl

/-- **A run of building** ends in the builder of the members it admitted, on the class that its
redirects lead to. -/
theorem run_new (c : κ) (steps : List (BuildStep κ)) :
    ((new c).run steps).1 = ofLog (classAfter c steps) (admitted c steps) := by
  rw [new_eq_ofLog, run_ofLog, List.nil_append]

end Builder

end HostBridge
