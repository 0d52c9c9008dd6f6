import HostBridge.Host.Bag
import HostBridge.Proofs.Effect

/-!
# Collisions

A builder compares each member it admits with the claims before it and records at most one
collision for it. That is enough: the recorded collisions are, in order, one for each admitted
member that an earlier one on its name does not get along with, and each blames the earliest such
claim (`collision?_eq_some_iff`). No collision is recorded exactly if on every name all claims get
along in pairs (`collisions_eq_nil_iff`), and then every admitted field is the first of its name,
so that no table drops anything (`holdsAll_ofLog`).

`run_new_collisions` says so of every run of building, with what each call returned and what
publishing does.
-/

namespace HostBridge

/-- Two claims on one name get along: as overloads of one another, or as the two halves of one
property. A field gets along with nothing, not even with another field. -/
def MemberKind.Coexist (j k : MemberKind) : Prop :=
  j = k ∧ j ≠ .field ∨ j = .getter ∧ k = .setter ∨ j = .setter ∧ k = .getter

theorem MemberKind.compatible_iff_coexist (j k : MemberKind) :
    j.compatible k = true ↔ j.Coexist k := by
  cases j <;> cases k <;> simp [compatible, Coexist]

/-- The collision that adding a member returned. -/
def Registration.collision? : Registration → Option Collision
  | collided x => some x
  | _ => none

variable {κ : Type} [HostTypes κ]

/-! ## The collision of one member -/

namespace Admitted

/-- The collision is that of a member with those before it: both claim the name, as the kinds that
the collision says, these do not get along, and with every claim on the name before the one that
is blamed the member does get along. -/
def Blames (earlier : List (Addition κ)) (a : Addition κ) (x : Collision) : Prop :=
  a.claimed? = some (x.name, x.incoming) ∧
  ∃ before e after, earlier = before ++ e :: after ∧
    e.claimed? = some (x.name, x.existing) ∧ ¬x.existing.Coexist x.incoming ∧
    ∀ e' ∈ before, ∀ kind, e'.claimed? = some (x.name, kind) → kind.Coexist x.incoming

/-- A member gets along with every claim before it on its name. -/
def Agrees (earlier : List (Addition κ)) (a : Addition κ) : Prop :=
  ∀ e ∈ earlier, ∀ name existing incoming, e.claimed? = some (name, existing) →
    a.claimed? = some (name, incoming) → existing.Coexist incoming

/-- The claim of a member on a name, if another as `incoming` does not get along with it. -/
def clash? (name : String) (incoming : MemberKind) (e : Addition κ) : Option MemberKind :=
  e.claimed?.bind fun q => if q.1 = name ∧ !q.2.compatible incoming then some q.2 else none

theorem clash?_eq_some_iff (name : String) (incoming kind : MemberKind) (e : Addition κ) :
    clash? name incoming e = some kind ↔
      e.claimed? = some (name, kind) ∧ ¬kind.Coexist incoming := by
  rw [← MemberKind.compatible_iff_coexist, Bool.not_eq_true, ← Bool.not_eq_true']
  cases hc : e.claimed? with
  | none => simp [clash?, hc]
  | some q =>
    obtain ⟨n, k⟩ := q
    simp only [clash?, hc, Option.bind_some, Option.ite_none_right_eq_some, Option.some.injEq,
      Prod.mk.injEq]
    constructor
    · rintro ⟨⟨hn, hk⟩, rfl⟩
      exact ⟨⟨hn, rfl⟩, hk⟩
    · rintro ⟨⟨hn, rfl⟩, hk⟩
      exact ⟨⟨hn, hk⟩, rfl⟩

theorem clash?_eq_none_iff (name : String) (incoming : MemberKind) (e : Addition κ) :
    clash? name incoming e = none ↔
      ∀ kind, e.claimed? = some (name, kind) → kind.Coexist incoming := by
  rw [Option.eq_none_iff_forall_ne_some]
  refine forall_congr' fun kind => ?_
  rw [ne_eq, clash?_eq_some_iff, not_and, Classical.not_not]

theorem find?_kindsOn (earlier : List (Addition κ)) (name : String) (incoming : MemberKind) :
    (kindsOn earlier name).find? (fun kind => !kind.compatible incoming) =
      earlier.findSome? (clash? name incoming) :=
  Record.find?_named _ _ _ _

/-- The collision of a member is the one with the earliest claim that it does not get along
with. -/
theorem collision?_eq_some_iff (earlier : List (Addition κ)) (a : Addition κ) (x : Collision) :
    collision? earlier a = some x ↔ Blames earlier a x := by
  obtain ⟨name, existing, incoming⟩ := x
  simp only [collision?, Blames, find?_kindsOn, Option.bind_eq_some_iff, Option.map_eq_some_iff,
    Collision.mk.injEq, List.findSome?_eq_some_iff, clash?_eq_some_iff, clash?_eq_none_iff]
  constructor
  · rintro ⟨⟨n, k⟩, hc, kind, ⟨before, e, after, he, ⟨hk, hnot⟩, hbefore⟩, rfl, rfl, rfl⟩
    exact ⟨hc, before, e, after, he, hk, hnot, hbefore⟩
  · rintro ⟨hc, before, e, after, he, hk, hnot, hbefore⟩
    exact ⟨(name, incoming), hc, existing, ⟨before, e, after, he, ⟨hk, hnot⟩, hbefore⟩,
      rfl, rfl, rfl⟩

/-- A member has no collision if it gets along with all claims before it on its name. -/
theorem collision?_eq_none_iff (earlier : List (Addition κ)) (a : Addition κ) :
    collision? earlier a = none ↔ Agrees earlier a := by
  simp only [collision?, Agrees]
  cases a.claimed? with
  | none => simp
  | some q =>
    obtain ⟨n, k⟩ := q
    simp only [Option.bind_some, Option.map_eq_none_iff, find?_kindsOn, List.findSome?_eq_none_iff,
      clash?_eq_none_iff, Option.some.injEq, Prod.mk.injEq]
    constructor
    · rintro h e he name existing incoming hc ⟨rfl, rfl⟩
      exact h e he existing hc
    · intro h e he existing hc
      exact h e he n existing k hc ⟨rfl, rfl⟩

theorem registration_eq_added_iff (earlier : List (Addition κ)) (a : Addition κ) :
    registration earlier a = .added ↔ Agrees earlier a := by
  rw [← collision?_eq_none_iff, registration]
  cases collision? earlier a <;> simp

theorem registration_eq_collided_iff (earlier : List (Addition κ)) (a : Addition κ)
    (x : Collision) : registration earlier a = .collided x ↔ Blames earlier a x := by
  rw [← collision?_eq_some_iff, registration]
  cases collision? earlier a <;> simp

/-! ## Claims that all get along -/

theorem kindsOn_append (log later : List (Addition κ)) (name : String) :
    kindsOn (log ++ later) name = kindsOn log name ++ kindsOn later name := by
  simp only [kindsOn, Record.named, List.filterMap_append]

theorem pairwise_kindsOn_singleton (a : Addition κ) (name : String) :
    (kindsOn [a] name).Pairwise MemberKind.Coexist := by
  simp only [kindsOn, Record.named, List.filterMap_cons, List.filterMap_nil]
  cases a.claimed? with
  | none => exact List.Pairwise.nil
  | some q =>
    simp only [List.filterMap_cons, List.filterMap_nil]
    split <;> simp

/-- **No collision** is recorded exactly if on every name all claims get along in pairs. -/
theorem collisions_eq_nil_iff (log : List (Addition κ)) :
    collisions log = [] ↔ ∀ name, (kindsOn log name).Pairwise MemberKind.Coexist := by
  induction log using List.reverseRecOn with
  | nil => exact iff_of_true rfl fun _ => List.Pairwise.nil
  | append_singleton log a ih =>
    -- the claim of the last member is compared with all before it, and those among themselves
    -- are the induction hypothesis
    rw [collisions_concat, List.append_eq_nil_iff, Option.toList_eq_nil_iff, ih,
      collision?_eq_none_iff]
    simp only [kindsOn_append, List.pairwise_append, pairwise_kindsOn_singleton, true_and]
    constructor
    · rintro ⟨hlog, ha⟩ name
      refine ⟨hlog name, fun existing hex incoming hin => ?_⟩
      obtain ⟨e, he, hec⟩ := mem_kindsOn.1 hex
      obtain ⟨a', ha', hac⟩ := mem_kindsOn.1 hin
      obtain rfl := List.mem_singleton.1 ha'
      exact ha e he name existing incoming hec hac
    · intro h
      refine ⟨fun name => (h name).1, fun e he name existing incoming hec hac => ?_⟩
      exact (h name).2 existing (mem_kindsOn.2 ⟨e, he, hec⟩) incoming
        (mem_kindsOn.2 ⟨a, List.mem_singleton_self a, hac⟩)

/-- A field without a collision has a name that no field before it has: a field gets along with no
other. -/
theorem not_mem_keys_field? {earlier : List (Addition κ)} {f : Field κ}
    (h : collision? earlier (.field f) = none) :
    f.name ∉ Record.keys (earlier.filterMap Addition.field?) := by
  intro hmem
  obtain ⟨p, hp, hname⟩ := List.mem_map.1 hmem
  obtain ⟨e, he, hf⟩ := List.mem_filterMap.1 hp
  have hclaim : e.claimed? = some (f.name, .field) := by
    cases e <;> simp at hf
    simp [Addition.claimed?, ← hname, ← hf]
  have hfields : MemberKind.field.Coexist .field :=
    (collision?_eq_none_iff earlier _).1 h e he f.name .field .field hclaim rfl
  simp [MemberKind.Coexist] at hfields

theorem nodupKeys_field? {log : List (Addition κ)} (h : collisions log = []) :
    Record.NodupKeys (log.filterMap Addition.field?) := by
  induction log using List.reverseRecOn with
  | nil => exact List.nodup_nil
  | append_singleton log a ih =>
    rw [collisions_concat, List.append_eq_nil_iff, Option.toList_eq_nil_iff] at h
    cases a with
    | field f =>
      have hnew := not_mem_keys_field? h.2
      have hold : (Record.keys (log.filterMap Addition.field?)).Nodup := ih h.1
      simp only [List.filterMap_append, List.filterMap_cons, List.filterMap_nil, Addition.field?,
        Record.NodupKeys, Record.keys_concat]
      simpa [List.nodup_append, hold] using fun x hx => ne_of_mem_of_not_mem hx hnew
    | _ => simpa [List.filterMap_cons] using ih h.1

end Admitted

/-- A description holds all of the given members: every table has those of its kind, in order, and
none is dropped. -/
structure Description.HoldsAll (d : Description κ) (log : List (Addition κ)) : Prop where
  constructors : d.constructors = log.filterMap Addition.factory?
  fields : d.fields = log.filterMap Addition.field?
  methods : ∀ name, (Record.get? d.methods name).getD [] =
    Record.named (log.filterMap Addition.method?) name
  getters : ∀ name, (Record.get? d.getters name).getD [] =
    Record.named (log.filterMap Addition.getter?) name
  setters : ∀ name, (Record.get? d.setters name).getD [] =
    Record.named (log.filterMap Addition.setter?) name
  genericGetters : d.genericGetters = log.filterMap Addition.genericGetter?
  genericSetters : d.genericSetters = log.filterMap Addition.genericSetter?
  applyFunctions : d.applyFunctions = log.filterMap Addition.applyFunction?

namespace Builder

theorem holdsAll_ofLog (c : κ) {log : List (Addition κ)} (h : Admitted.collisions log = []) :
    (ofLog c log).HoldsAll log where
  constructors := rfl
  fields := Record.firsts_of_nodupKeys (Admitted.nodupKeys_field? h)
  methods name := Record.getD_get?_group _ name
  getters name := Record.getD_get?_group _ name
  setters name := Record.getD_get?_group _ name
  genericGetters := rfl
  genericSetters := rfl
  applyFunctions := rfl

theorem publish_reject_eq_ok_iff (b : Builder κ) (d : Description κ) :
    b.publish .reject = .ok d ↔ b.collisions = [] ∧ d = b.toDescription := by
  rw [publish]
  by_cases h : b.collisions = []
  · simp [h, eq_comm]
  · simp [h]

theorem publish_reject_eq_error_iff (b : Builder κ) (e : RegistryError) :
    b.publish .reject = .error e ↔
      b.collisions ≠ [] ∧ e = .collisions (HostTypes.name b.targetClass) b.collisions := by
  rw [publish]
  by_cases h : b.collisions = []
  · simp [h]
  · simp [h, eq_comm]

/-! ## What the calls returned -/

theorem collisions_enter (b : Builder κ) (a : Addition κ) :
    (b.enter a).collisions = b.collisions := by
  cases a with
  | field f =>
    rw [enter]
    split <;> rfl
  | _ => rfl

/-- Adding a member records the collision that it returns, and no other. -/
theorem collisions_add (b : Builder κ) (a : Addition κ) :
    (b.add a).2.collisions = b.collisions ++ (b.add a).1.collision?.toList := by
  rw [add]
  split
  · rw [collisions_enter, claim]
    split
    · simp [Registration.collision?]
    · dsimp only
      split <;> simp [Registration.collision?]
  · simp [Registration.collision?]

variable [DecidableEq κ]

/-- The member that a step added, with what adding it returned; a skipped one is left out. -/
def registered? : BuildStep κ → Report → Option (Addition κ × Registration)
  | .add _, .registered .skipped => none
  | .add a, .registered r => some (a, r)
  | _, _ => none

/-- The members that steps added, each with what adding it returned. -/
def registered (b : Builder κ) (steps : List (BuildStep κ)) : List (Addition κ × Registration) :=
  (steps.zip (b.reports steps)).filterMap fun p => registered? p.1 p.2

theorem registered_cons (b : Builder κ) (s : BuildStep κ) (steps : List (BuildStep κ)) :
    b.registered (s :: steps) =
      (registered? s (b.report s)).toList ++ (b.step s).1.registered steps := by
  rw [registered, reports, List.zip_cons_cons, List.filterMap_cons]
  cases registered? s (b.report s) <;> rfl

theorem collisions_step (b : Builder κ) (s : BuildStep κ) :
    (b.step s).1.collisions =
      b.collisions ++ (registered? s (b.report s)).toList.filterMap (·.2.collision?) := by
  cases s with
  | add a =>
    have hadd := collisions_add b a
    rw [step, report, hadd]
    cases (b.add a).1 <;> rfl
  | redirect c =>
    simp only [step, report]
    cases hr : b.redirect c with
    | ok b' =>
      rw [redirect] at hr
      split at hr
      · obtain rfl := Except.ok.inj hr
        simp [registered?]
      · simp at hr
    | error e => simp [registered?]

/-- **A run records the collisions that its steps returned**, in order. -/
theorem collisions_run (b : Builder κ) (steps : List (BuildStep κ)) :
    (b.run steps).1.collisions =
      b.collisions ++ (b.registered steps).filterMap (·.2.collision?) := by
  induction steps generalizing b with
  | nil => simp [run, registered]
  | cons s steps ih =>
    rw [run, ih, collisions_step, registered_cons, List.filterMap_append, List.append_assoc]

theorem registered?_report_ofLog (c : κ) (log : List (Addition κ)) (s : BuildStep κ) :
    registered? s ((ofLog c log).report s) =
      (s.admitted? c).map fun a => (a, Admitted.registration log a) := by
  cases s with
  | add a =>
    rw [report_add_ofLog, BuildStep.admitted?]
    split
    · have hne := Admitted.registration_ne_skipped log a
      cases hr : Admitted.registration log a with
      | skipped => exact absurd hr hne
      | _ => simp [registered?, hr]
    · rfl
  | redirect d =>
    rw [report]
    split <;> rfl

/-- Adding an admitted member returned what the members before it call for. -/
theorem registered_ofLog (c : κ) (log : List (Addition κ)) (steps : List (BuildStep κ)) :
    (ofLog c log).registered steps = (admitted c steps).mapIdx fun i a =>
      (a, Admitted.registration (log ++ (admitted c steps).take i) a) := by
  induction steps generalizing c log with
  | nil => rfl
  | cons s steps ih =>
    rw [registered_cons, registered?_report_ofLog, step_ofLog, ih, admitted]
    cases s.admitted? c with
    | none => simp
    | some a => simp [List.mapIdx_cons]

theorem map_fst_registered (c : κ) (steps : List (BuildStep κ)) :
    ((new c).registered steps).map (·.1) = admitted c steps := by
  rw [new_eq_ofLog, registered_ofLog]
  refine List.ext_getElem? fun i => ?_
  simp only [List.getElem?_map, List.getElem?_mapIdx, Option.map_map]
  exact Option.map_id_apply

theorem getElem?_registered (c : κ) (steps : List (BuildStep κ)) (i : Nat) (a : Addition κ)
    (r : Registration) : ((new c).registered steps)[i]? = some (a, r) ↔
      (admitted c steps)[i]? = some a ∧
        Admitted.registration ((admitted c steps).take i) a = r := by
  rw [new_eq_ofLog, registered_ofLog, List.getElem?_mapIdx, Option.map_eq_some_iff]
  constructor
  · rintro ⟨a', ha, heq⟩
    obtain ⟨rfl, hr⟩ := Prod.mk.inj heq
    exact ⟨ha, hr⟩
  · rintro ⟨ha, hr⟩
    exact ⟨a, ha, Prod.ext rfl hr⟩

/-! ## The collisions of a run -/

/-- **Collisions are recorded soundly and completely.** After any steps from the empty builder of
a class, the calls that added the admitted members returned, for each, that it was added if it gets
along with every earlier claim on its name, and otherwise a collision that blames the earliest one
it does not get along with. The collisions on record are those, in order. With collisions rejected
the builder is published exactly if on every name all claims get along in pairs; otherwise exactly
the collisions on record are reported, and what is published holds every admitted member. -/
theorem run_new_collisions (c : κ) (steps : List (BuildStep κ)) :
    let b := ((new c).run steps).1
    let log := admitted c steps
    let calls := (new c).registered steps
    (calls.map (·.1) = log ∧ b.collisions = calls.filterMap (·.2.collision?)) ∧
    (∀ i a, calls[i]? = some (a, .added) ↔
      log[i]? = some a ∧ Admitted.Agrees (log.take i) a) ∧
    (∀ i a x, calls[i]? = some (a, .collided x) ↔
      log[i]? = some a ∧ Admitted.Blames (log.take i) a x) ∧
    ((∃ d, b.publish .reject = .ok d) ↔
      ∀ name, (Admitted.kindsOn log name).Pairwise MemberKind.Coexist) ∧
    (∀ e, b.publish .reject = .error e →
      e = .collisions (HostTypes.name (classAfter c steps)) b.collisions) ∧
    ∀ d, b.publish .reject = .ok d → d.HoldsAll log := by
  intro b log calls
  have hb : b = ofLog (classAfter c steps) log := run_new c steps
  have hcollisions : b.collisions = Admitted.collisions log := by
    rw [hb]
    rfl
  refine ⟨⟨map_fst_registered c steps, collisions_run (new c) steps⟩, ?_, ?_, ?_, ?_, ?_⟩
  · intro i a
    rw [getElem?_registered, Admitted.registration_eq_added_iff]
  · intro i a x
    rw [getElem?_registered, Admitted.registration_eq_collided_iff]
  · rw [← Admitted.collisions_eq_nil_iff, ← hcollisions]
    simp only [publish_reject_eq_ok_iff, exists_eq_right]
  · intro e he
    obtain ⟨-, rfl⟩ := (publish_reject_eq_error_iff b e).1 he
    rw [hb]
    rfl
  · intro d hd
    obtain ⟨hnil, rfl⟩ := (publish_reject_eq_ok_iff b d).1 hd
    rw [hb]
    exact holdsAll_ofLog _ (hcollisions ▸ hnil)

/-- The two halves of a property get along. A field of their name collides with the first of them,
and so does the next field, even though there is a field by then. -/
example (c : ClassInfo) : Admitted.collisions
    ([BagMember.getterCode "x" (.exactly 0) (.prop "p"),
      .setterCode "x" (.exactly 1) (.store "p"),
      .field "x" (.prop "p") none,
      .field "x" (.prop "q") none].map fun m => m.addition c .unmarked) =
    [⟨"x", .getter, .field⟩, ⟨"x", .getter, .field⟩] := rfl

end Builder

end HostBridge
