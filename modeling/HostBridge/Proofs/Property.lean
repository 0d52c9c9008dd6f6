import HostBridge.Host.Bag
import HostBridge.Host.Rules
import HostBridge.Proofs.Access

/-!
# Reading and writing a property of a built class

What a read and a write of a built class give, for every strategy, receiver and name, from the
list of its admitted members: `get_of_builtBy` and `set_of_builtBy`. Both say that members which
cannot serve the access do not influence it, whatever else they claim the name as.

The class in `Crowded` claims one name in every way and shows which claim is served.
-/

namespace HostBridge

variable {κ : Type} [HostTypes κ]

namespace Admitted

/-- A search for members that claim a name as a kind finds nothing if no member does. -/
theorem findSome?_eq_none_of_not_mem {β : Type} {log : List (Addition κ)} {name : String}
    {kind : MemberKind} {part : Addition κ → Option β} (h : kind ∉ kindsOn log name)
    (hpart : ∀ a x, part a = some x → a.claimed? = some (name, kind)) :
    log.findSome? part = none := by
  refine List.findSome?_eq_none_iff.2 fun a ha => ?_
  cases hx : part a with
  | none => rfl
  | some x => exact absurd (mem_kindsOn.2 ⟨a, ha, hpart a x hx⟩) h

theorem claimed?_of_setterFor? {name : String} (a : Addition κ) (m : Method κ)
    (h : Addition.setterFor? name a = some m) : a.claimed? = some (name, .setter) := by
  cases a with
  | setter m' =>
    simp only [Addition.setterFor?, Option.ite_none_right_eq_some] at h
    rw [Addition.claimed?, h.1.1]
  | _ => simp [Addition.setterFor?] at h

theorem claimed?_of_fieldFor? {name : String} (a : Addition κ) (f : Field κ)
    (h : Addition.fieldFor? name a = some f) : a.claimed? = some (name, .field) := by
  cases a with
  | field f' =>
    simp only [Addition.fieldFor?, Option.ite_none_right_eq_some] at h
    rw [Addition.claimed?, h.1]
  | _ => simp [Addition.fieldFor?] at h

variable [DecidableEq κ]

theorem get_congr (strategy : Strategy κ) (c : κ) {log log' : List (Addition κ)} {name : String}
    (h : log.filter (Addition.servesRead name) = log'.filter (Addition.servesRead name))
    (o : Object κ) : get strategy c log o name = get strategy c log' o name := by
  have hread : ∀ o', read log o' name = read log' o' name := fun o' => by
    rw [← read_filter_servesRead log, h, read_filter_servesRead]
  simp only [get, hread]

theorem set_congr (strategy : Strategy κ) (c : κ) {log log' : List (Addition κ)} {name : String}
    (h : log.filter (Addition.servesWrite name) = log'.filter (Addition.servesWrite name))
    (o : Object κ) (v : Value) : set strategy c log o name v = set strategy c log' o name v := by
  have hwrite : ∀ o', write log o' name v = write log' o' name v := fun o' => by
    rw [← write_filter_servesWrite log, h, write_filter_servesWrite]
  simp only [set, hwrite]

end Admitted

/-! ## A class whose members crowd one name -/

namespace Crowded

/-- A class that lets everything through. -/
def base : ClassInfo := { path := "host::Base", name := "Base" }

/-- A class that may stand in for `base` and keeps blocked members out. -/
def leaf : ClassInfo :=
  { path := "host::Leaf", name := "Leaf", supertypes := ["Base"], declaredMode := some .blockOnly }

/-- A member of `base` with a mark. -/
def add (m : BagMember) (exposure : Exposure) : BuildStep HostType :=
  .add (m.addition base exposure)

/-- Steps that claim the name `x` as everything there is. The first field is blocked before the
redirect; the getter and the setter take too many arguments to serve a property. -/
def steps : List (BuildStep HostType) :=
  [ add (.field "x" (.const (.int 0)) none) .block,
    .redirect (.bag base),
    add (.method "x" (.exactly 0) (.const (.int 1))) .block,
    add (.getterCode "x" (.exactly 1) (.const (.int 2))) .unmarked,
    add (.setterCode "x" (.exactly 2) (.store "q")) .unmarked,
    add (.field "x" (.prop "p") none) .unmarked,
    add (.field "x" (.const (.int 3)) (some (.prop "q"))) .unmarked,
    add (.genericGetter "x" .keyText) .unmarked,
    add (.genericSetter "x" .prop) .unmarked ]

/-- A strategy that changes the receiver and passes every access on. -/
def strategy : Strategy HostType :=
  RuleStrategy.strategy
    { rules := [{ kind := .get, poke := some ("p", .int 5) },
        { kind := .set, poke := some ("p", .int 6) }] }

/-- Those of the steps whose members can serve a property. -/
def serving : List (BuildStep HostType) :=
  [ add (.field "x" (.prop "p") none) .unmarked,
    add (.field "x" (.const (.int 3)) (some (.prop "q"))) .unmarked,
    add (.genericGetter "x" .keyText) .unmarked,
    add (.genericSetter "x" .prop) .unmarked ]

/-- The binding for `base` that steps from a class on lead to. -/
def binding (c : ClassInfo) (steps : List (BuildStep HostType)) : Binding HostType where
  policy := .new .objectProxy (.bag base) strategy
  description := ((Builder.new (HostType.bag c)).run steps).1.toDescription

theorem builtBy_steps : (binding leaf steps).BuiltBy (.bag leaf) steps := ⟨.allow, _, rfl, rfl⟩

theorem builtBy_serving : (binding base serving).BuiltBy (.bag base) serving :=
  ⟨.allow, _, rfl, rfl⟩

end Crowded

/-! ## Reads -/

namespace Binding

variable [DecidableEq κ]

/-- **What a read means.** A binding built by steps answers a read with what the strategy and the
admitted members give: the strategy first, then on the receiver as it was left the first getter of
the name that takes no argument, then the first field of the name, then the generic getters in
order. Bindings of one class and strategy whose admitted members agree up to those that cannot
serve the read (methods, setters, getters that take arguments or have another name) read alike. -/
theorem get_of_builtBy {b : Binding κ} {c : κ} {steps : List (BuildStep κ)}
    (h : b.BuiltBy c steps) (o : Object κ) (name : String) :
    b.get o name =
      Admitted.get b.policy.strategy (classAfter c steps) (admitted c steps) o name ∧
    ∀ (b' : Binding κ) (c' : κ) (steps' : List (BuildStep κ)), b'.BuiltBy c' steps' →
      b'.policy.strategy = b.policy.strategy → b'.targetClass = b.targetClass →
      (admitted c' steps').filter (Addition.servesRead name) =
        (admitted c steps).filter (Addition.servesRead name) →
      b'.get o name = b.get o name := by
  have hget := get_eq_admitted_get h.description_eq o name
  refine ⟨hget, fun b' c' steps' h' hstrategy hclass hlog => ?_⟩
  have hclass' : classAfter c' steps' = classAfter c steps := by
    rw [← h'.targetClass_eq, hclass, h.targetClass_eq]
  rw [hget, get_eq_admitted_get h'.description_eq o name, hstrategy, hclass']
  exact Admitted.get_congr _ _ hlog o

/-- The first field that the redirect let in is read, on the receiver that the strategy changed,
and the members that cannot serve the read might as well be missing. -/
theorem get_of_builtBy_crowded :
    (Crowded.binding Crowded.leaf Crowded.steps).BuiltBy (.bag Crowded.leaf) Crowded.steps ∧
    (Crowded.binding Crowded.leaf Crowded.steps).get (HostObject.bag Crowded.base []) "x" =
      ⟨.ok (some (.int 5)), HostObject.bag Crowded.base [("p", .int 5)],
        [RuleStrategy.accessNote .get "Base" "x"]⟩ ∧
    (Crowded.binding Crowded.base Crowded.serving).get (HostObject.bag Crowded.base []) "x" =
      (Crowded.binding Crowded.leaf Crowded.steps).get (HostObject.bag Crowded.base []) "x" := by
  have h := get_of_builtBy Crowded.builtBy_steps (HostObject.bag Crowded.base []) "x"
  exact ⟨Crowded.builtBy_steps, h.1.trans rfl,
    h.2 _ _ _ Crowded.builtBy_serving rfl rfl rfl⟩

/-! ## Writes -/

/-- **What a write means.** A binding built by steps does with a write what the strategy and the
admitted members do, in its result and in the receiver it leaves: the strategy first, then on the
receiver as it was left the first setter of the name that takes one argument, then the first field
of the name, a read-only one refusing for good, then the generic setters in order, each on the
receiver that the one before left. Members that cannot serve the write do not influence it; a name
that no admitted member claims as setter or field is left to the generic setters. -/
theorem set_of_builtBy {b : Binding κ} {c : κ} {steps : List (BuildStep κ)}
    (h : b.BuiltBy c steps) (o : Object κ) (name : String) (v : Value) :
    b.set o name v =
      Admitted.set b.policy.strategy (classAfter c steps) (admitted c steps) o name v ∧
    (∀ (b' : Binding κ) (c' : κ) (steps' : List (BuildStep κ)), b'.BuiltBy c' steps' →
      b'.policy.strategy = b.policy.strategy → b'.targetClass = b.targetClass →
      (admitted c' steps').filter (Addition.servesWrite name) =
        (admitted c steps).filter (Addition.servesWrite name) →
      b'.set o name v = b.set o name v) ∧
    (MemberKind.setter ∉ Admitted.kindsOn (admitted c steps) name →
      MemberKind.field ∉ Admitted.kindsOn (admitted c steps) name →
      ∀ o' events, b.policy.strategy.set b.targetClass name v o = ⟨.ok false, o', events⟩ →
      let offered := (admitted c steps).foldl (Addition.offer name v) (.ok false, o')
      b.set o name v = ⟨offered.1, offered.2, events⟩) := by
  have hset := set_eq_admitted_set h.description_eq o name v
  refine ⟨hset, fun b' c' steps' h' hstrategy hclass hlog => ?_, ?_⟩
  · have hclass' : classAfter c' steps' = classAfter c steps := by
      rw [← h'.targetClass_eq, hclass, h.targetClass_eq]
    rw [hset, set_eq_admitted_set h'.description_eq o name v, hstrategy, hclass']
    exact Admitted.set_congr _ _ hlog o v
  · intro hsetter hfield o' events hpass
    rw [h.targetClass_eq] at hpass
    have hwrite : Admitted.write (admitted c steps) o' name v =
        (admitted c steps).foldl (Addition.offer name v) (.ok false, o') := by
      rw [Admitted.write,
        Admitted.findSome?_eq_none_of_not_mem hsetter Admitted.claimed?_of_setterFor?,
        Admitted.findSome?_eq_none_of_not_mem hfield Admitted.claimed?_of_fieldFor?]
    simp only [hset, Admitted.set, hpass, hwrite]

/-- The first field that the redirect let in refuses the write, although a generic setter would
take it, and the receiver stays as the strategy left it. A name that nothing claims goes to the
generic setter. -/
theorem set_of_builtBy_crowded :
    (Crowded.binding Crowded.leaf Crowded.steps).BuiltBy (.bag Crowded.leaf) Crowded.steps ∧
    (Crowded.binding Crowded.leaf Crowded.steps).set (HostObject.bag Crowded.base []) "x" .null =
      ⟨.error (.readOnly "x"), HostObject.bag Crowded.base [("p", .int 6)],
        [RuleStrategy.accessNote .set "Base" "x"]⟩ ∧
    (Crowded.binding Crowded.base Crowded.serving).set (HostObject.bag Crowded.base []) "x" .null =
      (Crowded.binding Crowded.leaf Crowded.steps).set (HostObject.bag Crowded.base []) "x" .null ∧
    (Crowded.binding Crowded.leaf Crowded.steps).set (HostObject.bag Crowded.base []) "y" .null =
      ⟨.ok true, HostObject.bag Crowded.base [("p", .int 6), ("y", .null)],
        [RuleStrategy.accessNote .set "Base" "y"]⟩ := by
  have hx := set_of_builtBy Crowded.builtBy_steps (HostObject.bag Crowded.base []) "x" .null
  have hy := set_of_builtBy Crowded.builtBy_steps (HostObject.bag Crowded.base []) "y" .null
  exact ⟨Crowded.builtBy_steps, hx.1.trans rfl,
    hx.2.1 _ _ _ Crowded.builtBy_serving rfl rfl rfl,
    (hy.2.2 (by decide) (by decide) _ _ rfl).trans rfl⟩

end Binding

end HostBridge
