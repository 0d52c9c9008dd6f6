import HostBridge.Host.Bag
import HostBridge.Host.Rules
import HostBridge.Proofs.Access

/-!
# Choosing among overloads

Calls of methods, constructions and calls of an instance itself choose among candidates by the
number of arguments, and all three choose alike: the access is missing without candidates, the
first candidate that takes so many arguments is run, and if none does the access is refused
(`Resolves`). The candidates are read off the admitted members, in their order.

An overload checks the number of its arguments once more when it is run. That check is idle: an
access comes out the same whatever happened where it fails (`readVia_eq_read` and those after it).

`Binding.resolution_of_builtBy` puts both together for every binding that comes from steps of
building.
-/

namespace HostBridge

/-! ## The rule -/

/-- The rule for choosing among candidates by the number of arguments: what the answer is without
candidates, what it is if the first candidate that takes so many arguments is run, and what it is if
none of them takes so many. -/
structure Resolves {α β : Type} (arity : α → Arity) (count : Nat) (candidates : List α)
    (missing refused : β) (run : α → β) (answer : β) : Prop where
  missing : candidates = [] → answer = missing
  chosen : ∀ before a after, candidates = before ++ a :: after →
    (∀ e ∈ before, (arity e).accepts count = false) → (arity a).accepts count = true →
    answer = run a
  refused : candidates ≠ [] → (∀ a ∈ candidates, (arity a).accepts count = false) →
    answer = refused

section Rule

variable {α β γ : Type} {arity : α → Arity} {count : Nat} {candidates : List α}

/-- Searching for the first candidate that fits follows the rule. -/
theorem resolves_find? (missing refused : β) (run : α → β) :
    Resolves arity count candidates missing refused run
      (if candidates.isEmpty then missing
       else ((candidates.find? fun a => (arity a).accepts count).map run).getD refused) where
  missing hnil := by simp [hnil]
  chosen before a after hsplit hbefore ha := by
    have hfind : candidates.find? (fun a => (arity a).accepts count) = some a := by
      refine List.find?_eq_some_iff_append.2 ⟨ha, before, after, hsplit, fun e he => ?_⟩
      simpa using hbefore e he
    have hne : candidates.isEmpty = false := by simp [hsplit]
    simp [hne, hfind]
  refused hne hnone := by
    have hfind : candidates.find? (fun a => (arity a).accepts count) = none :=
      List.find?_eq_none.2 fun a ha => by simpa using hnone a ha
    simp [hne, hfind]

/-- What is made of an answer that follows the rule follows it too. -/
theorem Resolves.map {missing refused answer : β} {run : α → β}
    (h : Resolves arity count candidates missing refused run answer) (f : β → γ) :
    Resolves arity count candidates (f missing) (f refused) (fun a => f (run a)) (f answer) where
  missing hnil := congrArg f (h.missing hnil)
  chosen before a after hsplit hbefore ha := congrArg f (h.chosen before a after hsplit hbefore ha)
  refused hne hnone := congrArg f (h.refused hne hnone)

/-- Of candidates some takes so many arguments, and a first one does, or none does. -/
theorem exists_first_or_forall (arity : α → Arity) (count : Nat) (candidates : List α) :
    (∃ before a after, candidates = before ++ a :: after ∧
      (∀ e ∈ before, (arity e).accepts count = false) ∧ (arity a).accepts count = true) ∨
    ∀ a ∈ candidates, (arity a).accepts count = false := by
  cases hfind : candidates.find? fun a => (arity a).accepts count with
  | none => exact .inr fun a ha => by simpa using List.find?_eq_none.1 hfind a ha
  | some a =>
    obtain ⟨ha, before, after, hsplit, hbefore⟩ := List.find?_eq_some_iff_append.1 hfind
    exact .inl ⟨before, a, after, hsplit, fun e he => by simpa using hbefore e he, ha⟩

/-- If neither running a candidate nor refusing looks like missing, then the access is missing
exactly without candidates. -/
theorem Resolves.missing_iff {missing refused answer : β} {run : α → β}
    (h : Resolves arity count candidates missing refused run answer) (looksMissing : β → Prop)
    (hmissing : looksMissing missing) (hrefused : ¬looksMissing refused)
    (hrun : ∀ a, ¬looksMissing (run a)) : looksMissing answer ↔ candidates = [] := by
  constructor
  · intro hanswer
    by_contra hne
    rcases exists_first_or_forall arity count candidates with
      ⟨before, a, after, hsplit, hbefore, ha⟩ | hnone
    · exact hrun a (h.chosen before a after hsplit hbefore ha ▸ hanswer)
    · exact hrefused (h.refused hne hnone ▸ hanswer)
  · intro hnil
    exact h.missing hnil ▸ hmissing

end Rule

variable {κ : Type} [HostTypes κ]

/-- A method of the name. -/
@[simp] def Addition.methodFor? (name : String) : Addition κ → Option (Method κ)
  | method m => if m.name = name then some m else none
  | _ => none

variable [DecidableEq κ]

/-- What comes of running an overload on a receiver, its own check of the arguments left out. -/
def Method.served (m : Method κ) (o : Object κ) (args : List Value) :
    Except InvokeError (Option Value) × Object κ :=
  let r := o.run m.owner fun s => m.body s args
  (r.1.map some, r.2)

theorem Method.served_ne_none (m : Method κ) (o : Object κ) (args : List Value) :
    (m.served o args).1 ≠ .ok none := by
  intro h
  rw [served] at h
  cases hr : (o.run m.owner fun s => m.body s args).1 <;> simp [hr, Except.map] at h

namespace Description

/-! ## Calls -/

/-- Choose among overloads and run the choice; without overloads the access is missing. -/
def serveFirst (member : String) (overloads : List (Method κ)) (o : Object κ)
    (args : List Value) : Except InvokeError (Option Value) × Object κ :=
  if overloads.isEmpty then (.ok none, o)
  else
    let r := invokeFirst member overloads o args
    (r.1.map some, r.2)

theorem resolves_serveFirst (member : String) (overloads : List (Method κ)) (o : Object κ)
    (args : List Value) :
    Resolves Method.arity args.length overloads (.ok none, o)
      (.error (.arityMismatch member args.length), o) (fun m => m.served o args)
      (serveFirst member overloads o args) := by
  have hserve : serveFirst member overloads o args =
      if overloads.isEmpty then (.ok none, o)
      else ((overloads.find? fun m => m.arity.accepts args.length).map fun m =>
        m.served o args).getD (.error (.arityMismatch member args.length), o) := by
    unfold serveFirst invokeFirst
    cases hm : firstAccepting overloads args.length with
    | none =>
      have hfind : overloads.find? (fun m => m.arity.accepts args.length) = none := hm
      simp [hfind, Except.map]
    | some m =>
      have hfind : overloads.find? (fun m => m.arity.accepts args.length) = some m := hm
      simp only [hfind, m.invoke_of_accepts o args (accepts_of_firstAccepting hm)]
      rfl
  rw [hserve]
  exact resolves_find? _ _ _

/-- The same with the events that the strategy emitted. An access that is served is never missing,
so it is missing without overloads only. -/
theorem resolves_serveFirst_outcome (member : String) (overloads : List (Method κ)) (o : Object κ)
    (args : List Value) (events : List Event) :
    let answer : Outcome κ (Option Value) :=
      ⟨(serveFirst member overloads o args).1, (serveFirst member overloads o args).2, events⟩
    (answer.result = .ok none ↔ overloads = []) ∧
      Resolves Method.arity args.length overloads ⟨.ok none, o, events⟩
        ⟨.error (.arityMismatch member args.length), o, events⟩
        (fun m => ⟨(m.served o args).1, (m.served o args).2, events⟩) answer := by
  intro answer
  have hserved := resolves_serveFirst member overloads o args
  have hresolves := hserved.map fun r => (⟨r.1, r.2, events⟩ : Outcome κ (Option Value))
  refine ⟨?_, hresolves⟩
  exact hresolves.missing_iff (fun r => r.result = .ok none) rfl (by simp)
    fun m => m.served_ne_none o args

omit [DecidableEq κ] in
/-- The methods that a description of admitted members has under a name. -/
theorem get?_methods_ofLog (c : κ) (log : List (Addition κ)) (name : String) :
    Record.get? (Builder.ofLog c log).methods name =
      if log.filterMap (Addition.methodFor? name) = [] then none
      else some (log.filterMap (Addition.methodFor? name)) := by
  have hnamed : Record.named (log.filterMap Addition.method?) name =
      log.filterMap (Addition.methodFor? name) := by
    rw [Record.named, List.filterMap_filterMap]
    congr 1
    funext a
    cases a <;> rfl
  have hget : Record.get? (Builder.ofLog c log).methods name =
      Record.get? (Record.group (log.filterMap Addition.method?)) name := rfl
  have hnil := Record.named_eq_nil_iff (log.filterMap Addition.method?) name
  rw [hget, Record.get?_group]
  rw [hnamed] at hnil ⊢
  by_cases hmem : name ∈ Record.keys (log.filterMap Addition.method?)
  · rw [if_pos hmem, if_neg fun h => hnil.1 h hmem]
  · rw [if_neg hmem, if_pos (hnil.2 hmem)]

theorem call_ofLog (c : κ) (log : List (Addition κ)) (o : Object κ) (name : String)
    (args : List Value) :
    (Builder.ofLog c log).toDescription.call o name args =
      serveFirst name (log.filterMap (Addition.methodFor? name)) o args := by
  rw [call, get?_methods_ofLog, serveFirst]
  by_cases h : log.filterMap (Addition.methodFor? name) = [] <;> simp [h]

theorem apply_ofLog (c : κ) (log : List (Addition κ)) (o : Object κ) (args : List Value) :
    (Builder.ofLog c log).toDescription.apply o args =
      serveFirst (HostTypes.name c) (log.filterMap Addition.applyFunction?) o args := rfl

/-! ## Constructions -/

omit [DecidableEq κ] in
theorem resolves_construct (d : Description κ) (args : List Value) :
    Resolves Constructor.arity args.length d.constructors (.ok none)
      (.error (.arityMismatch (HostTypes.name d.targetClass) args.length))
      (fun f => (f.make args).map fun s => some ⟨f.owner, s⟩) (d.construct args) := by
  have hconstruct : d.construct args =
      if d.constructors.isEmpty then .ok none
      else ((d.constructors.find? fun f => f.arity.accepts args.length).map fun f =>
        (f.make args).map fun s => some ⟨f.owner, s⟩).getD
          (.error (.arityMismatch (HostTypes.name d.targetClass) args.length)) := by
    unfold construct
    cases hf : d.constructors.find? fun f => f.accepts args.length with
    | none =>
      have hfind : d.constructors.find? (fun f => f.arity.accepts args.length) = none := hf
      simp [hfind]
    | some f =>
      have hfind : d.constructors.find? (fun f => f.arity.accepts args.length) = some f := hf
      have hmap : (f.construct args).map some = (f.make args).map fun s => some ⟨f.owner, s⟩ := by
        unfold Constructor.construct
        cases f.make args <;> rfl
      simp [hfind, hmap]
  rw [hconstruct]
  exact resolves_find? _ _ _

/-! ## The check inside an overload -/

section Via

variable (invoke : Method κ → Object κ → List Value → Except InvokeError Value × Object κ)

/-- Overloads are run as they are where they take the arguments, and in any way elsewhere. -/
def RunsAccepted : Prop :=
  ∀ (m : Method κ) (o : Object κ) (args : List Value),
    m.accepts args.length = true → invoke m o args = m.invoke o args

/-- Read a property, with overloads run by the given function. -/
def readVia (d : Description κ) (o : Object κ) (name : String) :
    Except InvokeError (Option Value) × Object κ :=
  match firstAccepting ((Record.get? d.getters name).getD []) 0 with
  | some getter =>
    let r := invoke getter o []
    (r.1.map some, r.2)
  | none =>
    match Record.get? d.fields name with
    | some field => ((field.get o).map some, o)
    | none => (readGeneric o name d.genericGetters, o)

/-- Write a property, with overloads run by the given function. -/
def writeVia (d : Description κ) (o : Object κ) (name : String) (v : Value) :
    Except InvokeError Bool × Object κ :=
  match firstAccepting ((Record.get? d.setters name).getD []) 1 with
  | some setter =>
    let r := invoke setter o [v]
    (r.1.map fun _ => true, r.2)
  | none =>
    match Record.get? d.fields name with
    | some field =>
      let r := field.set o v
      (r.1.map fun _ => true, r.2)
    | none => writeGeneric name v o d.genericSetters

/-- Choose among overloads, with the choice run by the given function. -/
def invokeFirstVia (member : String) (overloads : List (Method κ)) (o : Object κ)
    (args : List Value) : Except InvokeError Value × Object κ :=
  match firstAccepting overloads args.length with
  | some m => invoke m o args
  | none => (.error (.arityMismatch member args.length), o)

/-- Call a method by name, with overloads run by the given function. -/
def callVia (d : Description κ) (o : Object κ) (name : String) (args : List Value) :
    Except InvokeError (Option Value) × Object κ :=
  match Record.get? d.methods name with
  | none => (.ok none, o)
  | some overloads =>
    let r := invokeFirstVia invoke name overloads o args
    (r.1.map some, r.2)

/-- Call the instance itself, with overloads run by the given function. -/
def applyVia (d : Description κ) (o : Object κ) (args : List Value) :
    Except InvokeError (Option Value) × Object κ :=
  if d.applyFunctions.isEmpty then (.ok none, o)
  else
    let r := invokeFirstVia invoke (HostTypes.name d.targetClass) d.applyFunctions o args
    (r.1.map some, r.2)

variable {invoke}

theorem readVia_eq_read (h : RunsAccepted invoke) (d : Description κ) (o : Object κ)
    (name : String) : d.readVia invoke o name = d.read o name := by
  unfold readVia read
  cases hm : firstAccepting ((Record.get? d.getters name).getD []) 0 with
  | none => rfl
  | some getter => simp only [h getter o [] (accepts_of_firstAccepting hm)]

theorem writeVia_eq_write (h : RunsAccepted invoke) (d : Description κ) (o : Object κ)
    (name : String) (v : Value) : d.writeVia invoke o name v = d.write o name v := by
  unfold writeVia write
  cases hm : firstAccepting ((Record.get? d.setters name).getD []) 1 with
  | none => rfl
  | some setter => simp only [h setter o [v] (accepts_of_firstAccepting hm)]

theorem invokeFirstVia_eq_invokeFirst (h : RunsAccepted invoke) (member : String)
    (overloads : List (Method κ)) (o : Object κ) (args : List Value) :
    invokeFirstVia invoke member overloads o args = invokeFirst member overloads o args := by
  unfold invokeFirstVia invokeFirst
  cases hm : firstAccepting overloads args.length with
  | none => rfl
  | some m => exact h m o args (accepts_of_firstAccepting hm)

theorem callVia_eq_call (h : RunsAccepted invoke) (d : Description κ) (o : Object κ)
    (name : String) (args : List Value) : d.callVia invoke o name args = d.call o name args := by
  unfold callVia call
  cases Record.get? d.methods name with
  | none => rfl
  | some overloads => simp only [invokeFirstVia_eq_invokeFirst h]

theorem applyVia_eq_apply (h : RunsAccepted invoke) (d : Description κ) (o : Object κ)
    (args : List Value) : d.applyVia invoke o args = d.apply o args := by
  unfold applyVia apply
  simp only [invokeFirstVia_eq_invokeFirst h]

end Via

end Description

/-! ## A class with overlapping overloads -/

namespace Overlapping

/-- A class whose overloads take overlapping numbers of arguments. -/
def info : ClassInfo := { path := "host::Overlapping", name := "Overlapping" }

/-- Three methods of one name, two constructors and one apply function. The second and the third
method both take one argument. -/
def members : List BagMember :=
  [ .method "m" (.atLeast 2) (.const (.int 0)),
    .factory (.exactly 2) (.rest "both"),
    .method "m" (.exactly 1) .echo,
    .factory (.atLeast 1) (.rest "some"),
    .method "m" (.atLeast 1) (.const (.int 2)),
    .applyFunction "f" (.exactly 1) (.store "kept") ]

def steps : List (BuildStep HostType) :=
  members.map fun m => .add (m.addition info .unmarked)

/-- A strategy that changes the receiver of a call and passes every access on. -/
def strategy : Strategy HostType :=
  RuleStrategy.strategy { rules := [{ kind := .call, poke := some ("p", .int 5) }] }

def binding : Binding HostType where
  policy := .new .objectProxy (.bag info) strategy
  description := ((Builder.new (HostType.bag info)).run steps).1.toDescription

theorem builtBy_steps : binding.BuiltBy (.bag info) steps := ⟨.reject, _, rfl, rfl⟩

end Overlapping

/-! ## Overload resolution of a built class -/

namespace Binding

/-- **Overload resolution.** A binding built by steps resolves a call that the strategy passes on,
a construction that it passes on, and a call of the instance itself by one rule: without candidates
among the admitted members the access is missing, and it is missing only then; otherwise the first
candidate that takes so many arguments is run with just these, on the receiver as the strategy left
it, and its result or fault is the answer; and if none takes so many, the access is refused under
the name of the method, or of the class, and the receiver stays as it was. The check of the number
of arguments inside an overload never fails on the way: reads, writes and calls come out the same
whatever an overload does with arguments that it does not take. -/
theorem resolution_of_builtBy {b : Binding κ} {c : κ} {steps : List (BuildStep κ)}
    (h : b.BuiltBy c steps) (args : List Value) :
    let log := admitted c steps
    let className := HostTypes.name (classAfter c steps)
    (∀ o name o' events,
      b.policy.strategy.call b.targetClass name args o = ⟨.ok none, o', events⟩ →
      let methods := log.filterMap (Addition.methodFor? name)
      ((b.call o name args).result = .ok none ↔ methods = []) ∧
      Resolves Method.arity args.length methods ⟨.ok none, o', events⟩
        ⟨.error (.arityMismatch name args.length), o', events⟩
        (fun m => ⟨(m.served o' args).1, (m.served o' args).2, events⟩) (b.call o name args)) ∧
    (∀ events,
      b.policy.strategy.construct b.targetClass className args = (.ok none, events) →
      let factories := log.filterMap Addition.factory?
      ((b.construct args).1 = .ok none ↔ factories = []) ∧
      Resolves Constructor.arity args.length factories (.ok none, events)
        (.error (.arityMismatch className args.length), events)
        (fun f => ((f.make args).map fun s => some ⟨f.owner, s⟩, events)) (b.construct args)) ∧
    (∀ o,
      let functions := log.filterMap Addition.applyFunction?
      ((b.apply o args).result = .ok none ↔ functions = []) ∧
      Resolves Method.arity args.length functions ⟨.ok none, o, []⟩
        ⟨.error (.arityMismatch className args.length), o, []⟩
        (fun m => ⟨(m.served o args).1, (m.served o args).2, []⟩) (b.apply o args)) ∧
    ∀ invoke, Description.RunsAccepted invoke → ∀ o name v,
      b.description.readVia invoke o name = b.description.read o name ∧
      b.description.writeVia invoke o name v = b.description.write o name v ∧
      b.description.callVia invoke o name args = b.description.call o name args ∧
      b.description.applyVia invoke o args = b.description.apply o args := by
  intro log className
  have hclass : b.targetClass = classAfter c steps := h.targetClass_eq
  have hlog : b.description = (Builder.ofLog (classAfter c steps) log).toDescription :=
    h.description_eq
  refine ⟨?_, ?_, ?_, ?_⟩
  · intro o name o' events hpass methods
    have hcall : b.call o name args =
        ⟨(Description.serveFirst name methods o' args).1,
          (Description.serveFirst name methods o' args).2, events⟩ := by
      have hmembers := Description.call_ofLog (classAfter c steps) log o' name args
      simp only [call, hpass, hlog, hmembers, methods]
    rw [hcall]
    exact Description.resolves_serveFirst_outcome name methods o' args events
  · intro events hpass factories
    have hmade := Description.resolves_construct b.description args
    have hfactories : b.description.constructors = factories := by rw [hlog]; rfl
    have hname : HostTypes.name b.description.targetClass = className := by rw [hlog]; rfl
    rw [hfactories, hname] at hmade
    have hconstruct : b.construct args = (b.description.construct args, events) := by
      have hasked : HostTypes.name b.targetClass = className := congrArg HostTypes.name hclass
      simp only [construct, hasked, hpass]
    rw [hconstruct]
    have hresolves := hmade.map fun r => (r, events)
    refine ⟨?_, hresolves⟩
    refine hresolves.missing_iff (fun r => r.1 = .ok none) rfl (by simp)
      fun f => ?_
    cases f.make args <;> simp [Except.map]
  · intro o functions
    have happly : b.apply o args =
        ⟨(Description.serveFirst className functions o args).1,
          (Description.serveFirst className functions o args).2, []⟩ := by
      have hmembers := Description.apply_ofLog (classAfter c steps) log o args
      simp only [apply, hlog, hmembers, functions, className]
    rw [happly]
    exact Description.resolves_serveFirst_outcome className functions o args []
  · intro invoke hinvoke o name v
    exact ⟨Description.readVia_eq_read hinvoke _ o name,
      Description.writeVia_eq_write hinvoke _ o name v,
      Description.callVia_eq_call hinvoke _ o name args,
      Description.applyVia_eq_apply hinvoke _ o args⟩

/-- Of the two methods that take one argument the one that was added first is called, whatever was
added in between. No method takes none, so such a call is refused, on the receiver that the strategy
changed. -/
theorem resolution_of_builtBy_overlapping :
    Overlapping.binding.BuiltBy (.bag Overlapping.info) Overlapping.steps ∧
    Overlapping.binding.call (HostObject.bag Overlapping.info []) "m" [.null] =
      ⟨.ok (some (.array [.null])), HostObject.bag Overlapping.info [("p", .int 5)],
        [RuleStrategy.accessNote .call "Overlapping" "m"]⟩ ∧
    Overlapping.binding.call (HostObject.bag Overlapping.info []) "m" [] =
      ⟨.error (.arityMismatch "m" 0), HostObject.bag Overlapping.info [("p", .int 5)],
        [RuleStrategy.accessNote .call "Overlapping" "m"]⟩ ∧
    Overlapping.binding.construct [.null] =
      (.ok (some (HostObject.bag Overlapping.info [("some", .array [.null])])),
        [RuleStrategy.accessNote .construct "Overlapping" "Overlapping"]) ∧
    Overlapping.binding.apply (HostObject.bag Overlapping.info []) [] =
      ⟨.error (.arityMismatch "Overlapping" 0), HostObject.bag Overlapping.info [], []⟩ := by
  obtain ⟨hcall, hconstruct, -, -⟩ := resolution_of_builtBy Overlapping.builtBy_steps [.null]
  obtain ⟨hcallNone, -, happlyNone, -⟩ := resolution_of_builtBy Overlapping.builtBy_steps []
  refine ⟨Overlapping.builtBy_steps, ?_, ?_, ?_, ?_⟩
  · exact ((hcall _ "m" _ _ rfl).2.chosen [_] _ [_] rfl (by decide) rfl).trans rfl
  · exact (hcallNone _ "m" _ _ rfl).2.refused (by decide) (by decide)
  · exact ((hconstruct _ rfl).2.chosen [_] _ [] rfl (by decide) rfl).trans rfl
  · exact (happlyNone _).2.refused (by decide) (by decide)

end Binding

end HostBridge
