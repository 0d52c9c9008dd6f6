import HostBridge.Binding.Access
import HostBridge.Proofs.Admission

/-!
# What reads and writes mean

A binding that comes from steps of building serves reads and writes by its tables. Here both are
computed from the list of the admitted members alone: `Admitted.get` and `Admitted.set` ask the
strategy, then the first fitting getter or setter of the list, then the first field of the name,
then the generic accessors in order. They are what the binding does (`get_eq_admitted_get`,
`set_eq_admitted_set`), however the steps mixed kinds of member, collisions and redirects.

The list enters only through the members that can serve the access: `Addition.servesRead` and
`Addition.servesWrite`.
-/

namespace HostBridge

variable {κ : Type} [HostTypes κ]

/-! ## Selecting from a list of members -/

namespace Addition

/-- A getter of the name that takes no argument. -/
def getterFor? (name : String) : Addition κ → Option (Method κ)
  | getter m => if m.name = name ∧ m.arity.accepts 0 then some m else none
  | _ => none

/-- A setter of the name that takes one argument. -/
def setterFor? (name : String) : Addition κ → Option (Method κ)
  | setter m => if m.name = name ∧ m.arity.accepts 1 then some m else none
  | _ => none

/-- A field of the name. -/
def fieldFor? (name : String) : Addition κ → Option (Field κ)
  | field f => if f.name = name then some f else none
  | _ => none

/-- The member can serve a read of the name. -/
def servesRead (name : String) : Addition κ → Bool
  | getter m => m.name == name && m.arity.accepts 0
  | field f => f.name == name
  | genericGetter _ => true
  | _ => false

/-- The member can serve a write of the name. -/
def servesWrite (name : String) : Addition κ → Bool
  | setter m => m.name == name && m.arity.accepts 1
  | field f => f.name == name
  | genericSetter _ => true
  | _ => false

variable [DecidableEq κ]

/-- The answer or the fault of a generic getter asked for a key. Another member, and a generic
getter that does not know the key, gives nothing. -/
def answer? (o : Object κ) (key : String) : Addition κ → Option (Except InvokeError (Option Value))
  | genericGetter g =>
    match o.view g.owner fun s => g.read s key with
    | .ok none => none
    | answer => some answer
  | _ => none

/-- Offer a key and a value to a generic setter, unless they have been taken or refused with a
fault before. Other members let them pass. -/
def offer (key : String) (v : Value) (sofar : Except InvokeError Bool × Object κ) :
    Addition κ → Except InvokeError Bool × Object κ
  | genericSetter g =>
    match sofar with
    | (.ok false, o) =>
      o.run g.owner fun s => (.ok (g.write s key v).1, (g.write s key v).2)
    | answered => answered
  | _ => sofar

end Addition

/-! ## Accesses computed from a list of members -/

namespace Admitted

variable [DecidableEq κ]

/-- Read a name from a list of members. -/
def read (log : List (Addition κ)) (o : Object κ) (name : String) :
    Except InvokeError (Option Value) × Object κ :=
  match log.findSome? (Addition.getterFor? name) with
  | some m =>
    let r := o.run m.owner fun s => m.body s []
    (r.1.map some, r.2)
  | none =>
    match log.findSome? (Addition.fieldFor? name) with
    | some f => ((o.view f.owner f.read).map some, o)
    | none => ((log.findSome? (Addition.answer? o name)).getD (.ok none), o)

/-- Write a name through a list of members. -/
def write (log : List (Addition κ)) (o : Object κ) (name : String) (v : Value) :
    Except InvokeError Bool × Object κ :=
  match log.findSome? (Addition.setterFor? name) with
  | some m =>
    let r := o.run m.owner fun s => m.body s [v]
    (r.1.map fun _ => true, r.2)
  | none =>
    match log.findSome? (Addition.fieldFor? name) with
    | some f =>
      match f.write with
      | none => (.error (.readOnly name), o)
      | some write =>
        let r := o.run f.owner fun s => write s v
        (r.1.map fun _ => true, r.2)
    | none => log.foldl (Addition.offer name v) (.ok false, o)

/-- The event of an access that a strategy answered for a class. -/
def intercepted (c : κ) (what name : String) : Event :=
  { level := .trace, target := .resolver, message := what ++ " intercepted",
    fields := [("class", .quoted (HostTypes.name c)), ("name", .quoted name)] }

/-- A read of a class: the strategy, then the members on the receiver as the strategy left it. -/
def get (strategy : Strategy κ) (c : κ) (log : List (Addition κ)) (o : Object κ) (name : String) :
    Outcome κ (Option Value) :=
  match strategy.get c name o with
  | ⟨.error e, o', events⟩ => ⟨.error e, o', events⟩
  | ⟨.ok (some v), o', events⟩ => ⟨.ok (some v), o', events ++ [intercepted c "get" name]⟩
  | ⟨.ok none, o', events⟩ => ⟨(read log o' name).1, (read log o' name).2, events⟩

/-- A write of a class: the strategy, then the members on the receiver as the strategy left it. -/
def set (strategy : Strategy κ) (c : κ) (log : List (Addition κ)) (o : Object κ) (name : String)
    (v : Value) : Outcome κ Bool :=
  match strategy.set c name v o with
  | ⟨.error e, o', events⟩ => ⟨.error e, o', events⟩
  | ⟨.ok true, o', events⟩ => ⟨.ok true, o', events ++ [intercepted c "set" name]⟩
  | ⟨.ok false, o', events⟩ => ⟨(write log o' name v).1, (write log o' name v).2, events⟩

end Admitted

/-! ## The tables of an admitted list serve what the list serves -/

theorem accepts_of_firstAccepting {overloads : List (Method κ)} {count : Nat} {m : Method κ}
    (h : firstAccepting overloads count = some m) : m.accepts count = true :=
  List.find?_some (p := fun m : Method κ => m.accepts count) h

/-- An overload that was chosen by the number of its arguments does not refuse them. -/
theorem Method.invoke_of_accepts [DecidableEq κ] (m : Method κ) (o : Object κ) (args : List Value)
    (h : m.accepts args.length = true) : m.invoke o args = o.run m.owner fun s => m.body s args :=
  if_pos h

theorem findSome?_filter_of {α β : Type} (l : List α) {p : α → Bool} {f : α → Option β}
    (h : ∀ a, p a = false → f a = none) : (l.filter p).findSome? f = l.findSome? f := by
  rw [← List.head?_filterMap, List.filterMap_filter, List.head?_filterMap]
  congr 1
  funext a
  cases hp : p a with
  | false => simp [h a hp]
  | true => simp

namespace Admitted

theorem firstAccepting_getter? (log : List (Addition κ)) (name : String) :
    firstAccepting (Record.named (log.filterMap Addition.getter?) name) 0 =
      log.findSome? (Addition.getterFor? name) := by
  rw [firstAccepting, Record.find?_named]
  congr 1
  funext a
  cases a <;> rfl

theorem firstAccepting_setter? (log : List (Addition κ)) (name : String) :
    firstAccepting (Record.named (log.filterMap Addition.setter?) name) 1 =
      log.findSome? (Addition.setterFor? name) := by
  rw [firstAccepting, Record.find?_named]
  congr 1
  funext a
  cases a <;> rfl

theorem get?_field? (log : List (Addition κ)) (name : String) :
    Record.get? (log.filterMap Addition.field?) name =
      log.findSome? (Addition.fieldFor? name) := by
  induction log with
  | nil => rfl
  | cons a log ih =>
    cases a with
    | field f =>
      by_cases h : f.name = name <;> simp [Record.get?, Addition.fieldFor?, h, ih]
    | _ => exact ih

theorem get?_fields_ofLog (c : κ) (log : List (Addition κ)) (name : String) :
    Record.get? (Builder.ofLog c log).fields name = log.findSome? (Addition.fieldFor? name) :=
  (Record.get?_firsts _ name).trans (get?_field? log name)

theorem name_of_fieldFor? {log : List (Addition κ)} {name : String} {f : Field κ}
    (h : log.findSome? (Addition.fieldFor? name) = some f) : f.name = name := by
  obtain ⟨a, -, ha⟩ := List.exists_of_findSome?_eq_some h
  cases a with
  | field g =>
    simp only [Addition.fieldFor?, Option.ite_none_right_eq_some, Option.some.injEq] at ha
    exact ha.2 ▸ ha.1
  | _ => simp [Addition.fieldFor?] at ha

variable [DecidableEq κ]

/-- Asking generic getters one after the other finds the first that answers or fails. -/
theorem readGeneric_genericGetter? (log : List (Addition κ)) (o : Object κ) (name : String) :
    Description.readGeneric o name (log.filterMap Addition.genericGetter?) =
      (log.findSome? (Addition.answer? o name)).getD (.ok none) := by
  induction log with
  | nil => rfl
  | cons a log ih =>
    cases a with
    | genericGetter g =>
      rw [List.filterMap_cons, List.findSome?_cons]
      simp only [Addition.genericGetter?, Description.readGeneric, GenericGetter.get,
        Addition.answer?]
      cases hv : o.view g.owner fun s => g.read s name with
      | error e => rfl
      | ok found =>
        cases found with
        | none => simpa using ih
        | some v => rfl
    | _ => exact ih

theorem foldl_offer_of_answered (log : List (Addition κ)) (name : String) (v : Value)
    {r : Except InvokeError Bool × Object κ} (h : r.1 ≠ .ok false) :
    log.foldl (Addition.offer name v) r = r := by
  have hstay : ∀ a, Addition.offer name v r a = r := by
    intro a
    obtain ⟨r, o⟩ := r
    cases a with
    | genericSetter g =>
      rcases r with e | _ | _
      · rfl
      · exact absurd rfl h
      · rfl
    | _ => rfl
  induction log with
  | nil => rfl
  | cons a log ih => rw [List.foldl_cons, hstay, ih]

/-- Offering a value to generic setters one after the other, each on the receiver that the one
before left, ends with the first that takes it or fails. -/
theorem writeGeneric_genericSetter? (log : List (Addition κ)) (o : Object κ) (name : String)
    (v : Value) :
    Description.writeGeneric name v o (log.filterMap Addition.genericSetter?) =
      log.foldl (Addition.offer name v) (.ok false, o) := by
  induction log generalizing o with
  | nil => rfl
  | cons a log ih =>
    cases a with
    | genericSetter g =>
      rw [List.filterMap_cons, List.foldl_cons]
      simp only [Addition.genericSetter?, Description.writeGeneric, GenericSetter.set,
        Addition.offer]
      generalize (o.run g.owner fun s => (Except.ok (g.write s name v).1, (g.write s name v).2)) = r
      obtain ⟨r, o'⟩ := r
      rcases r with e | _ | _
      · exact (foldl_offer_of_answered log name v (by simp)).symm
      · exact ih o'
      · exact (foldl_offer_of_answered log name v (by simp)).symm
    | _ => exact ih o

theorem read_ofLog (c : κ) (log : List (Addition κ)) (o : Object κ) (name : String) :
    (Builder.ofLog c log).toDescription.read o name = read log o name := by
  have hgetter : firstAccepting ((Record.get? (Builder.ofLog c log).getters name).getD []) 0 =
      log.findSome? (Addition.getterFor? name) := by
    rw [← firstAccepting_getter?]
    exact congrArg (firstAccepting · 0) (Record.getD_get?_group _ name)
  have hgeneric : Description.readGeneric o name (Builder.ofLog c log).genericGetters =
      (log.findSome? (Addition.answer? o name)).getD (.ok none) :=
    readGeneric_genericGetter? log o name
  rw [Description.read, read, get?_fields_ofLog, hgeneric]
  cases hm : firstAccepting ((Record.get? (Builder.ofLog c log).getters name).getD []) 0 with
  | some m =>
    rw [← hgetter, hm]
    simp only [m.invoke_of_accepts o [] (accepts_of_firstAccepting hm)]
  | none =>
    rw [← hgetter, hm]
    cases log.findSome? (Addition.fieldFor? name) <;> rfl

theorem write_ofLog (c : κ) (log : List (Addition κ)) (o : Object κ) (name : String) (v : Value) :
    (Builder.ofLog c log).toDescription.write o name v = write log o name v := by
  have hsetter : firstAccepting ((Record.get? (Builder.ofLog c log).setters name).getD []) 1 =
      log.findSome? (Addition.setterFor? name) := by
    rw [← firstAccepting_setter?]
    exact congrArg (firstAccepting · 1) (Record.getD_get?_group _ name)
  have hgeneric : Description.writeGeneric name v o (Builder.ofLog c log).genericSetters =
      log.foldl (Addition.offer name v) (.ok false, o) :=
    writeGeneric_genericSetter? log o name v
  rw [Description.write, write, get?_fields_ofLog, hgeneric]
  cases hm : firstAccepting ((Record.get? (Builder.ofLog c log).setters name).getD []) 1 with
  | some m =>
    rw [← hsetter, hm]
    simp only [m.invoke_of_accepts o [v] (accepts_of_firstAccepting hm)]
  | none =>
    rw [← hsetter, hm]
    cases hf : log.findSome? (Addition.fieldFor? name) with
    | none => rfl
    | some f =>
      -- the table holds the field under its own name, so the fault names what was written
      have hname : f.name = name := name_of_fieldFor? hf
      cases hw : f.write <;> simp [Field.set, hw, hname, Except.map]

/-! ## Members that cannot serve an access -/

theorem read_filter_servesRead (log : List (Addition κ)) (o : Object κ) (name : String) :
    read (log.filter (Addition.servesRead name)) o name = read log o name := by
  have hgetter := findSome?_filter_of log (p := Addition.servesRead name)
    (f := Addition.getterFor? name) fun a ha => by
      cases a <;> simp_all [Addition.servesRead, Addition.getterFor?]
  have hfield := findSome?_filter_of log (p := Addition.servesRead name)
    (f := Addition.fieldFor? name) fun a ha => by
      cases a <;> simp_all [Addition.servesRead, Addition.fieldFor?]
  have hgeneric := findSome?_filter_of log (p := Addition.servesRead name)
    (f := Addition.answer? o name) fun a ha => by
      cases a <;> simp_all [Addition.servesRead, Addition.answer?]
  rw [read, read, hgetter, hfield, hgeneric]

theorem write_filter_servesWrite (log : List (Addition κ)) (o : Object κ) (name : String)
    (v : Value) :
    write (log.filter (Addition.servesWrite name)) o name v = write log o name v := by
  have hsetter := findSome?_filter_of log (p := Addition.servesWrite name)
    (f := Addition.setterFor? name) fun a ha => by
      cases a <;> simp_all [Addition.servesWrite, Addition.setterFor?]
  have hfield := findSome?_filter_of log (p := Addition.servesWrite name)
    (f := Addition.fieldFor? name) fun a ha => by
      cases a <;> simp_all [Addition.servesWrite, Addition.fieldFor?]
  have hgeneric : (log.filter (Addition.servesWrite name)).foldl (Addition.offer name v)
      (.ok false, o) = log.foldl (Addition.offer name v) (.ok false, o) := by
    rw [List.foldl_filter]
    congr 1
    funext sofar a
    cases a <;> simp [Addition.servesWrite, Addition.offer]
  rw [write, write, hsetter, hfield, hgeneric]

end Admitted

/-! ## Bindings that come from steps of building -/

namespace Binding

variable [DecidableEq κ]

/-- The binding comes from the steps: on the builder of the class they ended in a description that
was published, and the binding pairs that with its policy. -/
def BuiltBy (b : Binding κ) (c : κ) (steps : List (BuildStep κ)) : Prop :=
  ∃ collisions d, ((Builder.new c).run steps).1.publish collisions = .ok d ∧
    Binding.new b.policy d = .ok b

theorem BuiltBy.description_eq {b : Binding κ} {c : κ} {steps : List (BuildStep κ)}
    (h : b.BuiltBy c steps) :
    b.description = (Builder.ofLog (classAfter c steps) (admitted c steps)).toDescription := by
  obtain ⟨collisions, d, hd, hb⟩ := h
  rw [Builder.run_new, Builder.publish] at hd
  rw [Binding.new] at hb
  split at hd
  · cases hd
  · split at hb
    · rw [← Except.ok.inj hb, ← Except.ok.inj hd]
    · cases hb

theorem BuiltBy.targetClass_eq {b : Binding κ} {c : κ} {steps : List (BuildStep κ)}
    (h : b.BuiltBy c steps) : b.targetClass = classAfter c steps := by
  rw [targetClass, h.description_eq]
  rfl

theorem get_eq_admitted_get {b : Binding κ} {c : κ} {log : List (Addition κ)}
    (h : b.description = (Builder.ofLog c log).toDescription) (o : Object κ) (name : String) :
    b.get o name = Admitted.get b.policy.strategy c log o name := by
  have hc : b.targetClass = c := by rw [targetClass, h]; rfl
  rw [get, Admitted.get, hc, h]
  rcases b.policy.strategy.get c name o with ⟨_ | _ | _, o', events⟩
  · rfl
  · simp only [Admitted.read_ofLog]
  · simp only [interceptedEvent, hc, Admitted.intercepted]

theorem set_eq_admitted_set {b : Binding κ} {c : κ} {log : List (Addition κ)}
    (h : b.description = (Builder.ofLog c log).toDescription) (o : Object κ) (name : String)
    (v : Value) :
    b.set o name v = Admitted.set b.policy.strategy c log o name v := by
  have hc : b.targetClass = c := by rw [targetClass, h]; rfl
  rw [set, Admitted.set, hc, h]
  rcases b.policy.strategy.set c name v o with ⟨_ | _ | _, o', events⟩
  · rfl
  · simp only [Admitted.write_ofLog]
  · simp only [interceptedEvent, hc, Admitted.intercepted]

end Binding

end HostBridge
