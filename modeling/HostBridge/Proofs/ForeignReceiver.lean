import HostBridge.Host.Bag
import HostBridge.Proofs.Access

/-!
# Receivers of another type

Every member is written for one type, and the members of one description may be written for
several. An access of an instance whose type is none of these runs no code: it is refused, or
nothing serves it, and the instance stays as it is.

`Description.refusal` says how such an access ends, from names, numbers of arguments and types
alone: which member is selected (`Description.selected?`), what it says to an instance of another
type (`Addition.rebuff`), and what is said if none is selected (`Description.unserved`). One access
ends that way (`Binding.perform_of_foreign`), so a run of accesses does
(`Binding.performAll_of_foreign`).
-/

namespace HostBridge

variable {κ : Type} [HostTypes κ]

/-! ## Accesses of an instance -/

namespace Binding

/-- An access of an instance through its binding. -/
inductive Access where
  | get (name : String)
  | set (name : String) (v : Value)
  | call (name : String) (args : List Value)
  | apply (args : List Value)
  | keys
  | snapshot

/-- What an access answers. -/
inductive Answer where
  /-- The value that was read, or came of a call. -/
  | value (found : Option Value)
  /-- Whether anything took the value that was written. -/
  | taken (b : Bool)
  | names (keys : List String)
  | entries (r : Record Value)

/-- A member served the access. -/
def Answer.found : Answer → Bool
  | value v => v.isSome
  | taken b => b
  | names _ | entries _ => false

end Binding

/-- An outcome with another answer made of its answer. -/
def Outcome.map {α β : Type} (f : α → β) (out : Outcome κ α) : Outcome κ β :=
  ⟨out.result.map f, out.receiver, out.events⟩

namespace Binding

variable [DecidableEq κ]

/-- One access of an instance. -/
def perform (b : Binding κ) (o : Object κ) : Access → Outcome κ Answer
  | .get name => (b.get o name).map .value
  | .set name v => (b.set o name v).map .taken
  | .call name args => (b.call o name args).map .value
  | .apply args => (b.apply o args).map .value
  | .keys => ⟨.ok (.names b.keys), o, []⟩
  | .snapshot => (b.snapshot o).map .entries

/-- Accesses one after the other, each of the instance that the one before left. -/
def performAll (b : Binding κ) : Object κ → List Access → List (Outcome κ Answer)
  | _, [] => []
  | o, a :: rest =>
    let first := b.perform o a
    first :: performAll b first.receiver rest

end Binding

/-! ## Which member an access selects -/

/-- The type that a member is written for. -/
def Addition.owner : Addition κ → κ
  | factory c => c.owner
  | field f => f.owner
  | method m | getter m | setter m | applyFunction m => m.owner
  | genericGetter g => g.owner
  | genericSetter g => g.owner

namespace Description

/-- The members that instances are accessed through: all but the constructors. -/
def instanceMembers (d : Description κ) : List (Addition κ) :=
  d.fields.map (fun e => .field e.2) ++
    (d.methods.flatMap (fun e => e.2.map .method) ++
      (d.getters.flatMap (fun e => e.2.map .getter) ++
        (d.setters.flatMap (fun e => e.2.map .setter) ++
          (d.genericGetters.map .genericGetter ++
            (d.genericSetters.map .genericSetter ++ d.applyFunctions.map .applyFunction)))))

/-- The named member that a read selects. -/
def namedReader? (d : Description κ) (name : String) : Option (Addition κ) :=
  match firstAccepting ((Record.get? d.getters name).getD []) 0 with
  | some m => some (.getter m)
  | none => (Record.get? d.fields name).map .field

/-- The named member that a write selects. -/
def namedWriter? (d : Description κ) (name : String) : Option (Addition κ) :=
  match firstAccepting ((Record.get? d.setters name).getD []) 1 with
  | some m => some (.setter m)
  | none => (Record.get? d.fields name).map .field

/-- The member that a read asks first. -/
def reader? (d : Description κ) (name : String) : Option (Addition κ) :=
  (d.namedReader? name).or (d.genericGetters.head?.map .genericGetter)

/-- The member that a write is offered to first. -/
def writer? (d : Description κ) (name : String) : Option (Addition κ) :=
  (d.namedWriter? name).or (d.genericSetters.head?.map .genericSetter)

/-- The member that an access selects. A snapshot reads name after name, and selects the first
member that one of these reads selects. -/
def selected? (d : Description κ) : Binding.Access → Option (Addition κ)
  | .get name => d.reader? name
  | .set name _ => d.writer? name
  | .call name args =>
    (firstAccepting ((Record.get? d.methods name).getD []) args.length).map .method
  | .apply args => (firstAccepting d.applyFunctions args.length).map .applyFunction
  | .keys => none
  | .snapshot => d.propertyKeys.findSome? d.reader?

/-- How an access ends that selects no member. -/
def unserved (d : Description κ) : Binding.Access → Except InvokeError Binding.Answer
  | .get _ => .ok (.value none)
  | .set _ _ => .ok (.taken false)
  | .call name args =>
    if (Record.get? d.methods name).isSome then .error (.arityMismatch name args.length)
    else .ok (.value none)
  | .apply args =>
    if d.applyFunctions.isEmpty then .ok (.value none)
    else .error (.arityMismatch (HostTypes.name d.targetClass) args.length)
  | .keys => .ok (.names d.propertyKeys)
  | .snapshot => .ok (.entries [])

end Description

/-- What a member says to an access of an instance that it is not written for. A field that cannot
be written does not look at the instance. -/
def Addition.rebuff : Addition κ → Binding.Access → InvokeError
  | field f, .set _ _ =>
    if f.write.isNone then .readOnly f.name else .receiverMismatch (HostTypes.path f.owner)
  | m, _ => .receiverMismatch (HostTypes.path m.owner)

/-- How an access ends if no member of the description is written for the instance. -/
def Description.refusal (d : Description κ) (a : Binding.Access) :
    Except InvokeError Binding.Answer :=
  (d.selected? a).elim (d.unserved a) fun m => .error (m.rebuff a)

/-! ## The selected member is one of the description's -/

theorem mem_of_firstAccepting {overloads : List (Method κ)} {count : Nat} {m : Method κ}
    (h : firstAccepting overloads count = some m) : m ∈ overloads :=
  List.mem_of_find?_eq_some h

/-- An overload that is chosen from those under a name is in the table. -/
theorem exists_mem_of_firstAccepting {table : Record (List (Method κ))} {name : String}
    {count : Nat} {m : Method κ}
    (h : firstAccepting ((Record.get? table name).getD []) count = some m) :
    ∃ e ∈ table, m ∈ e.2 := by
  cases hget : Record.get? table name with
  | none =>
    rw [hget] at h
    cases h
  | some overloads =>
    rw [hget] at h
    exact ⟨_, Record.mem_of_get? hget, mem_of_firstAccepting h⟩

namespace Description

theorem mem_of_namedReader? {d : Description κ} {name : String} {m : Addition κ}
    (h : d.namedReader? name = some m) : m ∈ d.instanceMembers := by
  unfold namedReader? at h
  split at h
  · next g hg =>
    cases h
    obtain ⟨e, he, hm⟩ := exists_mem_of_firstAccepting hg
    simp only [instanceMembers, List.mem_append, List.mem_flatMap, List.mem_map]
    exact .inr (.inr (.inl ⟨e, he, g, hm, rfl⟩))
  · obtain ⟨f, hf, rfl⟩ := Option.map_eq_some_iff.1 h
    have hfield := Record.mem_of_get? hf
    simp only [instanceMembers, List.mem_append, List.mem_map]
    exact .inl ⟨_, hfield, rfl⟩

theorem mem_of_namedWriter? {d : Description κ} {name : String} {m : Addition κ}
    (h : d.namedWriter? name = some m) : m ∈ d.instanceMembers := by
  unfold namedWriter? at h
  split at h
  · next s hs =>
    cases h
    obtain ⟨e, he, hm⟩ := exists_mem_of_firstAccepting hs
    simp only [instanceMembers, List.mem_append, List.mem_flatMap, List.mem_map]
    exact .inr (.inr (.inr (.inl ⟨e, he, s, hm, rfl⟩)))
  · obtain ⟨f, hf, rfl⟩ := Option.map_eq_some_iff.1 h
    have hfield := Record.mem_of_get? hf
    simp only [instanceMembers, List.mem_append, List.mem_map]
    exact .inl ⟨_, hfield, rfl⟩

theorem mem_of_reader? {d : Description κ} {name : String} {m : Addition κ}
    (h : d.reader? name = some m) : m ∈ d.instanceMembers := by
  rcases Option.or_eq_some_iff.1 h with hnamed | ⟨-, hgeneric⟩
  · exact mem_of_namedReader? hnamed
  · obtain ⟨g, hg, rfl⟩ := Option.map_eq_some_iff.1 hgeneric
    have hmem := List.mem_of_mem_head? hg
    simp [instanceMembers, hmem]

theorem mem_of_writer? {d : Description κ} {name : String} {m : Addition κ}
    (h : d.writer? name = some m) : m ∈ d.instanceMembers := by
  rcases Option.or_eq_some_iff.1 h with hnamed | ⟨-, hgeneric⟩
  · exact mem_of_namedWriter? hnamed
  · obtain ⟨g, hg, rfl⟩ := Option.map_eq_some_iff.1 hgeneric
    have hmem := List.mem_of_mem_head? hg
    simp [instanceMembers, hmem]

theorem mem_of_selected? {d : Description κ} {a : Binding.Access} {m : Addition κ}
    (h : d.selected? a = some m) : m ∈ d.instanceMembers := by
  cases a with
  | get name => exact mem_of_reader? h
  | set name v => exact mem_of_writer? h
  | call name args =>
    obtain ⟨f, hf, rfl⟩ := Option.map_eq_some_iff.1 h
    obtain ⟨e, he, hm⟩ := exists_mem_of_firstAccepting hf
    simp only [instanceMembers, List.mem_append, List.mem_flatMap, List.mem_map]
    exact .inr (.inl ⟨e, he, f, hm, rfl⟩)
  | apply args =>
    obtain ⟨f, hf, rfl⟩ := Option.map_eq_some_iff.1 h
    have hmem := mem_of_firstAccepting hf
    simp [instanceMembers, hmem]
  | keys => cases h
  | snapshot =>
    obtain ⟨name, -, hname⟩ := List.exists_of_findSome?_eq_some h
    exact mem_of_reader? hname

end Description

/-! ## One access -/

section Foreign

variable [DecidableEq κ] {o : Object κ}

/-- The fault that an instance is not of the type that a member is written for. -/
def Addition.mismatch (m : Addition κ) : InvokeError := .receiverMismatch (HostTypes.path m.owner)

/-- No member of the description is written for the instance. -/
def Description.Foreign (d : Description κ) (o : Object κ) : Prop :=
  ∀ m ∈ d.instanceMembers, m.owner ≠ o.type

theorem Method.invoke_of_ne {m : Method κ} (hm : m.owner ≠ o.type) {args : List Value}
    (h : m.accepts args.length = true) :
    m.invoke o args = (.error (.receiverMismatch (HostTypes.path m.owner)), o) := by
  rw [m.invoke_of_accepts o args h]
  exact o.run_of_ne m.owner hm.symm _

namespace Description

variable {d : Description κ}

theorem readGeneric_of_foreign (h : d.Foreign o) (name : String) :
    readGeneric o name d.genericGetters =
      (d.genericGetters.head?.map Addition.genericGetter).elim (.ok none) fun m =>
        .error m.mismatch := by
  cases hg : d.genericGetters with
  | nil => rfl
  | cons g gs =>
    have hne : g.owner ≠ o.type := h (.genericGetter g) (by simp [instanceMembers, hg])
    have hget : g.get o name = .error (.receiverMismatch (HostTypes.path g.owner)) :=
      o.view_of_ne g.owner hne.symm _
    rw [readGeneric, hget]
    rfl

theorem writeGeneric_of_foreign (h : d.Foreign o) (name : String) (v : Value) :
    writeGeneric name v o d.genericSetters =
      ((d.genericSetters.head?.map Addition.genericSetter).elim (.ok false) fun m =>
        .error m.mismatch, o) := by
  cases hg : d.genericSetters with
  | nil => rfl
  | cons g gs =>
    have hne : g.owner ≠ o.type := h (.genericSetter g) (by simp [instanceMembers, hg])
    have hset : g.set o name v = (.error (.receiverMismatch (HostTypes.path g.owner)), o) :=
      o.run_of_ne g.owner hne.symm _
    rw [writeGeneric, hset]
    rfl

/-- A read is refused by the member that it asks first. -/
theorem read_of_foreign (h : d.Foreign o) (name : String) :
    d.read o name = ((d.reader? name).elim (.ok none) fun m => .error m.mismatch, o) := by
  have hmem : ∀ m, d.namedReader? name = some m → m.owner ≠ o.type :=
    fun m hm => h m (mem_of_namedReader? hm)
  rw [reader?]
  unfold read namedReader? at *
  cases hg : firstAccepting ((Record.get? d.getters name).getD []) 0 with
  | some g =>
    have hne : g.owner ≠ o.type := hmem (.getter g) (by simp only [hg])
    have hinvoke : g.invoke o [] = (.error (.receiverMismatch (HostTypes.path g.owner)), o) :=
      Method.invoke_of_ne hne (accepts_of_firstAccepting hg)
    simp only [hinvoke]
    rfl
  | none =>
    cases hf : Record.get? d.fields name with
    | some f =>
      have hne : f.owner ≠ o.type := hmem (.field f) (by simp only [hg, hf, Option.map_some])
      have hget : f.get o = .error (.receiverMismatch (HostTypes.path f.owner)) :=
        o.view_of_ne f.owner hne.symm _
      simp only [hget]
      rfl
    | none =>
      simp only [readGeneric_of_foreign h, Option.map_none, Option.none_or]

/-- A write is refused by the member that it is offered to first. -/
theorem write_of_foreign (h : d.Foreign o) (name : String) (v : Value) :
    d.write o name v =
      ((d.writer? name).elim (.ok false) fun m => .error (m.rebuff (.set name v)), o) := by
  have hmem : ∀ m, d.namedWriter? name = some m → m.owner ≠ o.type :=
    fun m hm => h m (mem_of_namedWriter? hm)
  rw [writer?]
  unfold write namedWriter? at *
  cases hs : firstAccepting ((Record.get? d.setters name).getD []) 1 with
  | some s =>
    have hne : s.owner ≠ o.type := hmem (.setter s) (by simp only [hs])
    have hinvoke : s.invoke o [v] = (.error (.receiverMismatch (HostTypes.path s.owner)), o) :=
      Method.invoke_of_ne hne (accepts_of_firstAccepting hs)
    simp only [hinvoke]
    rfl
  | none =>
    cases hf : Record.get? d.fields name with
    | some f =>
      have hne : f.owner ≠ o.type := hmem (.field f) (by simp only [hs, hf, Option.map_some])
      cases hw : f.write with
      | none =>
        have hset : f.set o v = (.error (.readOnly f.name), o) := by rw [Field.set, hw]
        simp only [hset, Option.map_some, Option.some_or, Option.elim_some, Addition.rebuff, hw]
        rfl
      | some write =>
        have hset : f.set o v = (.error (.receiverMismatch (HostTypes.path f.owner)), o) := by
          rw [Field.set, hw]
          exact o.run_of_ne f.owner hne.symm _
        simp only [hset, Option.map_some, Option.some_or, Option.elim_some, Addition.rebuff, hw]
        rfl
    | none =>
      simp only [writeGeneric_of_foreign h, Option.map_none, Option.none_or]
      cases d.genericSetters <;> rfl

/-- Choosing among overloads that are written for other types. -/
theorem invokeFirst_of_foreign {member : String} {overloads : List (Method κ)}
    (h : ∀ m ∈ overloads, m.owner ≠ o.type) (args : List Value) :
    invokeFirst member overloads o args =
      ((firstAccepting overloads args.length).elim (.error (.arityMismatch member args.length))
        fun m => .error (.receiverMismatch (HostTypes.path m.owner)), o) := by
  unfold invokeFirst
  cases hm : firstAccepting overloads args.length with
  | none => rfl
  | some m =>
    exact Method.invoke_of_ne (h m (mem_of_firstAccepting hm)) (accepts_of_firstAccepting hm)

end Description

omit [DecidableEq κ] in
/-- Only a write may be refused for another reason than the type. -/
theorem Addition.rebuff_of_not_set (m : Addition κ) {a : Binding.Access}
    (h : ∀ name v, a ≠ .set name v) : m.rebuff a = m.mismatch := by
  cases a with
  | set name v => exact absurd rfl (h name v)
  | _ => cases m <;> rfl

namespace Binding

variable {b : Binding κ}

theorem get_of_foreign (hpass : b.policy.strategy = .passThrough κ) (h : b.description.Foreign o)
    (name : String) :
    b.get o name =
      ⟨(b.description.reader? name).elim (.ok none) fun m => .error m.mismatch, o, []⟩ := by
  have hread := Description.read_of_foreign h name
  simp only [get, hpass, Strategy.passThrough, hread]

theorem set_of_foreign (hpass : b.policy.strategy = .passThrough κ) (h : b.description.Foreign o)
    (name : String) (v : Value) :
    b.set o name v =
      ⟨(b.description.writer? name).elim (.ok false) fun m => .error (m.rebuff (.set name v)),
        o, []⟩ := by
  have hwrite := Description.write_of_foreign h name v
  simp only [set, hpass, Strategy.passThrough, hwrite]

/-- Reading names one after the other ends at the first that has a member to ask. -/
theorem readAll_of_foreign (hpass : b.policy.strategy = .passThrough κ)
    (h : b.description.Foreign o) (names : List String) :
    b.readAll o names =
      ⟨(names.findSome? b.description.reader?).elim (.ok []) fun m => .error m.mismatch,
        o, []⟩ := by
  induction names with
  | nil => rfl
  | cons name names ih =>
    rw [readAll, get_of_foreign hpass h name, List.findSome?_cons]
    cases b.description.reader? name with
    | some m => rfl
    | none =>
      simp only [Option.elim_none, ih]
      rfl

/-- Calling one of the overloads under a name. -/
theorem call_of_foreign (hpass : b.policy.strategy = .passThrough κ)
    (h : b.description.Foreign o) (name : String) (args : List Value) :
    (b.call o name args).map .value = ⟨b.description.refusal (.call name args), o, []⟩ := by
  rw [Description.refusal, Description.selected?, Description.unserved]
  simp only [call, hpass, Strategy.passThrough, Description.call]
  cases hm : Record.get? b.description.methods name with
  | none => rfl
  | some overloads =>
    have hne : ∀ m ∈ overloads, m.owner ≠ o.type := by
      intro m hmem
      refine h (.method m) ?_
      simp only [Description.instanceMembers, List.mem_append, List.mem_flatMap, List.mem_map]
      exact .inr (.inl ⟨_, Record.mem_of_get? hm, m, hmem, rfl⟩)
    simp only [Description.invokeFirst_of_foreign hne, Option.getD_some]
    cases firstAccepting overloads args.length <;> rfl

/-- Calling the instance itself. -/
theorem apply_of_foreign (h : b.description.Foreign o) (args : List Value) :
    (b.apply o args).map .value = ⟨b.description.refusal (.apply args), o, []⟩ := by
  have hne : ∀ m ∈ b.description.applyFunctions, m.owner ≠ o.type := by
    intro m hmem
    exact h (.applyFunction m) (by simp [Description.instanceMembers, hmem])
  rw [Description.refusal, Description.selected?, Description.unserved]
  simp only [apply, Description.apply, Description.invokeFirst_of_foreign hne]
  cases hf : b.description.applyFunctions with
  | nil => rfl
  | cons f fs => cases firstAccepting (f :: fs) args.length <;> rfl

/-- **One access** of an instance that no member is written for ends in the refusal that the tables
give, whatever the members' code is, and leaves the instance as it is. -/
theorem perform_of_foreign (hpass : b.policy.strategy = .passThrough κ)
    (h : b.description.Foreign o) (a : Access) :
    b.perform o a = ⟨b.description.refusal a, o, []⟩ := by
  cases a with
  | get name =>
    rw [perform, get_of_foreign hpass h, Description.refusal, Description.selected?]
    cases b.description.reader? name with
    | none => rfl
    | some m =>
      rw [Option.elim_some, Option.elim_some, m.rebuff_of_not_set (a := .get name) nofun]
      rfl
  | set name v =>
    rw [perform, set_of_foreign hpass h, Description.refusal, Description.selected?]
    cases b.description.writer? name <;> rfl
  | call name args => exact call_of_foreign hpass h name args
  | apply args => exact apply_of_foreign h args
  | keys => rfl
  | snapshot =>
    rw [perform, snapshot, readAll_of_foreign hpass h, Description.refusal, Description.selected?,
      keys]
    cases b.description.propertyKeys.findSome? b.description.reader? with
    | none => rfl
    | some m =>
      rw [Option.elim_some, Option.elim_some, m.rebuff_of_not_set (a := .snapshot) nofun]
      rfl

/-- **A run of accesses** ends, access by access, in the refusals that the tables give. -/
theorem performAll_of_foreign (hpass : b.policy.strategy = .passThrough κ)
    (h : b.description.Foreign o) (accesses : List Access) :
    b.performAll o accesses = accesses.map fun a => ⟨b.description.refusal a, o, []⟩ := by
  induction accesses with
  | nil => rfl
  | cons a accesses ih => rw [performAll, perform_of_foreign hpass h, List.map_cons, ih]

end Binding

end Foreign

/-! ## What a refusal is -/

/-- An access that ends so has run no member: nothing is found, a fault names the type of the
member that was selected, a number of arguments or a field that cannot be written, a property is
missing only where no member could serve it, and a snapshot has nothing in it. -/
structure Description.Rebuffs (d : Description κ) (a : Binding.Access)
    (r : Except InvokeError Binding.Answer) : Prop where
  notFound : ∀ answer, r = .ok answer → answer.found = false
  fault : ∀ e, r = .error e →
    (∃ m ∈ d.instanceMembers, d.selected? a = some m ∧
      e = .receiverMismatch (HostTypes.path m.owner)) ∨
    (d.selected? a = none ∧ ∃ member count, e = .arityMismatch member count) ∨
    ∃ f, d.selected? a = some (.field f) ∧ f.write = none ∧ e = .readOnly f.name
  missingRead : ∀ name, a = .get name →
    (r = .ok (.value none) ↔ d.namedReader? name = none ∧ d.genericGetters = [])
  missingWrite : ∀ name v, a = .set name v →
    (r = .ok (.taken false) ↔ d.namedWriter? name = none ∧ d.genericSetters = [])
  snapshotEmpty : ∀ entries, r = .ok (.entries entries) → entries = []

/-- A member refuses an instance of another type for its type, unless it is a field that cannot be
written. -/
theorem Addition.rebuff_cases (m : Addition κ) (a : Binding.Access) :
    m.rebuff a = .receiverMismatch (HostTypes.path m.owner) ∨
      ∃ f, m = .field f ∧ f.write = none ∧ m.rebuff a = .readOnly f.name := by
  cases a with
  | set name v =>
    cases m with
    | field f =>
      cases hw : f.write with
      | none => exact .inr ⟨f, rfl, hw, by simp [rebuff, hw]⟩
      | some write => exact .inl (by simp [rebuff, hw, owner])
    | _ => exact .inl rfl
  | _ => exact .inl (m.rebuff_of_not_set nofun)

namespace Description

variable {d : Description κ} {a : Binding.Access}

theorem refusal_eq_ok_iff {answer : Binding.Answer} :
    d.refusal a = .ok answer ↔ d.selected? a = none ∧ d.unserved a = .ok answer := by
  rw [refusal]
  cases d.selected? a <;> simp

/-- An access that selects no member finds nothing, and only the number of arguments can be at
fault. -/
theorem unserved_cases (d : Description κ) (a : Binding.Access) :
    (∃ answer, d.unserved a = .ok answer ∧ answer.found = false ∧
      ∀ entries, answer = .entries entries → entries = []) ∨
    ∃ member count, d.unserved a = .error (.arityMismatch member count) := by
  cases a with
  | call name args =>
    rw [unserved]
    split
    · exact .inr ⟨_, _, rfl⟩
    · exact .inl ⟨_, rfl, rfl, by simp⟩
  | apply args =>
    rw [unserved]
    split
    · exact .inl ⟨_, rfl, rfl, by simp⟩
    · exact .inr ⟨_, _, rfl⟩
  | snapshot => exact .inl ⟨_, rfl, rfl, fun _ h => by cases h; rfl⟩
  | _ => exact .inl ⟨_, rfl, rfl, by simp⟩

/-- An access that is not at fault finds nothing. -/
theorem found_of_refusal {answer : Binding.Answer} (h : d.refusal a = .ok answer) :
    answer.found = false ∧ ∀ entries, answer = .entries entries → entries = [] := by
  obtain ⟨-, hanswer⟩ := refusal_eq_ok_iff.1 h
  rcases d.unserved_cases a with ⟨other, hother, hfound, hentries⟩ | ⟨_, _, herror⟩
  · cases hother.symm.trans hanswer
    exact ⟨hfound, hentries⟩
  · cases herror.symm.trans hanswer

theorem reader?_eq_none_iff {name : String} :
    d.reader? name = none ↔ d.namedReader? name = none ∧ d.genericGetters = [] := by
  simp [reader?]

theorem writer?_eq_none_iff {name : String} :
    d.writer? name = none ↔ d.namedWriter? name = none ∧ d.genericSetters = [] := by
  simp [writer?]

theorem rebuffs_refusal (d : Description κ) (a : Binding.Access) : d.Rebuffs a (d.refusal a) where
  notFound _ h := (found_of_refusal h).1
  fault e h := by
    rw [refusal] at h
    cases hs : d.selected? a with
    | some m =>
      rw [hs] at h
      cases h
      rcases m.rebuff_cases a with hm | ⟨f, rfl, hf, hm⟩
      · exact .inl ⟨m, mem_of_selected? hs, rfl, hm⟩
      · exact .inr (.inr ⟨f, rfl, hf, hm⟩)
    | none =>
      rw [hs] at h
      rcases d.unserved_cases a with ⟨answer, hanswer, -⟩ | ⟨member, count, herror⟩
      · cases hanswer.symm.trans h
      · cases herror.symm.trans h
        exact .inr (.inl ⟨rfl, member, count, rfl⟩)
  missingRead name ha := by
    subst ha
    rw [refusal_eq_ok_iff, ← reader?_eq_none_iff]
    exact and_iff_left rfl
  missingWrite name v ha := by
    subst ha
    rw [refusal_eq_ok_iff, ← writer?_eq_none_iff]
    exact and_iff_left rfl
  snapshotEmpty entries h := (found_of_refusal h).2 entries rfl

end Description

/-! ## Members of a binding that was built -/

theorem Record.mem_of_mem_group {α : Type} {l : List (String × α)} {e : String × List α} {x : α}
    (he : e ∈ Record.group l) (hx : x ∈ e.2) : ∃ name, (name, x) ∈ l := by
  obtain ⟨name, -, rfl⟩ := List.mem_map.1 he
  obtain ⟨p, hp, hpx⟩ := List.mem_filterMap.1 hx
  obtain ⟨-, hp2⟩ := Option.ite_none_right_eq_some.1 hpx
  cases hp2
  exact ⟨p.1, hp⟩

theorem Record.mem_of_mem_firsts {α : Type} {l : List (String × α)} {e : String × α}
    (he : e ∈ Record.firsts l) : e ∈ l := by
  obtain ⟨name, -, hname⟩ := List.mem_filterMap.1 he
  obtain ⟨x, hx, rfl⟩ := Option.map_eq_some_iff.1 hname
  exact Record.mem_of_get? hx

/-- What is picked out of a member and wrapped up again is the member. -/
def Addition.Restores {α : Type} (pick : Addition κ → Option α) (wrap : α → Addition κ) : Prop :=
  ∀ m x, pick m = some x → wrap x = m

theorem Addition.Restores.mem {α : Type} {pick : Addition κ → Option α} {wrap : α → Addition κ}
    (h : Restores pick wrap) {log : List (Addition κ)} {x : α} (hx : x ∈ log.filterMap pick) :
    wrap x ∈ log := by
  obtain ⟨m, hm, hpick⟩ := List.mem_filterMap.1 hx
  exact h m x hpick ▸ hm

/-- The members in the tables of a list of admitted members come from the list. -/
theorem Builder.mem_of_mem_instanceMembers {c : κ} {log : List (Addition κ)} {m : Addition κ}
    (h : m ∈ (ofLog c log).toDescription.instanceMembers) : m ∈ log := by
  have hlist {α : Type} {pick : Addition κ → Option α} {wrap : α → Addition κ}
      (hwrap : Addition.Restores pick wrap) (hm : m ∈ (log.filterMap pick).map wrap) :
      m ∈ log := by
    obtain ⟨x, hx, rfl⟩ := List.mem_map.1 hm
    exact hwrap.mem hx
  have htable {pick : Addition κ → Option (String × Method κ)} {wrap : Method κ → Addition κ}
      (hwrap : Addition.Restores pick fun p => wrap p.2)
      (hm : m ∈ (Record.group (log.filterMap pick)).flatMap fun e => e.2.map wrap) : m ∈ log := by
    obtain ⟨e, he, hm⟩ := List.mem_flatMap.1 hm
    obtain ⟨x, hx, rfl⟩ := List.mem_map.1 hm
    obtain ⟨name, hname⟩ := Record.mem_of_mem_group he hx
    exact hwrap.mem hname
  have hfield : Addition.Restores Addition.field? fun p : String × Field κ => .field p.2 := by
    rintro ⟨⟩ x ⟨⟩
    rfl
  simp only [Description.instanceMembers, List.mem_append] at h
  rcases h with hm | hm | hm | hm | hm | hm | hm
  · obtain ⟨e, he, rfl⟩ := List.mem_map.1 hm
    exact hfield.mem (Record.mem_of_mem_firsts he)
  · exact htable (by rintro ⟨⟩ x ⟨⟩; rfl) hm
  · exact htable (by rintro ⟨⟩ x ⟨⟩; rfl) hm
  · exact htable (by rintro ⟨⟩ x ⟨⟩; rfl) hm
  · exact hlist (by rintro ⟨⟩ x ⟨⟩; rfl) hm
  · exact hlist (by rintro ⟨⟩ x ⟨⟩; rfl) hm
  · exact hlist (by rintro ⟨⟩ x ⟨⟩; rfl) hm

theorem Description.factory?_of_mem_instanceMembers {d : Description κ} {m : Addition κ}
    (h : m ∈ d.instanceMembers) : m.factory? = none := by
  simp only [instanceMembers, List.mem_append, List.mem_flatMap, List.mem_map] at h
  rcases h with ⟨_, _, rfl⟩ | ⟨_, _, _, _, rfl⟩ | ⟨_, _, _, _, rfl⟩ | ⟨_, _, _, _, rfl⟩ |
    ⟨_, _, rfl⟩ | ⟨_, _, rfl⟩ | ⟨_, _, rfl⟩ <;> rfl

variable [DecidableEq κ]

/-- An instance is foreign to a binding that was built if no admitted member, constructors aside, is
written for its type. -/
theorem Binding.BuiltBy.foreign {b : Binding κ} {c : κ} {steps : List (BuildStep κ)}
    (h : b.BuiltBy c steps) {o : Object κ}
    (hadmitted : ∀ m ∈ admitted c steps, m.factory? = none → m.owner ≠ o.type) :
    b.description.Foreign o := by
  intro m hm
  have hlog : m ∈ admitted c steps := Builder.mem_of_mem_instanceMembers (h.description_eq ▸ hm)
  exact hadmitted m hlog (Description.factory?_of_mem_instanceMembers hm)

/-! ## A run of accesses -/

/-- **No code runs on an instance of another type.** Where every access is passed on and no member
of the description is written for the type of an instance, any accesses one after the other end in
the refusals that the tables give, without an event, and each leaves the instance as it is. A
refusal finds nothing; its faults are the type of the selected member, a number of arguments and a
field that cannot be written; a property is missing exactly if no named member is selected and there
is no generic accessor; and a snapshot that succeeds is empty. -/
theorem Binding.performAll_rebuffs {b : Binding κ} (hpass : b.policy.strategy = .passThrough κ)
    {o : Object κ} (h : b.description.Foreign o) (accesses : List Access) :
    b.performAll o accesses = accesses.map (fun a => ⟨b.description.refusal a, o, []⟩) ∧
    ∀ a, b.description.Rebuffs a (b.description.refusal a) :=
  ⟨performAll_of_foreign hpass h accesses, b.description.rebuffs_refusal⟩

namespace Mixed

/-- A class that lets everything through. -/
def shape : ClassInfo := { path := "host::Shape", name := "Shape" }

/-- A class that may stand in for it. -/
def circle : ClassInfo := { path := "host::Circle", name := "Circle", supertypes := ["Shape"] }

/-- A type of the same class name as the second, with properties of the names that its members
use. -/
def other : HostObject :=
  .bag { path := "other::Circle", name := "Circle", supertypes := ["Shape"] }
    [("name", .text "c"), ("r", .int 2)]

/-- Members of the first class and, after a redirect, of the second. The getter changes what it
reads, and the constructor makes instances of the type that no other member is written for. -/
def steps : List (BuildStep HostType) :=
  [ .add ((BagMember.getterCode "area" (.atLeast 0) (.markFail "seen")).addition shape .unmarked),
    .add ((BagMember.field "name" (.prop "name") none).addition shape .unmarked),
    .redirect (.bag circle),
    .add ((BagMember.field "r" (.prop "r") (some (.prop "r"))).addition circle .unmarked),
    .add ((BagMember.method "scale" (.exactly 1) (.store "r")).addition circle .unmarked),
    .add ((BagMember.genericSetter "rest" .prop).addition shape .unmarked),
    .add ((BagMember.applyFunction "f" (.atLeast 1) .echo).addition circle .unmarked),
    .add ((BagMember.factory (.exactly 0) (.args [])).addition
      { path := "other::Circle", name := "Circle", supertypes := ["Shape"] } .unmarked) ]

def binding : Binding HostType where
  policy := .new .objectProxy (.bag circle) (.passThrough _)
  description := ((Builder.new (HostType.bag shape)).run steps).1.toDescription

theorem builtBy_steps : binding.BuiltBy (.bag shape) steps := ⟨.reject, _, rfl, rfl⟩

end Mixed

open Mixed in
/-- An instance that could stand in for the class by its name is refused by members of both types,
each under its own; names without a member are missing for reads, and go to the generic setter for
writes. -/
theorem Binding.performAll_rebuffs_mixed :
    binding.BuiltBy (.bag shape) steps ∧
    binding.description.Foreign other ∧
    binding.performAll other
      [.get "area", .get "r", .get "color", .set "name" .null, .set "r" .null, .set "color" .null,
        .call "scale" [.null], .call "scale" [], .call "area" [], .apply [.null], .apply [], .keys,
        .snapshot] =
      [ ⟨.error (.receiverMismatch "host::Shape"), other, []⟩,
        ⟨.error (.receiverMismatch "host::Circle"), other, []⟩,
        ⟨.ok (.value none), other, []⟩,
        ⟨.error (.readOnly "name"), other, []⟩,
        ⟨.error (.receiverMismatch "host::Circle"), other, []⟩,
        ⟨.error (.receiverMismatch "host::Shape"), other, []⟩,
        ⟨.error (.receiverMismatch "host::Circle"), other, []⟩,
        ⟨.error (.arityMismatch "scale" 0), other, []⟩,
        ⟨.ok (.value none), other, []⟩,
        ⟨.error (.receiverMismatch "host::Circle"), other, []⟩,
        ⟨.error (.arityMismatch "Circle" 0), other, []⟩,
        ⟨.ok (.names ["name", "r", "area"]), other, []⟩,
        ⟨.error (.receiverMismatch "host::Shape"), other, []⟩ ] := by
  have hforeign : binding.description.Foreign other := builtBy_steps.foreign (by decide)
  refine ⟨builtBy_steps, hforeign, ?_⟩
  exact (Binding.performAll_rebuffs rfl hforeign _).1.trans rfl

end HostBridge
