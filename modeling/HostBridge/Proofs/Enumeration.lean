import HostBridge.Host.Bag
import HostBridge.Proofs.Access
import HostBridge.Proofs.ForeignReceiver
import HostBridge.Proofs.Keys

/-!
# Enumerated properties and snapshots

The enumerated names of a built class are those of its admitted fields and then of its getters,
while a read serves getters before fields, so where both claim a name the getter's value stands in
the field's place. A snapshot reads the enumerated names from left to right. Getters may change what
they read from, so each read is made on the receiver that the one before left: `Binding.readings`
lists these single reads, and a snapshot keeps what they found (`Binding.readAll_of_forall_ok`) or
ends with the first of them that fails (`Binding.readAll_of_error`).

If nothing intercepts the reads, all getters only read, and fields and getters are written for the
type of the receiver, then every read finds a value and leaves the receiver as it is
(`Admitted.read_of_still`), so a snapshot has all the names with what single reads find.
-/

namespace HostBridge

variable {κ : Type} [HostTypes κ]

/-! ## The enumerated names -/

namespace Admitted

/-- The names of the fields, in order. -/
def fieldNames (log : List (Addition κ)) : List String :=
  Record.keys (log.filterMap Addition.field?)

/-- The names of the getters, in order. -/
def getterNames (log : List (Addition κ)) : List String :=
  Record.keys (log.filterMap Addition.getter?)

end Admitted

theorem Builder.propertyKeys_ofLog (c : κ) (log : List (Addition κ)) :
    (ofLog c log).toDescription.propertyKeys =
      (Admitted.fieldNames log).eraseDups ++
        (Admitted.getterNames log).eraseDups.filter fun name => name ∉ Admitted.fieldNames log := by
  unfold Description.propertyKeys
  simp only [ofLog, Record.keys_firsts, Record.keys_group]
  refine congrArg _ (List.filter_congr fun name _ => ?_)
  by_cases hfield : name ∈ Record.keys (log.filterMap Addition.field?) <;>
    simp [Admitted.fieldNames, hfield]

/-- Enumerated names are keys of the description. -/
theorem Builder.mem_keys_of_mem_propertyKeys {c : κ} {log : List (Addition κ)} {name : String}
    (h : name ∈ (ofLog c log).toDescription.propertyKeys) : name ∈ (ofLog c log).keys := by
  rw [(keysFollow_ofLog c log).mem_iff]
  rcases (Description.mem_propertyKeys _ name).1 h with hfield | hgetter
  · exact .inl hfield
  · exact .inr (.inl hgetter)

/-! ## Runs of reads -/

namespace Binding

variable [DecidableEq κ] {b : Binding κ}

/-- The single reads of names, each on the receiver that the one before left. -/
def readings (b : Binding κ) : Object κ → List String → List (Outcome κ (Option Value))
  | _, [] => []
  | o, name :: names => b.get o name :: readings b (b.get o name).receiver names

/-- What is kept of a read: the value that it found, under its name. -/
def kept? (read : String × Outcome κ (Option Value)) : Option (String × Value) :=
  match read.2.result with
  | .ok (some v) => some (read.1, v)
  | _ => none

/-- **Where no read fails**, what they found is kept, in order. -/
theorem readAll_of_forall_ok (o : Object κ) (names : List String)
    (h : ∀ r ∈ b.readings o names, ∃ found, r.result = .ok found) :
    b.readAll o names =
      ⟨.ok ((names.zip (b.readings o names)).filterMap kept?),
        ((b.readings o names).getLast?.map (·.receiver)).getD o,
        (b.readings o names).flatMap (·.events)⟩ := by
  induction names generalizing o with
  | nil => rfl
  | cons name names ih =>
    obtain ⟨⟨found, hfirst⟩, hrest⟩ := List.forall_mem_cons.1 h
    rw [readAll, readings, List.zip_cons_cons, List.filterMap_cons, List.flatMap_cons,
      List.getLast?_cons, hfirst, ih _ hrest]
    cases found with
    | none => simp [kept?, hfirst]
    | some v => simp [kept?, hfirst, Except.map]

/-- **The first read that fails** ends the run. -/
theorem readAll_of_error (o : Object κ) (names : List String)
    {before after : List (Outcome κ (Option Value))} {r : Outcome κ (Option Value)}
    {e : InvokeError} (h : b.readings o names = before ++ r :: after)
    (hbefore : ∀ r' ∈ before, ∃ found, r'.result = .ok found) (hr : r.result = .error e) :
    b.readAll o names = ⟨.error e, r.receiver, (before ++ [r]).flatMap (·.events)⟩ := by
  induction names generalizing o before with
  | nil => simp [readings] at h
  | cons name names ih =>
    rw [readings] at h
    cases before with
    | nil =>
      obtain ⟨rfl, -⟩ := List.cons.inj h
      rw [readAll, hr]
      simp
    | cons first before =>
      obtain ⟨rfl, hrest⟩ := List.cons.inj h
      obtain ⟨⟨found, hfirst⟩, hbefore⟩ := List.forall_mem_cons.1 hbefore
      rw [readAll, hfirst, ih _ hrest hbefore]
      cases found <;> simp [Except.map]

/-- Reads that find values and leave the receiver as it is are independent of each other. -/
theorem readAll_of_still {o : Object κ} {names : List String}
    (h : ∀ name ∈ names, ∃ v, b.get o name = ⟨.ok (some v), o, []⟩) :
    ∃ entries, b.readAll o names = ⟨.ok entries, o, []⟩ ∧ Record.keys entries = names ∧
      ∀ name v, (name, v) ∈ entries → b.get o name = ⟨.ok (some v), o, []⟩ := by
  induction names with
  | nil => exact ⟨[], rfl, rfl, nofun⟩
  | cons name names ih =>
    obtain ⟨⟨v, hfirst⟩, hrest⟩ := List.forall_mem_cons.1 h
    obtain ⟨entries, hall, hkeys, hget⟩ := ih hrest
    refine ⟨(name, v) :: entries, ?_, by rw [Record.keys_cons, hkeys], ?_⟩
    · rw [readAll, hfirst, hall]
      rfl
    · intro other w hmem
      rcases List.mem_cons.1 hmem with heq | hmem
      · cases heq
        exact hfirst
      · exact hget other w hmem

end Binding

/-! ## Members that only read -/

/-- The overload was made as a getter, whatever its mark is. -/
def Method.IsGetter (m : Method κ) : Prop :=
  ∃ name owner read exposure, m = { Method.getter name owner read with exposure := exposure }

theorem Method.IsGetter.accepts_zero {m : Method κ} (h : m.IsGetter) :
    m.arity.accepts 0 = true := by
  obtain ⟨name, owner, read, exposure, rfl⟩ := h
  rfl

variable [DecidableEq κ] {o : Object κ}

/-- A getter answers on an instance of its type, and leaves it as it is. -/
theorem Method.IsGetter.exists_invoke_eq {m : Method κ} (h : m.IsGetter)
    (howner : m.owner = o.type) : ∃ v, m.invoke o [] = (.ok v, o) := by
  obtain ⟨name, owner, read, exposure, rfl⟩ := h
  obtain ⟨type, state⟩ := o
  obtain rfl : owner = type := howner
  exact ⟨read state, Object.run_self owner state fun s => (.ok (read s), s)⟩

theorem Field.exists_get_eq {f : Field κ} (howner : f.owner = o.type) : ∃ v, f.get o = .ok v := by
  obtain ⟨type, state⟩ := o
  obtain ⟨name, exposure, owner, read, write⟩ := f
  obtain rfl : owner = type := howner
  exact ⟨read state, Object.view_self owner state read⟩

namespace Admitted

variable {log : List (Addition κ)}

omit [DecidableEq κ] in
theorem mem_of_getterFor? {name : String} {m : Method κ}
    (h : log.findSome? (Addition.getterFor? name) = some m) : .getter m ∈ log := by
  obtain ⟨a, ha, hm⟩ := List.exists_of_findSome?_eq_some h
  cases a with
  | getter m' =>
    simp only [Addition.getterFor?, Option.ite_none_right_eq_some, Option.some.injEq] at hm
    exact hm.2 ▸ ha
  | _ => simp [Addition.getterFor?] at hm

omit [DecidableEq κ] in
theorem mem_of_fieldFor? {name : String} {f : Field κ}
    (h : log.findSome? (Addition.fieldFor? name) = some f) : .field f ∈ log := by
  obtain ⟨a, ha, hf⟩ := List.exists_of_findSome?_eq_some h
  cases a with
  | field f' =>
    simp only [Addition.fieldFor?, Option.ite_none_right_eq_some, Option.some.injEq] at hf
    exact hf.2 ▸ ha
  | _ => simp [Addition.fieldFor?] at hf

/-- Where the value of a name comes from. -/
structure Answers (log : List (Addition κ)) (o : Object κ) (name : String) (v : Value) : Prop where
  /-- The first getter of the name answers it, also where there is a field. -/
  getter : ∀ m, log.findSome? (Addition.getterFor? name) = some m → m.invoke o [] = (.ok v, o)
  /-- Without a getter the first field of the name has it. -/
  field : log.findSome? (Addition.getterFor? name) = none →
    ∃ f, log.findSome? (Addition.fieldFor? name) = some f ∧ f.get o = .ok v

/-- **A read that changes nothing.** If all getters only read, and fields and getters are written
for the type of the receiver, then a name of either is read with a value. -/
theorem read_of_still (hgetters : ∀ m, .getter m ∈ log → m.IsGetter)
    (howners : ∀ a ∈ log, a.property?.isSome → a.owner = o.type) {name : String}
    (hname : ∃ a ∈ log, a.property? = some name) :
    ∃ v, read log o name = (.ok (some v), o) ∧ Answers log o name v := by
  cases hm : log.findSome? (Addition.getterFor? name) with
  | some m =>
    have hmem := mem_of_getterFor? hm
    have hget := hgetters m hmem
    obtain ⟨v, hv⟩ := hget.exists_invoke_eq (howners _ hmem rfl)
    refine ⟨v, ?_, ⟨fun m' hm' => ?_, fun hnone => ?_⟩⟩
    · rw [read, hm]
      simp only [← m.invoke_of_accepts o [] hget.accepts_zero, hv, Except.map]
    · rw [← Option.some.inj (hm.symm.trans hm')]
      exact hv
    · cases hm.symm.trans hnone
  | none =>
    -- the member that bears the name is no getter, since getters take no argument
    have hfield : log.findSome? (Addition.fieldFor? name) ≠ none := by
      obtain ⟨a, ha, hproperty⟩ := hname
      intro hnone
      cases a with
      | field f =>
        have hf := List.findSome?_eq_none_iff.1 hnone _ ha
        simp [Addition.fieldFor?, Option.some.inj hproperty] at hf
      | getter m =>
        have hg := List.findSome?_eq_none_iff.1 hm _ ha
        simp [Addition.getterFor?, Option.some.inj hproperty,
          (hgetters m ha).accepts_zero] at hg
      | _ => cases hproperty
    obtain ⟨f, hf⟩ := Option.ne_none_iff_exists'.1 hfield
    obtain ⟨v, hv⟩ := Field.exists_get_eq (howners _ (mem_of_fieldFor? hf) rfl)
    refine ⟨v, ?_, ⟨fun m' hm' => ?_, fun _ => ⟨f, hf, hv⟩⟩⟩
    · rw [read, hm, hf]
      unfold Field.get at hv
      simp only [hv, Except.map]
    · cases hm.symm.trans hm'

end Admitted

/-! ## Snapshots of a built class -/

namespace Binding

/-- Without a strategy that answers, a read is one of the admitted members. -/
theorem get_of_passThrough {b : Binding κ} {c : κ} {steps : List (BuildStep κ)}
    (h : b.BuiltBy c steps) (hpass : b.policy.strategy = .passThrough κ) (o : Object κ)
    (name : String) :
    b.get o name = ⟨(Admitted.read (admitted c steps) o name).1,
      (Admitted.read (admitted c steps) o name).2, []⟩ := by
  rw [get_eq_admitted_get h.description_eq, hpass]
  rfl

/-- **Enumeration and snapshots agree with single reads.** The enumerated names of a built class are
those of its admitted fields in the order of their first registration, and then those of its getters
which are no fields; no name is repeated, and all are keys of the class. A snapshot is what reading
these names one after the other gives, each on the receiver that the one before left: it keeps what
was found, in order, and the first read that fails ends it.

Where every access is passed on, all getters only read, and fields and getters are written for the
type of the receiver, a snapshot succeeds, has exactly the enumerated names, and leaves the receiver
as it is. Its value under a name is what a read of the same receiver gives: the answer of the first
getter of the name, also where there is a field, and else the value of the first field. -/
theorem snapshot_of_builtBy {b : Binding κ} {c : κ} {steps : List (BuildStep κ)}
    (h : b.BuiltBy c steps) :
    let log := admitted c steps
    (b.keys = (Admitted.fieldNames log).eraseDups ++
        (Admitted.getterNames log).eraseDups.filter (fun name => name ∉ Admitted.fieldNames log) ∧
      b.keys.Nodup ∧ ∀ name ∈ b.keys, name ∈ b.description.keys) ∧
    (∀ o, (∀ r ∈ b.readings o b.keys, ∃ found, r.result = .ok found) →
      b.snapshot o =
        ⟨.ok ((b.keys.zip (b.readings o b.keys)).filterMap kept?),
          ((b.readings o b.keys).getLast?.map (·.receiver)).getD o,
          (b.readings o b.keys).flatMap (·.events)⟩) ∧
    (∀ o before r after e, b.readings o b.keys = before ++ r :: after →
      (∀ r' ∈ before, ∃ found, r'.result = .ok found) → r.result = .error e →
      b.snapshot o = ⟨.error e, r.receiver, (before ++ [r]).flatMap (·.events)⟩) ∧
    ∀ o, b.policy.strategy = .passThrough κ → (∀ m, .getter m ∈ log → m.IsGetter) →
      (∀ a ∈ log, a.property?.isSome → a.owner = o.type) →
      ∃ entries, b.snapshot o = ⟨.ok entries, o, []⟩ ∧ Record.keys entries = b.keys ∧
        ∀ name ∈ b.keys, ∃ v, Record.get? entries name = some v ∧
          b.get o name = ⟨.ok (some v), o, []⟩ ∧ Admitted.Answers log o name v := by
  intro log
  have hkeys : b.keys = (Builder.ofLog (classAfter c steps) log).toDescription.propertyKeys := by
    rw [keys, h.description_eq]
  have hnodup : b.keys.Nodup := hkeys ▸ Builder.nodup_propertyKeys_ofLog _ log
  refine ⟨⟨?_, hnodup, ?_⟩, fun o => readAll_of_forall_ok o b.keys,
    fun o before r after e => readAll_of_error o b.keys, ?_⟩
  · rw [hkeys, Builder.propertyKeys_ofLog]
  · intro name hname
    rw [h.description_eq]
    exact Builder.mem_keys_of_mem_propertyKeys (hkeys ▸ hname)
  · intro o hpass hgetters howners
    have hread : ∀ name ∈ b.keys, ∃ v, b.get o name = ⟨.ok (some v), o, []⟩ ∧
        Admitted.Answers log o name v := by
      intro name hname
      rw [hkeys, Builder.mem_propertyKeys_ofLog] at hname
      obtain ⟨v, hv, hanswers⟩ := Admitted.read_of_still hgetters howners hname
      refine ⟨v, ?_, hanswers⟩
      rw [get_of_passThrough h hpass, hv]
    obtain ⟨entries, hshot, hnames, hget⟩ :=
      readAll_of_still fun name hname => (hread name hname).imp fun v hv => hv.1
    have hentries : Record.NodupKeys entries := by
      rw [Record.NodupKeys, hnames]
      exact hnodup
    refine ⟨entries, hshot, hnames, ?_⟩
    intro name hname
    obtain ⟨v, hv, hanswers⟩ := hread name hname
    obtain ⟨e, he, rfl⟩ := List.mem_map.1 (hnames ▸ hname : name ∈ Record.keys entries)
    have hsame : e.2 = v := by
      have heq := (hget e.1 e.2 he).symm.trans hv
      simpa using congrArg Outcome.result heq
    refine ⟨v, ?_, hv, hanswers⟩
    exact Record.get?_of_mem hentries (hsame ▸ he)

end Binding

namespace Twofold

/-- A class that lets everything through. -/
def info : ClassInfo := { path := "host::Twofold", name := "Twofold" }

/-- A field and a getter of one name, and a getter of another; the getters come first. -/
def steps : List (BuildStep HostType) :=
  [ .add ((BagMember.getter "y" (.prop "q")).addition info .unmarked),
    .add ((BagMember.getter "x" (.prop "p")).addition info .unmarked),
    .add ((BagMember.field "x" (.const .null) none).addition info .unmarked),
    .add ((BagMember.genericGetter "any" .keyText).addition info .unmarked) ]

/-- A getter that changes the receiver and then fails. -/
def failing : BuildStep HostType :=
  .add ((BagMember.getterCode "z" (.exactly 0) (.markFail "seen")).addition info .unmarked)

/-- The binding that steps lead to. -/
def binding (steps : List (BuildStep HostType)) : Binding HostType where
  policy := .new .objectProxy (.bag info) (.passThrough _)
  description := ((Builder.new (HostType.bag info)).run steps).1.toDescription

theorem builtBy_steps : (binding steps).BuiltBy (.bag info) steps := ⟨.allow, _, rfl, rfl⟩

theorem builtBy_failing : (binding (steps ++ [failing])).BuiltBy (.bag info) (steps ++ [failing]) :=
  ⟨.allow, _, rfl, rfl⟩

/-- An instance. -/
def sample : HostObject := .bag info [("p", .int 1), ("q", .int 2)]

end Twofold

open Twofold in
/-- The name that a field and a getter claim stands in the place of the field, with the value of the
getter. A getter that fails ends the snapshot, after the change that it made. -/
theorem Binding.snapshot_of_builtBy_twofold :
    (binding steps).keys = ["x", "y"] ∧
    (∃ entries, (binding steps).snapshot sample = ⟨.ok entries, sample, []⟩ ∧
      Record.keys entries = ["x", "y"] ∧ Record.get? entries "x" = some (.int 1)) ∧
    (binding (steps ++ [failing])).snapshot sample =
      ⟨.error (.host "failed after marking seen"),
        HostObject.bag info [("p", .int 1), ("q", .int 2), ("seen", .bool true)], []⟩ := by
  obtain ⟨⟨hkeys, -, -⟩, -, -, hstill⟩ := snapshot_of_builtBy builtBy_steps
  obtain ⟨-, -, herror, -⟩ := snapshot_of_builtBy builtBy_failing
  refine ⟨hkeys, ?_, ?_⟩
  · have hgetters : ∀ m, .getter m ∈ admitted (HostType.bag info) steps → m.IsGetter := by
      intro m hm
      have hlog : .getter m ∈ steps.filterMap BuildStep.addition? := hm
      simp only [steps, BuildStep.addition?, BagMember.addition, List.filterMap_cons,
        List.filterMap_nil, List.mem_cons, Addition.getter.injEq, reduceCtorEq, List.not_mem_nil,
        or_false] at hlog
      rcases hlog with rfl | rfl
      · exact ⟨_, _, _, _, rfl⟩
      · exact ⟨_, _, _, _, rfl⟩
    obtain ⟨entries, hshot, hnames, hvalues⟩ := hstill sample rfl hgetters (by decide)
    obtain ⟨v, hv, -, hanswers⟩ := hvalues "x" (by decide)
    have hgetter : (Except.ok (Value.int 1), sample) = (.ok v, sample) := hanswers.getter _ rfl
    refine ⟨entries, hshot, hnames, ?_⟩
    rw [hv, ← Except.ok.inj (congrArg Prod.fst hgetter)]
  · exact herror sample [⟨.ok (some (.int 1)), sample, []⟩, ⟨.ok (some (.int 2)), sample, []⟩] _ []
      _ rfl (by simp) rfl

end HostBridge
