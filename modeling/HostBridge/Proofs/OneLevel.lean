import HostBridge.Proofs.CopyWhole

/-!
# Copies of one level

Under the restricted modes only the outermost container is opened, so what they copy is known
without a walk. A value that is no container is copied as `Heap.copyShallow` copies it, and a
container holds the shallow copies of its contents. Copying fails exactly if something in it cannot
be read, a name or what is under it, with the fault of the first such
(`Heap.copyOut_of_restricted`).

Such a copy can also be had from the transparent one, by sealing what lies inside its outermost
container (`Heap.copyOut_sealInside`). The two walks open different containers and count them
differently, but a container that is met inside another is either sealed already or assembled, and
sealing it again leaves no trace of which.
-/

namespace HostBridge

/-! ## Faults -/

/-- Why a value cannot be copied, whatever it holds: it is a text that has no form outside the
engine. -/
def EngineValue.fault? : EngineValue → Option EngineError
  | text t =>
    match t.decode with
    | .ok _ => none
    | .error offset => some (.invalidText offset)
  | _ => none

/-- Why what a place gives cannot be copied: reading it throws, or it gives such a value. -/
def Slot.fault? : Slot → Option EngineError
  | value x => x.fault?
  | throwing _ => some .thrown

/-- Places without a fault give values. -/
theorem Slot.exists_values {slots : List Slot} (hslots : slots.findSome? fault? = none) :
    ∃ xs : List EngineValue, slots = xs.map .value ∧ ∀ y ∈ xs, y.fault? = none := by
  induction slots with
  | nil => exact ⟨[], rfl, by simp⟩
  | cons slot slots ih =>
    rw [List.findSome?_cons] at hslots
    cases slot with
    | throwing e => cases hslots
    | value x =>
      cases hx : (value x).fault? with
      | some e => simp [hx] at hslots
      | none =>
        obtain ⟨xs, rfl, hxs⟩ := ih (by simpa [hx] using hslots)
        exact ⟨x :: xs, rfl, by simpa using ⟨hx, hxs⟩⟩

namespace Contents

/-- The places of a container, in order. -/
def places : Contents → List Slot
  | items slots => slots
  | entries slots => slots.map (·.2)

/-- The names of the places, where they have names. -/
def names : Contents → List EngineText
  | items _ => []
  | entries slots => slots.keys

/-- The first fault in a container. A name is read before what is under it. -/
def fault? : Contents → Option EngineError
  | items slots => slots.findSome? Slot.fault?
  | entries slots => slots.findSome? fun e => (Heap.nameFault? e.1).or e.2.fault?

theorem fault?_entrySlot (e : EngineText × Slot) :
    (entrySlot e).fault? = (Heap.nameFault? e.1).or e.2.fault? := by
  rw [entrySlot, Heap.nameFault?]
  cases hname : (Heap.seenName e.1).decode with
  | ok s => rfl
  | error offset => simp only [Slot.fault?, EngineValue.fault?, hname, Option.some_or]

theorem findSome?_slots (c : Contents) : c.slots.findSome? Slot.fault? = c.fault? := by
  cases c with
  | items slots => rfl
  | entries es =>
    rw [slots, List.findSome?_map, fault?]
    exact congrArg (List.findSome? · es) (funext fault?_entrySlot)

theorem length_slots (c : Contents) : c.slots.length = c.places.length := by
  cases c <;> simp [slots, places]

/-- Where all names can leave the engine, the places are all that is read. -/
theorem slots_eq_places {c : Contents} (hnames : ∀ name ∈ c.names, Heap.nameFault? name = none) :
    c.slots = c.places := by
  cases c with
  | items slots => rfl
  | entries slots =>
    refine List.map_congr_left fun e he => ?_
    rw [entrySlot, hnames e.1 (List.mem_map.2 ⟨e, he, rfl⟩)]

theorem nameFault?_of_fault? {c : Contents} (hc : c.fault? = none) :
    ∀ name ∈ c.names, Heap.nameFault? name = none := by
  cases c with
  | items slots => simp [names]
  | entries slots =>
    intro name hname
    obtain ⟨e, he, rfl⟩ := List.mem_map.1 hname
    exact (Option.or_eq_none_iff.1 (List.findSome?_eq_none_iff.1 hc e he)).1

end Contents

namespace Heap

variable {h : Heap}

theorem look_eq_error_iff {x : EngineValue} {e : EngineError} :
    h.look x = .error e ↔ x.fault? = some e := by
  cases x with
  | ref id =>
    rw [look]
    split <;> simp [EngineValue.fault?]
  | text t =>
    rw [look, EngineValue.fault?]
    cases t.decode <;> simp
  | _ => simp [look, EngineValue.fault?]

theorem fault?_of_look {x : EngineValue} {s : Sight} (hx : h.look x = .ok s) : x.fault? = none := by
  refine Option.eq_none_iff_forall_ne_some.2 fun e he => ?_
  cases hx.symm.trans (look_eq_error_iff.2 he)

/-! ## Contents without levels -/

/-- A value with a fault is copied nowhere. -/
theorem copyWithin_of_fault? {x : EngineValue} {e : EngineError} (hx : x.fault? = some e)
    (levels : Nat) (path : List Nat) (budget : Nat) :
    h.copyWithin levels path budget x = .error e := by
  rw [copyWithin, look_eq_error_iff.2 hx]

/-- Where no more levels are copied, all others are copied shallow. -/
theorem copyWithin_zero {x : EngineValue} (hx : x.fault? = none) (path : List Nat)
    (budget : Nat) : h.copyWithin 0 path budget x = .ok (h.copyShallow x, budget) := by
  rw [copyWithin, copyShallow]
  rcases hlook : h.look x with e | ⟨v | id⟩
  · rw [look_eq_error_iff.1 hlook] at hx
    cases hx
  · rfl
  · rfl

/-- The first fault ends the copying. -/
theorem copyItems_of_fault? {slots : List Slot} {e : EngineError}
    (hslots : slots.findSome? Slot.fault? = some e) (path : List Nat) (budget : Nat) :
    copyItems (h.copyWithin 0 path) budget slots = .error e := by
  induction slots with
  | nil => cases hslots
  | cons slot slots ih =>
    rw [copyItems_cons]
    rw [List.findSome?_cons] at hslots
    cases slot with
    | throwing e' =>
      cases hslots
      rfl
    | value x =>
      rw [copySlot]
      cases hx : x.fault? with
      | some e' =>
        obtain rfl : e' = e := by simpa [Slot.fault?, hx] using hslots
        rw [copyWithin_of_fault? hx]
        rfl
      | none =>
        rw [copyWithin_zero hx]
        simp only [Except.bind, ih (by simpa [Slot.fault?, hx] using hslots), Except.map]

/-- Without faults there is a shallow copy for each value, however many they are. -/
theorem copyItems_values {xs : List EngineValue} (hxs : ∀ y ∈ xs, y.fault? = none)
    (path : List Nat) (budget : Nat) :
    copyItems (h.copyWithin 0 path) budget (xs.map .value) =
      .ok (xs.map h.copyShallow, budget) := by
  induction xs with
  | nil => rfl
  | cons x xs ih =>
    rw [List.forall_mem_cons] at hxs
    rw [List.map_cons, copyItems_cons, copySlot, copyWithin_zero hxs.1]
    simp only [Except.bind, ih hxs.2, Except.map, List.map_cons]

/-! ## The outermost value -/

theorem levels_of_ne_transparent {mode : ConversionMode} (hmode : mode ≠ .transparent) :
    levels mode = 1 := by
  cases mode with
  | transparent => exact absurd rfl hmode
  | _ => rfl

/-- What is no container is copied the same in every mode. -/
theorem copyOut_of_not_isContainer {x : EngineValue} (hx : ∀ id, x = .ref id → ¬ h.IsContainer id)
    (mode : ConversionMode) :
    h.copyOut mode x = x.fault?.elim (.ok (h.copyShallow x)) .error := by
  rw [copyOut, copyWithin, copyShallow]
  rcases hlook : h.look x with e | ⟨v | id⟩
  · rw [look_eq_error_iff.1 hlook]
    rfl
  · rw [fault?_of_look hlook]
    rfl
  · obtain ⟨hid, hcontainer⟩ := look_eq_container_iff.1 hlook
    exact absurd hcontainer (hx id hid)

/-- A container is copied from its contents, with one level less. -/
theorem copyOut_of_isContainer {id n : Nat} {mode : ConversionMode} (hid : h.IsContainer id)
    (hlevels : levels mode = n + 1) :
    h.copyOut mode (.ref id) =
      (copyItems (h.copyWithin n [id]) (maxContainers - 1) (h.contents id).slots).map fun r =>
        (h.contents id).assemble objectOf r.1 := by
  have hbudget : maxContainers ≠ 0 := by decide
  rw [copyOut, hlevels, copyWithin_opened (look_eq_container_iff.2 ⟨rfl, hid⟩) hbudget (by simp)]
  cases copyItems (h.copyWithin n [id]) (maxContainers - 1) (h.contents id).slots <;> rfl

/-- A container without faults in it holds shallow copies. -/
theorem copyOut_of_values {id : Nat} {mode : ConversionMode} (hmode : mode ≠ .transparent)
    (hid : h.IsContainer id) {xs : List EngineValue}
    (hslots : (h.contents id).slots = xs.map .value) (hxs : ∀ y ∈ xs, y.fault? = none) :
    h.copyOut mode (.ref id) = .ok ((h.contents id).assemble objectOf (xs.map h.copyShallow)) := by
  rw [copyOut_of_isContainer hid (levels_of_ne_transparent hmode), hslots, copyItems_values hxs]
  rfl

/-- A container with a fault in it is not copied. -/
theorem copyOut_of_contents_fault? {id : Nat} {mode : ConversionMode}
    (hmode : mode ≠ .transparent) (hid : h.IsContainer id) {e : EngineError}
    (he : (h.contents id).fault? = some e) : h.copyOut mode (.ref id) = .error e := by
  rw [← Contents.findSome?_slots] at he
  rw [copyOut_of_isContainer hid (levels_of_ne_transparent hmode), copyItems_of_fault? he]
  rfl

/-- **Copies under the restricted modes and shallow copies agree.** What is no container is copied
as its shallow copy, and fails to be copied exactly if it has a fault. A container is copied exactly
if its names can all leave the engine and its places all give values without faults, however many
they are, and then it is assembled of the shallow copies of these; else the first fault, of a name
or of a place, is the error. What is assembled has all copies in order, each under its own name,
exactly if the names are kept.

Shallow copies exist for all values. That of a text with a fault is sealed under the name of its
type, and that of a container tells no more than whether it is an array. -/
theorem copyOut_of_restricted (h : Heap) {mode : ConversionMode} (hmode : mode ≠ .transparent) :
    (∀ x, (∀ id, x = .ref id → ¬ h.IsContainer id) →
      (∀ v, h.copyOut mode x = .ok v ↔ x.fault? = none ∧ v = h.copyShallow x) ∧
      ∀ e, h.copyOut mode x = .error e ↔ x.fault? = some e) ∧
    (∀ id, h.IsContainer id →
      (∀ v, h.copyOut mode (.ref id) = .ok v ↔
        (∀ name ∈ (h.contents id).names, nameFault? name = none) ∧ ∃ xs : List EngineValue,
        (h.contents id).places = xs.map .value ∧ (∀ y ∈ xs, y.fault? = none) ∧
        v = (h.contents id).assemble objectOf (xs.map h.copyShallow)) ∧
      (∀ e, h.copyOut mode (.ref id) = .error e ↔ (h.contents id).fault? = some e) ∧
      ∀ vs, vs.length = (h.contents id).places.length →
        ((h.contents id).assemble objectOf vs = (h.contents id).assemble .object vs ↔
          (h.contents id).KeepsNames)) ∧
    (∀ t e, (EngineValue.text t).fault? = some e → h.copyShallow (.text t) = .sealed "string") ∧
    ∀ id, h.IsContainer id →
      ((∃ items length, (h.node id).kind = .array items length) →
        h.copyShallow (.ref id) = .sealed "Array") ∧
      ((¬ ∃ items length, (h.node id).kind = .array items length) →
        h.copyShallow (.ref id) = .sealed "Object") := by
  refine ⟨fun x hx => ?_, fun id hid => ⟨fun v => ?_, fun e => ?_, fun vs hvs => ?_⟩,
    fun t e ht => ?_, fun id hid => ?_⟩
  · rw [copyOut_of_not_isContainer hx]
    cases x.fault? <;> simp [eq_comm]
  · constructor
    · intro hv
      cases hfault : (h.contents id).fault? with
      | some e => cases hv.symm.trans (copyOut_of_contents_fault? hmode hid hfault)
      | none =>
        have hnames := Contents.nameFault?_of_fault? hfault
        rw [← Contents.findSome?_slots] at hfault
        obtain ⟨xs, hvalues, hxs⟩ := Slot.exists_values hfault
        have hcopy := copyOut_of_values hmode hid hvalues hxs
        exact ⟨hnames, xs, Contents.slots_eq_places hnames ▸ hvalues, hxs,
          Except.ok.inj (hv.symm.trans hcopy)⟩
    · rintro ⟨hnames, xs, hvalues, hxs, rfl⟩
      rw [← Contents.slots_eq_places hnames] at hvalues
      exact copyOut_of_values hmode hid hvalues hxs
  · constructor
    · intro he
      cases hfault : (h.contents id).fault? with
      | some e' =>
        have hcopy := copyOut_of_contents_fault? hmode hid hfault
        rw [Except.error.inj (he.symm.trans hcopy)]
      | none =>
        rw [← Contents.findSome?_slots] at hfault
        obtain ⟨xs, hvalues, hxs⟩ := Slot.exists_values hfault
        cases he.symm.trans (copyOut_of_values hmode hid hvalues hxs)
    · exact copyOut_of_contents_fault? hmode hid
  · rw [← Contents.length_slots] at hvs
    rw [Contents.assemble_eq_assemble_iff hvs hvs, and_iff_left rfl]
  · rw [copyShallow, look_eq_error_iff.2 ht]
    rfl
  · rw [copyShallow, look_eq_container_iff.2 ⟨rfl, hid⟩]
    simp only [asSealed]
    constructor
    · rintro ⟨items, length, hkind⟩
      rw [hkind]
    · intro hkind
      split
      · rename_i items length heq
        exact absurd ⟨items, length, heq⟩ hkind
      · rfl

end Heap

namespace Looped

open Heap in
/-- An object that holds a number, itself and a list with itself in it, the list, an object of
which one property cannot leave the engine and another throws, and one where it is the name of a
property that cannot leave. -/
def heap : Heap :=
  ⟨#[{ props := [("n", .plain (.int 1)), ("self", .plain (made 0)), ("list", .plain (made 1))] },
    { kind := .ofValues [made 0, .null] },
    { props := [("n", .plain (.int 1)), ("half", .plain (.text [.char 'é', .lone 0xD800])),
        ("thrown", { content := .accessor (.throwing .null) })] },
    { props := [("n", .plain (.int 1)),
        ([.lone 0xDC00, .char 'a'], { content := .accessor (.throwing .null) })] }]⟩

end Looped

namespace Heap

open Looped in
/-- An object is copied with its number and with shallow copies of itself and of its list, an
object with two faults fails with the first, and a name that cannot leave fails before what is under
it is read. -/
theorem copyOut_of_restricted_looped :
    ConversionMode.blockOnly ≠ .transparent ∧
    heap.copyOut .blockOnly (made 0) =
      .ok (.object [("n", .int 1), ("self", .sealed "Object"), ("list", .sealed "Array")]) ∧
    heap.copyOut .blockOnly (made 2) = .error (.invalidText 2) ∧
    heap.copyOut .blockOnly (made 3) = .error (.invalidText 0) := by
  have hmode : ConversionMode.blockOnly ≠ .transparent := by decide
  obtain ⟨-, hcontainer, -⟩ := copyOut_of_restricted heap hmode
  refine ⟨hmode, ?_, ?_, ?_⟩
  · have hnames : (heap.contents Standard.count).names =
        (["n", "self", "list"] : List String).map EngineText.ofString := by cbv
    refine ((hcontainer Standard.count trivial).1 _).2
      ⟨?_, [.int 1, made 0, made 1], by cbv, ?_, by cbv⟩
    · simp [hnames]
    · simp [EngineValue.fault?, made]
  · exact ((hcontainer (Standard.count + 2) trivial).2.1 _).2 (by cbv)
  · exact ((hcontainer (Standard.count + 3) trivial).2.1 _).2 (by cbv)

/-- A property is lost of an object whose names are the same up to their null characters: the copy
has one entry, where there are two shallow copies. -/
theorem copyOut_merges_properties :
    let h : Heap :=
      ⟨#[{ props := [("a\x00b", .plain (.int 1)), ("a\x00c", .plain (.int 2))] }]⟩
    (h.contents Standard.count).places = [.value (.int 1), .value (.int 2)] ∧
    h.copyOut .allowOnly (made 0) = .ok (.object [("a", .int 2)]) ∧
    h.copyOut .allowOnly (made 0) ≠
      .ok ((h.contents Standard.count).assemble .object
        [h.copyShallow (.int 1), h.copyShallow (.int 2)]) := by
  intro h
  have hcopy : h.copyOut .allowOnly (made 0) = .ok (.object [("a", .int 2)]) := by cbv
  have hwhole : (h.contents Standard.count).assemble .object
      [h.copyShallow (.int 1), h.copyShallow (.int 2)] =
        .object [("a\x00b", .int 1), ("a\x00c", .int 2)] := by cbv
  refine ⟨by cbv, hcopy, ?_⟩
  rw [hcopy, hwhole]
  simp

end Heap

/-! ## Sealing what is inside -/

namespace Record

variable {α β : Type}

theorem map_put (f : α → β) (r : Record α) (name : String) (a : α) :
    (r.put name a).map (fun e => (e.1, f e.2)) =
      put (r.map fun e => (e.1, f e.2)) name (f a) := by
  induction r with
  | nil => rfl
  | cons e r ih =>
    obtain ⟨k, b⟩ := e
    by_cases hk : k = name <;> simp [put, hk, ih]

/-- A record of changed values is the record of the values, changed. -/
theorem ofList_map (f : α → β) (l : List (String × α)) :
    ofList (l.map fun e => (e.1, f e.2)) = (ofList l).map fun e => (e.1, f e.2) := by
  induction l using List.reverseRecOn with
  | nil => rfl
  | append_singleton l e ih =>
    obtain ⟨name, a⟩ := e
    rw [List.map_append, List.map_singleton, ofList_concat, ofList_concat, ih, map_put]

end Record

namespace Value

/-- The value with every container sealed that lies directly in it. -/
def sealInside : Value → Value
  | array items => array (items.map sealContainer)
  | object entries => object (entries.map fun e => (e.1, e.2.sealContainer))
  | v => v

theorem sealContainer_of_depth {v : Value} (hv : v.depth = 0) : v.sealContainer = v := by
  cases v <;> simp [depth] at hv <;> rfl

theorem sealInside_of_depth {v : Value} (hv : v.depth = 0) : v.sealInside = v := by
  cases v <;> simp [depth] at hv <;> rfl

end Value

/-- Sealing what is assembled is assembling what is sealed. -/
theorem Contents.assemble_sealContainer (c : Contents) (vs : List Value) :
    c.assemble Heap.objectOf (vs.map Value.sealContainer) =
      (c.assemble Heap.objectOf vs).sealInside := by
  cases c with
  | items slots => rfl
  | entries slots =>
    rw [assemble, assemble, Heap.objectOf, Heap.objectOf, Value.sealInside, ← Record.ofList_map,
      List.zip_map_right, List.map_map, List.map_map]
    rfl

namespace Heap

variable {h : Heap}

theorem sealContainer_assemble (id : Nat) (vs : List Value) :
    ((h.contents id).assemble objectOf vs).sealContainer = h.asSealed id := by
  rw [contents, asSealed]
  split <;> rfl

theorem depth_copyShallow (h : Heap) (x : EngineValue) : (h.copyShallow x).depth = 0 := by
  rw [copyShallow]
  rcases hlook : h.look x with e | ⟨v | id⟩
  · rfl
  · exact depth_of_look hlook
  · exact (h.asSealed_size id).2

/-- **One value.** However deep it is copied, sealing its copy gives the shallow one. -/
theorem sealContainer_of_copyWithin {levels budget left : Nat} {path : List Nat} {x : EngineValue}
    {v : Value} (hv : h.copyWithin levels path budget x = .ok (v, left)) :
    x.fault? = none ∧ v.sealContainer = h.copyShallow x := by
  rcases hlook : h.look x with e | ⟨u | id⟩
  · rw [copyWithin, hlook] at hv
    cases hv
  · refine ⟨fault?_of_look hlook, ?_⟩
    rw [copyWithin_leaf hlook] at hv
    cases hv
    rw [copyShallow, hlook]
    exact Value.sealContainer_of_depth (depth_of_look hlook)
  · refine ⟨fault?_of_look hlook, ?_⟩
    rw [copyShallow, hlook]
    by_cases hsealed : levels = 0 ∨ budget = 0 ∨ id ∈ path
    · rw [copyWithin_sealed hlook hsealed] at hv
      cases hv
      exact Value.sealContainer_of_depth (h.asSealed_size id).2
    · simp only [not_or] at hsealed
      obtain ⟨n, rfl⟩ := Nat.exists_eq_succ_of_ne_zero hsealed.1
      rw [copyWithin_opened hlook hsealed.2.1 hsealed.2.2] at hv
      cases hinside : copyItems (h.copyWithin n (id :: path)) (budget - 1)
          (h.contents id).slots with
      | error e => simp [hinside, Except.map] at hv
      | ok r =>
        simp only [hinside, Except.map, Except.ok.injEq, Prod.mk.injEq] at hv
        rw [← hv.1]
        exact sealContainer_assemble id r.1

/-- **Values one after the other.** However deep they are copied and whatever is left for the later
ones, sealing their copies gives the shallow ones. -/
theorem exists_values_of_copyItems {levels budget left : Nat} {path : List Nat} {slots : List Slot}
    {vs : List Value}
    (hvs : copyItems (h.copyWithin levels path) budget slots = .ok (vs, left)) :
    ∃ xs : List EngineValue, slots = xs.map .value ∧ (∀ y ∈ xs, y.fault? = none) ∧
      vs.map Value.sealContainer = xs.map h.copyShallow := by
  induction slots generalizing budget left vs with
  | nil =>
    cases hvs
    exact ⟨[], rfl, by simp, rfl⟩
  | cons slot slots ih =>
    rw [copyItems_cons] at hvs
    cases slot with
    | throwing e => cases hvs
    | value x =>
      rw [copySlot] at hvs
      rcases hx : h.copyWithin levels path budget x with e | ⟨v, rest⟩
      · rw [hx] at hvs
        cases hvs
      · rcases hrest : copyItems (h.copyWithin levels path) rest slots with e | ⟨us, left'⟩
        · simp [hx, hrest, Except.bind, Except.map] at hvs
        · obtain ⟨hfault, hsealed⟩ := sealContainer_of_copyWithin hx
          obtain ⟨xs, rfl, hxs, hmap⟩ := ih hrest
          simp only [hx, hrest, Except.bind, Except.map, Except.ok.injEq, Prod.mk.injEq] at hvs
          refine ⟨x :: xs, rfl, List.forall_mem_cons.2 ⟨hfault, hxs⟩, ?_⟩
          rw [← hvs.1, List.map_cons, List.map_cons, hsealed, hmap]

/-- A copy of any number of levels, with what is inside sealed, is the copy of one level. -/
theorem copyOut_eq_sealInside {mode mode' : ConversionMode} (hmode : mode ≠ .transparent)
    {x : EngineValue} {v : Value} (hv : h.copyOut mode' x = .ok v) :
    h.copyOut mode x = .ok v.sealInside := by
  by_cases hx : ∃ id, x = .ref id ∧ h.IsContainer id
  · obtain ⟨id, rfl, hid⟩ := hx
    obtain ⟨n, hlevels⟩ : ∃ n, levels mode' = n + 1 := by cases mode' <;> exact ⟨_, rfl⟩
    rw [copyOut_of_isContainer hid hlevels] at hv
    rcases hslots : copyItems (h.copyWithin n [id]) (maxContainers - 1) (h.contents id).slots with
      e | ⟨vs, left⟩
    · simp [hslots, Except.map] at hv
    · simp only [hslots, Except.map, Except.ok.injEq] at hv
      obtain ⟨xs, hvalues, hxs, hmap⟩ := exists_values_of_copyItems hslots
      rw [copyOut_of_values hmode hid hvalues hxs, ← hmap, Contents.assemble_sealContainer, hv]
  · have hnot : ∀ id, x = .ref id → ¬ h.IsContainer id := fun id hid hc => hx ⟨id, hid, hc⟩
    rw [copyOut_of_not_isContainer hnot] at hv ⊢
    cases hfault : x.fault? with
    | some e =>
      rw [hfault] at hv
      cases hv
    | none =>
      rw [hfault] at hv
      cases hv
      rw [Value.sealInside_of_depth (h.depth_copyShallow x)]
      rfl

/-- **Restricted copies are transparent ones of one level.** Where a transparent copy succeeds,
whatever containers it sealed for their depth, their number or a cycle, the copy under either
restricted mode is the same value with every container sealed that lies inside the outermost one.
The two restricted modes copy every value alike, also where they fail. -/
theorem copyOut_sealInside (h : Heap) (x : EngineValue) :
    (∀ v, h.copyOut .transparent x = .ok v →
      h.copyOut .allowOnly x = .ok v.sealInside ∧ h.copyOut .blockOnly x = .ok v.sealInside) ∧
    h.copyOut .allowOnly x = h.copyOut .blockOnly x := by
  refine ⟨fun v hv => ⟨?_, ?_⟩, rfl⟩
  · exact copyOut_eq_sealInside (by decide) hv
  · exact copyOut_eq_sealInside (by decide) hv

open Looped in
/-- In the transparent copy of an object that holds itself, it is sealed for the cycle, and its list
is opened; in the other copy both are sealed. -/
theorem copyOut_sealInside_looped :
    heap.copyOut .transparent (made 0) =
      .ok (.object [("n", .int 1), ("self", .sealed "Object"),
        ("list", .array [.sealed "Object", .null])]) ∧
    heap.copyOut .allowOnly (made 0) =
      .ok (.object [("n", .int 1), ("self", .sealed "Object"), ("list", .sealed "Array")]) := by
  have hcopy : heap.copyOut .transparent (made 0) =
      .ok (.object [("n", .int 1), ("self", .sealed "Object"),
        ("list", .array [.sealed "Object", .null])]) := by cbv
  exact ⟨hcopy, ((copyOut_sealInside heap (made 0)).1 _ hcopy).1⟩

end Heap

end HostBridge
