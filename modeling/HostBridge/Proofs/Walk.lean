import HostBridge.Engine.CopyOut
import Mathlib.Data.List.Basic

/-!
# Walks through the engine's containers

Copying a value out of the engine is a walk through it, from left to right and into each container
that is opened before going on. A `Walk` is the record of one: what was met, in order, and inside
each opened container what was met there. `Walk.values` is the copy, `Walk.visits` the list of all
containers met, each with those that enclose it, and `Walk.Through` says that the walk leaves
nothing out: it meets every item and every listed property of what it opens.

`Heap.Walks` gives the rules by which a walk goes, with the containers that are being copied and
the number of those that may still be. They have no bound on the recursion other than the limits
on opening a container. Three facts tie them to the rest.

* Every walk comes to an end (`Heap.exists_walks`), whatever the containers hold.
* A walk and `Heap.copyWithin` give the same copies and errors (`Heap.copyItems_of_walks`).
* The walks that succeed are those which open a container exactly if it is within the limits
  (`Heap.walks_ok_iff`, `Limited`).
-/

namespace HostBridge

/-! ## The record of a walk -/

/-- What is met in going through values, one after the other. -/
inductive Walk where
  | done
  /-- A value that is no container. -/
  | leaf (v : Value) (rest : Walk)
  /-- A container that is passed by. -/
  | sealed (id : Nat) (rest : Walk)
  /-- A container that is gone through before the rest. -/
  | opened (id : Nat) (inside rest : Walk)

/-- A container that is met, those that enclose it, from the inside out, and whether it is
opened. -/
structure Visit where
  id : Nat
  enclosing : List Nat
  opened : Bool

namespace Contents

/-- What is read of an entry: what is under its name, if the name can leave the engine. One that
cannot is read as the text that it is, which ends the reading with the fault of the name. -/
def entrySlot (e : EngineText × Slot) : Slot :=
  match Heap.nameFault? e.1 with
  | none => e.2
  | some _ => .value (.text (Heap.seenName e.1))

/-- What is read of the contents, in order. -/
def slots : Contents → List Slot
  | items slots => slots
  | entries slots => slots.map entrySlot

/-- The copy of a container from copies of its contents, with named copies made an object by
`object`. -/
def assemble (object : Record Value → Value) (vs : List Value) : Contents → Value
  | items _ => .array vs
  | entries slots => object (slots.outside.keys.zip vs)

end Contents

namespace Walk

/-- The copies that a walk makes. -/
def values (h : Heap) (object : Record Value → Value) : Walk → List Value
  | done => []
  | leaf v rest => v :: rest.values h object
  | sealed id rest => h.asSealed id :: rest.values h object
  | opened id inside rest =>
    (h.contents id).assemble object (inside.values h object) :: rest.values h object

/-- The containers that a walk meets inside of others, in the order of the walk. -/
def visits (enclosing : List Nat) : Walk → List Visit
  | done => []
  | leaf _ rest => rest.visits enclosing
  | sealed id rest => ⟨id, enclosing, false⟩ :: rest.visits enclosing
  | opened id inside rest =>
    ⟨id, enclosing, true⟩ :: (inside.visits (id :: enclosing) ++ rest.visits enclosing)

/-- The walk goes through all the given places, and through all of each container it opens. -/
inductive Through (h : Heap) : List Slot → Walk → Prop
  | done : Through h [] .done
  | leaf {x v slots rest} : h.look x = .ok (.leaf v) → Through h slots rest →
      Through h (.value x :: slots) (.leaf v rest)
  | sealed {x id slots rest} : h.look x = .ok (.container id) → Through h slots rest →
      Through h (.value x :: slots) (.sealed id rest)
  | opened {x id inside slots rest} : h.look x = .ok (.container id) →
      Through h (h.contents id).slots inside → Through h slots rest →
      Through h (.value x :: slots) (.opened id inside rest)

theorem Through.length_values {h : Heap} {slots : List Slot} {w : Walk} (hw : Through h slots w)
    (object : Record Value → Value) : (w.values h object).length = slots.length := by
  induction hw with
  | done => rfl
  | leaf _ _ ih => simp [values, ih]
  | sealed _ _ ih => simp [values, ih]
  | opened _ _ _ _ ih => simp [values, ih]

theorem Through.exists_values_eq {h : Heap} {slot : Slot} {w : Walk} (hw : Through h [slot] w)
    (object : Record Value → Value) : ∃ v, w.values h object = [v] :=
  List.length_eq_one_iff.1 (hw.length_values object)

end Walk

/-! ## Opening within limits -/

/-- Each container is opened exactly if fewer than `levels` containers enclose it, it is none of
them, and fewer than `limit` were opened before it. -/
def Limited (levels limit : Nat) (visits : List Visit) : Prop :=
  ∀ i o, visits[i]? = some o →
    (o.opened = true ↔ o.enclosing.length < levels ∧ o.id ∉ o.enclosing ∧
      (visits.take i).countP (·.opened) < limit)

namespace Limited

variable {levels limit : Nat} {o : Visit} {visits visits' : List Visit}

theorem nil : Limited levels limit [] := by
  intro i o h
  simp at h

/-- What is opened lowers the limit for all that follows. -/
theorem cons_iff : Limited levels limit (o :: visits) ↔
    (o.opened = true ↔ o.enclosing.length < levels ∧ o.id ∉ o.enclosing ∧ 0 < limit) ∧
      Limited levels (limit - [o].countP (·.opened)) visits := by
  have hshift : ∀ i, ((o :: visits).take (i + 1)).countP (·.opened) < limit ↔
      (visits.take i).countP (·.opened) < limit - [o].countP (·.opened) := by
    intro i
    rw [List.take_succ_cons, ← List.singleton_append, List.countP_append]
    omega
  constructor
  · intro h
    refine ⟨by simpa using h 0 o rfl, fun i p hp => ?_⟩
    rw [h (i + 1) p hp, hshift]
  · rintro ⟨hhead, htail⟩ i p hp
    cases i with
    | zero =>
      obtain rfl : o = p := by simpa using hp
      simpa using hhead
    | succ i => rw [htail i p hp, hshift]

theorem append_iff : Limited levels limit (visits ++ visits') ↔
    Limited levels limit visits ∧
      Limited levels (limit - visits.countP (·.opened)) visits' := by
  induction visits generalizing limit with
  | nil => simp [nil]
  | cons o visits ih =>
    have hcount : (o :: visits).countP (·.opened) =
        [o].countP (·.opened) + visits.countP (·.opened) := by
      rw [← List.singleton_append, List.countP_append]
    rw [List.cons_append, cons_iff, cons_iff, ih, hcount, Nat.sub_sub, and_assoc]

/-- No more containers are opened than the limit allows. -/
theorem countP_opened_le (h : Limited levels limit visits) :
    visits.countP (·.opened) ≤ limit := by
  induction visits generalizing limit with
  | nil => simp
  | cons o visits ih =>
    obtain ⟨hhead, htail⟩ := cons_iff.1 h
    have hrest := ih htail
    rw [List.countP_cons]
    cases ho : o.opened with
    | false => simpa [ho] using hrest
    | true =>
      have hpos : 0 < limit := (hhead.1 ho).2.2
      simp only [List.countP_singleton, ho, if_true] at hrest ⊢
      omega

theorem of_mem (h : Limited levels limit visits) (ho : o ∈ visits) (hopen : o.opened = true) :
    o.enclosing.length < levels ∧ o.id ∉ o.enclosing := by
  obtain ⟨i, hi⟩ := List.getElem?_of_mem ho
  obtain ⟨hlevel, hid, -⟩ := (h i o hi).1 hopen
  exact ⟨hlevel, hid⟩

end Limited

namespace Heap

/-! ## Containers -/

/-- The object is a container: it is neither a promise nor a function nor an error. -/
def IsContainer (h : Heap) (id : Nat) : Prop :=
  match (h.node id).kind with
  | .promise _ | .function _ | .error => False
  | _ => True

theorem look_eq_container_iff {h : Heap} {x : EngineValue} {id : Nat} :
    h.look x = .ok (.container id) ↔ x = .ref id ∧ h.IsContainer id := by
  cases x with
  | ref id' =>
    rw [look, IsContainer, EngineValue.ref.injEq]
    constructor
    · intro hx
      split at hx <;> cases hx
      refine ⟨rfl, ?_⟩
      split <;> simp_all
    · rintro ⟨rfl, hid⟩
      split <;> simp_all
  | text t =>
    rw [look]
    cases t.decode <;> simp
  | _ => simp [look]

/-! ## The rules of a walk -/

/-- The container is opened: nothing encloses it or the mode goes into containers, it is not too
deep, more containers may be copied, and it is not being copied. -/
def Opens (mode : ConversionMode) (path : List Nat) (budget id : Nat) : Prop :=
  (path = [] ∨ mode.convertsNested = true) ∧ path.length < maxDepth ∧ budget ≠ 0 ∧ id ∉ path

/-- A walk through places one after the other, while the containers of `path` are being copied and
`budget` more may be. It ends with its record and with what is left of the budget, or with the
first error. -/
inductive Walks (h : Heap) (mode : ConversionMode) :
    List Nat → Nat → List Slot → Except EngineError (Walk × Nat) → Prop
  | done {path budget} : Walks h mode path budget [] (.ok (.done, budget))
  | thrown {path budget e slots} : Walks h mode path budget (.throwing e :: slots) (.error .thrown)
  | unreadable {path budget x slots e} : h.look x = .error e →
      Walks h mode path budget (.value x :: slots) (.error e)
  | leaf {path budget x slots v r} : h.look x = .ok (.leaf v) →
      Walks h mode path budget slots r →
      Walks h mode path budget (.value x :: slots) (r.map fun p => (.leaf v p.1, p.2))
  | sealed {path budget x slots id r} : h.look x = .ok (.container id) →
      ¬ Opens mode path budget id → Walks h mode path budget slots r →
      Walks h mode path budget (.value x :: slots) (r.map fun p => (.sealed id p.1, p.2))
  | broken {path budget x slots id e} : h.look x = .ok (.container id) →
      Opens mode path budget id →
      Walks h mode (id :: path) (budget - 1) (h.contents id).slots (.error e) →
      Walks h mode path budget (.value x :: slots) (.error e)
  | opened {path budget x slots id inside left r} : h.look x = .ok (.container id) →
      Opens mode path budget id →
      Walks h mode (id :: path) (budget - 1) (h.contents id).slots (.ok (inside, left)) →
      Walks h mode path left slots r →
      Walks h mode path budget (.value x :: slots) (r.map fun p => (.opened id inside p.1, p.2))

variable {h : Heap} {mode : ConversionMode}

theorem opens_iff {path : List Nat} {budget id : Nat} :
    Opens mode path budget id ↔ path.length < levels mode ∧ 0 < budget ∧ id ∉ path := by
  have hlevels : (path = [] ∨ mode.convertsNested = true) ∧ path.length < maxDepth ↔
      path.length < levels mode := by
    rw [levels]
    cases mode.convertsNested with
    | true => simp
    | false =>
      rw [if_neg Bool.false_ne_true, Nat.lt_one_iff, List.length_eq_zero_iff]
      constructor
      · rintro ⟨hpath | hpath, -⟩
        · exact hpath
        · cases hpath
      · rintro rfl
        exact ⟨.inl rfl, by decide⟩
  rw [Opens, ← and_assoc, hlevels, Nat.pos_iff_ne_zero]

/-- **Every walk comes to an end**: the containers around a place that is being walked through are
different and at most as many as there are levels, so the recursion goes no deeper. -/
theorem exists_walks (h : Heap) (mode : ConversionMode) (path : List Nat) (budget : Nat)
    (slots : List Slot) : ∃ r, h.Walks mode path budget slots r := by
  induction hn : levels mode - path.length using Nat.strongRecOn generalizing path budget slots with
  | ind n ih =>
  induction slots generalizing budget with
  | nil => exact ⟨_, .done⟩
  | cons slot slots ihs =>
    obtain ⟨r, hr⟩ := ihs budget
    cases slot with
    | throwing e => exact ⟨_, .thrown⟩
    | value x =>
      rcases hx : h.look x with e | ⟨v | id⟩
      · exact ⟨_, .unreadable hx⟩
      · exact ⟨_, .leaf hx hr⟩
      · by_cases ho : Opens mode path budget id
        · have hlevel := (opens_iff.1 ho).1
          obtain ⟨r', hr'⟩ := ih (levels mode - (id :: path).length)
            (by rw [List.length_cons]; omega) (id :: path) (budget - 1) (h.contents id).slots rfl
          rcases r' with e | ⟨inside, left⟩
          · exact ⟨_, .broken hx ho hr'⟩
          · obtain ⟨r, hr⟩ := ihs left
            exact ⟨_, .opened hx ho hr' hr⟩
        · exact ⟨_, .sealed hx ho hr⟩

/-! ## Walks and copies -/

theorem copyItems_cons (copy : Nat → EngineValue → Except EngineError (Value × Nat))
    (budget : Nat) (slot : Slot) (slots : List Slot) :
    copyItems copy budget (slot :: slots) = (copySlot copy budget slot).bind fun first =>
      (copyItems copy first.2 slots).map fun rest => (first.1 :: rest.1, rest.2) := by
  rw [copyItems]
  rcases copySlot copy budget slot with e | ⟨v, left⟩
  · rfl
  · simp only [Except.bind]
    cases copyItems copy left slots <;> rfl

/-- A name that cannot leave the engine fails as the text does that is read in its place. -/
theorem look_seenName {name : EngineText} {e : EngineError} (he : nameFault? name = some e) :
    h.look (.text (seenName name)) = .error e := by
  rw [nameFault?] at he
  rw [look]
  cases hdecode : (seenName name).decode with
  | ok s =>
    rw [hdecode] at he
    cases he
  | error offset =>
    rw [hdecode] at he
    cases he
    rfl

theorem copyEntries_eq_copyItems (levels : Nat) (path : List Nat) (budget : Nat)
    (slots : Record Slot EngineText) :
    copyEntries (h.copyWithin levels path) budget slots =
      (copyItems (h.copyWithin levels path) budget (slots.map Contents.entrySlot)).map fun r =>
        (slots.outside.keys.zip r.1, r.2) := by
  induction slots generalizing budget with
  | nil => rfl
  | cons e slots ih =>
    obtain ⟨name, slot⟩ := e
    rw [copyEntries, List.map_cons, copyItems_cons, Contents.entrySlot]
    cases hname : nameFault? name with
    | some e =>
      rw [copySlot, copyWithin, look_seenName hname]
      rfl
    | none =>
      rcases copySlot (h.copyWithin levels path) budget slot with e | ⟨v, left⟩
      · rfl
      · simp only [ih, Except.bind]
        cases copyItems (h.copyWithin levels path) left (slots.map Contents.entrySlot) <;> rfl

theorem copyWithin_leaf {x : EngineValue} {v : Value} {levels budget : Nat} {path : List Nat}
    (hx : h.look x = .ok (.leaf v)) : h.copyWithin levels path budget x = .ok (v, budget) := by
  rw [copyWithin, hx]

theorem copyWithin_sealed {x : EngineValue} {id levels budget : Nat} {path : List Nat}
    (hx : h.look x = .ok (.container id)) (hsealed : levels = 0 ∨ budget = 0 ∨ id ∈ path) :
    h.copyWithin levels path budget x = .ok (h.asSealed id, budget) := by
  rw [copyWithin, hx]
  cases levels with
  | zero => rfl
  | succ levels => exact if_pos (by simpa using hsealed)

theorem copyWithin_opened {x : EngineValue} {id levels budget : Nat} {path : List Nat}
    (hx : h.look x = .ok (.container id)) (hbudget : budget ≠ 0) (hid : id ∉ path) :
    h.copyWithin (levels + 1) path budget x =
      (copyItems (h.copyWithin levels (id :: path)) (budget - 1) (h.contents id).slots).map
        fun r => ((h.contents id).assemble objectOf r.1, r.2) := by
  rw [copyWithin, hx]
  refine (if_neg (by simp [hbudget, hid])).trans ?_
  cases h.contents id with
  | items slots => rfl
  | entries slots =>
    simp only [Contents.slots, Contents.assemble, copyEntries_eq_copyItems]
    cases copyItems (h.copyWithin levels (id :: path)) (budget - 1)
      (slots.map Contents.entrySlot) <;> rfl

/-- A container that is not opened is sealed. -/
theorem copyWithin_of_not_opens {path : List Nat} {budget id : Nat} {x : EngineValue}
    (hx : h.look x = .ok (.container id)) (ho : ¬ Opens mode path budget id) :
    h.copyWithin (levels mode - path.length) path budget x = .ok (h.asSealed id, budget) := by
  refine copyWithin_sealed hx ?_
  by_contra hne
  simp only [not_or] at hne
  exact ho (opens_iff.2 ⟨by omega, by omega, hne.2.2⟩)

/-- What is copied of a container that is opened is what is copied of its contents. -/
theorem copyWithin_of_opens {path : List Nat} {budget id : Nat} {x : EngineValue}
    (hx : h.look x = .ok (.container id)) (ho : Opens mode path budget id) :
    h.copyWithin (levels mode - path.length) path budget x =
      (copyItems (h.copyWithin (levels mode - (id :: path).length) (id :: path)) (budget - 1)
        (h.contents id).slots).map fun r => ((h.contents id).assemble objectOf r.1, r.2) := by
  obtain ⟨hlevel, hbudget, hid⟩ := opens_iff.1 ho
  have hlevels : levels mode - path.length = levels mode - (id :: path).length + 1 := by
    rw [List.length_cons]
    omega
  rw [hlevels]
  exact copyWithin_opened hx (Nat.ne_of_gt hbudget) hid

/-- **A walk and copying agree**, on copies, on errors and on what is left of the budget. -/
theorem copyItems_of_walks {path : List Nat} {budget : Nat} {slots : List Slot}
    {r : Except EngineError (Walk × Nat)} (hr : h.Walks mode path budget slots r) :
    copyItems (h.copyWithin (levels mode - path.length) path) budget slots =
      r.map fun p => (p.1.values h objectOf, p.2) := by
  induction hr with
  | done => rfl
  | thrown => rfl
  | unreadable hx =>
    rw [copyItems_cons, copySlot, copyWithin, hx]
    rfl
  | @leaf _ _ _ _ _ r hx _ ih =>
    rw [copyItems_cons, copySlot, copyWithin_leaf hx]
    simp only [Except.bind, ih]
    cases r <;> rfl
  | @sealed _ _ _ _ _ r hx ho _ ih =>
    rw [copyItems_cons, copySlot, copyWithin_of_not_opens hx ho]
    simp only [Except.bind, ih]
    cases r <;> rfl
  | broken hx ho _ ih =>
    rw [copyItems_cons, copySlot, copyWithin_of_opens hx ho, ih]
    rfl
  | @opened _ _ _ _ _ _ _ r hx ho _ _ ihinside ihrest =>
    rw [copyItems_cons, copySlot, copyWithin_of_opens hx ho, ihinside]
    simp only [Except.map, Except.bind, ihrest]
    cases r <;> rfl

/-- A walk through one value and copying it agree. -/
theorem copyOut_of_walks {x : EngineValue} {r : Except EngineError (Walk × Nat)}
    (hr : h.Walks mode [] maxContainers [.value x] r) :
    (h.copyOut mode x).map ([·]) = r.map fun p => p.1.values h objectOf := by
  have hcopy := copyItems_of_walks hr
  rw [copyItems_cons, copySlot, List.length_nil, Nat.sub_zero] at hcopy
  rw [copyOut]
  cases hx : h.copyWithin (levels mode) [] maxContainers x <;> rw [hx] at hcopy <;>
    cases r <;> simp_all [Except.bind, Except.map, copyItems]

/-! ## Walks that succeed -/

theorem opened_of_walks {path : List Nat} {budget : Nat} {slots : List Slot}
    {r : Except EngineError (Walk × Nat)} (hr : h.Walks mode path budget slots r) :
    ∀ p, r = .ok p → p.1.Through h slots ∧ Limited (levels mode) budget (p.1.visits path) ∧
      p.2 = budget - (p.1.visits path).countP (·.opened) := by
  induction hr with
  | done =>
    rintro p ⟨⟩
    exact ⟨.done, .nil, by simp [Walk.visits]⟩
  | thrown => nofun
  | unreadable => nofun
  | @leaf _ _ _ _ _ r hx _ ih =>
    cases r with
    | error e => nofun
    | ok q =>
      rintro p ⟨⟩
      obtain ⟨hthrough, hlimited, hleft⟩ := ih q rfl
      exact ⟨.leaf hx hthrough, hlimited, hleft⟩
  | @sealed path budget _ _ id r hx ho _ ih =>
    cases r with
    | error e => nofun
    | ok q =>
      rintro p ⟨⟩
      obtain ⟨hthrough, hlimited, hleft⟩ := ih q rfl
      refine ⟨.sealed hx hthrough, Limited.cons_iff.2 ⟨?_, by simpa using hlimited⟩, ?_⟩
      · rw [opens_iff] at ho
        simpa [and_comm] using ho
      · simpa [Walk.visits] using hleft
  | broken => nofun
  | @opened path budget _ _ id inside left r hx ho _ _ ihinside ihrest =>
    cases r with
    | error e => nofun
    | ok q =>
      rintro p ⟨⟩
      obtain ⟨hinside, hlimited, hleft⟩ := ihinside _ rfl
      obtain ⟨hrest, hlimited', hleft'⟩ := ihrest q rfl
      dsimp only at hinside hlimited hleft
      refine ⟨.opened hx hinside hrest, ?_, ?_⟩
      · refine Limited.cons_iff.2 ⟨?_, Limited.append_iff.2 ⟨by simpa using hlimited, ?_⟩⟩
        · rw [opens_iff] at ho
          simpa [and_comm] using ho
        · simpa [hleft] using hlimited'
      · simp [Walk.visits, hleft', hleft]
        omega

theorem walks_of_limited {slots : List Slot} {w : Walk} (hw : w.Through h slots) :
    ∀ path budget, Limited (levels mode) budget (w.visits path) →
      h.Walks mode path budget slots
        (.ok (w, budget - (w.visits path).countP (·.opened))) := by
  induction hw with
  | done => exact fun path budget _ => .done
  | leaf hx _ ih => exact fun path budget hlimited => .leaf hx (ih path budget hlimited)
  | @sealed _ id _ rest hx _ ih =>
    intro path budget hlimited
    obtain ⟨hsealed, hrest⟩ := Limited.cons_iff.1 hlimited
    have ho : ¬ Opens mode path budget id := by
      rw [opens_iff]
      simpa [and_comm] using hsealed
    have hwalk := ih path budget (by simpa using hrest)
    simpa [Walk.visits, Except.map] using Walks.sealed hx ho hwalk
  | @opened _ id inside _ rest hx _ _ ihinside ihrest =>
    intro path budget hlimited
    obtain ⟨hopened, hlimited⟩ := Limited.cons_iff.1 hlimited
    obtain ⟨hinside, hrest⟩ := Limited.append_iff.1 hlimited
    have ho : Opens mode path budget id := by
      rw [opens_iff]
      simpa [and_comm] using hopened
    have hwalk := Walks.opened hx ho (ihinside (id :: path) (budget - 1) (by simpa using hinside))
      (ihrest path _ (by simpa using hrest))
    simpa [Walk.visits, Except.map, Nat.sub_sub, Nat.add_comm, Nat.add_left_comm] using hwalk

/-- **The walks that succeed** go through everything they open, and open a container exactly if it
is within the limits. -/
theorem walks_ok_iff {path : List Nat} {budget left : Nat} {slots : List Slot} {w : Walk} :
    h.Walks mode path budget slots (.ok (w, left)) ↔
      w.Through h slots ∧ Limited (levels mode) budget (w.visits path) ∧
        left = budget - (w.visits path).countP (·.opened) := by
  constructor
  · exact fun hr => opened_of_walks hr _ rfl
  · rintro ⟨hthrough, hlimited, rfl⟩
    exact walks_of_limited hthrough path budget hlimited

/-- **What is copied**, for every mode: the walk through the value that opens containers within the
limits, and no other, makes the copy. -/
theorem copyOut_eq_ok_iff {x : EngineValue} {v : Value} :
    h.copyOut mode x = .ok v ↔ ∃ w : Walk, w.Through h [.value x] ∧
      Limited (levels mode) maxContainers (w.visits []) ∧ w.values h objectOf = [v] := by
  constructor
  · intro hv
    obtain ⟨r, hr⟩ := exists_walks h mode [] maxContainers [.value x]
    have hcopy := copyOut_of_walks hr
    rw [hv] at hcopy
    rcases r with e | ⟨w, left⟩
    · cases hcopy
    · obtain ⟨hthrough, hlimited, -⟩ := walks_ok_iff.1 hr
      exact ⟨w, hthrough, hlimited, (Except.ok.inj hcopy).symm⟩
  · rintro ⟨w, hthrough, hlimited, hv⟩
    have hcopy := copyOut_of_walks (walks_of_limited hthrough [] maxContainers hlimited)
    cases hx : h.copyOut mode x with
    | error e => simp [hx, Except.map] at hcopy
    | ok v' => simpa [hx, hv, Except.map] using hcopy

end Heap

end HostBridge
