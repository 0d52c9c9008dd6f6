import HostBridge.Engine.CopyIn
import HostBridge.Proofs.CopyWhole
import HostBridge.Proofs.DoubleInteger

/-!
# Values as the engine gives them back

A value that goes into the engine and comes out again is not always the same value: integers beyond
32 bits have become doubles, whole doubles within 32 bits have become integers, sealed values are
undefined, the entries of objects are in the order of the engine, and the name that stands for the
parent of an object is not among them. `Value.normal` is that form. It is a function of the value
alone, up to how an object is made of its entries, and doing it twice is doing it once
(`Value.normal_normal`).
-/

namespace HostBridge

/-! ## The order of names -/

section KeyOrder

variable {α β κ : Type}

theorem inKeyOrder_perm (index? : κ → Option ℕ) (es : Record α κ) :
    (inKeyOrder index? es).Perm es := by
  have hothers : es.filter (fun e => (index? e.1).isNone) =
      es.filter fun e => !(index? e.1).isSome :=
    List.filter_congr fun e _ => by cases index? e.1 <;> rfl
  rw [inKeyOrder, hothers]
  exact ((List.mergeSort_perm _ _).append_right _).trans (List.filter_append_perm _ es)

/-- The order is one of names only, and of names only by their indexes. -/
theorem inKeyOrder_map {κ' : Type} {index? : κ → Option ℕ} {index'? : κ' → Option ℕ} (g : κ → κ')
    (hindex : ∀ name, index'? (g name) = index? name) (f : α → β) (es : Record α κ) :
    inKeyOrder index'? (es.map fun e => (g e.1, f e.2)) =
      (inKeyOrder index? es).map fun e => (g e.1, f e.2) := by
  simp only [inKeyOrder, List.filter_map, List.map_append, Function.comp_def, hindex]
  congr 1
  symm
  apply List.map_mergeSort
  intro a _ b _
  rw [hindex, hindex]

/-- Array indexes in ascending order and then other names are in order. -/
theorem inKeyOrder_append {index? : κ → Option ℕ} {numbered others : Record α κ}
    (hnumbered : ∀ e ∈ numbered, (index? e.1).isSome = true)
    (hsorted : numbered.Pairwise fun a b => (index? a.1).getD 0 ≤ (index? b.1).getD 0)
    (hothers : ∀ e ∈ others, (index? e.1).isNone = true) :
    inKeyOrder index? (numbered ++ others) = numbered ++ others := by
  have hsome : others.filter (fun e => (index? e.1).isSome) = [] :=
    List.filter_eq_nil_iff.2 fun e he => by simpa using hothers e he
  have hnone : numbered.filter (fun e => (index? e.1).isNone) = [] :=
    List.filter_eq_nil_iff.2 fun e he => by
      simpa [Option.isSome_iff_ne_none] using hnumbered e he
  simp only [inKeyOrder, List.filter_append, hsome, hnone, List.filter_eq_self.2 hnumbered,
    List.filter_eq_self.2 hothers, List.append_nil, List.nil_append]
  rw [List.mergeSort_of_pairwise (by simpa using hsorted)]

theorem inKeyOrder_inKeyOrder (index? : κ → Option ℕ) (es : Record α κ) :
    inKeyOrder index? (inKeyOrder index? es) = inKeyOrder index? es := by
  refine inKeyOrder_append (fun e he => ?_) ?_ fun e he => (List.mem_filter.1 he).2
  · exact (List.mem_filter.1 (List.mem_mergeSort.1 he)).2
  · refine (List.pairwise_mergeSort (fun a b c hab hbc => ?_) (fun a b => ?_) _).imp fun hle => ?_
    · simp only [decide_eq_true_eq] at *
      omega
    · simp only [Bool.or_eq_true, decide_eq_true_eq]
      omega
    · simpa using hle

/-- The entries of an object that come back from the engine, in order: all but the one that sets
the parent. -/
def returned (es : List (String × α)) : List (String × α) :=
  inKeyOrder (fun name => arrayIndex? name) (es.filter fun e => e.1 ≠ parentName)

theorem mem_returned {es : List (String × α)} {e : String × α} :
    e ∈ returned es ↔ e ∈ es ∧ e.1 ≠ parentName := by
  rw [returned, (inKeyOrder_perm _ _).mem_iff, List.mem_filter, decide_eq_true_iff]

theorem returned_map (f : α → β) (es : List (String × α)) :
    returned (es.map fun e => (e.1, f e.2)) = (returned es).map fun e => (e.1, f e.2) := by
  rw [returned, List.filter_map]
  exact inKeyOrder_map id (fun _ => rfl) f _

theorem returned_returned (es : List (String × α)) : returned (returned es) = returned es := by
  have hall : ∀ e ∈ returned es, decide (e.1 ≠ parentName) = true := fun e he =>
    decide_eq_true (mem_returned.1 he).2
  rw [returned, List.filter_eq_self.2 hall]
  exact inKeyOrder_inKeyOrder _ _

theorem map_returned_subperm {γ : Type} (f : String × α → γ) (es : List (String × α)) :
    ((returned es).map f).Subperm (es.map f) :=
  ((inKeyOrder_perm _ _).map f).subperm.trans (List.filter_sublist.map f).subperm

theorem nodupKeys_returned {es : Record α} (h : es.NodupKeys) :
    Record.NodupKeys (returned es) := by
  obtain ⟨names, hperm, hsub⟩ := map_returned_subperm Prod.fst es
  exact hperm.nodup_iff.1 (hsub.nodup h)

end KeyOrder

/-! ## Values and what is in them -/

namespace Value

/-- Induction over a value and what is in it. -/
@[elab_as_elim]
theorem ind {P : Value → Prop} (scalar : ∀ v, v.isContainer = false → P v)
    (array : ∀ items, (∀ v ∈ items, P v) → P (.array items))
    (object : ∀ entries, (∀ e ∈ entries, P e.2) → P (.object entries)) (v : Value) : P v := by
  refine @Value.rec P (fun items => ∀ v ∈ items, P v) (fun entries => ∀ e ∈ entries, P e.2)
    (fun e => P e.2) (scalar _ rfl) (scalar _ rfl) (fun _ => scalar _ rfl)
    (fun _ => scalar _ rfl) (fun _ => scalar _ rfl) (fun _ => scalar _ rfl) array object
    (fun _ => scalar _ rfl) ?_ ?_ ?_ ?_ (fun _ _ h => h) v
  · simp
  · exact fun v vs hv hvs => List.forall_mem_cons.2 ⟨hv, hvs⟩
  · simp
  · exact fun e es he hes => List.forall_mem_cons.2 ⟨he, hes⟩

mutual

/-- The objects in a value, itself included. -/
def objects : Value → List (Record Value)
  | array items => objectsOfItems items
  | object entries => entries :: objectsOfEntries entries
  | _ => []

/-- The objects in the values of a list. -/
def objectsOfItems : List Value → List (Record Value)
  | [] => []
  | v :: vs => objects v ++ objectsOfItems vs

/-- The objects in the values of entries. -/
def objectsOfEntries : List (String × Value) → List (Record Value)
  | [] => []
  | (_, v) :: es => objects v ++ objectsOfEntries es

end

theorem objectsOfItems_eq (vs : List Value) : objectsOfItems vs = vs.flatMap objects := by
  induction vs with
  | nil => rfl
  | cons v vs ih => rw [objectsOfItems, ih, List.flatMap_cons]

theorem objectsOfEntries_eq (es : List (String × Value)) :
    objectsOfEntries es = es.flatMap fun e => e.2.objects := by
  induction es with
  | nil => rfl
  | cons e es ih => rw [objectsOfEntries, ih, List.flatMap_cons]

/-- Something holds of all objects in an array if it does of all in each item. -/
theorem forall_objects_array {P : Record Value → Prop} {items : List Value} :
    (∀ r ∈ (array items).objects, P r) ↔ ∀ v ∈ items, ∀ r ∈ v.objects, P r := by
  simp only [objects, objectsOfItems_eq, List.mem_flatMap]
  exact ⟨fun h v hv r hr => h r ⟨v, hv, hr⟩, fun h r ⟨v, hv, hr⟩ => h v hv r hr⟩

theorem forall_objects_object {P : Record Value → Prop} {entries : Record Value} :
    (∀ r ∈ (object entries).objects, P r) ↔
      P entries ∧ ∀ e ∈ entries, ∀ r ∈ e.2.objects, P r := by
  simp only [objects, objectsOfEntries_eq, List.forall_mem_cons, List.mem_flatMap]
  exact and_congr_right fun _ =>
    ⟨fun h e he r hr => h r ⟨e, he, hr⟩, fun h r ⟨e, he, hr⟩ => h e he r hr⟩

/-! ## The normal form -/

/-- The integer has 32 bits. -/
def FitsInt32 (n : ℤ) : Prop := Int32.minValue.toInt ≤ n ∧ n ≤ Int32.maxValue.toInt

instance (n : ℤ) : Decidable (FitsInt32 n) := inferInstanceAs (Decidable (_ ∧ _))

/-- A double as the engine reads it: a whole number of 32 bits other than negative zero is an
integer. -/
def ofDouble (d : Double) : Value :=
  match d.toInt? with
  | some n => if FitsInt32 n ∧ ¬ (d.isZero ∧ d.isNegative) then int (Int64.ofInt n) else float d
  | none => float d

mutual

/-- A value as it comes back from the engine, with objects made by `make` of their entries. -/
def normal (make : Record Value → Value) : Value → Value
  | undefined | sealed _ => undefined
  | null => null
  | bool b => bool b
  | int i => if FitsInt32 i.toInt then int i else float (Double.ofInt i.toInt)
  | float d => ofDouble d
  | text s => text s
  | array items => array (normalItems make items)
  | object entries => make (returned (normalEntries make entries))

/-- The values of a list as they come back. -/
def normalItems (make : Record Value → Value) : List Value → List Value
  | [] => []
  | v :: vs => normal make v :: normalItems make vs

/-- The values of entries as they come back. -/
def normalEntries (make : Record Value → Value) : List (String × Value) → List (String × Value)
  | [] => []
  | (name, v) :: es => (name, normal make v) :: normalEntries make es

end

theorem normalItems_eq (make : Record Value → Value) (vs : List Value) :
    normalItems make vs = vs.map (normal make) := by
  induction vs with
  | nil => rfl
  | cons v vs ih => rw [normalItems, ih, List.map_cons]

theorem normalEntries_eq (make : Record Value → Value) (es : List (String × Value)) :
    normalEntries make es = es.map fun e => (e.1, e.2.normal make) := by
  induction es with
  | nil => rfl
  | cons e es ih => rw [normalEntries, ih, List.map_cons]

@[simp] theorem normal_array (make : Record Value → Value) (items : List Value) :
    (array items).normal make = array (items.map (normal make)) := by
  rw [normal, normalItems_eq]

@[simp] theorem normal_object (make : Record Value → Value) (entries : Record Value) :
    (object entries).normal make =
      make ((returned entries).map fun e => (e.1, e.2.normal make)) := by
  rw [normal, normalEntries_eq, returned_map]

/-! ## Normal forms are normal -/

theorem fitsInt32_iff {n : ℤ} : FitsInt32 n ↔ -2 ^ 31 ≤ n ∧ n < 2 ^ 31 := by
  have hmin : Int32.minValue.toInt = -2 ^ 31 := by decide
  have hmax : Int32.maxValue.toInt = 2 ^ 31 - 1 := by decide
  rw [FitsInt32, hmin, hmax]
  omega

/-- An integer of more than 32 bits stays a double. -/
theorem ofDouble_ofInt {i : Int64} (h : ¬ FitsInt32 i.toInt) :
    ofDouble (Double.ofInt i.toInt) = float (Double.ofInt i.toInt) := by
  have hle := i.le_toInt
  have hlt := i.toInt_lt
  rw [ofDouble]
  cases hq : (Double.ofInt i.toInt).toInt? with
  | none => rfl
  | some q =>
    suffices hfits : ¬ FitsInt32 q from if_neg fun hq => hfits hq.1
    by_cases hsmall : i.toInt.natAbs ≤ 2 ^ 53
    · rw [Double.toInt?_ofInt hsmall] at hq
      exact Option.some.inj hq ▸ h
    · have hlarge := Double.two_pow_le_natAbs_of_ofInt (by omega) (by omega) hq
      rw [fitsInt32_iff]
      omega

theorem normal_ofDouble (make : Record Value → Value) (d : Double) :
    (ofDouble d).normal make = ofDouble d := by
  have hfloat : ofDouble d = float d → (ofDouble d).normal make = ofDouble d := fun h => by
    rw [h, normal, h]
  cases hn : d.toInt? with
  | none => exact hfloat (by simp [ofDouble, hn])
  | some n =>
    by_cases hfits : FitsInt32 n ∧ ¬ (d.isZero ∧ d.isNegative)
    · have hint : ofDouble d = int (Int64.ofInt n) := by simp only [ofDouble, hn, if_pos hfits]
      obtain ⟨hle, hlt⟩ := fitsInt32_iff.1 hfits.1
      rw [hint, normal, Int64.toInt_ofInt_of_le (by omega) (by omega), if_pos hfits.1]
    · exact hfloat (by simp only [ofDouble, hn, if_neg hfits])

/-- A value that has come back once comes back unchanged. -/
theorem normal_normal (v : Value) : (v.normal object).normal object = v.normal object := by
  induction v using Value.ind with
  | scalar v hv =>
    cases v with
    | int i =>
      rw [normal]
      split
      · rename_i hfits
        rw [normal, if_pos hfits]
      · rename_i hfits
        rw [normal, ofDouble_ofInt hfits]
    | float d => exact normal_ofDouble object d
    | array items => cases hv
    | object entries => cases hv
    | _ => simp [normal]
  | array items ih =>
    simp only [normal_array, List.map_map]
    exact congrArg array (List.map_congr_left ih)
  | object entries ih =>
    rw [normal_object, normal_object, returned_map, returned_returned, List.map_map]
    refine congrArg object (List.map_congr_left fun e he => ?_)
    rw [Function.comp_apply, ih e (mem_returned.1 he).1]

/-! ## Names of normal forms -/

theorem objects_of_scalar {v : Value} (h : v.isContainer = false) : v.objects = [] := by
  cases v with
  | array items => cases h
  | object entries => cases h
  | _ => rfl

theorem isContainer_normal {v : Value} (make : Record Value → Value) (h : v.isContainer = false) :
    (v.normal make).isContainer = false := by
  cases v with
  | array items => cases h
  | object entries => cases h
  | int i =>
    rw [normal]
    split <;> rfl
  | float d =>
    rw [normal, ofDouble]
    split
    · split <;> rfl
    · rfl
  | _ => rfl

/-- The names of each object stay different. -/
theorem nodupKeys_normal {v : Value} (h : ∀ r ∈ v.objects, r.NodupKeys) :
    ∀ r ∈ (v.normal object).objects, r.NodupKeys := by
  induction v using Value.ind with
  | scalar v hv => simp [objects_of_scalar (isContainer_normal object hv)]
  | array items ih =>
    rw [forall_objects_array] at h
    simp only [normal_array, forall_objects_array, List.forall_mem_map]
    exact fun v hv => ih v hv (h v hv)
  | object entries ih =>
    rw [forall_objects_object] at h
    simp only [normal_object, forall_objects_object, List.forall_mem_map]
    refine ⟨?_, fun e he => ih e (mem_returned.1 he).1 (h.2 e (mem_returned.1 he).1)⟩
    rw [Record.NodupKeys, Record.keys_map]
    exact nodupKeys_returned h.1

/-- What the engine gives back has all entries under their own names exactly if the names are
kept. -/
theorem normal_objectOf_eq_iff (v : Value) :
    v.normal Heap.objectOf = v.normal object ↔
      ∀ r ∈ (v.normal object).objects, r.KeepsNames := by
  induction v using Value.ind with
  | scalar v hv =>
    have heq : v.normal Heap.objectOf = v.normal object := by cases v <;> first | rfl | cases hv
    simp [heq, objects_of_scalar (isContainer_normal object hv)]
  | array items ih =>
    simp only [normal_array, forall_objects_array, List.forall_mem_map, array.injEq,
      List.map_inj_left]
    exact forall₂_congr ih
  | object entries ih =>
    have hkeys : ∀ make, Record.keys ((returned entries).map fun e => (e.1, e.2.normal make)) =
        Record.keys (returned entries) := fun make => Record.keys_map _ _
    simp only [normal_object, forall_objects_object, List.forall_mem_map]
    rw [Heap.objectOf_eq_object_iff ((hkeys _).trans (hkeys _).symm)]
    simp only [Record.KeepsNames, Record.NodupKeys, hkeys, List.map_inj_left, Prod.mk.injEq,
      true_and]
    exact and_congr_right fun _ => forall₂_congr fun e he => ih e (mem_returned.1 he).1

end Value

end HostBridge
