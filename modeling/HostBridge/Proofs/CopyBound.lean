import HostBridge.Proofs.Walk

/-!
# Bounds on copies

A copy holds at most as many containers as the walk that made it opened, and it is nested no deeper
than those were. Since a walk opens containers only within its limits, the copy is within them too,
however large, shared or cyclic the value is that was copied (`Heap.copyOut_bounded`).
-/

namespace HostBridge

/-! ## Sizes of values -/

namespace Value

theorem containersOfEntries_eq (es : List (String × Value)) :
    containersOfEntries es = containersOfItems (es.map (·.2)) := by
  induction es with
  | nil => rfl
  | cons e es ih => rw [containersOfEntries, List.map_cons, containersOfItems, ih]

theorem depthOfEntries_eq (es : List (String × Value)) :
    depthOfEntries es = depthOfItems (es.map (·.2)) := by
  induction es with
  | nil => rfl
  | cons e es ih => rw [depthOfEntries, List.map_cons, depthOfItems, ih]

theorem containersOfEntries_put_le (r : Record Value) (name : String) (v : Value) :
    containersOfEntries (r.put name v) ≤ containersOfEntries r + v.containers := by
  induction r with
  | nil => simp [Record.put, containersOfEntries]
  | cons e r ih =>
    obtain ⟨k, u⟩ := e
    rw [Record.put]
    split <;> simp only [containersOfEntries] <;> omega

theorem depthOfEntries_put_le (r : Record Value) (name : String) (v : Value) :
    depthOfEntries (r.put name v) ≤ max (depthOfEntries r) v.depth := by
  induction r with
  | nil => simp [Record.put, depthOfEntries]
  | cons e r ih =>
    obtain ⟨k, u⟩ := e
    rw [Record.put]
    split <;> simp only [depthOfEntries] <;> omega

theorem size_foldl_put_le (l : List (String × Value)) (r : Record Value) :
    containersOfEntries (l.foldl (fun (r : Record Value) p => r.put p.1 p.2) r) ≤
        containersOfEntries r + containersOfEntries l ∧
      depthOfEntries (l.foldl (fun (r : Record Value) p => r.put p.1 p.2) r) ≤
        max (depthOfEntries r) (depthOfEntries l) := by
  induction l generalizing r with
  | nil => simp [containersOfEntries, depthOfEntries]
  | cons e l ih =>
    obtain ⟨name, v⟩ := e
    have hput := containersOfEntries_put_le r name v
    have hput' := depthOfEntries_put_le r name v
    obtain ⟨hcount, hdepth⟩ := ih (r.put name v)
    simp only [List.foldl_cons, containersOfEntries, depthOfEntries] at *
    omega

/-- A record holds no more than the pairs that it is made of. -/
theorem size_ofList_le (l : List (String × Value)) :
    containersOfEntries (Record.ofList l) ≤ containersOfEntries l ∧
      depthOfEntries (Record.ofList l) ≤ depthOfEntries l := by
  simpa [Record.ofList, containersOfEntries, depthOfEntries] using size_foldl_put_le l []

theorem size_map_zip_le (names : List String) (f : String → String) (vs : List Value) :
    containersOfEntries ((names.zip vs).map fun e => (f e.1, e.2)) ≤ containersOfItems vs ∧
      depthOfEntries ((names.zip vs).map fun e => (f e.1, e.2)) ≤ depthOfItems vs := by
  induction names generalizing vs with
  | nil => simp [containersOfEntries, depthOfEntries]
  | cons name names ih =>
    cases vs with
    | nil => simp [containersOfEntries, depthOfEntries]
    | cons v vs =>
      obtain ⟨hcount, hdepth⟩ := ih vs
      simp only [List.zip_cons_cons, List.map_cons, containersOfEntries, depthOfEntries,
        containersOfItems, depthOfItems]
      omega

theorem containersOfItems_eq_zero {vs : List Value} (h : depthOfItems vs = 0) :
    containersOfItems vs = 0 := by
  induction vs with
  | nil => rfl
  | cons v vs ih =>
    rw [depthOfItems] at h
    have hv : v.containers = 0 := by cases v <;> simp [depth] at h <;> rfl
    rw [containersOfItems, hv, ih (by omega)]

/-- A value with one level of containers is one container at most. -/
theorem containers_le_one {v : Value} (h : v.depth ≤ 1) : v.containers ≤ 1 := by
  cases v with
  | array items =>
    rw [depth] at h
    have hzero : containersOfItems items = 0 := containersOfItems_eq_zero (by omega)
    simp [containers, hzero]
  | object entries =>
    rw [depth, depthOfEntries_eq] at h
    have hzero : containersOfItems (entries.map (·.2)) = 0 := containersOfItems_eq_zero (by omega)
    simp [containers, containersOfEntries_eq, hzero]
  | _ => simp [containers]

end Value

/-- A container is one level and one container more than its contents, at most. -/
theorem Contents.size_assemble_le (c : Contents) (vs : List Value) :
    (c.assemble Heap.objectOf vs).containers ≤ Value.containersOfItems vs + 1 ∧
      (c.assemble Heap.objectOf vs).depth ≤ Value.depthOfItems vs + 1 := by
  cases c with
  | items slots => exact ⟨Nat.le_refl _, Nat.le_refl _⟩
  | entries slots =>
    obtain ⟨hzip, hzip'⟩ := Value.size_map_zip_le slots.outside.keys Heap.outerName vs
    obtain ⟨hlist, hlist'⟩ := Value.size_ofList_le
      ((slots.outside.keys.zip vs).map fun e => (Heap.outerName e.1, e.2))
    rw [Contents.assemble, Heap.objectOf, Value.containers, Value.depth]
    omega

/-! ## Sizes of copies -/

namespace Heap

/-- What is copied without looking inside anything holds no container. -/
theorem depth_of_look {h : Heap} {x : EngineValue} {v : Value} (hx : h.look x = .ok (.leaf v)) :
    v.depth = 0 := by
  cases x with
  | text t =>
    rw [look] at hx
    split at hx <;> cases hx
    rfl
  | ref id =>
    rw [look] at hx
    split at hx <;> cases hx <;> rfl
  | _ => cases hx; rfl

theorem containers_of_look {h : Heap} {x : EngineValue} {v : Value}
    (hx : h.look x = .ok (.leaf v)) : v.containers = 0 := by
  have hdepth := depth_of_look hx
  cases v <;> simp [Value.depth] at hdepth <;> rfl

theorem asSealed_size (h : Heap) (id : Nat) :
    (h.asSealed id).containers = 0 ∧ (h.asSealed id).depth = 0 := by
  rw [asSealed]
  split <;> exact ⟨rfl, rfl⟩

end Heap

namespace Walk

open Value

/-- The copies hold no more containers than the walk opened. -/
theorem Through.containers_values_le {h : Heap} {slots : List Slot} {w : Walk}
    (hw : w.Through h slots) (path : List Nat) :
    containersOfItems (w.values h Heap.objectOf) ≤ (w.visits path).countP (·.opened) := by
  induction hw generalizing path with
  | done => exact Nat.le_refl _
  | leaf hx _ ih =>
    rw [values, visits, containersOfItems, Heap.containers_of_look hx, Nat.zero_add]
    exact ih path
  | @sealed _ id _ _ _ _ ih =>
    simpa [values, visits, containersOfItems, (h.asSealed_size id).1] using ih path
  | @opened _ id inside _ _ _ _ _ ihinside ihrest =>
    have hself := ((h.contents id).size_assemble_le (inside.values h Heap.objectOf)).1
    have hinside := ihinside (id :: path)
    have hrest := ihrest path
    simp only [values, visits, containersOfItems, List.countP_cons, List.countP_append, if_true]
    omega

/-- The copies are nested no deeper than the containers that the walk opened. -/
theorem Through.depth_values_le {h : Heap} {slots : List Slot} {w : Walk} (hw : w.Through h slots)
    {levels : Nat} {path : List Nat}
    (hlevels : ∀ o ∈ w.visits path, o.opened = true → o.enclosing.length < levels) :
    depthOfItems (w.values h Heap.objectOf) ≤ levels - path.length := by
  induction hw generalizing path with
  | done => exact Nat.zero_le _
  | leaf hx _ ih =>
    rw [values, depthOfItems, Heap.depth_of_look hx, Nat.zero_max]
    exact ih hlevels
  | @sealed _ id _ _ _ _ ih =>
    rw [values, depthOfItems, (h.asSealed_size id).2, Nat.zero_max]
    exact ih fun o ho => hlevels o (List.mem_cons_of_mem _ ho)
  | @opened _ id inside _ _ _ _ _ ihinside ihrest =>
    simp only [visits, List.mem_cons, List.mem_append] at hlevels
    have hself := ((h.contents id).size_assemble_le (inside.values h Heap.objectOf)).2
    have hinside := ihinside fun o ho => hlevels o (.inr (.inl ho))
    have hrest := ihrest fun o ho => hlevels o (.inr (.inr ho))
    have hlevel : path.length < levels := hlevels _ (.inl rfl) rfl
    rw [List.length_cons] at hinside
    rw [values, depthOfItems]
    omega

end Walk

namespace Heap

/-- A copy is within the limits of its mode. -/
theorem size_copyOut_le {h : Heap} {mode : ConversionMode} {x : EngineValue} {v : Value}
    (hv : h.copyOut mode x = .ok v) :
    v.containers ≤ maxContainers ∧ v.depth ≤ levels mode := by
  obtain ⟨w, hthrough, hlimited, hvalues⟩ := copyOut_eq_ok_iff.1 hv
  have hcount := hthrough.containers_values_le []
  have hdepth := hthrough.depth_values_le fun o ho hopen => (hlimited.of_mem ho hopen).1
  have hlimit := hlimited.countP_opened_le
  simp only [hvalues, Value.containersOfItems, Value.depthOfItems, List.length_nil] at hcount hdepth
  omega

/-- **Copying out is bounded.** Whatever the containers of a heap hold, a walk through a value comes
to an end, and any such walk gives what copying gives. A copy holds at most 10000 containers, at
most 64 on a path, and under the restricted modes one in all; and no container is opened inside
itself. -/
theorem copyOut_bounded (h : Heap) (mode : ConversionMode) (x : EngineValue) :
    (∃ r, h.Walks mode [] maxContainers [.value x] r) ∧
    (∀ r, h.Walks mode [] maxContainers [.value x] r →
      (h.copyOut mode x).map ([·]) = r.map fun p => p.1.values h objectOf) ∧
    (∀ v, h.copyOut mode x = .ok v →
      v.containers ≤ 10000 ∧ v.depth ≤ 64 ∧ (mode ≠ .transparent → v.containers ≤ 1)) ∧
    ∀ w left, h.Walks mode [] maxContainers [.value x] (.ok (w, left)) →
      ∀ o ∈ w.visits [], o.opened = true → o.id ∉ o.enclosing := by
  refine ⟨exists_walks h mode [] maxContainers _, fun r => copyOut_of_walks, ?_, ?_⟩
  · intro v hv
    obtain ⟨hcount, hdepth⟩ := size_copyOut_le hv
    refine ⟨hcount, ?_, fun hmode => Value.containers_le_one ?_⟩
    · cases mode <;> simp [levels, ConversionMode.convertsNested, maxDepth] at hdepth <;> omega
    · cases mode with
      | transparent => exact absurd rfl hmode
      | _ => exact hdepth
  · intro w left hwalk o ho hopen
    exact ((walks_ok_iff.1 hwalk).2.1.of_mem ho hopen).2

end Heap

end HostBridge
