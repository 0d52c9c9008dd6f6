import Mathlib.Data.Finmap
import HostBridge.Binding.Cache
import HostBridge.Host.Types

/-!
# The cache as a partial map

A cache keeps slots, and a build that fails leaves an empty one behind. None of that shows: to every
sequence of calls a cache gives the replies that a finite partial map from classes to published
bindings gives. The empty slots are what the relation `Represents` forgets. It holds of a cache and
the map that answers like it, one call keeps it (`Represents.handle`), and so does every run
(`Represents.serve`).

What a cache promises its callers (`KeepsPublished`) is then proved of the map, where each call is
a lookup, an insertion or an erasure. `Cache.serve_empty_keepsPublished` states all of it for the
cache after every history of calls.
-/

namespace HostBridge

namespace Cache

variable {κ : Type} [HostTypes κ]

/-! ## Calls and replies -/

/-- A call on a cache. -/
inductive Request (κ : Type) [HostTypes κ] where
  | get (c : κ)
  | publish (c : κ) (build : Unit → Except RegistryError (Binding κ) × List Event)
  | bind (c : κ) (declaration : List (BuildStep κ)) (proxyMode : ProxyMode)
      (strategy : Strategy κ) (policy : CollisionPolicy)
  | evict (c : κ)
  | size
  | isEmpty

/-- The class that a call is about. -/
def Request.class? : Request κ → Option κ
  | .get c | .publish c _ | .bind c _ _ _ _ | .evict c => some c
  | .size | .isEmpty => none

/-- What a call gives back. -/
inductive Reply (κ : Type) [HostTypes κ] where
  | entry (p : Option (Published κ))
  | answer (result : Except RegistryError (Published κ)) (built : Bool) (events : List Event)
  | count (n : Nat)
  | verdict (b : Bool)

/-- The published binding that a reply hands out. -/
def Reply.published? : Reply κ → Option (Published κ)
  | .entry p => p
  | .answer (.ok p) _ _ => some p
  | _ => none

variable [DecidableEq κ]

/-- Take one call. -/
def handle (cache : Cache κ) : Request κ → Reply κ × Cache κ
  | .get c => (.entry (cache.get? c), cache)
  | .publish c build =>
    let a := cache.getOrPublish c build
    (.answer a.result a.built a.events, a.cache)
  | .bind c declaration proxyMode strategy policy =>
    let a := cache.bind c declaration proxyMode strategy policy
    (.answer a.result a.built a.events, a.cache)
  | .evict c => (.entry (cache.evict c).1, (cache.evict c).2)
  | .size => (.count cache.size, cache)
  | .isEmpty => (.verdict cache.isEmpty, cache)

/-- Take calls one after the other. -/
def serve (cache : Cache κ) : List (Request κ) → List (Reply κ) × Cache κ
  | [] => ([], cache)
  | r :: rest =>
    let (reply, cache') := cache.handle r
    let (replies, last) := cache'.serve rest
    (reply :: replies, last)

/-- Two caches that no sequence of calls can tell apart. -/
def Alike (cache cache' : Cache κ) : Prop :=
  ∀ later, (cache.serve later).1 = (cache'.serve later).1

end Cache

/-! ## The partial map -/

/-- Published bindings by class, and how many were published so far. -/
structure PublishedMap (κ : Type) [HostTypes κ] where
  entries : Finmap fun _ : κ => Published κ := ∅
  issued : Nat := 0

namespace PublishedMap

open Cache (Request Reply)

variable {κ : Type} [HostTypes κ] [DecidableEq κ]

/-- The entry of a class, inserted if there is none and the build succeeds. -/
def publish (m : PublishedMap κ) (c : κ)
    (build : Unit → Except RegistryError (Binding κ) × List Event) : Reply κ × PublishedMap κ :=
  match m.entries.lookup c with
  | some p => (.answer (.ok p) false [], m)
  | none =>
    match build () with
    | (.error e, events) => (.answer (.error e) true events, m)
    | (.ok b, events) =>
      (.answer (.ok ⟨m.issued, b⟩) true (events ++ [Cache.publishEvent c]),
        ⟨m.entries.insert c ⟨m.issued, b⟩, m.issued + 1⟩)

/-- Take one call. -/
def handle (m : PublishedMap κ) : Request κ → Reply κ × PublishedMap κ
  | .get c => (.entry (m.entries.lookup c), m)
  | .publish c build => m.publish c build
  | .bind c declaration proxyMode strategy policy =>
    m.publish c fun _ => Cache.build c declaration proxyMode strategy policy
  | .evict c => (.entry (m.entries.lookup c), { m with entries := m.entries.erase c })
  | .size => (.count m.entries.keys.card, m)
  | .isEmpty => (.verdict (decide (m.entries.keys.card = 0)), m)

/-- Take calls one after the other. -/
def serve (m : PublishedMap κ) : List (Request κ) → List (Reply κ) × PublishedMap κ
  | [] => ([], m)
  | r :: rest =>
    let (reply, m') := m.handle r
    let (replies, last) := m'.serve rest
    (reply :: replies, last)

@[simp]
theorem serve_nil (m : PublishedMap κ) : m.serve [] = ([], m) := rfl

@[simp]
theorem serve_cons (m : PublishedMap κ) (r : Request κ) (rest : List (Request κ)) :
    m.serve (r :: rest) =
      ((m.handle r).1 :: ((m.handle r).2.serve rest).1, ((m.handle r).2.serve rest).2) := rfl

/-! ### What publishing does -/

variable {m : PublishedMap κ} {c : κ} {p : Published κ}
  {build : Unit → Except RegistryError (Binding κ) × List Event}

theorem publish_of_lookup_eq_some (h : m.entries.lookup c = some p) :
    m.publish c build = (.answer (.ok p) false [], m) := by
  unfold publish
  rw [h]

theorem publish_of_error {e : RegistryError} {events : List Event}
    (h : m.entries.lookup c = none) (hbuild : build () = (.error e, events)) :
    m.publish c build = (.answer (.error e) true events, m) := by
  unfold publish
  rw [h, hbuild]

theorem publish_of_ok {b : Binding κ} {events : List Event}
    (h : m.entries.lookup c = none) (hbuild : build () = (.ok b, events)) :
    m.publish c build = (.answer (.ok ⟨m.issued, b⟩) true (events ++ [Cache.publishEvent c]),
      ⟨m.entries.insert c ⟨m.issued, b⟩, m.issued + 1⟩) := by
  unfold publish
  rw [h, hbuild]

/-- Publishing returns the entry there is, or fails and changes nothing, or inserts an entry where
there was none. -/
theorem publish_cases (m : PublishedMap κ) (c : κ)
    (build : Unit → Except RegistryError (Binding κ) × List Event) :
    (∃ p, m.entries.lookup c = some p ∧ m.publish c build = (.answer (.ok p) false [], m)) ∨
    (∃ e events, m.publish c build = (.answer (.error e) true events, m)) ∨
    ∃ b events, m.entries.lookup c = none ∧
      m.publish c build = (.answer (.ok ⟨m.issued, b⟩) true events,
        ⟨m.entries.insert c ⟨m.issued, b⟩, m.issued + 1⟩) := by
  cases h : m.entries.lookup c with
  | some p => exact .inl ⟨p, rfl, publish_of_lookup_eq_some h⟩
  | none =>
    rcases hbuild : build () with ⟨result, events⟩
    cases result with
    | error e => exact .inr (.inl ⟨e, events, publish_of_error h hbuild⟩)
    | ok b => exact .inr (.inr ⟨b, _, rfl, publish_of_ok h hbuild⟩)

/-- Publishing for one class leaves the entries of the others. -/
theorem lookup_publish_of_ne {x : κ} (hx : x ≠ c) :
    (m.publish c build).2.entries.lookup x = m.entries.lookup x := by
  obtain ⟨p, -, h⟩ | ⟨e, events, h⟩ | ⟨b, events, -, h⟩ := m.publish_cases c build
  · rw [h]
  · rw [h]
  · rw [h]
    exact Finmap.lookup_insert_of_ne m.entries hx

/-- Publishing leaves an entry that there is. -/
theorem lookup_publish_of_eq_some {x : κ} (h : m.entries.lookup x = some p) :
    (m.publish c build).2.entries.lookup x = some p := by
  by_cases hx : x = c
  · subst hx
    rw [publish_of_lookup_eq_some h]
    exact h
  · rw [lookup_publish_of_ne hx]
    exact h

/-! ### What calls keep -/

/-- A call about another class leaves an entry. -/
theorem lookup_handle_of_ne {r : Request κ} (hr : r.class? ≠ some c) :
    (m.handle r).2.entries.lookup c = m.entries.lookup c := by
  cases r with
  | get x => rfl
  | publish x build => exact lookup_publish_of_ne fun h => hr (congrArg some h.symm)
  | bind x declaration proxyMode strategy policy =>
    exact lookup_publish_of_ne fun h => hr (congrArg some h.symm)
  | evict x => exact Finmap.lookup_erase_ne fun h => hr (congrArg some h.symm)
  | size => rfl
  | isEmpty => rfl

theorem lookup_serve_of_ne {later : List (Request κ)} (h : ∀ r ∈ later, r.class? ≠ some c) :
    (m.serve later).2.entries.lookup c = m.entries.lookup c := by
  induction later generalizing m with
  | nil => rfl
  | cons r rest ih =>
    rw [List.forall_mem_cons] at h
    exact (ih h.2).trans (lookup_handle_of_ne h.1)

/-- Only evicting the class itself removes an entry. -/
theorem lookup_handle_of_eq_some {r : Request κ} (h : m.entries.lookup c = some p)
    (hr : r ≠ .evict c) : (m.handle r).2.entries.lookup c = some p := by
  cases r with
  | get x => exact h
  | publish x build => exact lookup_publish_of_eq_some h
  | bind x declaration proxyMode strategy policy => exact lookup_publish_of_eq_some h
  | evict x =>
    have hx : c ≠ x := by
      intro hcx
      exact hr (congrArg Request.evict hcx.symm)
    exact (Finmap.lookup_erase_ne hx).trans h
  | size => exact h
  | isEmpty => exact h

theorem lookup_serve_of_eq_some {later : List (Request κ)} (h : m.entries.lookup c = some p)
    (hlater : .evict c ∉ later) : (m.serve later).2.entries.lookup c = some p := by
  induction later generalizing m with
  | nil => exact h
  | cons r rest ih =>
    rw [List.mem_cons, not_or] at hlater
    exact ih (lookup_handle_of_eq_some h fun hr => hlater.1 hr.symm) hlater.2

/-! ### Serial numbers -/

/-- Every entry was published before. -/
def Numbered (m : PublishedMap κ) : Prop :=
  ∀ c p, m.entries.lookup c = some p → p.serial < m.issued

theorem Numbered.publish (h : m.Numbered) (c : κ)
    (build : Unit → Except RegistryError (Binding κ) × List Event) :
    (m.publish c build).2.Numbered ∧ m.issued ≤ (m.publish c build).2.issued ∧
      ∀ p ∈ (m.publish c build).1.published?, p.serial < (m.publish c build).2.issued := by
  obtain ⟨q, hq, hpub⟩ | ⟨e, events, hpub⟩ | ⟨b, events, -, hpub⟩ := m.publish_cases c build
  · rw [hpub]
    refine ⟨h, le_rfl, ?_⟩
    rintro p ⟨⟩
    exact h c q hq
  · rw [hpub]
    exact ⟨h, le_rfl, by rintro p ⟨⟩⟩
  · rw [hpub]
    refine ⟨?_, Nat.le_succ _, ?_⟩
    · intro x p hp
      by_cases hx : x = c
      · subst hx
        rw [Finmap.lookup_insert] at hp
        cases hp
        exact Nat.lt_succ_self _
      · rw [Finmap.lookup_insert_of_ne _ hx] at hp
        exact Nat.lt_succ_of_lt (h x p hp)
    · rintro p ⟨⟩
      exact Nat.lt_succ_self _

/-- One call keeps the numbering, and hands out only what was published before its end. -/
theorem Numbered.handle (h : m.Numbered) (r : Request κ) :
    (m.handle r).2.Numbered ∧ m.issued ≤ (m.handle r).2.issued ∧
      ∀ p ∈ (m.handle r).1.published?, p.serial < (m.handle r).2.issued := by
  cases r with
  | get c => exact ⟨h, le_rfl, fun p hp => h c p hp⟩
  | publish c build => exact h.publish c build
  | bind c declaration proxyMode strategy policy => exact h.publish c _
  | evict c =>
    refine ⟨?_, le_rfl, fun p hp => h c p hp⟩
    intro x p hp
    by_cases hx : x = c
    · subst hx
      rw [PublishedMap.handle, Finmap.lookup_erase] at hp
      cases hp
    · exact h x p ((Finmap.lookup_erase_ne hx).symm.trans hp)
  | size => exact ⟨h, le_rfl, by rintro p ⟨⟩⟩
  | isEmpty => exact ⟨h, le_rfl, by rintro p ⟨⟩⟩

theorem Numbered.serve (h : m.Numbered) (requests : List (Request κ)) :
    (m.serve requests).2.Numbered ∧ m.issued ≤ (m.serve requests).2.issued ∧
      ∀ reply ∈ (m.serve requests).1, ∀ p ∈ reply.published?,
        p.serial < (m.serve requests).2.issued := by
  induction requests generalizing m with
  | nil => exact ⟨h, le_rfl, by simp⟩
  | cons r rest ih =>
    obtain ⟨hm, hle, hreply⟩ := h.handle r
    obtain ⟨hlast, hrest, hreplies⟩ := ih hm
    refine ⟨hlast, hle.trans hrest, ?_⟩
    rw [serve_cons, List.forall_mem_cons]
    exact ⟨fun p hp => (hreply p hp).trans_le hrest, hreplies⟩

theorem numbered_empty : ({} : PublishedMap κ).Numbered := by
  intro c p h
  rw [Finmap.lookup_empty] at h
  cases h

end PublishedMap

/-! ## Slots -/

namespace Cache

variable {κ : Type} [HostTypes κ] [DecidableEq κ]

section Slots

variable {slots : List (κ × Option (Published κ))} {c x : κ} {p : Published κ}

theorem slot?_eq_none_iff : slot? slots c = none ↔ c ∉ slots.map Prod.fst := by
  induction slots with
  | nil => simp [slot?]
  | cons e rest ih =>
    by_cases h : e.1 = c
    · simp [slot?, h]
    · simp [slot?, h, ih, Ne.symm h]

/-- With one slot for each class, the slot found is the slot there is. -/
theorem slot?_eq_some_iff (hslots : (slots.map Prod.fst).Nodup) {q : Option (Published κ)} :
    slot? slots c = some q ↔ (c, q) ∈ slots := by
  induction slots with
  | nil => simp [slot?]
  | cons e rest ih =>
    obtain ⟨d, r⟩ := e
    rw [List.map_cons, List.nodup_cons] at hslots
    by_cases h : d = c
    · subst h
      have hd : (d, q) ∉ rest := fun hmem => hslots.1 (List.mem_map.2 ⟨_, hmem, rfl⟩)
      simp [slot?, hd, eq_comm]
    · simp [slot?, h, ih hslots.2, Ne.symm h]

theorem slot?_append_empty (h : slot? slots c = none) :
    slot? (slots ++ [(c, none)]) x = if x = c then some none else slot? slots x := by
  induction slots with
  | nil => simp [slot?, eq_comm]
  | cons e rest ih =>
    by_cases he : e.1 = c
    · simp [slot?, he] at h
    · have hrest : slot? rest c = none := by simpa [slot?, he] using h
      by_cases hx : e.1 = x
      · subst hx
        simp [slot?, he]
      · simp [slot?, hx, ih hrest]

/-- An empty slot counts as none: making one changes no entry. -/
@[simp]
theorem join_slot?_openSlot : (slot? (openSlot slots c) x).join = (slot? slots x).join := by
  unfold openSlot
  cases h : slot? slots c with
  | some q => rfl
  | none =>
    by_cases hx : x = c
    · subst hx
      simp [slot?_append_empty h, h]
    · simp [slot?_append_empty h, hx]

theorem openSlot_of_isSome (h : (slot? slots c).isSome) : openSlot slots c = slots := by
  obtain ⟨q, hq⟩ := Option.isSome_iff_exists.1 h
  unfold openSlot
  rw [hq]

theorem isSome_slot?_openSlot (slots : List (κ × Option (Published κ))) (c : κ) :
    (slot? (openSlot slots c) c).isSome := by
  unfold openSlot
  cases h : slot? slots c with
  | some q => simp [h]
  | none => simp [slot?_append_empty h]

theorem nodup_openSlot (hslots : (slots.map Prod.fst).Nodup) :
    ((openSlot slots c).map Prod.fst).Nodup := by
  unfold openSlot
  cases h : slot? slots c with
  | some q => exact hslots
  | none =>
    rw [List.map_append]
    refine hslots.append (List.nodup_singleton c) ?_
    exact List.disjoint_singleton.2 (slot?_eq_none_iff.1 h)

theorem slot?_fillSlot :
    slot? (fillSlot slots c p) x = (slot? slots x).map fun q => if x = c then some p else q := by
  unfold fillSlot
  induction slots with
  | nil => rfl
  | cons e rest ih =>
    obtain ⟨d, q⟩ := e
    by_cases hd : d = c
    · subst hd
      by_cases hx : d = x
      · simp [slot?, hx]
      · simp [slot?, hx, ih]
    · by_cases hx : d = x
      · subst hx
        simp [slot?, hd]
      · simp [slot?, hd, hx, ih]

/-- Filling a slot changes no class that has a slot. -/
theorem map_fst_fillSlot : (fillSlot slots c p).map Prod.fst = slots.map Prod.fst := by
  unfold fillSlot
  rw [List.map_map]
  refine List.map_congr_left fun e _ => ?_
  by_cases he : e.1 = c <;> simp [he]

theorem slot?_filter_ne :
    slot? (slots.filter fun e => e.1 ≠ c) x = if x = c then none else slot? slots x := by
  induction slots with
  | nil => simp [slot?]
  | cons e rest ih =>
    obtain ⟨d, q⟩ := e
    by_cases hd : d = c
    · subst hd
      rw [List.filter_cons_of_neg (by simp), ih]
      by_cases hx : d = x
      · simp [hx]
      · simp [slot?, hx]
    · rw [List.filter_cons_of_pos (by simpa using hd)]
      by_cases hx : d = x
      · subst hx
        simp [slot?, hd]
      · rw [slot?, if_neg hx, ih, slot?, if_neg hx]

end Slots

/-! ## The map that a cache represents -/

variable {cache : Cache κ} {m : PublishedMap κ} {c : κ} {p : Published κ}
  {build : Unit → Except RegistryError (Binding κ) × List Event}

/-- Making a slot changes no entry of the cache. -/
theorem get?_openSlot (x : κ) :
    ({ cache with slots := openSlot cache.slots c } : Cache κ).get? x = cache.get? x :=
  join_slot?_openSlot

theorem isSome_slot?_of_get? (h : cache.get? c = some p) : (slot? cache.slots c).isSome := by
  unfold get? at h
  cases hslot : slot? cache.slots c with
  | none => simp [hslot] at h
  | some q => rfl

/-- A class with a binding gets it, and the cache stays as it is. -/
theorem getOrPublish_of_get?_eq_some (h : cache.get? c = some p) :
    cache.getOrPublish c build = ⟨.ok p, cache, false, []⟩ := by
  have hopen : openSlot cache.slots c = cache.slots :=
    openSlot_of_isSome (isSome_slot?_of_get? h)
  simp only [getOrPublish, hopen, h]

theorem getOrPublish_of_error {e : RegistryError} {events : List Event}
    (h : cache.get? c = none) (hbuild : build () = (.error e, events)) :
    cache.getOrPublish c build =
      ⟨.error e, { cache with slots := openSlot cache.slots c }, true, events⟩ := by
  simp only [getOrPublish, get?_openSlot, h, hbuild]

theorem getOrPublish_of_ok {b : Binding κ} {events : List Event}
    (h : cache.get? c = none) (hbuild : build () = (.ok b, events)) :
    cache.getOrPublish c build =
      ⟨.ok ⟨cache.issued, b⟩,
        { slots := fillSlot (openSlot cache.slots c) c ⟨cache.issued, b⟩,
          issued := cache.issued + 1 },
        true, events ++ [publishEvent c]⟩ := by
  simp only [getOrPublish, get?_openSlot, h, hbuild]

/-- A cache represents the map of the bindings in its slots. Empty slots do not count. -/
structure Represents (cache : Cache κ) (m : PublishedMap κ) : Prop where
  nodup : (cache.slots.map Prod.fst).Nodup
  get?_eq : ∀ c, cache.get? c = m.entries.lookup c
  issued_eq : cache.issued = m.issued

theorem represents_empty : ({} : Cache κ).Represents {} where
  nodup := List.nodup_nil
  get?_eq c := by
    rw [Finmap.lookup_empty]
    rfl
  issued_eq := rfl

namespace Represents

/-- A filled slot is an entry of the map. -/
theorem mem_keys_iff (h : cache.Represents m) :
    c ∈ m.entries.keys ↔ ∃ p, (c, some p) ∈ cache.slots := by
  have hget : ∀ p, cache.get? c = some p ↔ (c, some p) ∈ cache.slots := by
    intro p
    rw [get?, Option.join_eq_some_iff]
    exact slot?_eq_some_iff h.nodup
  rw [Finmap.mem_keys, Finmap.mem_iff]
  simp only [← h.get?_eq, hget]

/-- The filled slots are as many as the entries. -/
theorem size_eq (h : cache.Represents m) : cache.size = m.entries.keys.card := by
  let filled := cache.slots.filter fun e => e.2.isSome
  have hnodup : (filled.map Prod.fst).Nodup := h.nodup.sublist (List.filter_sublist.map _)
  have hkeys : (filled.map Prod.fst).toFinset = m.entries.keys := by
    ext c
    rw [List.mem_toFinset, h.mem_keys_iff]
    constructor
    · intro hc
      obtain ⟨⟨d, q⟩, hmem, rfl⟩ := List.mem_map.1 hc
      obtain ⟨hslot, hq⟩ := List.mem_filter.1 hmem
      obtain ⟨p, rfl⟩ := Option.isSome_iff_exists.1 hq
      exact ⟨p, hslot⟩
    · rintro ⟨p, hp⟩
      exact List.mem_map.2 ⟨(c, some p), List.mem_filter.2 ⟨hp, rfl⟩, rfl⟩
  calc cache.size = filled.length := List.countP_eq_length_filter
    _ = (filled.map Prod.fst).length := (List.length_map _).symm
    _ = (filled.map Prod.fst).toFinset.card := (List.toFinset_card_of_nodup hnodup).symm
    _ = m.entries.keys.card := by rw [hkeys]

/-- The empty slot that a failed build leaves behind is forgotten. -/
theorem openSlot (h : cache.Represents m) (c : κ) :
    ({ cache with slots := Cache.openSlot cache.slots c } : Cache κ).Represents m where
  nodup := nodup_openSlot h.nodup
  get?_eq x := (get?_openSlot x).trans (h.get?_eq x)
  issued_eq := h.issued_eq

theorem fillSlot (h : cache.Represents m) (c : κ) (b : Binding κ) :
    ({ slots := Cache.fillSlot (Cache.openSlot cache.slots c) c ⟨cache.issued, b⟩,
       issued := cache.issued + 1 } : Cache κ).Represents
      ⟨m.entries.insert c ⟨m.issued, b⟩, m.issued + 1⟩ where
  nodup := by
    rw [map_fst_fillSlot]
    exact nodup_openSlot h.nodup
  get?_eq x := by
    rw [get?, slot?_fillSlot]
    by_cases hx : x = c
    · subst hx
      obtain ⟨q, hq⟩ := Option.isSome_iff_exists.1 (isSome_slot?_openSlot cache.slots x)
      rw [hq, Finmap.lookup_insert, h.issued_eq]
      simp
    · rw [Finmap.lookup_insert_of_ne _ hx, ← h.get?_eq]
      simp [hx, get?]
  issued_eq := congrArg (· + 1) h.issued_eq

theorem evict (h : cache.Represents m) (c : κ) :
    (cache.evict c).2.Represents { m with entries := m.entries.erase c } where
  nodup := h.nodup.sublist (List.filter_sublist.map _)
  get?_eq x := by
    rw [Cache.evict, get?, slot?_filter_ne]
    by_cases hx : x = c
    · subst hx
      simp [Finmap.lookup_erase]
    · rw [Finmap.lookup_erase_ne hx, ← h.get?_eq]
      simp [hx, get?]
  issued_eq := h.issued_eq

/-- Publishing gives the map's reply and represents the map's outcome. -/
theorem getOrPublish (h : cache.Represents m) (c : κ)
    (build : Unit → Except RegistryError (Binding κ) × List Event) :
    let a := cache.getOrPublish c build
    .answer a.result a.built a.events = (m.publish c build).1 ∧
      a.cache.Represents (m.publish c build).2 := by
  cases hget : cache.get? c with
  | some p =>
    have hlookup : m.entries.lookup c = some p := (h.get?_eq c).symm.trans hget
    rw [getOrPublish_of_get?_eq_some hget, PublishedMap.publish_of_lookup_eq_some hlookup]
    exact ⟨rfl, h⟩
  | none =>
    have hlookup : m.entries.lookup c = none := (h.get?_eq c).symm.trans hget
    rcases hbuild : build () with ⟨result, events⟩
    cases result with
    | error e =>
      rw [getOrPublish_of_error hget hbuild, PublishedMap.publish_of_error hlookup hbuild]
      exact ⟨rfl, h.openSlot c⟩
    | ok b =>
      rw [getOrPublish_of_ok hget hbuild, PublishedMap.publish_of_ok hlookup hbuild]
      refine ⟨?_, h.fillSlot c b⟩
      rw [h.issued_eq]

/-- **One call.** The cache replies as the map does, and represents it again afterwards. -/
theorem handle (h : cache.Represents m) (r : Request κ) :
    (cache.handle r).1 = (m.handle r).1 ∧ (cache.handle r).2.Represents (m.handle r).2 := by
  cases r with
  | get c => exact ⟨congrArg Reply.entry (h.get?_eq c), h⟩
  | publish c build => exact h.getOrPublish c build
  | bind c declaration proxyMode strategy policy => exact h.getOrPublish c _
  | evict c => exact ⟨congrArg Reply.entry (h.get?_eq c), h.evict c⟩
  | size => exact ⟨congrArg Reply.count h.size_eq, h⟩
  | isEmpty =>
    refine ⟨?_, h⟩
    show Reply.verdict (cache.size == 0) = Reply.verdict (decide (m.entries.keys.card = 0))
    rw [h.size_eq]
    rfl

/-- **Every run.** The replies to a sequence of calls are those of the map. -/
theorem serve (h : cache.Represents m) (requests : List (Request κ)) :
    (cache.serve requests).1 = (m.serve requests).1 ∧
      (cache.serve requests).2.Represents (m.serve requests).2 := by
  induction requests generalizing cache m with
  | nil => exact ⟨rfl, h⟩
  | cons r rest ih =>
    obtain ⟨hreply, hnext⟩ := h.handle r
    obtain ⟨hreplies, hlast⟩ := ih hnext
    refine ⟨?_, hlast⟩
    show (cache.handle r).1 :: ((cache.handle r).2.serve rest).1 = _
    rw [hreply, hreplies]
    rfl

/-- Caches that represent one map cannot be told apart. -/
theorem alike {cache' : Cache κ} (h : cache.Represents m) (h' : cache'.Represents m) :
    cache.Alike cache' :=
  fun later => (h.serve later).1.trans (h'.serve later).1.symm

end Represents

/-! ## What a cache promises -/

/-- What a cache promises its callers, where `earlier` are the replies that it gave so far. -/
structure KeepsPublished (cache : Cache κ) (earlier : List (Reply κ)) : Prop where
  /-- A class with a binding gets that very binding. No build has a say in it. -/
  hit : ∀ c p, cache.get? c = some p → ∀ build,
    cache.getOrPublish c build = ⟨.ok p, cache, false, []⟩
  /-- Neither has a declaration, a proxy mode, a strategy or a collision policy. -/
  bind_hit : ∀ c p, cache.get? c = some p → ∀ declaration proxyMode strategy policy,
    cache.bind c declaration proxyMode strategy policy = ⟨.ok p, cache, false, []⟩
  /-- For a class without one the build is run, once. If it fails, its error is the result, no
  sequence of calls can tell the cache from the one before, and a later build may succeed. -/
  failed : ∀ c build e events, cache.get? c = none → build () = (.error e, events) →
    ∃ cache', cache.getOrPublish c build = ⟨.error e, cache', true, events⟩ ∧
      cache'.Alike cache ∧
      ∀ retry b events', retry () = (.ok b, events') →
        (cache'.getOrPublish c retry).result = .ok ⟨cache.issued, b⟩
  /-- If it succeeds, its binding is published under a number of its own, and that is the class's
  binding after any calls but an eviction of the class. -/
  published : ∀ c build b events, cache.get? c = none → build () = (.ok b, events) →
    ∃ cache', cache.getOrPublish c build =
        ⟨.ok ⟨cache.issued, b⟩, cache', true, events ++ [publishEvent c]⟩ ∧
      ∀ later, .evict c ∉ later → (cache'.serve later).2.get? c = some ⟨cache.issued, b⟩
  /-- The number is above all numbers handed out before. -/
  fresh : ∀ reply ∈ earlier, ∀ p ∈ reply.published?, p.serial < cache.issued
  /-- An eviction hands out the binding of the class, which has none afterwards. -/
  evict : ∀ c, (cache.evict c).1 = cache.get? c ∧ (cache.evict c).2.get? c = none
  /-- The size is the number of classes with a binding. -/
  size : ∃ classes : Finset κ, (∀ c, c ∈ classes ↔ ∃ p, cache.get? c = some p) ∧
    cache.size = classes.card ∧ (cache.isEmpty = true ↔ classes = ∅)
  /-- Calls about other classes, which may have the same name, leave the binding of a class. -/
  frame : ∀ c later, (∀ r ∈ later, r.class? ≠ some c) →
    (cache.serve later).2.get? c = cache.get? c

theorem Represents.keepsPublished {earlier : List (Reply κ)} (h : cache.Represents m)
    (hfresh : ∀ reply ∈ earlier, ∀ p ∈ reply.published?, p.serial < cache.issued) :
    cache.KeepsPublished earlier where
  hit c p hget build := getOrPublish_of_get?_eq_some hget
  bind_hit c p hget declaration proxyMode strategy policy := getOrPublish_of_get?_eq_some hget
  failed c build e events hget hbuild := by
    refine ⟨_, getOrPublish_of_error hget hbuild, (h.openSlot c).alike h, ?_⟩
    intro retry b events' hretry
    rw [getOrPublish_of_ok ((get?_openSlot c).trans hget) hretry]
  published c build b events hget hbuild := by
    refine ⟨_, getOrPublish_of_ok hget hbuild, ?_⟩
    intro later hlater
    rw [((h.fillSlot c b).serve later).2.get?_eq, h.issued_eq]
    exact PublishedMap.lookup_serve_of_eq_some (Finmap.lookup_insert m.entries) hlater
  fresh := hfresh
  evict c := by
    refine ⟨rfl, ?_⟩
    rw [(h.evict c).get?_eq]
    exact Finmap.lookup_erase c m.entries
  size := by
    refine ⟨m.entries.keys, ?_, h.size_eq, ?_⟩
    · intro c
      rw [Finmap.mem_keys, Finmap.mem_iff, h.get?_eq]
    · rw [isEmpty, h.size_eq, beq_iff_eq, Finset.card_eq_zero]
  frame c later hlater := by
    rw [(h.serve later).2.get?_eq, h.get?_eq]
    exact PublishedMap.lookup_serve_of_ne hlater

namespace Namesakes

/-- A class named `Point`. -/
def first : HostType := .bag { path := "first::Point", name := "Point" }

/-- Another class of that name. -/
def second : HostType := .bag { path := "second::Point", name := "Point" }

def bare (c : HostType) : Binding HostType where
  policy := .new .objectProxy c (.passThrough _)
  description := (Builder.new c).toDescription

def refusal : RegistryError := .classMismatch "Point" "Point"

/-- A failed and a successful build for one class, one for its namesake, and an eviction. -/
def history : List (Request HostType) :=
  [ .publish first fun _ => (.error refusal, []),
    .publish first fun _ => (.ok (bare first), []),
    .publish second fun _ => (.ok (bare second), []),
    .evict first ]

end Namesakes

/-- **The cache is a partial map.** After every history of calls, over whatever classes and with
whatever builds, a cache has given the replies of a finite partial map from classes to published
bindings, and it keeps to what it promises about the next calls. -/
theorem serve_empty_keepsPublished (history : List (Request κ)) :
    let (replies, cache) := ({} : Cache κ).serve history
    replies = (({} : PublishedMap κ).serve history).1 ∧ cache.KeepsPublished replies := by
  obtain ⟨hreplies, hlast⟩ := represents_empty.serve history
  refine ⟨hreplies, hlast.keepsPublished ?_⟩
  rw [hreplies, hlast.issued_eq]
  exact (PublishedMap.numbered_empty.serve history).2.2

open Namesakes in
/-- After the eviction of its namesake the second class still has the second binding published, and
a build for the first class that fails again shows nowhere. -/
theorem serve_empty_keepsPublished_namesakes :
    let cache := (({} : Cache HostType).serve history).2
    cache.getOrPublish second (fun _ => (.error refusal, [])) =
        ⟨.ok ⟨1, bare second⟩, cache, false, []⟩ ∧
      ∃ cache', cache.getOrPublish first (fun _ => (.error refusal, [])) =
          ⟨.error refusal, cache', true, []⟩ ∧ cache'.Alike cache ∧
        (cache'.getOrPublish first (fun _ => (.ok (bare first), []))).result =
          .ok ⟨2, bare first⟩ := by
  obtain ⟨-, hkeeps⟩ := serve_empty_keepsPublished history
  refine ⟨hkeeps.hit _ _ rfl _, ?_⟩
  obtain ⟨cache', hanswer, halike, hretry⟩ :=
    hkeeps.failed first (fun _ => (.error refusal, [])) _ _ rfl rfl
  exact ⟨cache', hanswer, halike, hretry _ _ _ rfl⟩

end Cache

end HostBridge
