import HostBridge.Proofs.OneLevel
import HostBridge.Proofs.RoundTrip

/-!
# Positions, and what comes back at them

A position in a value is the way to it from container to container: to an item by its index, to an
entry by its name (`Value.at?`). The normal form of a value has at every position the normal form of
what was there, as long as the names on the way are kept (`Value.at?_normal`). A name is kept if it
does not stand for the parent, holds no null character, and is not what is left of another name of
the same object.

A copy is not always of the whole normal form. `Value.Shows` says that one value has what is in
another at the same positions, apart from what lies in containers that are sealed in it, and how far
down these are. A walk within the limits shows what the complete walk gives
(`Walk.Through.shows`): the two meet the same values until a container is sealed, and it is sealed
for its depth, or because the complete walk opens more containers than the limit allows. So whatever
the size of a value and in every mode, copying it in and out again succeeds, and shows its normal
form (`Heap.exists_copyOut_copyIn`).
-/

namespace HostBridge

/-! ## Records of lists -/

namespace Record

variable {α β : Type}

theorem get?_map (f : α → β) (r : Record α) (name : String) :
    get? (r.map fun e => (e.1, f e.2)) name = (get? r name).map f := by
  induction r with
  | nil => rfl
  | cons e r ih =>
    obtain ⟨k, a⟩ := e
    by_cases hk : k = name <;> simp [get?, hk, ih]

/-- Of the entries under a name, the record of a list has the last. -/
theorem get?_ofList (l : List (String × α)) (name : String) :
    get? (ofList l) name = get? l.reverse name := by
  induction l using List.reverseRecOn with
  | nil => rfl
  | append_singleton l e ih =>
    obtain ⟨k, a⟩ := e
    rw [ofList_concat, get?_put, List.reverse_append, List.reverse_singleton,
      List.singleton_append, get?, ih]

theorem mem_of_get?_ofList {l : List (String × α)} {name : String} {a : α}
    (h : get? (ofList l) name = some a) : (name, a) ∈ l := by
  rw [get?_ofList] at h
  exact List.mem_reverse.1 (mem_of_get? h)

theorem get?_ofList_of_mem {l : List (String × α)} {name : String} {a : α} (hmem : (name, a) ∈ l)
    (hsame : ∀ b, (name, b) ∈ l → b = a) : get? (ofList l) name = some a := by
  cases hb : get? (ofList l) name with
  | none =>
    rw [get?_eq_none_iff, keys_ofList, List.mem_eraseDups] at hb
    exact absurd (List.mem_map_of_mem hmem) hb
  | some b => rw [hsame b (mem_of_get?_ofList hb)]

/-- What the record holds under the name comes back from the engine under it, and nothing else
does. -/
def KeepsName (r : Record α) (name : String) : Prop :=
  name ≠ parentName ∧ '\x00' ∉ name.toList ∧
    ∀ other ∈ r.keys, Heap.outerName other = name → other = name

/-- Without null characters only the name of the parent is not kept. -/
theorem keepsName_of_forall {r : Record α} {name : String} (hparent : name ≠ parentName)
    (hname : name ∈ r.keys) (hkeys : ∀ other ∈ r.keys, '\x00' ∉ other.toList) :
    r.KeepsName name := by
  refine ⟨hparent, hkeys name hname, fun other hother houter => ?_⟩
  rwa [(Heap.outerName_eq_self_iff other).2 (hkeys other hother)] at houter

end Record

/-! ## Positions -/

namespace Value

/-- A step into a container. -/
inductive Step where
  | item (index : Nat)
  | entry (name : String)

/-- Where a step leads. -/
def child? : Value → Step → Option Value
  | array items, .item index => items[index]?
  | object entries, .entry name => Record.get? entries name
  | _, _ => none

/-- What is at a position. -/
def at? : Value → List Step → Option Value
  | v, [] => some v
  | v, s :: steps => (v.child? s).bind fun u => u.at? steps

/-- The name that a step goes by is kept. -/
def KeepsStep : Value → Step → Prop
  | object entries, .entry name => Record.KeepsName entries name
  | _, _ => True

/-- The names on the way to a position are kept. -/
def KeepsWay : Value → List Step → Prop
  | _, [] => True
  | v, s :: steps => v.KeepsStep s ∧ ∀ u, v.child? s = some u → u.KeepsWay steps

/-- What holds of all objects in a value holds of those in its parts. -/
theorem forall_objects_child? {P : Record Value → Prop} {v u : Value} {s : Step}
    (hv : ∀ r ∈ v.objects, P r) (hu : v.child? s = some u) : ∀ r ∈ u.objects, P r := by
  unfold child? at hu
  split at hu
  · exact forall_objects_array.1 hv u (List.mem_of_getElem? hu)
  · exact (forall_objects_object.1 hv).2 _ (Record.mem_of_get? hu)
  · cases hu

theorem child?_normal {v u : Value} {s : Step} (hv : ∀ r ∈ v.objects, r.NodupKeys)
    (hs : v.KeepsStep s) (hu : v.child? s = some u) :
    (v.normal Heap.objectOf).child? s = some (u.normal Heap.objectOf) := by
  unfold child? at hu
  split at hu
  · rw [normal_array, child?, List.getElem?_map, hu, Option.map_some]
  · rename_i entries name
    obtain ⟨hparent, hname, hothers⟩ := hs
    have hmem : (name, u) ∈ returned entries := mem_returned.2 ⟨Record.mem_of_get? hu, hparent⟩
    rw [normal_object, Heap.objectOf, child?, List.map_map]
    refine Record.get?_ofList_of_mem (List.mem_map.2 ⟨_, hmem, ?_⟩) fun b hb => ?_
    · simp [(Heap.outerName_eq_self_iff name).2 hname]
    · -- only the entry itself has that name outside
      obtain ⟨⟨other, u'⟩, he, heq⟩ := List.mem_map.1 hb
      obtain ⟨houter, rfl⟩ := Prod.mk.inj heq
      have hentry := (mem_returned.1 he).1
      obtain rfl := hothers other (List.mem_map_of_mem hentry) houter
      have hget := Record.get?_of_mem (forall_objects_object.1 hv).1 hentry
      rw [Option.some.inj (hget.symm.trans hu)]
  · cases hu

/-- **A position of the normal form.** -/
theorem at?_normal {v x : Value} {steps : List Step} (hv : ∀ r ∈ v.objects, r.NodupKeys)
    (hway : v.KeepsWay steps) (hx : v.at? steps = some x) :
    (v.normal Heap.objectOf).at? steps = some (x.normal Heap.objectOf) := by
  induction steps generalizing v with
  | nil =>
    cases hx
    rfl
  | cons s steps ih =>
    obtain ⟨u, hu, hrest⟩ := Option.bind_eq_some_iff.1 hx
    rw [at?, child?_normal hv hway.1 hu, Option.bind_some]
    exact ih (forall_objects_child? hv hu) (hway.2 u hu) hrest

/-! ## Values with sealed parts -/

/-- All that is at positions of `v` and is no container is at the same positions of `u`, unless it
lies in a container that is sealed in `u`, which takes a number of steps for which `far` holds. -/
def Shows (far : ℕ → Prop) (u v : Value) : Prop :=
  ∀ steps x, v.at? steps = some x → x.isContainer = false → u.at? steps = some x ∨
    ∃ before name, before <+: steps ∧ before.length < steps.length ∧
      u.at? before = some (sealed name) ∧ far before.length

section Shows

variable {far : ℕ → Prop} {u v : Value}

theorem shows_refl (far : ℕ → Prop) (v : Value) : Shows far v v := fun _ _ hx _ => .inl hx

/-- What is in a container and is none itself is at least one step away. -/
theorem ne_nil_of_isContainer (hv : v.isContainer = true) {steps : List Step} {x : Value}
    (hx : v.at? steps = some x) (hscalar : x.isContainer = false) : steps ≠ [] := by
  rintro rfl
  obtain rfl := Option.some.inj hx
  rw [hv] at hscalar
  cases hscalar

theorem shows_sealed (hv : v.isContainer = true) (hfar : far 0) (name : String) :
    Shows far (sealed name) v := fun _ _ hx hscalar =>
  .inr ⟨[], name, List.nil_prefix, List.length_pos_of_ne_nil (ne_nil_of_isContainer hv hx hscalar),
    rfl, hfar⟩

/-- A container shows another if its parts do, from which it is one step less to what is sealed. -/
theorem shows_of_child? (hv : v.isContainer = true)
    (hchild : ∀ s x, v.child? s = some x → ∃ y, u.child? s = some y ∧
      Shows (fun n => far (n + 1)) y x) : Shows far u v := by
  intro steps x hx hscalar
  obtain ⟨s, steps, rfl⟩ := List.exists_cons_of_ne_nil (ne_nil_of_isContainer hv hx hscalar)
  obtain ⟨x', hx', hrest⟩ := Option.bind_eq_some_iff.1 hx
  obtain ⟨y, hy, hshows⟩ := hchild s x' hx'
  rcases hshows steps x hrest hscalar with hat | ⟨before, name, hprefix, hlt, hsealed, hfar⟩
  · exact .inl (by rw [at?, hy, Option.bind_some, hat])
  · refine .inr ⟨s :: before, name, List.cons_prefix_cons.2 ⟨rfl, hprefix⟩,
      Nat.succ_lt_succ hlt, ?_, hfar⟩
    rw [at?, hy, Option.bind_some, hsealed]

end Shows

end Value

theorem Contents.isContainer_assemble (c : Contents) (vs : List Value) :
    (c.assemble Heap.objectOf vs).isContainer = true := by
  cases c <;> rfl

/-- What is assembled of values that show others shows what is assembled of these. -/
theorem Contents.shows_assemble (c : Contents) {far : ℕ → Prop} {us vs : List Value}
    (h : List.Forall₂ (Value.Shows fun n => far (n + 1)) us vs) :
    Value.Shows far (c.assemble Heap.objectOf us) (c.assemble Heap.objectOf vs) := by
  obtain ⟨hlength, hshows⟩ := List.forall₂_iff_zip.1 h
  obtain ⟨ps, hps⟩ : ∃ ps, ps = us.zip vs := ⟨_, rfl⟩
  have hus : us = ps.map Prod.fst := by rw [hps, List.map_fst_zip hlength.le]
  have hvs : vs = ps.map Prod.snd := by rw [hps, List.map_snd_zip hlength.ge]
  rw [← hps] at hshows
  subst hus hvs
  cases c with
  | items slots =>
    refine Value.shows_of_child? rfl fun s x hx => ?_
    cases s with
    | entry name => cases hx
    | item index =>
      simp only [assemble, Value.child?, List.getElem?_map, Option.map_eq_some_iff] at hx ⊢
      obtain ⟨p, hp, rfl⟩ := hx
      exact ⟨_, ⟨p, hp, rfl⟩, hshows (List.mem_of_getElem? hp)⟩
  | entries slots =>
    -- both objects have the entries of one record of pairs
    have hobject : ∀ f : Value × Value → Value,
        (entries slots).assemble Heap.objectOf (ps.map f) =
          .object ((Record.ofList ((slots.outside.keys.zip ps).map
            fun e => (Heap.outerName e.1, e.2))).map fun e => (e.1, f e.2)) := fun f => by
      rw [assemble, Heap.objectOf, ← Record.ofList_map, List.zip_map_right, List.map_map,
        List.map_map]
      rfl
    rw [hobject, hobject]
    refine Value.shows_of_child? rfl fun s x hx => ?_
    cases s with
    | item index => cases hx
    | entry name =>
      simp only [Value.child?, Record.get?_map, Option.map_eq_some_iff] at hx ⊢
      obtain ⟨p, hp, rfl⟩ := hx
      obtain ⟨e, he, heq⟩ := List.mem_map.1 (Record.mem_of_get?_ofList hp)
      obtain rfl : e.2 = p := (Prod.mk.inj heq).2
      exact ⟨_, ⟨e.2, hp, rfl⟩, hshows (List.of_mem_zip he).2⟩

/-! ## Walks that end before the tree does -/

namespace Walk.Through

variable {h : Heap} {slots : List Slot} {w : Walk}

/-- **A walk within the limits shows what a complete one gives.** A container is sealed only for its
depth, or because `excess` holds, which has to follow if the complete walk opens more containers
than may be opened. It is never one of those around it, since each of these unfolds into more. -/
theorem shows (hw : Through h slots w) (hc : w.IsComplete) {w' : Walk} (hw' : Through h slots w')
    {path : List Nat} {levels limit : Nat} {excess : Prop}
    (hpath : ∀ id ∈ path, ∀ w'', Through h (h.contents id).slots w'' → w''.IsComplete →
      w.openings.length ≤ w''.openings.length)
    (hlimited : Limited levels limit (w'.visits path))
    (hexcess : limit < w.openings.length → excess) :
    w'.openings.length ≤ w.openings.length ∧
      List.Forall₂ (Value.Shows fun n => levels ≤ path.length + n ∨ excess)
        (w'.values h Heap.objectOf) (w.values h Heap.objectOf) := by
  induction hw generalizing w' path limit with
  | done =>
    cases hw'
    exact ⟨Nat.le_refl _, .nil⟩
  | leaf hx _ ih =>
    cases hw' with
    | leaf hx' hrest =>
      obtain rfl := Sight.leaf.inj (Except.ok.inj (hx.symm.trans hx'))
      obtain ⟨hle, hshows⟩ := ih hc hrest hpath hlimited hexcess
      exact ⟨hle, .cons (Value.shows_refl _ _) hshows⟩
    | sealed hx' => cases hx.symm.trans hx'
    | opened hx' => cases hx.symm.trans hx'
  | sealed => exact hc.elim
  | @opened _ id inside _ rest hx hinside _ ihinside ihrest =>
    simp only [openings, List.length_cons, List.length_append] at hpath hexcess ⊢
    have hid : id ∉ path := fun hmem => by
      have hle := hpath id hmem inside hinside hc.1
      omega
    have hpathRest : ∀ id ∈ path, ∀ w'', Through h (h.contents id).slots w'' → w''.IsComplete →
        rest.openings.length ≤ w''.openings.length := fun id' hid' w'' hw'' hc'' => by
      have hle := hpath id' hid' w'' hw'' hc''
      omega
    -- the complete walk opens the container, the other one seals or opens it
    cases hw' with
    | leaf hx' => cases hx.symm.trans hx'
    | sealed hx' hrest =>
      obtain rfl := Sight.container.inj (Except.ok.inj (hx.symm.trans hx'))
      obtain ⟨hsealed, hlimited⟩ := Limited.cons_iff.1 hlimited
      obtain ⟨hle, hshows⟩ := ihrest hc.2 hrest hpathRest (by simpa using hlimited)
        fun hlt => hexcess (by omega)
      have hfar : levels ≤ path.length + 0 ∨ excess := by
        by_contra hne
        simp only [not_or, not_le] at hne
        have hlimit : 0 < limit := Nat.pos_of_ne_zero fun hzero => hne.2 (hexcess (by omega))
        exact absurd (hsealed.2 ⟨hne.1, hid, hlimit⟩) Bool.false_ne_true
      refine ⟨hle.trans (by omega), .cons ?_ hshows⟩
      rw [Heap.asSealed]
      split <;> exact Value.shows_sealed (Contents.isContainer_assemble _ _) hfar _
    | @opened _ _ inside' _ rest' hx' hinside' hrest =>
      obtain rfl := Sight.container.inj (Except.ok.inj (hx.symm.trans hx'))
      obtain ⟨hopened, hlimited⟩ := Limited.cons_iff.1 hlimited
      obtain ⟨hlimited, hlimited'⟩ := Limited.append_iff.1 hlimited
      simp only [List.countP_singleton, if_true, countP_visits] at hlimited hlimited'
      have hlimit : 0 < limit := (hopened.1 rfl).2.2
      have hpathInside := openings_le_of_mem_cons hinside hc.1 fun id' hid' w'' hw'' hc'' =>
        (by omega : inside.openings.length ≤ _).trans (hpath id' hid' w'' hw'' hc'')
      obtain ⟨hle, hshows⟩ := ihinside hc.1 hinside' hpathInside hlimited
        fun hlt => hexcess (by omega)
      obtain ⟨hle', hshows'⟩ := ihrest hc.2 hrest hpathRest hlimited' fun hlt => hexcess (by omega)
      refine ⟨by simp only [openings, List.length_cons, List.length_append]; omega,
        .cons (Contents.shows_assemble _ ?_) hshows'⟩
      simpa only [List.length_cons, Nat.add_assoc, Nat.add_comm 1] using hshows

/-- Where a complete walk goes, all that is met can be read, so every walk succeeds. -/
theorem exists_eq_ok (hw : Through h slots w) (hc : w.IsComplete) {mode : ConversionMode}
    {path : List Nat} {budget : Nat} {r : Except EngineError (Walk × Nat)}
    (hr : h.Walks mode path budget slots r) : ∃ p, r = .ok p := by
  induction hr generalizing w with
  | done => exact ⟨_, rfl⟩
  | thrown => cases hw
  | unreadable hx =>
    cases hw with
    | leaf hx' | sealed hx' | opened hx' => cases hx.symm.trans hx'
  | leaf hx _ ih =>
    cases hw with
    | leaf _ hrest =>
      obtain ⟨p, rfl⟩ := ih hrest hc
      exact ⟨_, rfl⟩
    | sealed hx' | opened hx' => cases hx.symm.trans hx'
  | sealed hx _ _ ih =>
    cases hw with
    | leaf hx' => cases hx.symm.trans hx'
    | sealed => exact hc.elim
    | opened _ _ hrest =>
      obtain ⟨p, rfl⟩ := ih hrest hc.2
      exact ⟨_, rfl⟩
  | broken hx _ _ ih =>
    cases hw with
    | leaf hx' => cases hx.symm.trans hx'
    | sealed => exact hc.elim
    | opened hx' hinside _ =>
      obtain rfl := Sight.container.inj (Except.ok.inj (hx.symm.trans hx'))
      obtain ⟨p, hp⟩ := ih hinside hc.1
      cases hp
  | opened hx _ _ _ _ ih =>
    cases hw with
    | leaf hx' => cases hx.symm.trans hx'
    | sealed => exact hc.elim
    | opened _ _ hrest =>
      obtain ⟨p, rfl⟩ := ih hrest hc.2
      exact ⟨_, rfl⟩

end Walk.Through

namespace Heap

/-- **Into the engine and back, whatever the size.** The copy in any mode exists, and it shows the
normal form, with a container sealed only where as many steps lead to it as there are levels, unless
the value has more containers than are copied. -/
theorem exists_copyOut_copyIn {v : Value} (hnames : ∀ r ∈ v.objects, r.NodupKeys) (h : Heap)
    (mode : ConversionMode) :
    ∃ u, (h.copyIn v).2.copyOut mode (h.copyIn v).1 = .ok u ∧
      Value.Shows (fun n => levels mode ≤ n ∨ maxContainers < v.containers) u
        (v.normal objectOf) := by
  obtain ⟨w, hw⟩ := (takesIn hnames h).2 _ (.refl _)
  obtain ⟨r, hr⟩ := exists_walks (h.copyIn v).2 mode [] maxContainers [.value (h.copyIn v).1]
  obtain ⟨⟨w', left⟩, rfl⟩ := hw.through.exists_eq_ok hw.isComplete hr
  obtain ⟨hthrough, hlimited, -⟩ := walks_ok_iff.1 hr
  obtain ⟨u, hu⟩ := hthrough.exists_values_eq objectOf
  have hsize : w.openings.length ≤ v.containers := by
    simpa [Value.containersOfItems] using hw.length_le
  obtain ⟨-, hshows⟩ := hw.through.shows hw.isComplete hthrough (by simp) hlimited
    fun hlt => hlt.trans_le hsize
  refine ⟨u, copyOut_eq_ok_iff.2 ⟨w', hthrough, hlimited, hu⟩, ?_⟩
  rw [hu, hw.values_eq] at hshows
  simpa using hshows

end Heap

end HostBridge
