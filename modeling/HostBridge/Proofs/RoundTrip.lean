import HostBridge.Proofs.NormalForm

/-!
# Into the engine and back

A value that is copied into the engine becomes a tree of fresh objects there, which later objects
leave as it is (`Heap.Extends`, `Heap.Holds`). Copying it out again walks through that tree, which
is no deeper and no larger than the value, so a value within the limits of copying comes back
complete: it comes back in its normal form (`Heap.copyOut_copyIn`).

The names of objects are again the exception. They are cut at null characters on the way out, so the
value comes back in normal form exactly if there are none in the names that come back.
-/

namespace HostBridge

/-! ## Sizes -/

namespace Value

theorem containersOfItems_append (vs vs' : List Value) :
    containersOfItems (vs ++ vs') = containersOfItems vs + containersOfItems vs' := by
  induction vs with
  | nil => simp [containersOfItems]
  | cons v vs ih => simp only [List.cons_append, containersOfItems, ih, Nat.add_assoc]

theorem depthOfItems_append (vs vs' : List Value) :
    depthOfItems (vs ++ vs') = max (depthOfItems vs) (depthOfItems vs') := by
  induction vs with
  | nil => simp [depthOfItems]
  | cons v vs ih => simp only [List.cons_append, depthOfItems, ih, Nat.max_assoc]

/-- Fewer values, in another order, are no larger. -/
theorem size_le_of_subperm {vs vs' : List Value} (h : vs.Subperm vs') :
    containersOfItems vs ≤ containersOfItems vs' ∧ depthOfItems vs ≤ depthOfItems vs' := by
  obtain ⟨us, hperm, hsub⟩ := h
  have heq : containersOfItems us = containersOfItems vs ∧ depthOfItems us = depthOfItems vs := by
    clear hsub
    induction hperm with
    | nil => exact ⟨rfl, rfl⟩
    | cons v _ ih => simp only [containersOfItems, depthOfItems, ih, and_self]
    | swap v v' vs =>
      simp only [containersOfItems, depthOfItems]
      omega
    | trans _ _ ih ih' => exact ⟨ih.1.trans ih'.1, ih.2.trans ih'.2⟩
  have hle : containersOfItems us ≤ containersOfItems vs' ∧
      depthOfItems us ≤ depthOfItems vs' := by
    clear heq hperm
    induction hsub with
    | slnil => exact ⟨Nat.le_refl _, Nat.le_refl _⟩
    | cons v _ ih =>
      simp only [containersOfItems, depthOfItems]
      omega
    | cons_cons v _ ih =>
      simp only [containersOfItems, depthOfItems]
      omega
  omega

end Value

/-! ## Walks one after the other -/

namespace Walk

/-- One walk and then another. -/
def append : Walk → Walk → Walk
  | done, w => w
  | leaf v rest, w => leaf v (rest.append w)
  | sealed id rest, w => sealed id (rest.append w)
  | opened id inside rest, w => opened id inside (rest.append w)

section Append

variable (w w' : Walk)

theorem isComplete_append : (w.append w').IsComplete ↔ w.IsComplete ∧ w'.IsComplete := by
  induction w with
  | done => simp [append, IsComplete]
  | leaf _ _ ih => exact ih
  | sealed _ _ _ => simp [append, IsComplete]
  | opened _ _ _ _ ih => simp [append, IsComplete, ih, and_assoc]

theorem openings_append : (w.append w').openings = w.openings ++ w'.openings := by
  induction w with
  | done => rfl
  | leaf _ _ ih => exact ih
  | sealed _ _ ih => exact ih
  | opened _ _ _ _ ih => simp [append, openings, ih]

theorem height_append : (w.append w').height = max w.height w'.height := by
  induction w with
  | done => simp [append, height]
  | leaf _ _ ih => exact ih
  | sealed _ _ ih => exact ih
  | opened _ _ _ _ ih => simp only [append, height, ih, Nat.max_assoc]

theorem values_append (h : Heap) (make : Record Value → Value) :
    (w.append w').values h make = w.values h make ++ w'.values h make := by
  induction w with
  | done => rfl
  | leaf _ _ ih => simp [append, values, ih]
  | sealed _ _ ih => simp [append, values, ih]
  | opened _ _ _ _ ih => simp [append, values, ih]

end Append

theorem Through.append {h : Heap} {slots slots' : List Slot} {w w' : Walk}
    (hw : w.Through h slots) (hw' : w'.Through h slots') :
    (w.append w').Through h (slots ++ slots') := by
  induction hw with
  | done => exact hw'
  | leaf hx _ ih => exact .leaf hx ih
  | sealed hx _ ih => exact .sealed hx ih
  | opened hx hinside _ _ ih => exact .opened hx hinside ih

/-- The walk goes through the whole tree into which the places unfold. The tree is no larger than
the given values, and what it gives is these in normal form. -/
structure Unfolds (h : Heap) (slots : List Slot) (vs : List Value) (w : Walk) : Prop where
  through : w.Through h slots
  isComplete : w.IsComplete
  height_le : w.height ≤ Value.depthOfItems vs
  length_le : w.openings.length ≤ Value.containersOfItems vs
  values_eq : ∀ make, w.values h make = vs.map (Value.normal make)

namespace Unfolds

variable {h : Heap} {slots slots' : List Slot} {vs vs' : List Value} {w w' : Walk}

theorem append (hw : Unfolds h slots vs w) (hw' : Unfolds h slots' vs' w') :
    Unfolds h (slots ++ slots') (vs ++ vs') (w.append w') where
  through := hw.through.append hw'.through
  isComplete := (isComplete_append w w').2 ⟨hw.isComplete, hw'.isComplete⟩
  height_le := by
    have hle := hw.height_le
    have hle' := hw'.height_le
    rw [height_append, Value.depthOfItems_append]
    omega
  length_le := by
    have hle := hw.length_le
    have hle' := hw'.length_le
    rw [openings_append, List.length_append, Value.containersOfItems_append]
    omega
  values_eq make := by rw [values_append, hw.values_eq, hw'.values_eq, List.map_append]

/-- A value that is no container. -/
theorem leaf {x : EngineValue} {u v : Value} (hx : h.look x = .ok (.leaf u))
    (hu : ∀ make, v.normal make = u) : Unfolds h [.value x] [v] (.leaf u .done) where
  through := .leaf hx .done
  isComplete := trivial
  height_le := Nat.zero_le _
  length_le := Nat.zero_le _
  values_eq make := by simp [values, hu]

/-- A container, by what it holds. -/
theorem opened {x : EngineValue} {id : Nat} {us : List Value} {v : Value}
    (hx : h.look x = .ok (.container id)) (hw : Unfolds h (h.contents id).slots us w)
    (hdepth : Value.depthOfItems us < v.depth)
    (hcount : Value.containersOfItems us < v.containers)
    (hv : ∀ make, (h.contents id).assemble make (us.map (Value.normal make)) = v.normal make) :
    Unfolds h [.value x] [v] (.opened id w .done) where
  through := .opened hx hw.through .done
  isComplete := ⟨hw.isComplete, trivial⟩
  height_le := by
    have hle := hw.height_le
    simp only [height, Value.depthOfItems]
    omega
  length_le := by
    have hle := hw.length_le
    simp only [openings, Value.containersOfItems, List.length_cons, List.append_nil]
    omega
  values_eq make := by simp [values, hw.values_eq, hv]

end Unfolds

end Walk

namespace Heap

/-! ## Heaps that grow -/

/-- The objects of a heap are also those of another. -/
structure Extends (h h' : Heap) : Prop where
  next_le : h.next ≤ h'.next
  node_eq : ∀ id, id < h.next → h'.node id = h.node id

namespace Extends

theorem refl (h : Heap) : h.Extends h := ⟨Nat.le_refl _, fun _ _ => rfl⟩

theorem trans {h h' h'' : Heap} (he : h.Extends h') (he' : h'.Extends h'') : h.Extends h'' where
  next_le := Nat.le_trans he.next_le he'.next_le
  node_eq id hid := by
    rw [he'.node_eq id (Nat.lt_of_lt_of_le hid he.next_le), he.node_eq id hid]

theorem alloc (h : Heap) (n : Node) : h.Extends (h.alloc n).2 where
  next_le := by
    simp only [Heap.next, Heap.alloc, Array.size_push]
    omega
  node_eq id hid := by
    simp only [Heap.next] at hid
    simp only [Heap.node, Heap.alloc]
    split
    · rfl
    · rw [Array.getD_eq_getD_getElem?, Array.getD_eq_getD_getElem?, Array.getElem?_push,
        if_neg (by omega)]

end Extends

/-- A fresh object is found under its number from then on. -/
theorem node_of_extends_alloc {h h' : Heap} {n : Node} (he : (h.alloc n).2.Extends h') :
    h'.node h.next = n := by
  rw [he.node_eq h.next (by simp [next, alloc])]
  simp [node, alloc, next]

/-- In this heap and in all that extend it, the value unfolds into a tree that gives another value
in normal form. -/
def Holds (h : Heap) (x : EngineValue) (v : Value) : Prop :=
  ∀ h', h.Extends h' → ∃ w : Walk, w.Unfolds h' [.value x] [v]

theorem Holds.mono {h h' : Heap} {x : EngineValue} {v : Value} (hx : h.Holds x v)
    (he : h.Extends h') : h'.Holds x v := fun h'' he' => hx h'' (he.trans he')

theorem holds_of_look {h : Heap} {x : EngineValue} {u v : Value}
    (hx : ∀ h' : Heap, h'.look x = .ok (.leaf u)) (hu : ∀ make, v.normal make = u) :
    h.Holds x v := fun h' _ => ⟨_, .leaf (hx h') hu⟩

/-- Held values unfold one after the other. -/
theorem exists_unfolds {h : Heap} {ps : List (EngineValue × Value)}
    (hps : ∀ p ∈ ps, h.Holds p.1 p.2) :
    ∃ w : Walk, w.Unfolds h (ps.map fun p => .value p.1) (ps.map (·.2)) := by
  induction ps with
  | nil => exact ⟨.done, .done, trivial, Nat.le_refl _, Nat.le_refl _, fun _ => rfl⟩
  | cons p ps ih =>
    obtain ⟨hp, hps⟩ := List.forall_mem_cons.1 hps
    obtain ⟨w, hw⟩ := hp h (.refl h)
    obtain ⟨w', hw'⟩ := ih hps
    exact ⟨w.append w', hw.append hw'⟩

/-- A fresh array of held values is held. -/
theorem holds_allocArray {h : Heap} {ps : List (EngineValue × Value)}
    (hps : ∀ p ∈ ps, h.Holds p.1 p.2) :
    (h.allocArray (ps.map (·.1))).2.Holds (.ref h.next) (.array (ps.map (·.2))) := by
  intro h' he
  have hnode := node_of_extends_alloc he
  have hlook : h'.look (.ref h.next) = .ok (.container h.next) := by
    simp [look, hnode, NodeKind.ofValues]
  have hcontents : h'.contents h.next = .items (ps.map fun p => .value p.1) := by
    simp [contents, hnode, NodeKind.ofValues, Node.items, Property.slot, Property.plain]
  obtain ⟨w, hw⟩ := exists_unfolds fun p hp => (hps p hp).mono ((Extends.alloc h _).trans he)
  have hinside : w.Unfolds h' (h'.contents h.next).slots (ps.map (·.2)) := by
    rw [hcontents]
    exact hw
  refine ⟨_, hinside.opened hlook (Nat.lt_succ_self _) (Nat.lt_succ_self _) fun make => ?_⟩
  rw [hcontents, Value.normal_array]
  rfl

/-- A fresh object whose properties are held is held, in the order of the engine and whatever is
said of its parent. -/
theorem holds_alloc {h : Heap} {n : Node} {ts : Record (EngineValue × Value)}
    {entries : Record Value} (hkind : n.kind = .plain)
    (hprops : n.props = ts.map fun t => (EngineText.ofString t.1, .plain t.2.1))
    (hentries : entries.filter (fun e => e.1 ≠ parentName) = ts.map fun t => (t.1, t.2.2))
    (hts : ∀ t ∈ ts, h.Holds t.2.1 t.2.2) :
    (h.alloc n).2.Holds (.ref h.next) (.object entries) := by
  intro h' he
  have hnode := node_of_extends_alloc he
  have hlook : h'.look (.ref h.next) = .ok (.container h.next) := by
    simp [look, hnode, hkind]
  let sorted := inKeyOrder (fun name : String => arrayIndex? name) ts
  have hreturned : returned entries = sorted.map fun t => (t.1, t.2.2) := by
    rw [returned, hentries]
    exact inKeyOrder_map id (fun _ => rfl) Prod.snd ts
  have hcontents : h'.contents h.next =
      .entries (sorted.map fun t => (EngineText.ofString t.1, .value t.2.1)) := by
    have hlisted : n.props.filter (fun e => e.2.enumerable) = n.props := by
      rw [hprops, List.filter_map]
      exact congrArg _ (List.filter_eq_self.2 fun _ _ => rfl)
    have horder : inKeyOrder arrayIndex? n.props =
        sorted.map fun t => (EngineText.ofString t.1, Property.plain t.2.1) := by
      rw [hprops]
      exact inKeyOrder_map EngineText.ofString (fun _ => rfl)
        (fun p : EngineValue × Value => Property.plain p.1) ts
    simp only [contents, hnode, hkind, Node.listed, NodeKind.listed, hlisted, horder]
    simp [Property.slot, Property.plain]
  have hheld : ∀ p ∈ sorted.map (·.2), h'.Holds p.1 p.2 := by
    intro p hp
    obtain ⟨t, ht, rfl⟩ := List.mem_map.1 hp
    exact (hts t ((inKeyOrder_perm _ ts).mem_iff.1 ht)).mono ((Extends.alloc h n).trans he)
  obtain ⟨w, hw⟩ := exists_unfolds hheld
  -- what is in the object is no larger than its entries
  obtain ⟨hcount, hdepth⟩ :=
    Value.size_le_of_subperm (map_returned_subperm Prod.snd entries)
  rw [hreturned, List.map_map, ← Value.containersOfEntries_eq] at hcount
  rw [hreturned, List.map_map, ← Value.depthOfEntries_eq] at hdepth
  have hinside : w.Unfolds h' (h'.contents h.next).slots (sorted.map (·.2.2)) := by
    rw [hcontents]
    simpa [Contents.slots, Contents.entrySlot, Function.comp_def] using hw
  refine ⟨_, hinside.opened hlook (Nat.lt_succ_of_le hdepth) (Nat.lt_succ_of_le hcount)
    fun make => ?_⟩
  rw [hcontents, Value.normal_object, hreturned]
  simp only [Contents.assemble, Record.outside, Record.keys, List.map_map, List.zip_map',
    Function.comp_def, EngineText.plain_ofString]

/-! ## Copying in -/

/-- Wherever the value is copied in, the heap grows and holds it. -/
def TakesIn (v : Value) : Prop :=
  ∀ h : Heap, h.Extends (h.copyIn v).2 ∧ (h.copyIn v).2.Holds (h.copyIn v).1 v

theorem copyInItems_of_takesIn {vs : List Value} (hvs : ∀ v ∈ vs, TakesIn v) (h : Heap) :
    h.Extends (h.copyInItems vs).2 ∧ ∃ ps : List (EngineValue × Value),
      (h.copyInItems vs).1 = ps.map (·.1) ∧ vs = ps.map (·.2) ∧
        ∀ p ∈ ps, (h.copyInItems vs).2.Holds p.1 p.2 := by
  induction vs generalizing h with
  | nil => exact ⟨.refl h, [], rfl, rfl, by simp⟩
  | cons v vs ih =>
    obtain ⟨hv, hvs⟩ := List.forall_mem_cons.1 hvs
    obtain ⟨he, hx⟩ := hv h
    obtain ⟨he', ps, hfst, hsnd, hps⟩ := ih hvs (h.copyIn v).2
    rw [copyInItems]
    refine ⟨he.trans he', ((h.copyIn v).1, v) :: ps, ?_, ?_, ?_⟩
    · simp [hfst]
    · simp [← hsnd]
    · exact List.forall_mem_cons.2 ⟨hx.mono he', hps⟩

theorem kind_enter (n : Node) (name : String) (x : EngineValue) :
    (enter n name x).kind = n.kind := by
  unfold enter
  split
  · cases x <;> rfl
  · rfl

/-- Entering the parent makes no property. -/
theorem props_enter_parent (n : Node) (x : EngineValue) :
    (enter n parentName x).props = n.props := by
  unfold enter
  rw [if_pos rfl]
  cases x <;> rfl

theorem props_enter {n : Node} {name : String} (hparent : name ≠ parentName)
    (hname : EngineText.ofString name ∉ n.props.keys) (x : EngineValue) :
    (enter n name x).props = n.props ++ [(EngineText.ofString name, .plain x)] := by
  unfold enter
  rw [if_neg hparent]
  exact Record.put_of_not_mem _ _ hname

theorem copyInEntries_of_takesIn {es : Record Value} (hes : ∀ e ∈ es, TakesIn e.2) (h : Heap)
    (n : Node) (hnames : es.keys.Nodup)
    (hnew : ∀ name ∈ es.keys, EngineText.ofString name ∉ n.props.keys) :
    h.Extends (h.copyInEntries n es).2 ∧ (h.copyInEntries n es).1.kind = n.kind ∧
      ∃ ts : Record (EngineValue × Value),
        (h.copyInEntries n es).1.props =
          n.props ++ ts.map (fun t => (EngineText.ofString t.1, .plain t.2.1)) ∧
        es.filter (fun e => e.1 ≠ parentName) = ts.map (fun t => (t.1, t.2.2)) ∧
        ∀ t ∈ ts, (h.copyInEntries n es).2.Holds t.2.1 t.2.2 := by
  induction es generalizing h n with
  | nil => exact ⟨.refl h, rfl, [], by simp [copyInEntries], by simp, by simp⟩
  | cons e es ih =>
    obtain ⟨name, v⟩ := e
    obtain ⟨hname, hnames⟩ := List.nodup_cons.1 (Record.keys_cons _ es ▸ hnames)
    obtain ⟨hfresh, hothers⟩ := List.forall_mem_cons.1 (Record.keys_cons _ es ▸ hnew)
    obtain ⟨he, hx⟩ := hes (name, v) List.mem_cons_self h
    have ih' := ih (fun e he => hes e (List.mem_cons_of_mem _ he)) (h.copyIn v).2
      (enter n name (h.copyIn v).1) hnames
    rw [copyInEntries]
    by_cases hparent : name = parentName
    · subst hparent
      rw [props_enter_parent] at ih'
      obtain ⟨he', hkind, ts, hprops, hkept, hts⟩ := ih' hothers
      refine ⟨he.trans he', hkind.trans (kind_enter ..), ts, hprops, ?_, hts⟩
      rw [List.filter_cons_of_neg (by simp)]
      exact hkept
    · rw [props_enter hparent hfresh] at ih'
      obtain ⟨he', hkind, ts, hprops, hkept, hts⟩ := ih' fun other hother => by
        simp only [Record.keys_concat, List.mem_append, List.mem_singleton, not_or,
          EngineText.ofString_inj]
        exact ⟨hothers other hother, fun heq => hname (heq ▸ hother)⟩
      refine ⟨he.trans he', hkind.trans (kind_enter ..), (name, (h.copyIn v).1, v) :: ts, ?_, ?_,
        List.forall_mem_cons.2 ⟨hx.mono he', hts⟩⟩
      · rw [hprops, List.append_assoc]
        rfl
      · rw [List.filter_cons_of_pos (by simpa using hparent), hkept]
        rfl

theorem toInt64_ofInt {n : ℤ} (hn : Value.FitsInt32 n) :
    (Int32.ofInt n).toInt64 = Int64.ofInt n := by
  obtain ⟨hle, hlt⟩ := Value.fitsInt32_iff.1 hn
  apply Int64.toInt_inj.1
  rw [Int32.toInt_toInt64, Int32.toInt_ofInt_of_le hle hlt,
    Int64.toInt_ofInt_of_le (by omega) (by omega)]

theorem look_ofDouble (h : Heap) (d : Double) :
    h.look (.ofDouble d) = .ok (.leaf (.ofDouble d)) := by
  rw [EngineValue.ofDouble, Value.ofDouble]
  cases d.toInt? with
  | none => rfl
  | some n =>
    have hiff : (-Int.pow 2 31 ≤ n ∧ n < Int.pow 2 31 ∧ ¬ (d.isZero ∧ d.isNegative)) ↔
        Value.FitsInt32 n ∧ ¬ (d.isZero ∧ d.isNegative) := by
      rw [Value.fitsInt32_iff, and_assoc]
      rfl
    by_cases hfits : Value.FitsInt32 n ∧ ¬ (d.isZero ∧ d.isNegative)
    · simp only [if_pos hfits, if_pos (hiff.2 hfits), look, toInt64_ofInt hfits.1]
    · simp only [if_neg hfits, if_neg (hiff.not.2 hfits), look]

theorem look_ofInt64 (h : Heap) (i : Int64) (make : Record Value → Value) :
    h.look (ofInt64 i) = .ok (.leaf ((Value.int i).normal make)) := by
  have hiff : (-Int.pow 2 31 ≤ i.toInt ∧ i.toInt < Int.pow 2 31) ↔ Value.FitsInt32 i.toInt :=
    Value.fitsInt32_iff.symm
  rw [ofInt64, Value.normal]
  by_cases hfits : Value.FitsInt32 i.toInt
  · rw [if_pos (hiff.2 hfits), if_pos hfits, look, toInt64_ofInt hfits, Int64.ofInt_toInt]
  · rw [if_neg (hiff.not.2 hfits), if_neg hfits, look_ofDouble, Value.ofDouble_ofInt hfits]

/-- **A value that is copied in is held**, whatever the heap was. -/
theorem takesIn {v : Value} (hv : ∀ r ∈ v.objects, r.NodupKeys) : TakesIn v := by
  induction v using Value.ind with
  | scalar v hscalar =>
    intro h
    cases v with
    | int i =>
      exact ⟨.refl h, holds_of_look (fun h' => look_ofInt64 h' i .object) fun make => by
        rw [Value.normal, Value.normal]⟩
    | float d =>
      exact ⟨.refl h, holds_of_look (fun h' => look_ofDouble h' d) fun make => by rw [Value.normal]⟩
    | text s =>
      refine ⟨.refl h, holds_of_look (fun h' => ?_) fun make => by rw [Value.normal]⟩
      rw [copyIn, EngineValue.ofString, look, EngineText.decode_ofString]
    | array items => cases hscalar
    | object entries => cases hscalar
    | _ => exact ⟨.refl h, holds_of_look (fun h' => rfl) fun make => by rw [Value.normal]⟩
  | array items ih =>
    rw [Value.forall_objects_array] at hv
    intro h
    obtain ⟨he, ps, hfst, hsnd, hps⟩ :=
      copyInItems_of_takesIn (fun v hmem => ih v hmem (hv v hmem)) h
    have hholds := holds_allocArray hps
    rw [← hfst, ← hsnd] at hholds
    rw [copyIn]
    exact ⟨he.trans (.alloc _ _), hholds⟩
  | object entries ih =>
    rw [Value.forall_objects_object] at hv
    intro h
    obtain ⟨he, hkind, ts, hprops, hkept, hts⟩ := copyInEntries_of_takesIn
      (fun e hmem => ih e hmem (hv.2 e hmem)) h {} hv.1 (by simp)
    rw [copyIn]
    exact ⟨he.trans (.alloc _ _), holds_alloc hkind hprops hkept hts⟩

/-! ## And out again -/

/-- Copy a value in, and what it has become there out again. -/
def roundTrip (h : Heap) (v : Value) : Except EngineError Value :=
  (h.copyIn v).2.copyOut .transparent (h.copyIn v).1

theorem roundTrip_eq {v : Value} (hnames : ∀ r ∈ v.objects, r.NodupKeys) (hdepth : v.depth ≤ 64)
    (hcount : v.containers ≤ 10000) (h : Heap) : h.roundTrip v = .ok (v.normal objectOf) := by
  obtain ⟨w, hw⟩ := (takesIn hnames h).2 _ (.refl _)
  have hheight : w.height ≤ v.depth := by simpa [Value.depthOfItems] using hw.height_le
  have hsize : w.openings.length ≤ v.containers := by
    simpa [Value.containersOfItems] using hw.length_le
  exact copyOut_of_isComplete hw.through hw.isComplete (hheight.trans hdepth)
    (hsize.trans hcount) (hw.values_eq objectOf)

/-- **Into the engine and back.** A value within the limits of copying comes back as its normal form
is, apart from names, which are cut at null characters. So it comes back in normal form exactly if
no name of the normal form has a null character, and from then on it comes back unchanged. -/
theorem copyOut_copyIn {v : Value} (hnames : ∀ r ∈ v.objects, r.NodupKeys)
    (hdepth : v.depth ≤ 64) (hcount : v.containers ≤ 10000) (h : Heap) :
    h.roundTrip v = .ok (v.normal objectOf) ∧
    (h.roundTrip v = .ok (v.normal .object) ↔
      ∀ r ∈ (v.normal .object).objects, ∀ name ∈ r.keys, '\x00' ∉ name.toList) ∧
    (h.roundTrip v = .ok (v.normal .object) →
      ∀ h' : Heap, h'.roundTrip (v.normal .object) = .ok (v.normal .object)) := by
  have htrip := roundTrip_eq hnames hdepth hcount h
  have hnormal := Value.nodupKeys_normal hnames
  have hiff : h.roundTrip v = .ok (v.normal .object) ↔
      ∀ r ∈ (v.normal .object).objects, r.KeepsNames := by
    rw [htrip, Except.ok.injEq, Value.normal_objectOf_eq_iff]
  refine ⟨htrip, hiff.trans (forall₂_congr fun r hr => ?_), fun hsame h' => ?_⟩
  · exact and_iff_right (hnormal r hr)
  · -- what came out is within the limits, and it is a normal form
    obtain ⟨hcount', hdepth'⟩ := size_copyOut_le hsame
    rw [roundTrip_eq hnormal hdepth' hcount' h', Except.ok.injEq]
    refine Eq.trans ?_ (Value.normal_normal v)
    rw [Value.normal_objectOf_eq_iff, Value.normal_normal]
    exact hiff.1 hsame

/-- A value with all that changes on the way: an integer of more than 32 bits, a whole double, a
sealed value, array indexes among the names, and the name of the parent. -/
theorem copyOut_copyIn_nested :
    let v : Value := .object [("b", .array [.int 4294967296, .sealed "Promise"]),
      ("10", .float ⟨0x3ff0000000000000⟩), ("2", .object []), ("__proto__", .null)]
    let u : Value := .object [("2", .object []), ("10", .int 1),
      ("b", .array [.float ⟨0x41f0000000000000⟩, .undefined])]
    (∀ r ∈ v.objects, r.NodupKeys) ∧ v.depth ≤ 64 ∧ v.containers ≤ 10000 ∧
    ({} : Heap).roundTrip v = .ok u ∧ ∀ h' : Heap, h'.roundTrip u = .ok u := by
  intro v u
  have hnames : ∀ r ∈ v.objects, r.NodupKeys := by
    simp [v, Value.objects, Value.objectsOfEntries, Value.objectsOfItems, Record.NodupKeys]
  have hnormal : v.normal .object = u := by
    have hindexes : arrayIndex? "10" = some 10 ∧ arrayIndex? "2" = some 2 ∧
        arrayIndex? "b" = none := by decide +kernel
    have hlarge : (Value.int 4294967296).normal .object = .float ⟨0x41f0000000000000⟩ := by
      have hdouble : Double.ofInt 4294967296 = ⟨0x41f0000000000000⟩ := by decide +kernel
      rw [Value.normal, if_neg (by decide)]
      exact congrArg Value.float hdouble
    have hwhole : (Value.float ⟨0x3ff0000000000000⟩).normal .object = .int 1 := by
      have hone : (Double.mk 0x3ff0000000000000).toInt? = some 1 := by decide +kernel
      simp only [Value.normal, Value.ofDouble, hone]
      exact if_pos (by decide)
    have hsealed : (Value.sealed "Promise").normal .object = .undefined := rfl
    simp [v, u, returned, inKeyOrder, hindexes, parentName, List.mergeSort, hlarge, hwhole, hsealed]
  have hdepth : v.depth ≤ 64 := by decide
  have hcount : v.containers ≤ 10000 := by
    have hthree : v.containers = 3 := rfl
    omega
  obtain ⟨-, hiff, hagain⟩ := copyOut_copyIn hnames hdepth hcount {}
  rw [hnormal] at hiff hagain
  have htrip := hiff.2 (by simp [u, Value.objects, Value.objectsOfEntries, Value.objectsOfItems])
  exact ⟨hnames, hdepth, hcount, htrip, hagain htrip⟩

/-- A name is cut: the copy has the value under the part of its name before the null character. -/
theorem roundTrip_cuts_name :
    let v : Value := .object [("a\x00b", .int 1)]
    v.normal .object = v ∧ ({} : Heap).roundTrip v = .ok (.object [("a", .int 1)]) ∧
      ({} : Heap).roundTrip v ≠ .ok (v.normal .object) := by
  intro v
  have hnormal : v.normal .object = v := by cbv
  have htrip : ({} : Heap).roundTrip v = .ok (.object [("a", .int 1)]) := by cbv
  refine ⟨hnormal, htrip, ?_⟩
  rw [hnormal, htrip]
  simp [v]

end Heap

end HostBridge
