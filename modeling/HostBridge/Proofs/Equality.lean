import HostBridge.Proofs.NormalForm

/-!
# Equality of values

Two values are equal if one is obtained from the other by changes that are not seen: the entries of
an object in another order, or one zero for the other, at any place in the value
(`Value.Rearranged`). Where a NaN occurs a value does not equal itself, but equality stays symmetric
and transitive.

Objects are compared in one direction only: as many entries, and for each of the first an equal one
under its name in the second. That this matches all entries of both with each other, in some order
(`Value.exists_perm_of_eqv_object`), is where the names of an object have to be different.
-/

namespace HostBridge

/-! ## Equal doubles -/

namespace Double

theorem numEq_symm {a b : Double} (h : a.numEq b = true) : b.numEq a = true := by
  rw [numEq_iff] at h ⊢
  obtain ⟨ha, hb, hab⟩ := h
  exact ⟨hb, ha, hab.imp Eq.symm And.symm⟩

theorem numEq_trans {a b c : Double} (hab : a.numEq b = true) (hbc : b.numEq c = true) :
    a.numEq c = true := by
  rw [numEq_iff] at hab hbc ⊢
  obtain ⟨ha, -, hab⟩ := hab
  obtain ⟨-, hc, hbc⟩ := hbc
  refine ⟨ha, hc, ?_⟩
  rcases hab with rfl | ⟨hazero, hbzero⟩
  · exact hbc
  · rcases hbc with rfl | ⟨-, hczero⟩
    · exact .inr ⟨hazero, hbzero⟩
    · exact .inr ⟨hazero, hczero⟩

theorem numEq_self {a : Double} : a.numEq a = true ↔ a.isNaN = false := by
  simp [numEq_iff]

end Double

/-- What holds of matching pairs, given that the first of each is in its list. -/
theorem forall₂_imp_of_mem {α β : Type} {R S : α → β → Prop} {as : List α} {bs : List β}
    (h : List.Forall₂ R as bs) (hRS : ∀ a ∈ as, ∀ b, R a b → S a b) : List.Forall₂ S as bs := by
  have hmem := (List.forall₂_and_left (p := (· ∈ as)) as bs).2 ⟨fun _ ha => ha, h⟩
  exact hmem.imp fun a b hab => hRS a hab.1 b hab.2

namespace Value

/-! ## Equality one level down -/

theorem eqvItems_iff {as bs : List Value} :
    eqvItems as bs = true ↔ List.Forall₂ (fun a b => a.eqv b = true) as bs := by
  induction as generalizing bs with
  | nil => cases bs <;> simp [eqvItems]
  | cons a as ih => cases bs <;> simp [eqvItems, ih]

theorem eqvEntries_iff {as bs : Record Value} :
    eqvEntries as bs = true ↔ ∀ e ∈ as, ∃ b, bs.get? e.1 = some b ∧ e.2.eqv b = true := by
  induction as with
  | nil => simp [eqvEntries]
  | cons e as ih =>
    obtain ⟨name, a⟩ := e
    rw [eqvEntries, Bool.and_eq_true, ih, List.forall_mem_cons]
    refine and_congr_left fun _ => ?_
    cases Record.get? bs name <;> simp

/-- The two entries have one name, and their values are equal. -/
def EqvEntry (a b : String × Value) : Prop := a.1 = b.1 ∧ a.2.eqv b.2 = true

/-- Entries that are found in a record, in the order in which they are looked for. -/
theorem exists_forall₂_of_get? {as bs : Record Value}
    (h : ∀ e ∈ as, ∃ b, bs.get? e.1 = some b ∧ e.2.eqv b = true) :
    ∃ bs' : Record Value, List.Forall₂ EqvEntry as bs' ∧ bs' ⊆ bs := by
  induction as with
  | nil => exact ⟨[], .nil, List.nil_subset _⟩
  | cons e as ih =>
    rw [List.forall_mem_cons] at h
    obtain ⟨⟨b, hget, heqv⟩, has⟩ := h
    obtain ⟨bs', hmatch, hsub⟩ := ih has
    exact ⟨(e.1, b) :: bs', .cons ⟨rfl, heqv⟩ hmatch,
      List.cons_subset.2 ⟨Record.mem_of_get? hget, hsub⟩⟩

theorem keys_eq_of_forall₂ {as bs : Record Value} (h : List.Forall₂ EqvEntry as bs) :
    as.keys = bs.keys := by
  induction h with
  | nil => rfl
  | cons hentry _ ih => rw [Record.keys_cons, Record.keys_cons, ih, hentry.1]

/-- **Equal objects correspond entry by entry**, in some order of the second. The names of the first
are different, so the entries found for them are, and there are as many of these as of all. -/
theorem exists_perm_of_eqv_object {as bs : Record Value} (has : as.NodupKeys)
    (h : (object as).eqv (object bs) = true) :
    ∃ bs' : Record Value, List.Forall₂ EqvEntry as bs' ∧ bs'.Perm bs := by
  rw [eqv, Bool.and_eq_true, beq_iff_eq, eqvEntries_iff] at h
  obtain ⟨hlength, hfound⟩ := h
  obtain ⟨bs', hmatch, hsub⟩ := exists_forall₂_of_get? hfound
  have hkeys : bs'.keys.Nodup := keys_eq_of_forall₂ hmatch ▸ has
  have hsubperm : bs'.Subperm bs := (List.Nodup.of_map _ hkeys).subperm hsub
  refine ⟨bs', hmatch, hsubperm.perm_of_length_le ?_⟩
  rw [← hmatch.length_eq, hlength]

theorem eqv_object_of_perm {as bs bs' : Record Value} (hbs : bs.NodupKeys)
    (hmatch : List.Forall₂ EqvEntry as bs') (hperm : bs'.Perm bs) :
    (object as).eqv (object bs) = true := by
  rw [eqv, Bool.and_eq_true, beq_iff_eq, eqvEntries_iff]
  refine ⟨hmatch.length_eq.trans hperm.length_eq, fun e he => ?_⟩
  have hsub : bs' ⊆ bs := hperm.subset
  clear hperm
  induction hmatch with
  | nil => cases he
  | @cons a b as bs' hentry _ ih =>
    rw [List.cons_subset] at hsub
    rcases List.mem_cons.1 he with rfl | he
    · exact ⟨b.2, Record.get?_of_mem hbs (hentry.1 ▸ hsub.1), hentry.2⟩
    · exact ih he hsub.2

/-- Neither a container nor a double. -/
def isPlain : Value → Bool
  | float _ => false
  | v => !v.isContainer

theorem eqv_of_isPlain {v w : Value} (hv : v.isPlain = true) : v.eqv w = true ↔ w = v := by
  cases v <;> cases w <;> simp [eqv, isPlain, isContainer] at hv ⊢ <;> exact eq_comm

theorem eqv_float_iff {a : Double} {w : Value} :
    (float a).eqv w = true ↔ ∃ b, w = float b ∧ a.numEq b = true := by
  cases w <;> simp [eqv]

theorem eqv_array_iff {as : List Value} {w : Value} :
    (array as).eqv w = true ↔
      ∃ bs, w = array bs ∧ List.Forall₂ (fun a b => a.eqv b = true) as bs := by
  cases w <;> simp [eqv, eqvItems_iff]

theorem exists_object_of_eqv {as : Record Value} {w : Value} (h : (object as).eqv w = true) :
    ∃ bs, w = object bs := by
  cases w with
  | object bs => exact ⟨bs, rfl⟩
  | _ => simp [eqv] at h

/-- Induction over a value, with doubles apart from what is equal only to itself. -/
@[elab_as_elim]
theorem indEqv {P : Value → Prop} (plain : ∀ v, v.isPlain = true → P v) (float : ∀ d, P (.float d))
    (array : ∀ items, (∀ v ∈ items, P v) → P (.array items))
    (object : ∀ entries, (∀ e ∈ entries, P e.2) → P (.object entries)) (v : Value) : P v := by
  induction v using Value.ind with
  | scalar v hv =>
    cases v with
    | float d => exact float d
    | array items => cases hv
    | object entries => cases hv
    | _ => exact plain _ rfl
  | array items ih => exact array items ih
  | object entries ih => exact object entries ih

/-! ## Symmetry and transitivity -/

/-- The names of each object in the value are different. -/
def UniqueKeys (v : Value) : Prop := ∀ r ∈ v.objects, r.NodupKeys

theorem uniqueKeys_array {items : List Value} :
    (array items).UniqueKeys ↔ ∀ v ∈ items, v.UniqueKeys :=
  forall_objects_array

theorem uniqueKeys_object {entries : Record Value} :
    (object entries).UniqueKeys ↔ entries.NodupKeys ∧ ∀ e ∈ entries, e.2.UniqueKeys :=
  forall_objects_object

theorem eqv_symm {v w : Value} (hv : v.UniqueKeys) (h : v.eqv w = true) : w.eqv v = true := by
  induction v using indEqv generalizing w with
  | plain v hplain =>
    obtain rfl := (eqv_of_isPlain hplain).1 h
    exact h
  | float a =>
    obtain ⟨b, rfl, hab⟩ := eqv_float_iff.1 h
    exact eqv_float_iff.2 ⟨a, rfl, Double.numEq_symm hab⟩
  | array as ih =>
    rw [uniqueKeys_array] at hv
    obtain ⟨bs, rfl, hmatch⟩ := eqv_array_iff.1 h
    refine eqv_array_iff.2 ⟨as, rfl, .flip (forall₂_imp_of_mem hmatch fun a ha b hab => ?_)⟩
    exact ih a ha (hv a ha) hab
  | object as ih =>
    obtain ⟨hkeys, hunique⟩ := uniqueKeys_object.1 hv
    obtain ⟨bs, rfl⟩ := exists_object_of_eqv h
    obtain ⟨bs', hmatch, hperm⟩ := exists_perm_of_eqv_object hkeys h
    have hback : List.Forall₂ EqvEntry bs' as :=
      .flip (forall₂_imp_of_mem hmatch fun e he b heb =>
        ⟨heb.1.symm, ih e he (hunique e he) heb.2⟩)
    -- the entries of the second are put back in their own order, and the others go along
    obtain ⟨as', hmatch', hperm'⟩ := List.perm_comp_forall₂ hperm.symm hback
    exact eqv_object_of_perm hkeys hmatch' hperm'

theorem eqv_comm {v w : Value} (hv : v.UniqueKeys) (hw : w.UniqueKeys) : v.eqv w = w.eqv v :=
  Bool.eq_iff_iff.2 ⟨eqv_symm hv, eqv_symm hw⟩

theorem eqv_trans {u v w : Value} (huv : u.eqv v = true) (hvw : v.eqv w = true) :
    u.eqv w = true := by
  induction u using indEqv generalizing v w with
  | plain u hplain =>
    obtain rfl := (eqv_of_isPlain hplain).1 huv
    exact hvw
  | float a =>
    obtain ⟨b, rfl, hab⟩ := eqv_float_iff.1 huv
    obtain ⟨c, rfl, hbc⟩ := eqv_float_iff.1 hvw
    exact eqv_float_iff.2 ⟨c, rfl, Double.numEq_trans hab hbc⟩
  | array as ih =>
    obtain ⟨bs, rfl, hab⟩ := eqv_array_iff.1 huv
    obtain ⟨cs, rfl, hbc⟩ := eqv_array_iff.1 hvw
    refine eqv_array_iff.2 ⟨cs, rfl, ?_⟩
    clear huv hvw
    induction hab generalizing cs with
    | nil =>
      cases hbc
      exact .nil
    | cons hab _ ihs =>
      cases hbc with
      | cons hbc hrest =>
        rw [List.forall_mem_cons] at ih
        exact .cons (ih.1 hab hbc) (ihs ih.2 _ hrest)
  | object as ih =>
    obtain ⟨bs, rfl⟩ := exists_object_of_eqv huv
    obtain ⟨cs, rfl⟩ := exists_object_of_eqv hvw
    rw [eqv, Bool.and_eq_true, beq_iff_eq, eqvEntries_iff] at huv hvw ⊢
    refine ⟨huv.1.trans hvw.1, fun e he => ?_⟩
    obtain ⟨b, hb, heb⟩ := huv.2 e he
    obtain ⟨c, hc, hbc⟩ := hvw.2 _ (Record.mem_of_get? hb)
    exact ⟨c, hc, ih e he heb hbc⟩

/-! ## Values that equal themselves -/

/-- The first value occurs in the second: it is the second, or occurs in something that the second
holds. -/
inductive Occurs (u : Value) : Value → Prop
  | here : Occurs u u
  | item {items : List Value} {v : Value} (hv : v ∈ items) (h : Occurs u v) :
      Occurs u (array items)
  | entry {entries : Record Value} {e : String × Value} (he : e ∈ entries) (h : Occurs u e.2) :
      Occurs u (object entries)

/-- No NaN occurs in the value. -/
def NaNFree (v : Value) : Prop := ∀ d, Occurs (float d) v → d.isNaN = false

theorem nanFree_of_isPlain {v : Value} (hv : v.isPlain = true) : v.NaNFree := by
  intro d hd
  cases hd <;> cases hv

theorem nanFree_float {d : Double} : (float d).NaNFree ↔ d.isNaN = false := by
  refine ⟨fun h => h d .here, fun h d' hd' => ?_⟩
  cases hd'
  exact h

theorem nanFree_array {items : List Value} : (array items).NaNFree ↔ ∀ v ∈ items, v.NaNFree := by
  refine ⟨fun h v hv d hd => h d (.item hv hd), fun h d hd => ?_⟩
  cases hd with
  | item hv hd => exact h _ hv d hd

theorem nanFree_object {entries : Record Value} :
    (object entries).NaNFree ↔ ∀ e ∈ entries, e.2.NaNFree := by
  refine ⟨fun h e he d hd => h d (.entry he hd), fun h d hd => ?_⟩
  cases hd with
  | entry he hd => exact h _ he d hd

theorem eqv_self_iff {v : Value} (hv : v.UniqueKeys) : v.eqv v = true ↔ v.NaNFree := by
  induction v using indEqv with
  | plain v hplain => simp [eqv_of_isPlain hplain, nanFree_of_isPlain hplain]
  | float d =>
    rw [nanFree_float, ← Double.numEq_self, eqv]
  | array items ih =>
    rw [uniqueKeys_array] at hv
    rw [nanFree_array, eqv, eqvItems_iff, List.forall₂_same]
    exact forall₂_congr fun v hmem => ih v hmem (hv v hmem)
  | object entries ih =>
    obtain ⟨hkeys, hunique⟩ := uniqueKeys_object.1 hv
    rw [nanFree_object, eqv, beq_self_eq_true, Bool.true_and, eqvEntries_iff]
    refine forall₂_congr fun e he => ?_
    rw [← ih e he (hunique e he), Record.get?_of_mem hkeys he]
    simp

/-! ## Changes that are not seen -/

/-- One change that is not seen: one zero for another, the entries of an object in another order, or
such a change in something that a value holds. -/
inductive Rearranges : Value → Value → Prop
  | zero {a b : Double} (ha : a.isZero = true) (hb : b.isZero = true) :
      Rearranges (float a) (float b)
  | reorder {as bs : Record Value} (h : as.Perm bs) : Rearranges (object as) (object bs)
  | item {before after : List Value} {v w : Value} (h : Rearranges v w) :
      Rearranges (array (before ++ v :: after)) (array (before ++ w :: after))
  | entry {before after : Record Value} {name : String} {v w : Value} (h : Rearranges v w) :
      Rearranges (object (before ++ (name, v) :: after)) (object (before ++ (name, w) :: after))

/-- Any number of such changes. -/
def Rearranged : Value → Value → Prop := Relation.ReflTransGen Rearranges

namespace Rearranges

variable {v w : Value}

theorem uniqueKeys (h : v.Rearranges w) (hv : v.UniqueKeys) : w.UniqueKeys := by
  induction h with
  | zero => exact hv
  | reorder hperm =>
    rw [uniqueKeys_object] at hv ⊢
    exact ⟨(hperm.map _).nodup_iff.1 hv.1, fun e he => hv.2 e (hperm.mem_iff.2 he)⟩
  | item _ ih =>
    simp only [uniqueKeys_array, List.forall_mem_append, List.forall_mem_cons] at hv ⊢
    exact ⟨hv.1, ih hv.2.1, hv.2.2⟩
  | entry _ ih =>
    simp only [uniqueKeys_object, Record.NodupKeys, Record.keys, List.map_append, List.map_cons,
      List.forall_mem_append, List.forall_mem_cons] at hv ⊢
    exact ⟨hv.1, hv.2.1, ih hv.2.2.1, hv.2.2.2⟩

theorem nanFree (h : v.Rearranges w) (hv : v.NaNFree) : w.NaNFree := by
  induction h with
  | zero _ hb => exact nanFree_float.2 (Double.isNaN_of_isZero hb)
  | reorder hperm =>
    rw [nanFree_object] at hv ⊢
    exact fun e he => hv e (hperm.mem_iff.2 he)
  | item _ ih =>
    simp only [nanFree_array, List.forall_mem_append, List.forall_mem_cons] at hv ⊢
    exact ⟨hv.1, ih hv.2.1, hv.2.2⟩
  | entry _ ih =>
    simp only [nanFree_object, List.forall_mem_append, List.forall_mem_cons] at hv ⊢
    exact ⟨hv.1, ih hv.2.1, hv.2.2⟩

/-- One change is not seen. -/
theorem eqv (h : v.Rearranges w) (hunique : v.UniqueKeys) (hnan : v.NaNFree) :
    v.eqv w = true := by
  -- what stands beside the change equals itself
  have hself : ∀ u : Value, u.UniqueKeys → u.NaNFree → u.eqv u = true := fun u hu =>
    (eqv_self_iff hu).2
  have hwunique := h.uniqueKeys hunique
  induction h with
  | zero ha hb =>
    refine eqv_float_iff.2 ⟨_, rfl, Double.numEq_iff.2 ⟨?_, ?_, .inr ⟨ha, hb⟩⟩⟩
    · exact Double.isNaN_of_isZero ha
    · exact Double.isNaN_of_isZero hb
  | reorder hperm =>
    rw [uniqueKeys_object] at hunique hwunique
    rw [nanFree_object] at hnan
    refine eqv_object_of_perm hwunique.1 (List.forall₂_same.2 fun e he => ?_) hperm
    exact ⟨rfl, hself _ (hunique.2 e he) (hnan e he)⟩
  | item h ih =>
    simp only [uniqueKeys_array, nanFree_array, List.forall_mem_append, List.forall_mem_cons]
      at hunique hnan hwunique
    refine eqv_array_iff.2 ⟨_, rfl, List.rel_append ?_ (.cons ?_ ?_)⟩
    · exact List.forall₂_same.2 fun u hu => hself u (hunique.1 u hu) (hnan.1 u hu)
    · exact ih hunique.2.1 hnan.2.1 hwunique.2.1
    · exact List.forall₂_same.2 fun u hu => hself u (hunique.2.2 u hu) (hnan.2.2 u hu)
  | @entry before after name v w h ih =>
    rw [uniqueKeys_object] at hunique hwunique
    simp only [nanFree_object, List.forall_mem_append, List.forall_mem_cons]
      at hunique hnan hwunique
    have hmatch : List.Forall₂ EqvEntry (before ++ (name, v) :: after)
        (before ++ (name, w) :: after) := by
      refine List.rel_append ?_ (.cons ⟨rfl, ih hunique.2.2.1 hnan.2.1 hwunique.2.2.1⟩ ?_)
      · exact List.forall₂_same.2 fun e he => ⟨rfl, hself _ (hunique.2.1 e he) (hnan.1 e he)⟩
      · exact List.forall₂_same.2 fun e he =>
          ⟨rfl, hself _ (hunique.2.2.2 e he) (hnan.2.2 e he)⟩
    exact eqv_object_of_perm hwunique.1 hmatch (.refl _)

end Rearranges

/-- Any number of changes is not seen. -/
theorem Rearranged.eqv {v w : Value} (h : v.Rearranged w) (hunique : v.UniqueKeys)
    (hnan : v.NaNFree) : v.eqv w = true ∧ w.UniqueKeys ∧ w.NaNFree := by
  induction h with
  | refl => exact ⟨(eqv_self_iff hunique).2 hnan, hunique, hnan⟩
  | tail _ hstep ih =>
    obtain ⟨heqv, hunique', hnan'⟩ := ih
    exact ⟨eqv_trans heqv (hstep.eqv hunique' hnan'), hstep.uniqueKeys hunique',
      hstep.nanFree hnan'⟩

theorem rearranged_array {as bs : List Value} (h : List.Forall₂ Rearranged as bs) :
    (array as).Rearranged (array bs) := by
  suffices hbefore : ∀ before, (array (before ++ as)).Rearranged (array (before ++ bs)) from
    hbefore []
  induction h with
  | nil => exact fun before => .refl
  | @cons a b as bs hab _ ih =>
    intro before
    have hfirst : (array (before ++ a :: as)).Rearranged (array (before ++ b :: as)) :=
      hab.lift (fun v => array (before ++ v :: as)) fun _ _ => .item
    have hrest : (array (before ++ b :: as)).Rearranged (array (before ++ b :: bs)) := by
      simpa using ih (before ++ [b])
    exact hfirst.trans hrest

theorem rearranged_object {as bs : Record Value}
    (h : List.Forall₂ (fun a b => a.1 = b.1 ∧ a.2.Rearranged b.2) as bs) :
    (object as).Rearranged (object bs) := by
  suffices hbefore : ∀ before, (object (before ++ as)).Rearranged (object (before ++ bs)) from
    hbefore []
  induction h with
  | nil => exact fun before => .refl
  | @cons a b as bs hab _ ih =>
    obtain ⟨name, v⟩ := a
    obtain ⟨name', w⟩ := b
    obtain ⟨rfl, hvw⟩ := hab
    intro before
    have hfirst : (object (before ++ (name, v) :: as)).Rearranged
        (object (before ++ (name, w) :: as)) :=
      hvw.lift (fun v => object (before ++ (name, v) :: as)) fun _ _ => .entry
    have hrest : (object (before ++ (name, w) :: as)).Rearranged
        (object (before ++ (name, w) :: bs)) := by
      simpa using ih (before ++ [(name, w)])
    exact hfirst.trans hrest

/-- Equal values differ by changes that are not seen. -/
theorem rearranged_of_eqv {v w : Value} (hv : v.UniqueKeys) (h : v.eqv w = true) :
    v.Rearranged w := by
  induction v using indEqv generalizing w with
  | plain v hplain =>
    obtain rfl := (eqv_of_isPlain hplain).1 h
    exact .refl
  | float a =>
    obtain ⟨b, rfl, hab⟩ := eqv_float_iff.1 h
    obtain ⟨-, -, rfl | ⟨ha, hb⟩⟩ := Double.numEq_iff.1 hab
    · exact .refl
    · exact .single (.zero ha hb)
  | array as ih =>
    rw [uniqueKeys_array] at hv
    obtain ⟨bs, rfl, hmatch⟩ := eqv_array_iff.1 h
    exact rearranged_array (forall₂_imp_of_mem hmatch fun a ha b => ih a ha (hv a ha))
  | object as ih =>
    obtain ⟨hkeys, hunique⟩ := uniqueKeys_object.1 hv
    obtain ⟨bs, rfl⟩ := exists_object_of_eqv h
    obtain ⟨bs', hmatch, hperm⟩ := exists_perm_of_eqv_object hkeys h
    have hentries : (object as).Rearranged (object bs') :=
      rearranged_object (forall₂_imp_of_mem hmatch fun e he b heb =>
        ⟨heb.1, ih e he (hunique e he) heb.2⟩)
    exact hentries.tail (.reorder hperm)

/-- **Equality is equality up to the order of entries.** Of values whose objects have different
names, equality is symmetric and transitive; a value equals itself exactly if no NaN occurs in it;
and a value without NaN equals another exactly if that is obtained from it by putting the entries of
objects in another order and one zero in the place of another, at any depth. Arrays are equal item
by item in order, and an integer never equals a double. -/
theorem eqv_upToOrder {v w : Value} (hv : v.UniqueKeys) (hw : w.UniqueKeys) :
    v.eqv w = w.eqv v ∧
    (∀ u : Value, u.eqv v = true → v.eqv w = true → u.eqv w = true) ∧
    (v.eqv v = true ↔ v.NaNFree) ∧
    (v.NaNFree → (v.eqv w = true ↔ v.Rearranged w)) ∧
    (∀ as bs : List Value, (array as).eqv (array bs) = true ↔
      List.Forall₂ (fun a b => a.eqv b = true) as bs) ∧
    ∀ (i : Int64) (d : Double), (int i).eqv (float d) = false ∧ (float d).eqv (int i) = false := by
  refine ⟨eqv_comm hv hw, fun u => eqv_trans, eqv_self_iff hv, fun hnan => ⟨?_, fun h => ?_⟩,
    fun as bs => ?_, fun i d => ⟨rfl, rfl⟩⟩
  · exact rearranged_of_eqv hv
  · exact (h.eqv hv hnan).1
  · rw [eqv, eqvItems_iff]

/-- Entries in another order at two depths and one zero for the other are not seen; with a NaN in
it, a value does not equal itself. -/
theorem eqv_upToOrder_nested :
    let v : Value := object [("a", array [float Double.zero.negate, int 1]),
      ("b", object [("x", null), ("y", bool true)])]
    let w : Value := object [("b", object [("y", bool true), ("x", null)]),
      ("a", array [float Double.zero, int 1])]
    let u : Value := array [float Double.nan]
    (v.UniqueKeys ∧ w.UniqueKeys ∧ u.UniqueKeys) ∧ v.Rearranged w ∧ u.eqv u = false := by
  intro v w u
  have hv : v.UniqueKeys := by
    simp [v, UniqueKeys, objects, objectsOfItems, objectsOfEntries, Record.NodupKeys]
  have hw : w.UniqueKeys := by
    simp [w, UniqueKeys, objects, objectsOfItems, objectsOfEntries, Record.NodupKeys]
  have hu : u.UniqueKeys := by
    simp [u, UniqueKeys, objects, objectsOfItems]
  have heqv : v.eqv w = true := by decide
  obtain ⟨-, -, hself, hrearranged, -⟩ := eqv_upToOrder hv hw
  have hnan : v.NaNFree := hself.1 (by decide)
  refine ⟨⟨hv, hw, hu⟩, (hrearranged hnan).1 heqv, Bool.eq_false_iff.2 fun h => ?_⟩
  have hnan := (eqv_upToOrder hu hu).2.2.1.1 h Double.nan (.item List.mem_cons_self .here)
  exact absurd hnan (by decide)

end Value

end HostBridge
