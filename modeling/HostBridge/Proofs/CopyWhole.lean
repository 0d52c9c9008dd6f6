import HostBridge.Proofs.CopyBound
import HostBridge.Proofs.Grouping
import Mathlib

/-!
# What a copy keeps

A transparent copy leaves out nothing that the limits do not call for. A container is opened
wherever it is met within them, whatever was met before it, so a value that unfolds into a tree
within the limits is copied in full, and a container in it everywhere as it is copied alone.

Names are the exception. Outside the engine a name ends before its first null character, so an
object keeps its properties exactly if its names have none (`Contents.KeepsNames`); else names are
cut and properties whose names become equal are lost, as in `Heap.copyOut_loses_property`.
-/

namespace HostBridge

/-! ## Walks that open everything -/

namespace Walk

/-- Every container that is met is opened: the walk is the whole tree into which the values
unfold. -/
def IsComplete : Walk → Prop
  | done => True
  | leaf _ rest => rest.IsComplete
  | sealed _ _ => False
  | opened _ inside rest => inside.IsComplete ∧ rest.IsComplete

/-- The containers that are opened, in the order of the walk, each with the walk inside it. -/
def openings : Walk → List (Nat × Walk)
  | done => []
  | leaf _ rest | sealed _ rest => rest.openings
  | opened id inside rest => (id, inside) :: (inside.openings ++ rest.openings)

/-- The greatest number of opened containers that lie in each other. -/
def height : Walk → Nat
  | done => 0
  | leaf _ rest | sealed _ rest => rest.height
  | opened _ inside rest => max (inside.height + 1) rest.height

theorem countP_visits (w : Walk) (path : List Nat) :
    (w.visits path).countP (·.opened) = w.openings.length := by
  induction w generalizing path with
  | done => rfl
  | leaf _ _ ih => exact ih path
  | sealed _ _ ih => simpa [visits, openings] using ih path
  | opened id inside rest ihinside ihrest =>
    simp [visits, openings, ihinside, ihrest]

namespace Through

variable {h : Heap} {slots : List Slot} {w w' : Walk}

/-- Values unfold into one tree only. -/
theorem eq_of_isComplete (hw : Through h slots w) (hc : w.IsComplete) (hw' : Through h slots w')
    (hc' : w'.IsComplete) : w = w' := by
  induction hw generalizing w' with
  | done =>
    cases hw'
    rfl
  | leaf hx _ ih =>
    cases hw' with
    | leaf hx' hrest => rw [Sight.leaf.inj (Except.ok.inj (hx.symm.trans hx')), ih hc hrest hc']
    | sealed hx' => cases hx.symm.trans hx'
    | opened hx' => cases hx.symm.trans hx'
  | sealed => exact hc.elim
  | opened hx _ _ ihinside ihrest =>
    cases hw' with
    | leaf hx' => cases hx.symm.trans hx'
    | sealed => exact hc'.elim
    | opened hx' hinside hrest =>
      obtain rfl := Sight.container.inj (Except.ok.inj (hx.symm.trans hx'))
      rw [ihinside hc.1 hinside hc'.1, ihrest hc.2 hrest hc'.2]

/-- The containers around what is inside a container are that container and those around it. None
of them unfolds into less than what is inside, if none of the latter does. -/
theorem openings_le_of_mem_cons {id : Nat} {inside : Walk}
    (hinside : Through h (h.contents id).slots inside) (hc : inside.IsComplete) {path : List Nat}
    (hpath : ∀ id ∈ path, ∀ w', Through h (h.contents id).slots w' → w'.IsComplete →
      inside.openings.length ≤ w'.openings.length) :
    ∀ id' ∈ id :: path, ∀ w', Through h (h.contents id').slots w' → w'.IsComplete →
      inside.openings.length ≤ w'.openings.length := by
  intro id' hid' w' hw' hc'
  rcases List.mem_cons.1 hid' with rfl | hmem
  · exact Nat.le_of_eq (by rw [eq_of_isComplete hinside hc hw' hc'])
  · exact hpath id' hmem w' hw' hc'

/-- A complete walk is within any limits that its height and its number of openings keep. None of
the containers around it is met in it: that would be opened once more, and the tree inside it would
be both the same and smaller. -/
theorem limited_of_isComplete (hw : Through h slots w) (hc : w.IsComplete) {levels limit : Nat}
    {path : List Nat}
    (hpath : ∀ id ∈ path, ∀ w', Through h (h.contents id).slots w' → w'.IsComplete →
      w.openings.length ≤ w'.openings.length)
    (hheight : w.height + path.length ≤ levels) (hsize : w.openings.length ≤ limit) :
    Limited levels limit (w.visits path) := by
  induction hw generalizing path limit with
  | done => exact .nil
  | leaf _ _ ih => exact ih hc hpath hheight hsize
  | sealed => exact hc.elim
  | @opened _ id inside _ rest _ hinside _ ihinside ihrest =>
    simp only [openings, height, List.length_cons, List.length_append] at hpath hheight hsize
    have hid : id ∉ path := fun hmem => by
      have hle := hpath id hmem inside hinside hc.1
      omega
    refine Limited.cons_iff.2 ⟨?_, Limited.append_iff.2 ⟨?_, ?_⟩⟩
    · simp only [true_iff]
      exact ⟨by omega, hid, by omega⟩
    · refine ihinside hc.1
        (openings_le_of_mem_cons hinside hc.1 fun id' hid' w' hw' hc' => ?_) ?_ ?_
      · have hle := hpath id' hid' w' hw' hc'
        omega
      · rw [List.length_cons]
        omega
      · simp only [List.countP_singleton, if_true]
        omega
    · refine ihrest hc.2 (fun id' hid' w' hw' hc' => ?_) (by omega) ?_
      · have hle := hpath id' hid' w' hw' hc'
        omega
      · simp only [List.countP_singleton, if_true, countP_visits]
        omega

/-- What is inside an opened container is a complete walk of its own, and smaller. -/
theorem of_mem_openings (hw : Through h slots w) (hc : w.IsComplete) {p : Nat × Walk}
    (hp : p ∈ w.openings) :
    h.look (.ref p.1) = .ok (.container p.1) ∧ Through h (h.contents p.1).slots p.2 ∧
      p.2.IsComplete ∧ p.2.height < w.height ∧ p.2.openings.length < w.openings.length := by
  induction hw with
  | done => cases hp
  | leaf _ _ ih => exact ih hc hp
  | sealed => exact hc.elim
  | @opened x id inside _ rest hx hinside _ ihinside ihrest =>
    simp only [openings, height, List.mem_cons, List.mem_append, List.length_cons,
      List.length_append] at hp ⊢
    rcases hp with rfl | hp | hp
    · obtain ⟨rfl, -⟩ := Heap.look_eq_container_iff.1 hx
      exact ⟨hx, hinside, hc.1, by dsimp only; omega, by dsimp only; omega⟩
    · obtain ⟨hlook, hthrough, hcomplete, hheight, hsize⟩ := ihinside hc.1 hp
      exact ⟨hlook, hthrough, hcomplete, by omega, by omega⟩
    · obtain ⟨hlook, hthrough, hcomplete, hheight, hsize⟩ := ihrest hc.2 hp
      exact ⟨hlook, hthrough, hcomplete, by omega, by omega⟩

end Through

end Walk

namespace Heap

/-- **A value that unfolds within the limits is copied in full.** -/
theorem copyOut_of_isComplete {h : Heap} {mode : ConversionMode} {x : EngineValue} {w : Walk}
    {v : Value} (hw : w.Through h [.value x]) (hc : w.IsComplete)
    (hheight : w.height ≤ levels mode) (hsize : w.openings.length ≤ maxContainers)
    (hv : w.values h objectOf = [v]) : h.copyOut mode x = .ok v :=
  copyOut_eq_ok_iff.2 ⟨w, hw, hw.limited_of_isComplete hc (by simp) hheight hsize, hv⟩

end Heap

/-! ## Names -/

namespace Record

variable {α : Type}

theorem ofList_concat (l : List (String × α)) (name : String) (a : α) :
    ofList (l ++ [(name, a)]) = (ofList l).put name a := by
  simp [ofList]

theorem keys_ofList (l : List (String × α)) : keys (ofList l) = (keys l).eraseDups := by
  induction l using List.reverseRecOn with
  | nil => rfl
  | append_singleton l e ih =>
    obtain ⟨name, a⟩ := e
    rw [ofList_concat, keys_put, ih, keys_concat, eraseDups_concat]
    simp only [List.mem_eraseDups]

theorem put_of_not_mem {κ : Type} [DecidableEq κ] (r : Record α κ) {name : κ} (a : α)
    (h : name ∉ keys r) :
    r.put name a = r ++ [(name, a)] := by
  induction r with
  | nil => rfl
  | cons e r ih =>
    obtain ⟨k, b⟩ := e
    simp only [keys_cons, List.mem_cons, not_or] at h
    simp [put, Ne.symm h.1, ih h.2]

theorem ofList_of_nodupKeys {l : List (String × α)} (h : NodupKeys l) : ofList l = l := by
  induction l using List.reverseRecOn with
  | nil => rfl
  | append_singleton l e ih =>
    obtain ⟨name, a⟩ := e
    rw [NodupKeys, keys_concat, List.nodup_append] at h
    have hname : name ∉ keys l := fun hmem => h.2.2 name hmem name (by simp) rfl
    rw [ofList_concat, ih h.1, put_of_not_mem _ _ hname]

end Record

theorem length_eraseDups_le (l : List String) : l.eraseDups.length ≤ l.length := by
  induction l using List.reverseRecOn with
  | nil => simp
  | append_singleton l name ih =>
    rw [eraseDups_concat]
    split <;> simp <;> omega

/-- Leaving out repetitions leaves a list that has as many names only if there are none. -/
theorem eq_of_eraseDups_eq {l l' : List String} (h : l.eraseDups = l')
    (hlength : l'.length = l.length) : l = l' := by
  suffices hnodup : l.Nodup by rw [← h, eraseDups_of_nodup hnodup]
  subst h
  induction l using List.reverseRecOn with
  | nil => exact List.nodup_nil
  | append_singleton l name ih =>
    have hle := length_eraseDups_le l
    rw [eraseDups_concat] at hlength
    split at hlength
    · simp only [List.length_append, List.length_singleton] at hlength
      omega
    · rename_i hname
      simp only [List.length_append, List.length_singleton, Nat.add_right_cancel_iff] at hlength
      refine List.nodup_append.2 ⟨ih hlength, by simp, fun x hx y hy e => hname ?_⟩
      rw [List.mem_singleton] at hy
      exact hy ▸ e ▸ hx

/-- A record loses no name outside the engine: the names are different, and they hold no null
character. -/
def Record.KeepsNames {α : Type} (r : Record α) : Prop :=
  r.NodupKeys ∧ ∀ name ∈ r.keys, '\x00' ∉ name.toList

namespace Heap

theorem outerName_eq_self_iff (name : String) : outerName name = name ↔ '\x00' ∉ name.toList := by
  have hlist : outerName name = name ↔
      name.toList.takeWhile (· != '\x00') = name.toList := by
    rw [outerName, ← String.toList_inj, String.toList_ofList]
  rw [hlist, List.takeWhile_eq_self_iff]
  simp only [bne_iff_ne, ne_eq]
  exact ⟨fun h hmem => h _ hmem rfl, fun h c hc e => h (e ▸ hc)⟩

theorem keys_map_outerName (es : Record Value) :
    Record.keys (es.map fun e => (outerName e.1, e.2)) = (Record.keys es).map outerName := by
  simp [Record.keys]

/-- Names that are kept are not cut. -/
theorem map_outerName_of_forall {es : Record Value}
    (h : ∀ name ∈ Record.keys es, outerName name = name) :
    es.map (fun e => (outerName e.1, e.2)) = es := by
  refine (List.map_congr_left fun e he => ?_).trans (List.map_id' es)
  rw [h e.1 (List.mem_map_of_mem he)]

/-- An object has all the entries that it is made of, in order and under their own names, exactly
if the names are kept. -/
theorem objectOf_eq_object_iff {es es' : Record Value} (hkeys : es.keys = es'.keys) :
    objectOf es = .object es' ↔ es.KeepsNames ∧ es = es' := by
  simp only [objectOf, Value.object.injEq, Record.KeepsNames]
  constructor
  · intro heq
    have hcut : (Record.keys es).map outerName = Record.keys es := by
      refine eq_of_eraseDups_eq ?_ (by simp)
      rw [← keys_map_outerName, ← Record.keys_ofList, heq, hkeys]
    have hself : ∀ name ∈ Record.keys es, outerName name = name :=
      List.map_inj_left.1 (hcut.trans (List.map_id' _).symm)
    have hnodup : Record.NodupKeys es := by
      rw [Record.NodupKeys, hkeys, ← heq, Record.keys_ofList]
      exact nodup_eraseDups _
    rw [map_outerName_of_forall hself, Record.ofList_of_nodupKeys hnodup] at heq
    exact ⟨⟨hnodup, fun name hname => (outerName_eq_self_iff name).1 (hself name hname)⟩, heq⟩
  · rintro ⟨⟨hnodup, hnames⟩, rfl⟩
    have hself : ∀ name ∈ Record.keys es, outerName name = name := fun name hname =>
      (outerName_eq_self_iff name).2 (hnames name hname)
    rw [map_outerName_of_forall hself, Record.ofList_of_nodupKeys hnodup]

end Heap

namespace Contents

/-- Nothing is lost of the names that the contents have. -/
def KeepsNames : Contents → Prop
  | items _ => True
  | entries slots => slots.outside.KeepsNames

theorem assemble_eq_assemble_iff {c : Contents} {vs vs' : List Value}
    (hvs : vs.length = c.slots.length) (hvs' : vs'.length = c.slots.length) :
    c.assemble Heap.objectOf vs = c.assemble .object vs' ↔ c.KeepsNames ∧ vs = vs' := by
  cases c with
  | items slots => simp [assemble, KeepsNames]
  | entries slots =>
    have hkeys : ∀ {us : List Value}, us.length = (entries slots).slots.length →
        Record.keys (slots.outside.keys.zip us) = slots.outside.keys := fun hus =>
      List.map_fst_zip (by
        simpa [Contents.slots, Record.keys, Record.outside] using Nat.le_of_eq hus.symm)
    have hvalues : ∀ {us : List Value}, us.length = (entries slots).slots.length →
        (slots.outside.keys.zip us).map (·.2) = us := fun hus =>
      List.map_snd_zip (by
        simpa [Contents.slots, Record.keys, Record.outside] using Nat.le_of_eq hus)
    rw [assemble, assemble, Heap.objectOf_eq_object_iff ((hkeys hvs).trans (hkeys hvs').symm),
      KeepsNames, Record.KeepsNames, Record.KeepsNames, Record.NodupKeys, hkeys hvs,
      Record.NodupKeys]
    refine and_congr_right fun _ => ⟨fun h => ?_, fun h => h ▸ rfl⟩
    rw [← hvalues hvs, h, hvalues hvs']

end Contents

/-- The copies of a walk have every property under its own name exactly if the names of all that it
opens are kept. -/
theorem Walk.Through.values_eq_values_iff {h : Heap} {slots : List Slot} {w : Walk}
    (hw : w.Through h slots) :
    w.values h Heap.objectOf = w.values h .object ↔
      ∀ p ∈ w.openings, (h.contents p.1).KeepsNames := by
  induction hw with
  | done => simp [Walk.values, Walk.openings]
  | leaf _ _ ih => simpa [Walk.values, Walk.openings] using ih
  | sealed _ _ ih => simpa [Walk.values, Walk.openings] using ih
  | opened _ hinside _ ihinside ihrest =>
    rw [Walk.values, Walk.values, List.cons.injEq, Walk.openings, List.forall_mem_cons,
      List.forall_mem_append, ← ihinside, ← ihrest,
      Contents.assemble_eq_assemble_iff (hinside.length_values _) (hinside.length_values _),
      and_assoc]

namespace Heap

/-! ## Transparent copies -/

/-- **What a transparent copy keeps.** Copying succeeds with a value exactly if that is what a walk
makes which opens a container wherever it is met, exactly if fewer than 64 containers enclose it, it
is none of them, and fewer than 10000 were opened before it; other containers are sealed. The copy
has all items and listed properties of what is opened, in order, exactly if the names of the opened
objects are kept. In particular a value that unfolds into a tree of height at most 64 with at most
10000 containers is copied in full, and each container in it as it is copied alone. -/
theorem copyOut_transparent (h : Heap) (x : EngineValue) :
    (∀ v, h.copyOut .transparent x = .ok v ↔ ∃ w : Walk, w.Through h [.value x] ∧
      Limited 64 10000 (w.visits []) ∧ w.values h objectOf = [v]) ∧
    (∀ w : Walk, w.Through h [.value x] →
      (w.values h objectOf = w.values h .object ↔
        ∀ p ∈ w.openings, (h.contents p.1).KeepsNames)) ∧
    ∀ w : Walk, w.Through h [.value x] → w.IsComplete → w.height ≤ 64 →
      w.openings.length ≤ 10000 →
      (∃ v, h.copyOut .transparent x = .ok v ∧ w.values h objectOf = [v]) ∧
      ∀ p ∈ w.openings, h.copyOut .transparent (.ref p.1) =
        .ok ((h.contents p.1).assemble objectOf (p.2.values h objectOf)) := by
  refine ⟨fun v => copyOut_eq_ok_iff, fun w hw => hw.values_eq_values_iff, ?_⟩
  intro w hw hc hheight hsize
  constructor
  · obtain ⟨v, hv⟩ := hw.exists_values_eq objectOf
    exact ⟨v, copyOut_of_isComplete hw hc hheight hsize hv, hv⟩
  · intro p hp
    obtain ⟨hlook, hinside, hcomplete, hheight', hsize'⟩ := hw.of_mem_openings hc hp
    refine copyOut_of_isComplete (w := .opened p.1 p.2 .done) (.opened hlook hinside .done)
      ⟨hcomplete, trivial⟩ ?_ ?_ rfl
    · have hlevels : levels .transparent = 64 := rfl
      rw [Walk.height, Walk.height, hlevels]
      omega
    · simp only [Walk.openings, List.append_nil, List.length_cons, maxContainers]
      omega

/-- A property is lost: the names of an object's two properties are the same up to their null
characters, so the copy has the second value, under the common part of the names. -/
theorem copyOut_loses_property :
    let h : Heap :=
      ⟨#[{ props := [("a\x00b", .plain (.int 1)), ("a\x00c", .plain (.int 2))] }]⟩
    h.contents Standard.count =
      .entries [("a\x00b", .value (.int 1)), ("a\x00c", .value (.int 2))] ∧
    h.copyOut .transparent (made 0) = .ok (.object [("a", .int 2)]) ∧
    h.copyOut .transparent (made 0) ≠
      .ok (.object [("a\x00b", .int 1), ("a\x00c", .int 2)]) := by
  intro h
  have hcopy : h.copyOut .transparent (made 0) = .ok (.object [("a", .int 2)]) := by cbv
  refine ⟨by cbv, hcopy, ?_⟩
  rw [hcopy]
  simp

end Heap

end HostBridge
