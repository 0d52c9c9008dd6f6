import HostBridge.Proofs.Admission

/-!
# The key list of a builder

A builder keeps the names of its fields, getters, setters and methods in one list beside the four
tables. The list agrees with the tables, and it follows the admitted members: no name is repeated,
and names stand in the order in which the first members that bear them were admitted
(`Description.KeysFollow`). That holds after every run of steps and of everything that is published
(`Builder.run_new_keys`).
-/

namespace HostBridge

variable {κ : Type} [HostTypes κ]

/-- The name under which a field or a getter is enumerated. -/
def Addition.property? : Addition κ → Option String
  | field f => some f.name
  | getter m => some m.name
  | _ => none

/-- The name of a member. Constructors have none. -/
def Addition.name? : Addition κ → Option String
  | factory _ => none
  | field f => some f.name
  | method m | getter m | setter m | applyFunction m => some m.name
  | genericGetter g => some g.name
  | genericSetter g => some g.name

namespace Admitted

/-- The place of the first field, method, getter or setter of a name. -/
def firstPlace (log : List (Addition κ)) (name : String) : Nat :=
  log.findIdx fun a => a.key? == some name

/-- A further member does not move the first place of a name that is there. -/
theorem firstPlace_concat_of_mem {log : List (Addition κ)} {name : String}
    (h : name ∈ log.filterMap Addition.key?) (a : Addition κ) :
    firstPlace (log ++ [a]) name = firstPlace log name ∧ firstPlace log name < log.length := by
  obtain ⟨b, hb, hname⟩ := List.mem_filterMap.1 h
  have hlt : firstPlace log name < log.length :=
    List.findIdx_lt_length_of_exists ⟨b, hb, beq_iff_eq.2 hname⟩
  exact ⟨List.findIdx_append.trans (if_pos hlt), hlt⟩

/-- The first member that bears a name is found at its own place. -/
theorem firstPlace_concat_self {log : List (Addition κ)} {a : Addition κ} {name : String}
    (h : name ∉ log.filterMap Addition.key?) (ha : a.key? = some name) :
    firstPlace (log ++ [a]) name = log.length := by
  have hlog : log.findIdx (fun b => b.key? == some name) = log.length := by
    refine List.findIdx_eq_length.2 fun b hb => ?_
    simpa using fun hname => h (List.mem_filterMap.2 ⟨b, hb, hname⟩)
  have hself : (a.key? == some name) = true := beq_iff_eq.2 ha
  rw [firstPlace, List.findIdx_append, hlog, List.findIdx_singleton, hself]
  simp

/-- Names without repetition stand in the order of their first places. -/
theorem pairwise_firstPlace (log : List (Addition κ)) :
    (log.filterMap Addition.key?).eraseDups.Pairwise fun x y =>
      firstPlace log x < firstPlace log y := by
  induction log using List.reverseRecOn with
  | nil => simp
  | append_singleton log a ih =>
    -- the names so far keep their places, so only a new name adds pairs
    have hold : (log.filterMap Addition.key?).eraseDups.Pairwise fun x y =>
        firstPlace (log ++ [a]) x < firstPlace (log ++ [a]) y := by
      refine ih.imp_of_mem fun {x y} hx hy hxy => ?_
      rw [(firstPlace_concat_of_mem (List.mem_eraseDups.1 hx) a).1,
        (firstPlace_concat_of_mem (List.mem_eraseDups.1 hy) a).1]
      exact hxy
    rw [List.filterMap_append, List.filterMap_cons, List.filterMap_nil]
    cases ha : a.key? with
    | none => simpa using hold
    | some name =>
      rw [eraseDups_concat]
      split
      · exact hold
      · rename_i hnew
        refine List.pairwise_append.2 ⟨hold, List.pairwise_singleton _ _, fun x hx y hy => ?_⟩
        obtain rfl := List.mem_singleton.1 hy
        obtain ⟨hplace, hlt⟩ := firstPlace_concat_of_mem (List.mem_eraseDups.1 hx) a
        rw [hplace, firstPlace_concat_self hnew ha]
        exact hlt

/-- A name is that of a field, method, getter or setter. -/
theorem mem_key?_iff (log : List (Addition κ)) (name : String) :
    name ∈ log.filterMap Addition.key? ↔
      name ∈ Record.keys (log.filterMap Addition.field?) ∨
        name ∈ Record.keys (log.filterMap Addition.getter?) ∨
        name ∈ Record.keys (log.filterMap Addition.setter?) ∨
        name ∈ Record.keys (log.filterMap Addition.method?) := by
  induction log with
  | nil => simp
  | cons a log ih => cases a <;> simp [List.filterMap_cons, ih, or_assoc, or_left_comm]

/-- A name is that of a field or a getter. -/
theorem mem_property?_iff (log : List (Addition κ)) (name : String) :
    (name ∈ Record.keys (log.filterMap Addition.field?) ∨
        name ∈ Record.keys (log.filterMap Addition.getter?)) ↔
      ∃ a ∈ log, a.property? = some name := by
  induction log with
  | nil => simp
  | cons a log ih =>
    simp only [List.mem_cons, exists_eq_or_imp, ← ih]
    cases a <;> simp [List.filterMap_cons, Addition.property?, eq_comm, or_assoc, or_left_comm]

end Admitted

/-- The key list of a description follows the admitted members. -/
structure Description.KeysFollow (d : Description κ) (log : List (Addition κ)) : Prop where
  nodup : d.keys.Nodup
  /-- The names are those of the four tables. -/
  mem_iff : ∀ name, name ∈ d.keys ↔
    name ∈ Record.keys d.fields ∨ name ∈ Record.keys d.getters ∨ name ∈ Record.keys d.setters ∨
      name ∈ Record.keys d.methods
  /-- Of two names the one that was admitted first comes first. -/
  ordered : d.keys.Pairwise fun x y => Admitted.firstPlace log x < Admitted.firstPlace log y
  /-- Members of the other kinds bring no names. -/
  not_mem : ∀ name, (∀ a ∈ log, a.name? = some name → a.key? = none) → name ∉ d.keys

namespace Builder

theorem keysFollow_ofLog (c : κ) (log : List (Addition κ)) : (ofLog c log).KeysFollow log where
  nodup := nodup_eraseDups _
  mem_iff name := by
    simp only [ofLog, Record.keys_firsts, Record.keys_group, List.mem_eraseDups]
    exact Admitted.mem_key?_iff log name
  ordered := Admitted.pairwise_firstPlace log
  not_mem name h hmem := by
    obtain ⟨a, ha, hkey⟩ := List.mem_filterMap.1 (List.mem_eraseDups.1 hmem)
    have hname : a.name? = some name := by
      cases a <;> simp at hkey <;> simp [Addition.name?, hkey]
    rw [h a ha hname] at hkey
    cases hkey

theorem eq_toDescription_of_publish {b : Builder κ} {policy : CollisionPolicy} {d : Description κ}
    (h : b.publish policy = .ok d) : d = b.toDescription := by
  rw [publish] at h
  split at h
  · cases h
  · exact (Except.ok.inj h).symm

variable [DecidableEq κ]

/-- **The key list is the union of the named tables.** After any steps from the empty builder of a
class, and in whatever is published then, no name is listed twice, a name is listed exactly if the
table of fields, getters, setters or methods has it, the names stand in the order of the first
admitted members that bear them, and names that only generic accessors and apply functions bear
are not listed. -/
theorem run_new_keys (c : κ) (steps : List (BuildStep κ)) :
    let b := ((new c).run steps).1
    b.KeysFollow (admitted c steps) ∧
    ∀ policy d, b.publish policy = .ok d → d.KeysFollow (admitted c steps) := by
  intro b
  have hb : b.KeysFollow (admitted c steps) := by
    have hrun : b = ofLog (classAfter c steps) (admitted c steps) := run_new c steps
    rw [hrun]
    exact keysFollow_ofLog _ _
  refine ⟨hb, fun policy d hd => ?_⟩
  obtain rfl := eq_toDescription_of_publish hd
  exact hb

end Builder

/-! ## Enumerated properties -/

theorem Description.mem_propertyKeys (d : Description κ) (name : String) :
    name ∈ d.propertyKeys ↔ name ∈ Record.keys d.fields ∨ name ∈ Record.keys d.getters := by
  simp only [propertyKeys, List.mem_append, List.mem_filter, Bool.not_eq_true',
    List.contains_eq_mem, decide_eq_false_iff_not]
  by_cases hfield : name ∈ Record.keys d.fields <;> simp [hfield]

theorem Description.nodup_propertyKeys {d : Description κ} (hfields : Record.NodupKeys d.fields)
    (hgetters : Record.NodupKeys d.getters) : d.propertyKeys.Nodup := by
  refine List.nodup_append.2 ⟨hfields, hgetters.filter _, ?_⟩
  intro name hfield other hgetter heq
  have hnot := (List.mem_filter.1 hgetter).2
  simp [← heq, hfield] at hnot

namespace Builder

theorem nodup_propertyKeys_ofLog (c : κ) (log : List (Addition κ)) :
    (ofLog c log).toDescription.propertyKeys.Nodup :=
  Description.nodup_propertyKeys (Record.nodupKeys_firsts _) (Record.nodupKeys_group _)

/-- The names that are enumerated are those of the admitted fields and getters. -/
theorem mem_propertyKeys_ofLog (c : κ) (log : List (Addition κ)) (name : String) :
    name ∈ (ofLog c log).toDescription.propertyKeys ↔ ∃ a ∈ log, a.property? = some name := by
  rw [Description.mem_propertyKeys]
  simp only [ofLog, Record.keys_firsts, Record.keys_group, List.mem_eraseDups]
  exact Admitted.mem_property?_iff log name

end Builder

end HostBridge
