import HostBridge.Record
import Mathlib.Data.List.Induction

/-!
# Records of a list of named things

Two records are made from a list of things with names. `group` has under each name all that bear
it, and `firsts` the first that bears it; both list the names in the order in which they first
occur, which is what `List.eraseDups` leaves of the names.

Both grow with their list one thing at a time (`push_group`, `put_firsts`), so a record that is
filled step by step is a function of the list of what was put into it. What is found under a name
is `get?_group` and `get?_firsts`.
-/

namespace HostBridge

/-! ## Names in the order of first occurrence -/

theorem eraseDups_concat (l : List String) (name : String) :
    (l ++ [name]).eraseDups = if name ∈ l then l.eraseDups else l.eraseDups ++ [name] := by
  rw [List.eraseDups_append]
  by_cases h : name ∈ l
  · simp [List.removeAll, h]
  · simp [List.removeAll, h, List.eraseDups_cons]

theorem nodup_eraseDups (l : List String) : l.eraseDups.Nodup := by
  induction l using List.reverseRecOn with
  | nil => simp
  | append_singleton l name ih =>
    rw [eraseDups_concat]
    split
    · exact ih
    · rename_i h
      refine List.nodup_append.2 ⟨ih, by simp, fun x hx y hy e => h ?_⟩
      rw [List.mem_singleton] at hy
      exact List.mem_eraseDups.1 (hy ▸ e ▸ hx)

theorem eraseDups_of_nodup {l : List String} (h : l.Nodup) : l.eraseDups = l := by
  induction l using List.reverseRecOn with
  | nil => rfl
  | append_singleton l name ih =>
    obtain ⟨hl, -, hne⟩ := List.nodup_append.1 h
    have hname : name ∉ l := fun hm => hne name hm name (by simp) rfl
    rw [eraseDups_concat, if_neg hname, ih hl]

namespace Record

variable {α : Type}

/-- A record is its names with what is found under them. -/
theorem ext_get? {r s : Record α} (hk : keys r = keys s) (hr : NodupKeys r)
    (hg : ∀ name, get? r name = get? s name) : r = s := by
  induction r generalizing s with
  | nil =>
    cases s with
    | nil => rfl
    | cons q s => simp at hk
  | cons p r ih =>
    cases s with
    | nil => simp at hk
    | cons q s =>
      obtain ⟨k, a⟩ := p
      obtain ⟨k', b⟩ := q
      simp only [keys_cons, List.cons.injEq] at hk
      obtain ⟨rfl, hk⟩ := hk
      have hd : k ∉ keys r ∧ NodupKeys r := by simpa [NodupKeys] using hr
      have ha : a = b := by simpa [get?] using hg k
      have htail : r = s := by
        refine ih hk hd.2 fun name => ?_
        by_cases h : k = name
        · subst h
          rw [(get?_eq_none_iff r k).2 hd.1, (get?_eq_none_iff s k).2 (hk ▸ hd.1)]
        · simpa [get?, h] using hg name
      rw [ha, htail]

theorem get?_of_mem {κ : Type} [DecidableEq κ] {r : Record α κ} {name : κ} {a : α}
    (hr : r.NodupKeys) (h : (name, a) ∈ r) : get? r name = some a := by
  induction r with
  | nil => cases h
  | cons e r ih =>
    obtain ⟨k, b⟩ := e
    rw [NodupKeys, keys_cons, List.nodup_cons] at hr
    rcases List.mem_cons.1 h with heq | hmem
    · cases heq
      simp [get?]
    · have hne : k ≠ name := by
        rintro rfl
        exact hr.1 (List.mem_map.2 ⟨_, hmem, rfl⟩)
      rw [get?, if_neg hne]
      exact ih hr.2 hmem

theorem mem_of_get? {r : Record α} {name : String} {a : α}
    (h : get? r name = some a) : (name, a) ∈ r := by
  induction r with
  | nil => cases h
  | cons e r ih =>
    obtain ⟨k, b⟩ := e
    rw [get?] at h
    split at h
    · next hk =>
      cases h
      simp [hk]
    · exact List.mem_cons_of_mem _ (ih h)

theorem has_iff_mem_keys (r : Record α) (name : String) : has r name = true ↔ name ∈ keys r := by
  rw [has, ← not_iff_not, ← get?_eq_none_iff, Bool.not_eq_true, Option.isSome_eq_false_iff,
    Option.isNone_iff_eq_none]

/-! ## All that bear a name -/

/-- What bears a name, in order. -/
def named (l : List (String × α)) (name : String) : List α :=
  l.filterMap fun p => if p.1 = name then some p.2 else none

/-- Under each name, in the order of first occurrence, all that bear it. -/
def group (l : List (String × α)) : Record (List α) :=
  (keys l).eraseDups.map fun name => (name, named l name)

theorem named_concat (l : List (String × α)) (name other : String) (a : α) :
    named (l ++ [(name, a)]) other =
      if name = other then named l other ++ [a] else named l other := by
  by_cases h : name = other <;> simp [named, h]

theorem keys_concat {κ : Type} (l : List (κ × α)) (name : κ) (a : α) :
    keys (l ++ [(name, a)]) = keys l ++ [name] := by
  simp [keys]

theorem named_eq_nil_iff (l : List (String × α)) (name : String) :
    named l name = [] ↔ name ∉ keys l := by
  rw [named, List.filterMap_eq_nil_iff, keys, List.mem_map]
  constructor
  · rintro h ⟨p, hp, rfl⟩
    simpa using h p hp
  · intro h p hp
    exact if_neg fun e => h ⟨p, hp, e⟩

/-- What is found first under a name is the first thing of the list that bears the name and
fits. -/
theorem find?_named {β : Type} (part : β → Option (String × α)) (l : List β) (name : String)
    (p : α → Bool) :
    (named (l.filterMap part) name).find? p =
      l.findSome? fun b =>
        (part b).bind fun q => if q.1 = name ∧ p q.2 then some q.2 else none := by
  rw [named, List.filterMap_filterMap, ← List.head?_filter, List.filter_filterMap,
    List.head?_filterMap]
  congr 1
  funext b
  cases part b with
  | none => rfl
  | some q =>
    by_cases hn : q.1 = name <;> by_cases hp : p q.2 = true <;> simp [hn, hp, Option.filter]

theorem keys_group (l : List (String × α)) : keys (group l) = (keys l).eraseDups := by
  simp [group, keys, Function.comp_def]

theorem get?_map_names (names : List String) (f : String → α) (name : String) :
    get? (names.map fun n => (n, f n)) name = if name ∈ names then some (f name) else none := by
  induction names with
  | nil => simp
  | cons n names ih =>
    by_cases h : n = name
    · simp [get?, h]
    · simp [get?, h, ih, Ne.symm h]

/-- Under a name is found all that bears it, if anything does. -/
theorem get?_group (l : List (String × α)) (name : String) :
    get? (group l) name = if name ∈ keys l then some (named l name) else none := by
  simp [group, get?_map_names, List.mem_eraseDups]

theorem getD_get?_group (l : List (String × α)) (name : String) :
    (get? (group l) name).getD [] = named l name := by
  rw [get?_group]
  split
  · rfl
  · rename_i h
    exact ((named_eq_nil_iff l name).2 h).symm

theorem nodupKeys_group (l : List (String × α)) : NodupKeys (group l) := by
  rw [NodupKeys, keys_group]
  exact nodup_eraseDups _

/-- Appending under a name keeps up with the list. -/
theorem push_group (l : List (String × α)) (name : String) (a : α) :
    push (group l) name a = group (l ++ [(name, a)]) := by
  refine ext_get? ?_ (nodupKeys_put _ _ _ (nodupKeys_group l)) fun other => ?_
  · rw [push, keys_put, keys_group, keys_group, keys_concat, eraseDups_concat]
    simp only [List.mem_eraseDups]
  · rw [push, get?_put, getD_get?_group, get?_group, get?_group, keys_concat, named_concat]
    by_cases h : name = other
    · simp [h]
    · simp [h, Ne.symm h]

/-! ## The first that bears a name -/

/-- Under each name, in the order of first occurrence, the first that bears it. -/
def firsts (l : List (String × α)) : Record α :=
  (keys l).eraseDups.filterMap fun name => (get? l name).map fun a => (name, a)

theorem keys_filterMap_get? (l : List (String × α)) {names : List String}
    (h : ∀ n ∈ names, n ∈ keys l) :
    keys (names.filterMap fun n => (get? l n).map fun a => (n, a)) = names := by
  induction names with
  | nil => rfl
  | cons n names ih =>
    obtain ⟨a, ha⟩ : ∃ a, get? l n = some a := by
      refine Option.ne_none_iff_exists'.1 fun hn => ?_
      exact (get?_eq_none_iff l n).1 hn (h n (by simp))
    simp [ha, ih fun m hm => h m (by simp [hm])]

theorem keys_firsts (l : List (String × α)) : keys (firsts l) = (keys l).eraseDups :=
  keys_filterMap_get? l fun _ h => List.mem_eraseDups.1 h

theorem get?_filterMap_get? (l : List (String × α)) (names : List String) (name : String) :
    get? (names.filterMap fun n => (get? l n).map fun a => (n, a)) name =
      if name ∈ names then get? l name else none := by
  induction names with
  | nil => simp
  | cons n names ih =>
    cases hn : get? l n with
    | none =>
      by_cases h : n = name
      · subst h; simp [hn, ih]
      · simp [hn, ih, Ne.symm h]
    | some a =>
      by_cases h : n = name
      · subst h; simp [hn, get?]
      · simp [hn, get?, h, ih, Ne.symm h]

/-- Under a name is found what the list has first under it. -/
theorem get?_firsts (l : List (String × α)) (name : String) :
    get? (firsts l) name = get? l name := by
  rw [firsts, get?_filterMap_get?]
  split
  · rfl
  · rename_i h
    rw [List.mem_eraseDups] at h
    exact ((get?_eq_none_iff l name).2 h).symm

theorem nodupKeys_firsts (l : List (String × α)) : NodupKeys (firsts l) := by
  rw [NodupKeys, keys_firsts]
  exact nodup_eraseDups _

/-- Where no name is repeated, everything is the first of its name. -/
theorem firsts_of_nodupKeys {l : List (String × α)} (h : NodupKeys l) : firsts l = l :=
  ext_get? (by rw [keys_firsts, eraseDups_of_nodup h]) (nodupKeys_firsts l) (get?_firsts l)

theorem get?_append (l m : List (String × α)) (name : String) :
    get? (l ++ m) name = (get? l name).or (get? m name) := by
  induction l with
  | nil => simp
  | cons p l ih =>
    obtain ⟨k, a⟩ := p
    by_cases h : k = name <;> simp [get?, h, ih]

/-- Storing what bears a new name, and nothing else, keeps up with the list. -/
theorem put_firsts (l : List (String × α)) (name : String) (a : α) :
    (if has (firsts l) name then firsts l else put (firsts l) name a) =
      firsts (l ++ [(name, a)]) := by
  have hhas : has (firsts l) name = true ↔ name ∈ keys l := by
    rw [has_iff_mem_keys, keys_firsts, List.mem_eraseDups]
  by_cases h : name ∈ keys l
  · rw [if_pos (hhas.2 h)]
    refine ext_get? ?_ (nodupKeys_firsts l) fun other => ?_
    · rw [keys_firsts, keys_firsts, keys_concat, eraseDups_concat, if_pos h]
    · rw [get?_firsts, get?_firsts, get?_append]
      by_cases ho : name = other
      · subst ho
        obtain ⟨b, hb⟩ := Option.ne_none_iff_exists'.1 fun hn => (get?_eq_none_iff l name).1 hn h
        simp [hb]
      · simp [get?, ho]
  · rw [if_neg (mt hhas.1 h)]
    refine ext_get? ?_ (nodupKeys_put _ _ _ (nodupKeys_firsts l)) fun other => ?_
    · rw [keys_put, keys_firsts, keys_firsts, keys_concat, eraseDups_concat]
      simp only [List.mem_eraseDups]
    · rw [get?_put, get?_firsts, get?_firsts, get?_append]
      by_cases ho : name = other
      · subst ho
        simp [get?, (get?_eq_none_iff l name).2 h]
      · simp [get?, ho]

end Record

end HostBridge
