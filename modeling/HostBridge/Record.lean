/-!
# Records

A record is a list of named entries in the order in which their names first came. Storing under a
name that is there keeps its place; a new name goes last. The key list and `get?` say all there is
to know: `get?_put` and `keys_put` are the two laws.
-/

namespace HostBridge

/-- Named entries in the order of their first appearance. Names are texts, unless they are said to
be something else. -/
abbrev Record (α : Type) (κ : Type := String) := List (κ × α)

namespace Record

variable {α κ : Type} [DecidableEq κ]

/-- The entry under a name. -/
def get? : Record α κ → κ → Option α
  | [], _ => none
  | (k, a) :: r, name => if k = name then some a else get? r name

/-- The names, in order. -/
def keys (r : Record α κ) : List κ := r.map (·.1)

/-- The name has an entry. -/
def has (r : Record α κ) (name : κ) : Bool := (get? r name).isSome

/-- Store an entry: in place of the one under the same name, or last. -/
def put : Record α κ → κ → α → Record α κ
  | [], name, a => [(name, a)]
  | (k, b) :: r, name, a => if k = name then (k, a) :: r else (k, b) :: put r name a

/-- The record of a list of pairs. A repeated name keeps its first place and its last entry. -/
def ofList (l : List (κ × α)) : Record α κ := l.foldl (fun r p => put r p.1 p.2) []

/-- Append to the list under a name, starting one if there is none. -/
def push (r : Record (List α) κ) (name : κ) (a : α) : Record (List α) κ :=
  put r name ((get? r name).getD [] ++ [a])

/-- Names are not repeated. -/
def NodupKeys (r : Record α κ) : Prop := (keys r).Nodup

@[simp] theorem get?_nil (name : κ) : get? ([] : Record α κ) name = none := rfl

omit [DecidableEq κ] in
@[simp] theorem keys_nil : keys ([] : Record α κ) = [] := rfl

omit [DecidableEq κ] in
@[simp] theorem keys_cons (p : κ × α) (r : Record α κ) : keys (p :: r) = p.1 :: keys r := rfl

omit [DecidableEq κ] in
theorem keys_map {β : Type} (f : α → β) (r : Record α κ) :
    keys (r.map fun e => (e.1, f e.2)) = r.keys := by
  simp [keys]

theorem get?_put_self (r : Record α κ) (name : κ) (a : α) :
    get? (put r name a) name = some a := by
  induction r with
  | nil => simp [put, get?]
  | cons p r ih =>
    obtain ⟨k, b⟩ := p
    by_cases h : k = name <;> simp [put, get?, h, ih]

theorem get?_put_of_ne (r : Record α κ) {name other : κ} (a : α) (h : name ≠ other) :
    get? (put r name a) other = get? r other := by
  induction r with
  | nil => simp [put, get?, h]
  | cons p r ih =>
    obtain ⟨k, b⟩ := p
    by_cases hk : k = name
    · subst hk; simp [put, get?, h]
    · simp [put, get?, hk, ih]

theorem get?_put (r : Record α κ) (name other : κ) (a : α) :
    get? (put r name a) other = if name = other then some a else get? r other := by
  by_cases h : name = other
  · subst h; simp [get?_put_self]
  · simp [h, get?_put_of_ne]

theorem get?_eq_none_iff (r : Record α κ) (name : κ) :
    get? r name = none ↔ name ∉ keys r := by
  induction r with
  | nil => simp
  | cons p r ih =>
    obtain ⟨k, b⟩ := p
    by_cases h : k = name
    · simp [get?, h]
    · simp [get?, h, ih, Ne.symm h]

theorem keys_put_of_mem (r : Record α κ) {name : κ} (a : α) (h : name ∈ keys r) :
    keys (put r name a) = keys r := by
  induction r with
  | nil => simp at h
  | cons p r ih =>
    obtain ⟨k, b⟩ := p
    by_cases hk : k = name
    · simp [put, hk]
    · have : name ∈ keys r := by simpa [Ne.symm hk] using h
      simp [put, hk, ih this]

theorem keys_put_of_not_mem (r : Record α κ) {name : κ} (a : α) (h : name ∉ keys r) :
    keys (put r name a) = keys r ++ [name] := by
  induction r with
  | nil => simp [put]
  | cons p r ih =>
    obtain ⟨k, b⟩ := p
    simp only [keys_cons, List.mem_cons, not_or] at h
    simp [put, Ne.symm h.1, ih h.2]

theorem keys_put (r : Record α κ) (name : κ) (a : α) :
    keys (put r name a) = if name ∈ keys r then keys r else keys r ++ [name] := by
  by_cases h : name ∈ keys r
  · simp [h, keys_put_of_mem]
  · simp [h, keys_put_of_not_mem]

theorem nodupKeys_put (r : Record α κ) (name : κ) (a : α) (h : NodupKeys r) :
    NodupKeys (put r name a) := by
  unfold NodupKeys at *
  rw [keys_put]
  by_cases hm : name ∈ keys r
  · simpa [hm] using h
  · simp only [hm, if_false]
    refine List.nodup_append.2 ⟨h, by simp, fun x hx y hy e => hm ?_⟩
    simp only [List.mem_singleton] at hy
    exact hy ▸ e ▸ hx

end Record

end HostBridge
