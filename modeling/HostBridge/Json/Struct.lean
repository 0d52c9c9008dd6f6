import HostBridge.Json.Skip

/-!
# Reading values of known types

Flags, texts, choices among named variants, and structures with named fields.

A structure is an object or a list of its fields in order. Fields that are not given keep what they
are; names that are no fields are passed over with their values; a field given twice is a mismatch.
A choice is the name of a variant, or an object whose one entry has that name and the value null.

A value of another type is a mismatch once it has been read far enough to tell what it is
(`wrongType`); in the place of a choice it is malformed.
-/

namespace HostBridge.Json

/-- The fault of a number in the place of something else. -/
def wrongNumber (cs : List Char) : Fault :=
  match Numeral.read .ended cs with
  | .error f => f
  | .ok (n, _) => if n.exceeds then .malformed else .mismatch

/-- The fault of a word in the place of something else. -/
def wrongWord (w cs : List Char) : Fault :=
  match word w cs with
  | .error f => f
  | .ok _ => .mismatch

/-- The fault of a value in the place of something else. -/
def wrongType : List Char → Fault
  | [] => .ended
  | '"' :: rest =>
    match Quoted.read rest with
    | .error f => f
    | .ok _ => .mismatch
  | 'n' :: rest => wrongWord ['u', 'l', 'l'] rest
  | 't' :: rest => wrongWord ['r', 'u', 'e'] rest
  | 'f' :: rest => wrongWord ['a', 'l', 's', 'e'] rest
  | '-' :: rest => wrongNumber rest
  | c :: rest =>
    if c = '[' ∨ c = '{' then .mismatch
    else if Numeral.isDigit c then wrongNumber (c :: rest)
    else .malformed

/-- Read a flag. -/
def readFlag : Reader Bool := fun cs =>
  match dropBlanks cs with
  | 't' :: rest => (word ['r', 'u', 'e'] rest).map fun rest => (true, rest)
  | 'f' :: rest => (word ['a', 'l', 's', 'e'] rest).map fun rest => (false, rest)
  | cs => .error (wrongType cs)

/-- Read a text. -/
def readText : Reader String := fun cs =>
  match dropBlanks cs with
  | '"' :: rest => (Quoted.read rest).map fun r => (String.ofList r.1, r.2)
  | cs => .error (wrongType cs)

/-- Read null. -/
def readNull : List Char → Except Fault (List Char) := fun cs =>
  match dropBlanks cs with
  | 'n' :: rest => word ['u', 'l', 'l'] rest
  | cs => .error (wrongType cs)

/-- Read the name of a variant. -/
def readVariant {α : Type} (variant : String → Option α) : Reader α := fun cs =>
  match readText cs with
  | .error f => .error f
  | .ok (name, rest) =>
    match variant name with
    | some a => .ok (a, rest)
    | none => .error .mismatch

/-- Read the name of a variant where a name is due: anything but a text is malformed. -/
def readDueVariant {α : Type} (variant : String → Option α) : Reader α := fun cs =>
  match dropBlanks cs with
  | [] => .error .ended
  | c :: rest => if c = '"' then readVariant variant (c :: rest) else .error .malformed

/-- Read a choice. -/
def readChoice {α : Type} (variant : String → Option α) : Reader α := fun cs =>
  match dropBlanks cs with
  | [] => .error .ended
  | c :: rest =>
    if c = '"' then readVariant variant (c :: rest)
    else if c = '{' then
      match readDueVariant variant rest with
      | .error f => .error f
      | .ok (a, rest) =>
        match colon rest with
        | .error f => .error f
        | .ok rest =>
          match readNull rest with
          | .error f => .error f
          | .ok rest =>
            match dropBlanks rest with
            | [] => .error .ended
            | c :: rest => if c = '}' then .ok (a, rest) else .error .malformed
    else .error .malformed

theorem length_map_word_lt {α : Type} {a b : α} {w cs cs' rest : List Char} {c : Char}
    (hd : dropBlanks cs = c :: cs')
    (h : (word w cs').map (fun rest => (a, rest)) = .ok (b, rest)) :
    rest.length < cs.length := by
  have hb := length_dropBlanks_le cs
  cases hw : word w cs' with
  | error f => simp [hw, Except.map] at h
  | ok r =>
    have := length_word_le hw
    simp only [hw, Except.map, Except.ok.injEq, Prod.mk.injEq] at h
    rw [hd] at hb
    simp only [List.length_cons] at hb
    rw [← h.2]
    omega

theorem length_readFlag_lt {cs rest : List Char} {b : Bool} (h : readFlag cs = .ok (b, rest)) :
    rest.length < cs.length := by
  unfold readFlag at h
  split at h
  · exact length_map_word_lt ‹_› h
  · exact length_map_word_lt ‹_› h
  · simp at h

theorem length_readText_lt {cs rest : List Char} {t : String}
    (h : readText cs = .ok (t, rest)) : rest.length < cs.length := by
  have hb := length_dropBlanks_le cs
  unfold readText at h
  split at h
  · rename_i cs' hd
    cases hr : Quoted.read cs' with
    | error f => simp [hr, Except.map] at h
    | ok p =>
      have := Quoted.length_read_lt _ _ _ hr
      simp only [hr, Except.map, Except.ok.injEq, Prod.mk.injEq] at h
      rw [hd] at hb
      simp only [List.length_cons] at hb
      rw [← h.2]
      omega
  · simp at h

theorem length_readNull_lt {cs rest : List Char} (h : readNull cs = .ok rest) :
    rest.length < cs.length := by
  have hb := length_dropBlanks_le cs
  unfold readNull at h
  split at h
  · rename_i hd
    have := length_word_le h
    rw [hd] at hb
    simp only [List.length_cons] at hb
    omega
  · simp at h

theorem length_readVariant_lt {α : Type} {variant : String → Option α} {cs rest : List Char}
    {a : α} (h : readVariant variant cs = .ok (a, rest)) : rest.length < cs.length := by
  unfold readVariant at h
  split at h
  · simp at h
  · rename_i hr
    have := length_readText_lt hr
    split at h
    · simp_all
    · simp at h

theorem length_readDueVariant_lt {α : Type} {variant : String → Option α} {cs rest : List Char}
    {a : α} (h : readDueVariant variant cs = .ok (a, rest)) : rest.length < cs.length := by
  have hb := length_dropBlanks_le cs
  unfold readDueVariant at h
  split at h
  · simp at h
  · rename_i c cs' hd
    rw [hd] at hb
    split at h
    · exact Nat.lt_of_lt_of_le (length_readVariant_lt h) hb
    · simp at h

theorem length_readChoice_lt {α : Type} {variant : String → Option α} {cs rest : List Char}
    {a : α} (h : readChoice variant cs = .ok (a, rest)) : rest.length < cs.length := by
  unfold readChoice at h
  repeat' split at h
  all_goals
    grind [→ length_readVariant_lt, → length_readDueVariant_lt, → length_colon_lt,
      → length_readNull_lt, length_dropBlanks_le]

/-! ## Structures -/

/-- A field of a structure: its name, and how its value is read into the structure. -/
structure Field (σ : Type) where
  name : String
  read : σ → Reader σ
  shrinks : ∀ s, (read s).Shrinks

/-- Read a name that is due. -/
def readDueName : List Char → Except Fault (Option String × List Char)
  | [] => .error .ended
  | c :: rest =>
    if c = '"' then (Quoted.read rest).map fun r => (some (String.ofList r.1), r.2)
    else .error .malformed

/-- Read the name of the next entry of an object, or nothing when the object is closed. -/
def readName (first : Bool) (cs : List Char) : Except Fault (Option String × List Char) :=
  match dropBlanks cs with
  | [] => .error .ended
  | c :: rest =>
    if c = '}' then .ok (none, rest)
    else if first then readDueName (c :: rest)
    else if c = ',' then readDueName (dropBlanks rest)
    else .error .malformed

theorem length_readDueName_lt {cs rest : List Char} {name : Option String}
    (h : readDueName cs = .ok (name, rest)) : rest.length < cs.length := by
  cases cs with
  | nil => simp [readDueName] at h
  | cons c cs =>
    simp only [readDueName] at h
    split at h
    · cases hr : Quoted.read cs with
      | error f => simp [hr, Except.map] at h
      | ok p =>
        simp only [hr, Except.map, Except.ok.injEq, Prod.mk.injEq] at h
        exact h.2 ▸ Nat.lt_succ_of_lt (Quoted.length_read_lt _ _ _ hr)
    · simp at h

theorem length_readName_lt {first : Bool} {cs rest : List Char} {name : Option String}
    (h : readName first cs = .ok (name, rest)) : rest.length < cs.length := by
  have hb := length_dropBlanks_le cs
  unfold readName at h
  split at h
  · simp at h
  · rename_i c cs' hd
    rw [hd] at hb
    simp only [List.length_cons] at hb
    split at h
    · simp only [Except.ok.injEq, Prod.mk.injEq] at h
      rw [← h.2]
      omega
    · split at h
      · have := length_readDueName_lt h
        simp only [List.length_cons] at this
        omega
      · split at h
        · have := length_readDueName_lt h
          have := length_dropBlanks_le cs'
          omega
        · simp at h

variable {σ : Type}

/-- Read the entries of an object into a structure. `seen` are the names of the fields given so
far. -/
def readEntries (fields : List (Field σ)) (seen : List String) (first : Bool) (s : σ)
    (cs : List Char) : Except Fault (σ × List Char) :=
  match _hn : readName first cs with
  | .error f => .error f
  | .ok (none, rest) => .ok (s, rest)
  | .ok (some name, rest) =>
    match fields.find? fun f => f.name == name with
    | none =>
      match _hc : colon rest with
      | .error f => .error f
      | .ok rest =>
        match _hs : skipValue rest with
        | .error f => .error f
        | .ok rest => readEntries fields seen false s rest
    | some field =>
      if name ∈ seen then .error .mismatch
      else
        match _hc : colon rest with
        | .error f => .error f
        | .ok rest =>
          match _hr : field.read s rest with
          | .error f => .error f
          | .ok (s, rest) => readEntries fields (name :: seen) false s rest
termination_by cs.length
decreasing_by
  · have h1 := length_readName_lt _hn
    have h2 := length_colon_lt _hc
    have h3 := length_skipValue_le _hs
    omega
  · have h1 := length_readName_lt _hn
    have h2 := length_colon_lt _hc
    have h3 := field.shrinks _ _ _ _ _hr
    omega

/-- Read the items of a list into the fields of a structure, one after the other. -/
def readItems (first : Bool) (s : σ) : List (Field σ) → Reader σ
  | [], cs =>
    match dropBlanks cs with
    | [] => .error .ended
    | c :: rest => if c = ']' then .ok (s, rest) else .error .malformed
  | field :: fields, cs =>
    match dropBlanks cs with
    | [] => .error .ended
    | c :: rest =>
      if c = ']' then .ok (s, rest)
      else if first then
        match field.read s (c :: rest) with
        | .error f => .error f
        | .ok (s, rest) => readItems false s fields rest
      else if c = ',' then
        match dropBlanks rest with
        | [] => .error .ended
        | c :: rest =>
          if c = ']' then .error .malformed
          else
            match field.read s (c :: rest) with
            | .error f => .error f
            | .ok (s, rest) => readItems false s fields rest
      else .error .malformed

/-- Read a structure whose fields start out as in `s`. -/
def readStruct (fields : List (Field σ)) (s : σ) : Reader σ := fun cs =>
  match dropBlanks cs with
  | [] => .error .ended
  | c :: rest =>
    if c = '[' then readItems true s fields rest
    else if c = '{' then readEntries fields [] true s rest
    else .error (wrongType (c :: rest))

theorem length_readEntries_lt {fields : List (Field σ)} {seen : List String} {first : Bool}
    {s t : σ} {cs rest : List Char} (h : readEntries fields seen first s cs = .ok (t, rest)) :
    rest.length < cs.length := by
  fun_induction readEntries fields seen first s cs <;>
    grind [→ length_readName_lt, → length_colon_lt, → length_skipValue_le, Reader.Shrinks,
      Field.shrinks]

theorem length_readItems_lt {fields : List (Field σ)} {first : Bool} {s t : σ}
    {cs rest : List Char} (h : readItems first s fields cs = .ok (t, rest)) :
    rest.length < cs.length := by
  fun_induction readItems first s fields cs <;>
    grind [length_dropBlanks_le, Reader.Shrinks, Field.shrinks]

theorem length_readStruct_lt {fields : List (Field σ)} {s t : σ} {cs rest : List Char}
    (h : readStruct fields s cs = .ok (t, rest)) : rest.length < cs.length := by
  unfold readStruct at h
  grind [→ length_readItems_lt, → length_readEntries_lt, length_dropBlanks_le]

theorem shrinks_readStruct (fields : List (Field σ)) (s : σ) : (readStruct fields s).Shrinks :=
  fun _ _ _ h => Nat.le_of_lt (length_readStruct_lt h)

/-! ## Fields -/

namespace Field

/-- A field whose value is read on its own and then stored. -/
def storing {α : Type} (name : String) (read : Reader α) (store : σ → α → σ)
    (shrinks : read.Shrinks) : Field σ where
  name
  read s cs := (read cs).map fun r => (store s r.1, r.2)
  shrinks s cs t rest h := by
    cases hr : read cs with
    | error f => simp [hr, Except.map] at h
    | ok p =>
      simp only [hr, Except.map, Except.ok.injEq, Prod.mk.injEq] at h
      exact h.2 ▸ shrinks cs p.1 p.2 hr

/-- A structure in the structure, whose fields start out as in `start`. -/
def struct {τ : Type} (name : String) (fields : List (Field τ)) (start : τ) (store : σ → τ → σ) :
    Field σ :=
  storing name (readStruct fields start) store (shrinks_readStruct fields start)

end Field

/-- Read a structure from a whole text. Nothing but white space may follow it. -/
def readWhole (fields : List (Field σ)) (start : σ) (text : String) : Except Fault σ :=
  match readStruct fields start text.toList with
  | .error f => .error f
  | .ok (s, rest) => if dropBlanks rest = [] then .ok s else .error .malformed

end HostBridge.Json
