import HostBridge.Proofs.Skipping
import Mathlib.Data.List.Nodup

/-!
# Objects of a known shape

A shape says which trees are of the right type and which are sure to be of a wrong one.
`Reader.Meets` ties a reader to its shape and to what it makes of a tree. An object fits the shapes
of its fields if each known name is given at most once, with a value of its shape (`Fits`). Other
names may stand between them with any values. An object misfits if a known name is repeated or a
value is refused by its shape (`Misfits`). Neither depends on how the object is spelled.

A reader has to look at every name of an object whose fields it knows, known or not, and cannot go
on at one that denotes no text. So it takes an object that fits only if all these names are legible
(`Legible`), and refuses one with a name that is not.

The main statement is `meets_readStruct`: if the reader of each field meets a shape, the reader of
the structure meets the shape of the object.
-/

namespace HostBridge.Json

variable {α σ τ : Type}

/-! ## What trees denote -/

namespace Tree

/-- The flag that a tree is. -/
def flag? : Tree → Option Bool
  | flag b => some b
  | _ => none

/-- The text that a tree denotes. -/
def text? : Tree → Option String
  | text q => q.string?
  | _ => none

/-- The flag that a tree is or the text that it denotes. -/
def scalar? : Tree → Option (Bool ⊕ String)
  | flag b => some (.inl b)
  | text q => q.string?.map .inr
  | _ => none

/-- The variant that a tree names. -/
def variant? (variant : String → Option α) (t : Tree) : Option α := t.text?.bind variant

/-- The members of a tree that is an object. -/
def members? : Tree → Option (List Member)
  | object _ members => some members
  | _ => none

theorem flag?_eq (t : Tree) : t.flag? = t.scalar?.bind Sum.getLeft? := by
  cases t with
  | text q => cases h : q.string? <;> simp [flag?, scalar?, h]
  | _ => rfl

theorem text?_eq (t : Tree) : t.text? = t.scalar?.bind Sum.getRight? := by
  cases t with
  | text q => cases h : q.string? <;> simp [text?, scalar?, h]
  | _ => rfl

theorem variant?_eq (variant : String → Option α) (t : Tree) :
    t.variant? variant = t.scalar?.bind fun v => v.getRight?.bind variant := by
  rw [variant?, text?_eq, Option.bind_assoc]

end Tree

namespace Member

/-- What the name of a member denotes. -/
def name? (m : Member) : Option String := m.1.content.string?

/-- The value of a member. -/
def tree (m : Member) : Tree := m.2.content

end Member

/-- The value of the first member with this name. -/
def valueOf? (ms : List Member) (name : String) : Option Tree :=
  (ms.find? fun m => m.name? == some name).map Member.tree

/-- Those of the names of members that are in a list, as often as they are given. -/
def namesIn (names : List String) (ms : List Member) : List String :=
  (ms.filterMap Member.name?).filter (· ∈ names)

section Names

variable {names : List String} {name : String} {m : Member} {ms : List Member}

theorem namesIn_cons_of_mem (h : m.name? = some name) (hmem : name ∈ names) :
    namesIn names (m :: ms) = name :: namesIn names ms := by
  simp [namesIn, h, hmem]

theorem namesIn_cons_of_not_mem (h : m.name? = some name) (hmem : name ∉ names) :
    namesIn names (m :: ms) = namesIn names ms := by
  simp [namesIn, h, hmem]

theorem mem_namesIn (hm : m ∈ ms) (h : m.name? = some name) (hmem : name ∈ names) :
    name ∈ namesIn names ms :=
  List.mem_filter.2 ⟨List.mem_filterMap.2 ⟨m, hm, h⟩, decide_eq_true hmem⟩

theorem nodup_namesIn_of_cons (h : (namesIn names (m :: ms)).Nodup) : (namesIn names ms).Nodup := by
  have hsub : (namesIn names ms).Sublist (namesIn names (m :: ms)) :=
    ((List.sublist_cons_self m ms).filterMap _).filter _
  exact h.sublist hsub

theorem exists_of_valueOf? {t : Tree} (h : valueOf? ms name = some t) :
    ∃ m ∈ ms, m.name? = some name ∧ m.tree = t := by
  obtain ⟨m, hm, htree⟩ := Option.map_eq_some_iff.1 h
  exact ⟨m, List.mem_of_find?_eq_some hm, by simpa using List.find?_some hm, htree⟩

theorem valueOf?_cons_of_name (h : m.name? = some name) :
    valueOf? (m :: ms) name = some m.tree := by
  simp [valueOf?, h]

theorem valueOf?_cons_of_ne (h : m.name? ≠ some name) :
    valueOf? (m :: ms) name = valueOf? ms name := by
  simp [valueOf?, h]

/-- A name that is given once has the value it is given with. -/
theorem valueOf?_eq_some (honce : (namesIn names ms).Nodup) (hmem : name ∈ names) (hm : m ∈ ms)
    (h : m.name? = some name) : valueOf? ms name = some m.tree := by
  induction ms with
  | nil => cases hm
  | cons m' ms ih =>
    rcases List.mem_cons.1 hm with rfl | hm
    · exact valueOf?_cons_of_name h
    · have hne : m'.name? ≠ some name := by
        intro h'
        rw [namesIn_cons_of_mem h' hmem] at honce
        exact (List.nodup_cons.1 honce).1 (mem_namesIn hm h hmem)
      rw [valueOf?_cons_of_ne hne, ih (nodup_namesIn_of_cons honce) hm]

end Names

/-! ## Shapes -/

/-- Which trees are of the right type, and which are sure to be of a wrong one. -/
structure Shape where
  admits : Tree → Prop
  refuses : Tree → Prop
  /-- The names in the tree that a reader has to look at denote texts. -/
  legible : Tree → Prop

/-- The members give each known name at most once and with a value of its shape. -/
structure Fits (shapes : List (String × Shape)) (ms : List Member) : Prop where
  once : (namesIn (shapes.map Prod.fst) ms).Nodup
  admitted : ∀ e ∈ shapes, ∀ m ∈ ms, m.name? = some e.1 → e.2.admits m.tree

theorem Fits.of_valueOf? {shapes : List (String × Shape)} {ms : List Member}
    (honce : (namesIn (shapes.map Prod.fst) ms).Nodup)
    (h : ∀ e ∈ shapes, ∀ t, valueOf? ms e.1 = some t → e.2.admits t) : Fits shapes ms where
  once := honce
  admitted e he m hm hname :=
    h e he m.tree (valueOf?_eq_some honce (List.mem_map_of_mem he) hm hname)

/-- All names denote texts, those of the members and those in the values of known names. -/
structure Legible (shapes : List (String × Shape)) (ms : List Member) : Prop where
  named : ∀ m ∈ ms, m.name?.isSome
  inside : ∀ e ∈ shapes, ∀ m ∈ ms, m.name? = some e.1 → e.2.legible m.tree

theorem Legible.of_valueOf? {shapes : List (String × Shape)} {ms : List Member}
    (hnamed : ∀ m ∈ ms, m.name?.isSome) (honce : (namesIn (shapes.map Prod.fst) ms).Nodup)
    (h : ∀ e ∈ shapes, ∀ t, valueOf? ms e.1 = some t → e.2.legible t) : Legible shapes ms where
  named := hnamed
  inside e he m hm hname :=
    h e he m.tree (valueOf?_eq_some honce (List.mem_map_of_mem he) hm hname)

/-- A known name is repeated, or has a value of a wrong type. -/
inductive Misfits (shapes : List (String × Shape)) (ms : List Member) : Prop
  /-- A known name is repeated. -/
  | repeated (h : ¬(namesIn (shapes.map Prod.fst) ms).Nodup)
  /-- A known name has a value that is refused. -/
  | refused {e : String × Shape} {m : Member} (he : e ∈ shapes) (hm : m ∈ ms)
      (hname : m.name? = some e.1) (h : e.2.refuses m.tree)

namespace Shape

/-- Flags. -/
def flag : Shape where
  admits t := t.flag?.isSome
  refuses t := t.flag? = none
  legible _ := True

/-- Texts. -/
def text : Shape where
  admits t := t.text?.isSome
  refuses t := t.text? = none
  legible _ := True

/-- Names of variants. Of other trees, only texts are sure to be refused. -/
def choice (variant : String → Option α) : Shape where
  admits t := (t.variant? variant).isSome
  refuses t := ∃ q, t = .text q ∧ t.variant? variant = none
  legible _ := True

/-- Objects with members of these shapes. Lists are neither. -/
def object (shapes : List (String × Shape)) : Shape where
  admits t := ∃ inside ms, t = .object inside ms ∧ Fits shapes ms
  refuses t := t.IsScalar ∨ ∃ inside ms, t = .object inside ms ∧ Misfits shapes ms
  legible t := ∀ inside ms, t = .object inside ms → Legible shapes ms

end Shape

/-! ## Readers and shapes -/

/-- The reader does not take a text that starts with the tree. -/
def Reader.Refuses (p : Reader α) (t : Tree) : Prop :=
  ∀ cs rest r, dropBlanks cs = t.chars ++ rest → p cs ≠ .ok r

/-- The reader takes what the shape admits, if it is legible, for what `value?` makes of it, and
refuses what the shape refuses and what is not legible. -/
structure Reader.Meets (p : Reader α) (shape : Shape) (value? : Tree → Option α) : Prop where
  skipsBlanks : SkipsBlanks p
  skipped : p.Skipped
  reads : ∀ t, shape.admits t → shape.legible t → ∃ a, value? t = some a ∧ Reads p t.chars a
  refuses : ∀ t, shape.refuses t → p.Refuses t
  illegible : ∀ t, ¬shape.legible t → p.Refuses t

section Leaves

variable {t : Tree} {c : Char} {cs rest tail : List Char}

theorem Tree.startsWith_of_eq (h : t.chars ++ rest = c :: tail) : t.startsWith c = true := by
  obtain ⟨c', cs', -, heq, hc⟩ := t.dropBlanks_chars rest
  cases heq.symm.trans h
  exact hc

theorem Tree.exists_flag_of_startsWith (h : t.startsWith 't' = true ∨ t.startsWith 'f' = true) :
    ∃ b, t = .flag b := by
  cases t with
  | flag b => exact ⟨b, rfl⟩
  | null => simp [startsWith] at h
  | number n => simp [startsWith, Numeral.isDigit] at h
  | text q => simp [startsWith] at h
  | list inside items => simp [startsWith] at h
  | object inside members => simp [startsWith] at h

theorem Tree.exists_text_of_eq (h : t.chars ++ rest = '"' :: tail) :
    ∃ q : Literal, t = .text q ∧ tail = q.inner ++ '"' :: rest := by
  have hc := startsWith_of_eq h
  cases t with
  | text q =>
    refine ⟨q, rfl, ?_⟩
    simpa [chars, Literal.chars] using h.symm
  | null => simp [startsWith] at hc
  | flag b => simp [startsWith] at hc
  | number n => simp [startsWith, Numeral.isDigit] at hc
  | list inside items => simp [startsWith] at hc
  | object inside members => simp [startsWith] at hc

theorem refuses_readFlag (h : t.flag? = none) : readFlag.Refuses t := by
  intro cs rest r hcs hread
  have hflag : ¬(t.startsWith 't' = true ∨ t.startsWith 'f' = true) := by
    intro hc
    obtain ⟨b, rfl⟩ := Tree.exists_flag_of_startsWith hc
    cases h
  rw [readFlag, hcs] at hread
  split at hread
  · next heq => exact hflag (.inl (Tree.startsWith_of_eq heq))
  · next heq => exact hflag (.inr (Tree.startsWith_of_eq heq))
  · cases hread

theorem meets_readFlag : readFlag.Meets .flag Tree.flag? where
  skipsBlanks := skipsBlanks_readFlag
  skipped := skipped_readFlag
  reads t h _ := by
    cases t with
    | flag b => exact ⟨b, rfl, reads_flagText b⟩
    | _ => cases h
  refuses _ h := refuses_readFlag h
  illegible _ h := absurd trivial h

theorem reads_literal {q : Literal} {s : String} (h : q.string? = some s) :
    Reads readText q.chars s := by
  intro rest
  obtain ⟨u, hu, rfl⟩ := Option.map_eq_some_iff.1 h
  have hread : Quoted.read (q.inner ++ '"' :: rest) = .ok (u, rest) :=
    eq_ok_of_toOption (by rw [q.toOption_read_inner, hu]; rfl)
  have hchars : q.chars ++ rest = '"' :: (q.inner ++ '"' :: rest) := by
    simp [Literal.chars]
  rw [hchars, readText, dropBlanks_cons (by decide)]
  simp [hread, Except.map]

/-- A tree that is read as a text denotes it. -/
theorem text?_of_readText {s : String} {rest' : List Char} (hcs : dropBlanks cs = t.chars ++ rest)
    (h : readText cs = .ok (s, rest')) : t.text? = some s := by
  obtain ⟨tail, u, hd, hread, hs⟩ := exists_read_of_readText h
  obtain ⟨q, rfl, rfl⟩ := Tree.exists_text_of_eq (hcs.symm.trans hd)
  have hmeaning := q.toOption_read_inner rest
  rw [hread] at hmeaning
  obtain ⟨v, hv, hpair⟩ := Option.map_eq_some_iff.1 hmeaning.symm
  cases hpair
  rw [Tree.text?, Literal.string?, hv, hs]
  rfl

theorem meets_readText : readText.Meets .text Tree.text? where
  skipsBlanks := skipsBlanks_readText
  skipped := skipped_readText
  reads t h _ := by
    cases t with
    | text q =>
      obtain ⟨s, hs⟩ := Option.isSome_iff_exists.1 h
      exact ⟨s, hs, reads_literal hs⟩
    | _ => cases h
  refuses t h cs rest r hcs hread := by
    cases (text?_of_readText hcs hread).symm.trans h
  illegible _ h := absurd trivial h

theorem meets_readChoice (variant : String → Option α) :
    (readChoice variant).Meets (.choice variant) (Tree.variant? variant) where
  skipsBlanks := skipsBlanks_readChoice variant
  skipped := skipped_readChoice variant
  reads t h _ := by
    cases t with
    | text q =>
      obtain ⟨a, ha⟩ := Option.isSome_iff_exists.1 h
      obtain ⟨label, hlabel, hvariant⟩ := Option.bind_eq_some_iff.1 ha
      exact ⟨a, ha, reads_choice_of_readText (reads_literal hlabel) hvariant⟩
    | _ => cases h
  refuses t h cs rest r hcs hread := by
    obtain ⟨q, rfl, hq⟩ := h
    have hd : dropBlanks cs = '"' :: (q.inner ++ '"' :: rest) := by
      simpa [Tree.chars, Literal.chars] using hcs
    simp only [readChoice, hd, if_true] at hread
    obtain ⟨label, hlabel, hvariant⟩ := exists_readText_of_readVariant hread
    have htext := text?_of_readText ((dropBlanks_of_eq hd).trans (hd.symm.trans hcs)) hlabel
    rw [Tree.variant?, htext] at hq
    cases hq.symm.trans hvariant
  illegible _ h := absurd trivial h

end Leaves

/-! ## Fields -/

/-- A field with the shape of its values and what a value makes of the structure. -/
structure FieldSlot (σ : Type) where
  field : Field σ
  shape : Shape
  store : Tree → σ → σ
  takes : ∀ t, shape.admits t → shape.legible t → field.Takes t.chars (store t)
  skipped : field.Skipped
  refuses : ∀ s t, shape.refuses t ∨ ¬shape.legible t → (field.read s).Refuses t

namespace FieldSlot

/-- The name of a field and the shape of its values. -/
def entry (slot : FieldSlot σ) : String × Shape := (slot.field.name, slot.shape)

/-- A field whose value is read on its own and then stored. -/
def storing (name : String) {read : Reader α} (put : σ → α → σ) (shrinks : read.Shrinks)
    {shape : Shape} {value? : Tree → Option α} (h : read.Meets shape value?) : FieldSlot σ where
  field := .storing name read put shrinks
  shape
  store t s := (value? t).elim s (put s)
  takes t ht hlegible := by
    obtain ⟨a, ha, hreads⟩ := h.reads t ht hlegible
    rw [ha]
    exact Field.takes_storing h.skipsBlanks hreads
  skipped := Field.skipped_storing h.skipped
  refuses s t ht cs rest r hcs hread := by
    cases hr : read cs with
    | error f => simp [Field.storing, hr, Except.map] at hread
    | ok p => exact ht.elim (h.refuses t) (h.illegible t) cs rest p hcs hr

/-- The names of fields. -/
def names (slots : List (FieldSlot σ)) : List String := slots.map fun slot => slot.field.name

/-- The field that a member gives. -/
def of? (slots : List (FieldSlot σ)) (m : Member) : Option (FieldSlot σ) :=
  m.name?.bind fun name => slots.find? fun slot => slot.field.name == name

/-- What the members make of a structure, one after the other. -/
def storeAll (slots : List (FieldSlot σ)) (ms : List Member) (s : σ) : σ :=
  ms.foldl (fun s m => (of? slots m).elim s fun slot => slot.store m.tree s) s

section Lookup

variable {slots : List (FieldSlot σ)} {slot : FieldSlot σ} {name : String} {m : Member}
  {ms : List Member}

theorem map_fst_entry (slots : List (FieldSlot σ)) : (slots.map entry).map Prod.fst = names slots :=
  List.map_map

theorem of?_of_name (h : m.name? = some name) :
    of? slots m = slots.find? fun slot => slot.field.name == name := by
  rw [of?, h, Option.bind_some]

theorem find?_field (h : m.name? = some name) :
    (slots.map field).find? (fun f => f.name == name) = (of? slots m).map field := by
  rw [of?_of_name h, List.find?_map]
  rfl

theorem not_mem_names (h : m.name? = some name) (hof : of? slots m = none) :
    name ∉ names slots := by
  rw [of?_of_name h, List.find?_eq_none] at hof
  intro hmem
  obtain ⟨slot, hslot, rfl⟩ := List.mem_map.1 hmem
  exact hof slot hslot (beq_self_eq_true _)

theorem mem_of_of? (h : of? slots m = some slot) :
    slot ∈ slots ∧ m.name? = some slot.field.name := by
  obtain ⟨name, hname, hfind⟩ := Option.bind_eq_some_iff.1 h
  have hslot : slot.field.name = name := by
    simpa using List.find?_some hfind
  exact ⟨List.mem_of_find?_eq_some hfind, hslot ▸ hname⟩

theorem name_mem_names (h : slot ∈ slots) : slot.field.name ∈ names slots :=
  List.mem_map_of_mem (f := fun slot : FieldSlot σ => slot.field.name) h

/-- Where names are distinct, a member gives the field of its name. -/
theorem of?_of_mem (hnodup : (names slots).Nodup) (h : slot ∈ slots)
    (hname : m.name? = some slot.field.name) : of? slots m = some slot := by
  have hsome : (of? slots m).isSome := by
    rw [of?_of_name hname]
    exact List.find?_isSome.2 ⟨slot, h, beq_self_eq_true _⟩
  obtain ⟨found, hfound⟩ := Option.isSome_iff_exists.1 hsome
  obtain ⟨hmem, hname'⟩ := mem_of_of? hfound
  have hnames : found.field.name = slot.field.name := Option.some.inj (hname'.symm.trans hname)
  rw [hfound, List.inj_on_of_nodup_map hnodup hmem h hnames]

theorem storeAll_cons_of_none (h : of? slots m = none) (s : σ) :
    storeAll slots (m :: ms) s = storeAll slots ms s := by
  simp [storeAll, h]

theorem storeAll_cons_of_some (h : of? slots m = some slot) (s : σ) :
    storeAll slots (m :: ms) s = storeAll slots ms (slot.store m.tree s) := by
  simp [storeAll, h]

end Lookup

end FieldSlot

/-! ## Members one after the other -/

/-- The name of a member is read as what it denotes, and refused if it denotes nothing. -/
theorem toOption_readName (m : Member) (texts : List (List Char)) {first : Bool}
    {cs rest : List Char}
    (hcs : dropBlanks cs = dropBlanks (commaed first (m.chars :: texts) ++ rest)) :
    (readName first cs).toOption = m.name?.map fun name => (some name,
      m.1.after.chars ++ ':' :: (m.2.chars Tree.chars ++ (commaed false texts ++ rest))) := by
  have hdrop := m.dropBlanks_chars (commaed false texts ++ rest)
  have hdue : (readDueName (dropBlanks (m.chars ++ (commaed false texts ++ rest)))).toOption =
      m.name?.map fun name => (some name,
        m.1.after.chars ++ ':' :: (m.2.chars Tree.chars ++ (commaed false texts ++ rest))) := by
    rw [hdrop, readDueName, if_pos rfl, toOption_map, Literal.toOption_read_inner,
      Member.name?, Literal.string?, Option.map_map, Option.map_map]
    rfl
  rw [commaed, List.append_assoc] at hcs
  cases first with
  | true =>
    rw [if_pos rfl] at hcs
    rw [← hdue, readName, hcs, hdrop]
    rfl
  | false =>
    rw [if_neg (by decide), List.cons_append, dropBlanks_cons (by decide)] at hcs
    rw [← hdue, readName, hcs]
    rfl

/-- Reading the entries of an object either ends or takes one entry and goes on. -/
theorem readEntries_cases {fields : List (Field σ)} {seen : List String} {first : Bool} {s t : σ}
    {cs rest : List Char} (h : readEntries fields seen first s cs = .ok (t, rest)) :
    readName first cs = .ok (none, rest) ∨
    ∃ name afterName afterColon, readName first cs = .ok (some name, afterName) ∧
      colon afterName = .ok afterColon ∧
      ((fields.find? (fun f => f.name == name) = none ∧ ∃ next, skipValue afterColon = .ok next ∧
          readEntries fields seen false s next = .ok (t, rest)) ∨
        ∃ f u next, fields.find? (fun f => f.name == name) = some f ∧ name ∉ seen ∧
          f.read s afterColon = .ok (u, next) ∧
            readEntries fields (name :: seen) false u next = .ok (t, rest)) := by
  rw [readEntries] at h
  split at h
  · cases h
  · next hn =>
    cases h
    exact .inl hn
  · next name afterName hn =>
    refine .inr ⟨name, afterName, ?_⟩
    split at h
    · next hfield =>
      split at h
      · cases h
      · next hcolon =>
        split at h
        · cases h
        · next hskip => exact ⟨_, hn, hcolon, .inl ⟨hfield, _, hskip, h⟩⟩
    · next hfield =>
      split at h
      · cases h
      · next hseen =>
        split at h
        · cases h
        · next hcolon =>
          split at h
          · cases h
          · next hread => exact ⟨_, hn, hcolon, .inr ⟨_, _, _, hfield, hseen, hread, h⟩⟩

section Members

variable {slots : List (FieldSlot σ)} {seen : List String} {first : Bool} {ms : List Member}
  {s t : σ} {cs rest rest' : List Char}

/-- Members that fit and are legible are read one after the other. -/
theorem readEntries_members (hnamed : ∀ m ∈ ms, m.name?.isSome)
    (honce : (namesIn (FieldSlot.names slots) ms ++ seen).Nodup)
    (hadmitted : ∀ m ∈ ms, ∀ slot ∈ FieldSlot.of? slots m,
      slot.shape.admits m.tree ∧ slot.shape.legible m.tree)
    (hcs : dropBlanks cs = dropBlanks (commaed first (ms.map Member.chars) ++ '}' :: rest)) :
    readEntries (slots.map FieldSlot.field) seen first s cs =
      .ok (FieldSlot.storeAll slots ms s, rest) := by
  induction ms generalizing seen first s cs with
  | nil => exact readEntries_of_close (hcs.trans (dropBlanks_cons rfl rest))
  | cons m ms ih =>
    obtain ⟨hm, hnamed⟩ := List.forall_mem_cons.1 hnamed
    obtain ⟨hadmits, hadmitted⟩ := List.forall_mem_cons.1 hadmitted
    obtain ⟨name, hname⟩ := Option.isSome_iff_exists.1 hm
    have hread := toOption_readName m (ms.map Member.chars) hcs
    rw [hname, Option.map_some] at hread
    have hread := eq_ok_of_toOption hread
    have hskips := skipValue_padded m.2 (ends_commaed .object (ms.map Member.chars) rest)
    have hfind := @FieldSlot.find?_field _ slots _ _ hname
    generalize htail : commaed false (ms.map Member.chars) ++ '}' :: rest = tail at hread
    have hnext := m.2.after.dropBlanks_append tail
    cases hof : FieldSlot.of? slots m with
    | none =>
      rw [hof] at hfind
      rw [namesIn_cons_of_not_mem hname (FieldSlot.not_mem_names hname hof)] at honce
      rw [readEntries_of_unknown hread hfind (colon_append _ _) (htail ▸ hskips),
        FieldSlot.storeAll_cons_of_none hof]
      exact ih hnamed honce hadmitted (htail ▸ hnext)
    | some slot =>
      obtain ⟨hmem, hslot⟩ := FieldSlot.mem_of_of? hof
      cases hname.symm.trans hslot
      have htakes := slot.takes m.tree (hadmits slot hof).1 (hadmits slot hof).2
      have hvalue : slot.field.read s (m.2.chars Tree.chars ++ tail) =
          .ok (slot.store m.tree s, m.2.after.chars ++ tail) := by
        rw [m.2.chars_append, htakes.skipsBlanks s _ _ m.2.before.blank]
        exact htakes.reads s _
      rw [hof] at hfind
      rw [namesIn_cons_of_mem hname (FieldSlot.name_mem_names hmem), List.cons_append] at honce
      have hseen : slot.field.name ∉ seen :=
        fun h => (List.nodup_cons.1 honce).1 (List.mem_append_right _ h)
      rw [readEntries_of_field hread hfind hseen (colon_append _ _) hvalue,
        FieldSlot.storeAll_cons_of_some hof]
      exact ih hnamed (List.nodup_middle.2 honce) hadmitted (htail ▸ hnext)

/-- What must hold of members that are read, whatever they are. -/
theorem of_readEntries_members (hseen : seen.Nodup)
    (hcs : dropBlanks cs = dropBlanks (commaed first (ms.map Member.chars) ++ '}' :: rest))
    (h : readEntries (slots.map FieldSlot.field) seen first s cs = .ok (t, rest')) :
    (∀ m ∈ ms, m.name?.isSome) ∧ (namesIn (FieldSlot.names slots) ms ++ seen).Nodup ∧
    ∀ m ∈ ms, ∀ slot ∈ FieldSlot.of? slots m,
      ¬(slot.shape.refuses m.tree ∨ ¬slot.shape.legible m.tree) := by
  induction ms generalizing seen first s cs with
  | nil => exact ⟨nofun, hseen, nofun⟩
  | cons m ms ih =>
    have hread := toOption_readName m (ms.map Member.chars) hcs
    have hskips : skipValue (m.2.chars Tree.chars ++
        (commaed false (ms.map Member.chars) ++ '}' :: rest)) =
          .ok (m.2.after.chars ++ (commaed false (ms.map Member.chars) ++ '}' :: rest)) :=
      skipValue_padded m.2 (ends_commaed .object (ms.map Member.chars) rest)
    have hnext := m.2.after.dropBlanks_append
      (commaed false (ms.map Member.chars) ++ '}' :: rest)
    rcases readEntries_cases h with hn | ⟨name, afterName, afterColon, hn, hcolon, h⟩
    · -- the object does not end here
      rw [hn] at hread
      obtain ⟨name, -, heq⟩ := Option.map_eq_some_iff.1 hread.symm
      cases heq
    rw [hn] at hread
    obtain ⟨name', hname, heq⟩ := Option.map_eq_some_iff.1 hread.symm
    cases heq
    rw [colon_append] at hcolon
    cases hcolon
    have hnamed : m.name?.isSome := hname ▸ rfl
    rw [FieldSlot.find?_field hname] at h
    rcases h with ⟨hfind, next, hskip, h⟩ | ⟨f, u, next, hfind, hfresh, hvalue, h⟩
    · cases hskips.symm.trans hskip
      have hof := Option.map_eq_none_iff.1 hfind
      obtain ⟨hnamed', honce, hrefused⟩ := ih hseen hnext h
      rw [namesIn_cons_of_not_mem hname (FieldSlot.not_mem_names hname hof)]
      exact ⟨List.forall_mem_cons.2 ⟨hnamed, hnamed'⟩, honce,
        List.forall_mem_cons.2 ⟨by simp [hof], hrefused⟩⟩
    · obtain ⟨slot, hof, rfl⟩ := Option.map_eq_some_iff.1 hfind
      obtain ⟨hmem, hslot⟩ := FieldSlot.mem_of_of? hof
      cases hname.symm.trans hslot
      -- the field ends where skipping its value ends
      cases hskips.symm.trans (slot.skipped s _ _ _ hvalue)
      obtain ⟨hnamed', honce, hrefused⟩ := ih (List.nodup_cons.2 ⟨hfresh, hseen⟩) hnext h
      have hvalue' : ¬(slot.shape.refuses m.tree ∨ ¬slot.shape.legible m.tree) :=
        fun hrefuses => slot.refuses s m.tree hrefuses _ _ _ (m.2.dropBlanks_chars _) hvalue
      rw [namesIn_cons_of_mem hname (FieldSlot.name_mem_names hmem), List.cons_append]
      refine ⟨List.forall_mem_cons.2 ⟨hnamed, hnamed'⟩, List.nodup_middle.1 honce,
        List.forall_mem_cons.2 ⟨?_, hrefused⟩⟩
      intro slot' hslot'
      cases hof.symm.trans hslot'
      exact hvalue'

end Members

/-! ## Structures -/

theorem admits_of? {slots : List (FieldSlot σ)} {ms : List Member}
    (h : Fits (slots.map FieldSlot.entry) ms) (hlegible : Legible (slots.map FieldSlot.entry) ms)
    {m : Member} (hm : m ∈ ms) {slot : FieldSlot σ} (hslot : FieldSlot.of? slots m = some slot) :
    slot.shape.admits m.tree ∧ slot.shape.legible m.tree := by
  obtain ⟨hmem, hname⟩ := FieldSlot.mem_of_of? hslot
  have hentry : slot.entry ∈ slots.map FieldSlot.entry := List.mem_map_of_mem hmem
  exact ⟨h.admitted slot.entry hentry m hm hname, hlegible.inside slot.entry hentry m hm hname⟩

theorem Tree.object_chars_append (inside : Blanks) (ms : List Member) (rest : List Char) :
    (Tree.object inside ms).chars ++ rest =
      '{' :: (inside.chars ++ (commaed true (ms.map Member.chars) ++ '}' :: rest)) := by
  simp [chars, memberTexts_eq]

/-- An object is read as a structure if its members fit and are legible. -/
theorem reads_object {slots : List (FieldSlot σ)} {ms : List Member}
    (h : Fits (slots.map FieldSlot.entry) ms) (hlegible : Legible (slots.map FieldSlot.entry) ms)
    (inside : Blanks) (s : σ) :
    Reads (readStruct (slots.map FieldSlot.field) s) (Tree.object inside ms).chars
      (FieldSlot.storeAll slots ms s) := by
  intro rest
  have honce := h.once
  rw [FieldSlot.map_fst_entry] at honce
  rw [Tree.object_chars_append, readStruct, dropBlanks_cons (by decide)]
  exact readEntries_members hlegible.named (by rwa [List.append_nil])
    (fun m hm slot hslot => admits_of? h hlegible hm hslot) (inside.dropBlanks_append _)

/-- The members of an object that is read as a structure neither misfit nor are they illegible. -/
theorem of_readStruct_object {slots : List (FieldSlot σ)} (hnodup : (FieldSlot.names slots).Nodup)
    {s : σ} {r : σ × List Char} {inside : Blanks} {ms : List Member} {cs rest : List Char}
    (hcs : dropBlanks cs = (Tree.object inside ms).chars ++ rest)
    (hread : readStruct (slots.map FieldSlot.field) s cs = .ok r) :
    ¬Misfits (slots.map FieldSlot.entry) ms ∧ Legible (slots.map FieldSlot.entry) ms := by
  rw [Tree.object_chars_append] at hcs
  simp only [readStruct, hcs] at hread
  obtain ⟨hnamed, honce, hrefused⟩ :=
    of_readEntries_members List.nodup_nil (inside.dropBlanks_append _) hread
  have hof {e : String × Shape} {m : Member} (he : e ∈ slots.map FieldSlot.entry) (hm : m ∈ ms)
      (hname : m.name? = some e.1) : ¬(e.2.refuses m.tree ∨ ¬e.2.legible m.tree) := by
    obtain ⟨slot, hslot, rfl⟩ := List.mem_map.1 he
    exact hrefused _ hm slot (FieldSlot.of?_of_mem hnodup hslot hname)
  refine ⟨fun hmisfits => ?_, hnamed, fun e he m hm hname => ?_⟩
  · cases hmisfits with
    | repeated hrepeated =>
      rw [FieldSlot.map_fst_entry] at hrepeated
      rw [List.append_nil] at honce
      exact hrepeated honce
    | refused he hm hname hrefuses => exact hof he hm hname (.inl hrefuses)
  · exact not_not.1 fun hillegible => hof he hm hname (.inr hillegible)

/-- What is no list and no object, and an object whose members misfit, is no structure. -/
theorem refuses_readStruct {slots : List (FieldSlot σ)}
    (hnodup : (FieldSlot.names slots).Nodup) (s : σ) {t : Tree}
    (h : (Shape.object (slots.map FieldSlot.entry)).refuses t) :
    (readStruct (slots.map FieldSlot.field) s).Refuses t := by
  intro cs rest r hcs hread
  rcases h with hscalar | ⟨inside, ms, rfl, hmisfits⟩
  · obtain ⟨c, tail, -, htail, hc⟩ := t.dropBlanks_chars rest
    obtain ⟨hlist, hobject⟩ := hscalar.ne_of_startsWith hc
    simp only [readStruct, hcs.trans htail, if_neg hlist, if_neg hobject] at hread
    cases hread
  · exact (of_readStruct_object hnodup hcs hread).1 hmisfits

/-- **The reader of a structure meets the shape of the object**, whatever blanks, escapes and names
that are not known stand in it. -/
theorem meets_readStruct {slots : List (FieldSlot σ)}
    (hnodup : (FieldSlot.names slots).Nodup) (s : σ) :
    (readStruct (slots.map FieldSlot.field) s).Meets (.object (slots.map FieldSlot.entry)) fun t =>
      t.members?.map fun ms => FieldSlot.storeAll slots ms s where
  skipsBlanks := skipsBlanks_readStruct _ s
  skipped := by
    refine skipped_readStruct (fun f hf => ?_) s
    obtain ⟨slot, -, rfl⟩ := List.mem_map.1 hf
    exact slot.skipped
  reads t h hlegible := by
    obtain ⟨inside, ms, rfl, hfits⟩ := h
    exact ⟨_, rfl, reads_object hfits (hlegible inside ms rfl) inside s⟩
  refuses _ h := refuses_readStruct hnodup s h
  illegible t h cs rest r hcs hread := by
    refine h fun inside ms ht => ?_
    subst ht
    exact (of_readStruct_object hnodup hcs hread).2

/-- A structure in the structure. -/
def FieldSlot.struct (name : String) {slots : List (FieldSlot τ)}
    (hnodup : (FieldSlot.names slots).Nodup) (start : τ) (put : σ → τ → σ) :
    FieldSlot σ :=
  storing name put (shrinks_readStruct _ start) (meets_readStruct hnodup start)

/-! ## Whole texts -/

/-- A text that is one object, with white space around it. -/
structure Document where
  before : Blanks := .none
  inside : Blanks := .none
  members : List Member
  after : Blanks := .none

/-- The text of a document. -/
def Document.text (d : Document) : String :=
  String.ofList (d.before.chars ++ ((Tree.object d.inside d.members).chars ++ d.after.chars))

section Documents

variable {d : Document}

theorem readWhole_document {slots : List (FieldSlot σ)}
    (h : Fits (slots.map FieldSlot.entry) d.members)
    (hlegible : Legible (slots.map FieldSlot.entry) d.members) (s : σ) :
    readWhole (slots.map FieldSlot.field) s d.text =
      .ok (FieldSlot.storeAll slots d.members s) := by
  have hread := reads_object h hlegible d.inside s d.after.chars
  have hblanks := skipsBlanks_readStruct (slots.map FieldSlot.field) s d.before.chars
    ((Tree.object d.inside d.members).chars ++ d.after.chars) d.before.blank
  have hafter : dropBlanks d.after.chars = [] := List.dropWhile_eq_nil_iff.2 d.after.blank
  rw [readWhole, Document.text, String.toList_ofList, hblanks, hread]
  exact if_pos hafter

/-- A document that is read neither misfits nor is it illegible. -/
theorem of_readWhole_document {slots : List (FieldSlot σ)} (hnodup : (FieldSlot.names slots).Nodup)
    {s t : σ} (h : readWhole (slots.map FieldSlot.field) s d.text = .ok t) :
    ¬Misfits (slots.map FieldSlot.entry) d.members ∧
      Legible (slots.map FieldSlot.entry) d.members := by
  have hdrop : dropBlanks d.text.toList =
      (Tree.object d.inside d.members).chars ++ d.after.chars := by
    rw [Document.text, String.toList_ofList, d.before.dropBlanks_append, Tree.object_chars_append,
      dropBlanks_cons (by decide)]
  rw [readWhole] at h
  cases hread : readStruct (slots.map FieldSlot.field) s d.text.toList with
  | error f =>
    rw [hread] at h
    cases h
  | ok r => exact of_readStruct_object hnodup hdrop hread

end Documents

/-! ## Parts of a structure -/

/-- The members of the object that is given under a name; none if there is no such object. -/
def membersOf (ms : List Member) (name : String) : List Member :=
  ((valueOf? ms name).bind Tree.members?).getD []

theorem membersOf_eq_of_mem {names : List String} {name : String} {m : Member}
    {ms fields : List Member} (honce : (namesIn names ms).Nodup) (hmem : name ∈ names) (hm : m ∈ ms)
    (hname : m.name? = some name) (hfields : m.tree.members? = some fields) :
    membersOf ms name = fields := by
  rw [membersOf, valueOf?_eq_some honce hmem hm hname, Option.bind_some, hfields, Option.getD_some]

theorem exists_of_mem_membersOf {name : String} {f : Member} {ms : List Member}
    (h : f ∈ membersOf ms name) :
    ∃ m ∈ ms, m.name? = some name ∧ m.tree.members? = some (membersOf ms name) := by
  cases hfields : (valueOf? ms name).bind Tree.members? with
  | none =>
    rw [membersOf, hfields] at h
    cases h
  | some fields =>
    obtain ⟨t, hvalue, ht⟩ := Option.bind_eq_some_iff.1 hfields
    obtain ⟨m, hm, hname, rfl⟩ := exists_of_valueOf? hvalue
    exact ⟨m, hm, hname, by rw [membersOf, hfields, ht, Option.getD_some]⟩

/-- The members of an object in an object that fits do fit. -/
theorem Fits.membersOf {shapes sub : List (String × Shape)} {ms : List Member} {name : String}
    (h : Fits shapes ms) (he : (name, Shape.object sub) ∈ shapes) :
    Fits sub (membersOf ms name) := by
  cases hvalue : valueOf? ms name with
  | none =>
    rw [Json.membersOf, hvalue]
    exact ⟨List.nodup_nil, nofun⟩
  | some t =>
    obtain ⟨m, hm, hname, rfl⟩ := exists_of_valueOf? hvalue
    obtain ⟨inside, fields, htree, hfits⟩ := h.admitted _ he m hm hname
    rw [Json.membersOf, hvalue, htree]
    exact hfits

namespace FieldSlot

/-- The field sets this part of a structure. -/
def Sets (slot : FieldSlot σ) (get : σ → α) (value? : Tree → Option α) : Prop :=
  ∀ t s, get (slot.store t s) = (value? t).getD (get s)

/-- The field leaves this part of a structure alone. -/
def Keeps (slot : FieldSlot σ) (get : σ → α) : Prop := ∀ t s, get (slot.store t s) = get s

variable {name : String} {read : Reader α} {put : σ → α → σ} {shrinks : read.Shrinks}
  {shape : Shape} {value? : Tree → Option α} {h : read.Meets shape value?}

theorem sets_storing {get : σ → α} (hput : ∀ s a, get (put s a) = a) :
    (storing name put shrinks h).Sets get value? := by
  intro t s
  cases ht : value? t with
  | none => simp [storing, ht]
  | some a => simp [storing, ht, hput]

theorem keeps_storing {get : σ → τ} (hput : ∀ s a, get (put s a) = get s) :
    (storing name put shrinks h).Keeps get := by
  intro t s
  cases ht : value? t with
  | none => simp [storing, ht]
  | some a => simp [storing, ht, hput]

theorem sets_struct {slots : List (FieldSlot τ)} {hnodup : (names slots).Nodup} {start : τ}
    {put : σ → τ → σ} {get : σ → τ} (hput : ∀ s a, get (put s a) = a) :
    (struct name hnodup start put).Sets get fun t =>
      t.members?.map fun ms => storeAll slots ms start :=
  sets_storing hput

theorem keeps_struct {slots : List (FieldSlot τ)} {hnodup : (names slots).Nodup} {start : τ}
    {put : σ → τ → σ} {get : σ → α} (hput : ∀ s a, get (put s a) = get s) :
    (struct name hnodup start put).Keeps get :=
  keeps_storing hput

end FieldSlot

/-- Part of a structure that one field sets is what the field is given, if it is given. -/
theorem get_storeAll (get : σ → α) (value? : Tree → Option α) {slots : List (FieldSlot σ)}
    {slot : FieldSlot σ} {ms : List Member} (hnodup : (FieldSlot.names slots).Nodup)
    (honce : (namesIn (FieldSlot.names slots) ms).Nodup) (hslot : slot ∈ slots)
    (hsets : slot.Sets get value?)
    (hkeeps : ∀ other ∈ slots, other.field.name ≠ slot.field.name → other.Keeps get) (s : σ) :
    get (FieldSlot.storeAll slots ms s) =
      ((valueOf? ms slot.field.name).bind value?).getD (get s) := by
  have hmem := FieldSlot.name_mem_names hslot
  induction ms generalizing s with
  | nil => rfl
  | cons m ms ih =>
    have ih := ih (nodup_namesIn_of_cons honce)
    by_cases hname : m.name? = some slot.field.name
    · -- no other member has the name
      have hnone : valueOf? ms slot.field.name = none := by
        rw [Option.eq_none_iff_forall_ne_some]
        intro t ht
        obtain ⟨m', hm', hname', -⟩ := exists_of_valueOf? ht
        rw [namesIn_cons_of_mem hname hmem] at honce
        exact (List.nodup_cons.1 honce).1 (mem_namesIn hm' hname' hmem)
      have hof := FieldSlot.of?_of_mem hnodup hslot hname
      rw [FieldSlot.storeAll_cons_of_some hof, ih, hnone, hsets, valueOf?_cons_of_name hname]
      rfl
    · rw [valueOf?_cons_of_ne hname]
      cases hof : FieldSlot.of? slots m with
      | none => rw [FieldSlot.storeAll_cons_of_none hof, ih]
      | some other =>
        obtain ⟨hmem', hname'⟩ := FieldSlot.mem_of_of? hof
        have hne : other.field.name ≠ slot.field.name := fun h => hname (h ▸ hname')
        rw [FieldSlot.storeAll_cons_of_some hof, ih, hkeeps other hmem' hne]

theorem getD_storeAll (slots : List (FieldSlot τ)) (ms : List Member) (name : String) (start : τ) :
    ((valueOf? ms name).bind fun t => t.members?.map fun fields =>
      FieldSlot.storeAll slots fields start).getD start =
        FieldSlot.storeAll slots (membersOf ms name) start := by
  rw [membersOf]
  cases valueOf? ms name with
  | none => rfl
  | some t => cases ht : t.members? <;> simp [ht, FieldSlot.storeAll]

/-- Part of a structure that is a structure itself is made of the members of its object. -/
theorem get_storeAll_struct (get : σ → τ) (fields : List (FieldSlot τ)) {slots : List (FieldSlot σ)}
    {slot : FieldSlot σ} {ms : List Member} {start : τ} (hnodup : (FieldSlot.names slots).Nodup)
    (honce : (namesIn (FieldSlot.names slots) ms).Nodup) (hslot : slot ∈ slots)
    (hsets : slot.Sets get fun t => t.members?.map fun ms => FieldSlot.storeAll fields ms start)
    (hkeeps : ∀ other ∈ slots, other.field.name ≠ slot.field.name → other.Keeps get) {s : σ}
    (hstart : get s = start) :
    get (FieldSlot.storeAll slots ms s) =
      FieldSlot.storeAll fields (membersOf ms slot.field.name) start := by
  rw [get_storeAll get _ hnodup honce hslot hsets hkeeps, hstart, getD_storeAll]

end HostBridge.Json
