import HostBridge.Settings.Text
import Mathlib.Data.List.Basic

/-!
# Reading what is written

Values are read off the front of a text, whatever follows them. `Json.Reads p text a` says that a
reader takes just `text` and gives `a`.
-/

namespace HostBridge.Json

/-! ## Quoted texts -/

namespace Quoted

theorem digit?_digitChar : ∀ n < 16, Hex.digit? (Hex.digitChar n) = some n := by
  decide

/-- A unit below 256 as two digits after two zeros. -/
theorem unit?_digitChar {n : Nat} (h : n < 256) :
    unit? '0' '0' (Hex.digitChar (n / 16)) (Hex.digitChar (n % 16)) = some n := by
  have hzero : Hex.digit? '0' = some 0 := by decide
  have hhigh := digit?_digitChar (n / 16) (by omega)
  have hlow := digit?_digitChar (n % 16) (by omega)
  simp only [unit?, Hex.readDigits, hzero, hhigh, hlow, Option.bind_some, Option.some.injEq]
  omega

/-- An escaped control character is read as itself. -/
theorem read_control {c : Char} (h : isControl c = true) (rest : List Char) :
    read ('\\' :: 'u' :: '0' :: '0' :: Hex.digitChar (c.toNat / 16) ::
      Hex.digitChar (c.toNat % 16) :: rest) = push c (read rest) := by
  have hc : c.toNat < 32 := by simpa [isControl] using h
  have hlow : Surrogate.isLow c.toNat = false := by
    simp [Surrogate.isLow]
    omega
  have hhigh : Surrogate.isHigh c.toNat = false := by
    simp [Surrogate.isHigh]
    omega
  rw [read, unit?_digitChar (by omega)]
  simp [hlow, hhigh]

/-- A character that needs no escape is read as itself. -/
theorem read_plain {c : Char} (h : c ≠ '"' ∧ c ≠ '\\' ∧ isControl c = false) (rest : List Char) :
    read (c :: rest) = push c (read rest) := by
  obtain ⟨hquote, hslash, hcontrol⟩ := h
  rw [read]
  · simp [hcontrol]
  · exact hquote
  · exact fun _ _ _ _ _ hc _ => hslash hc
  · exact fun _ hc _ => hslash hc
  · exact fun _ _ hc _ => hslash hc
  · exact fun hc _ => hslash hc

/-- What a character is written as is read as the character. -/
theorem read_encodeChar (c : Char) (rest : List Char) :
    read (encodeChar c ++ rest) = push c (read rest) := by
  unfold encodeChar
  split
  · simp [read, letter?]
  · simp [read, letter?]
  · simp [read, letter?]
  · simp [read, letter?]
  · simp [read, letter?]
  · simp [read, letter?]
  · simp [read, letter?]
  · next hquote hslash _ _ _ _ _ =>
    split
    · next hcontrol => exact read_control hcontrol rest
    · next hcontrol => exact read_plain ⟨hquote, hslash, by simpa using hcontrol⟩ rest

/-- A text in quotes is read up to its closing quote. -/
theorem read_encoded (cs rest : List Char) :
    read (cs.flatMap encodeChar ++ '"' :: rest) = .ok (cs, rest) := by
  induction cs with
  | nil => simp [read]
  | cons c cs ih =>
    rw [List.flatMap_cons, List.append_assoc, read_encodeChar, ih]
    rfl

end Quoted

/-! ## Readers -/

section Readers

variable {α : Type}

/-- The reader takes just this text off the front, whatever follows, and gives `a`. -/
def Reads (p : Reader α) (text : List Char) (a : α) : Prop :=
  ∀ rest, p (text ++ rest) = .ok (a, rest)

/-- White space in front does not matter to the reader. -/
def SkipsBlanks (p : Reader α) : Prop :=
  ∀ blanks cs, (∀ c ∈ blanks, isBlank c = true) → p (blanks ++ cs) = p cs

theorem dropBlanks_append {blanks : List Char} (h : ∀ c ∈ blanks, isBlank c = true)
    (cs : List Char) : dropBlanks (blanks ++ cs) = dropBlanks cs :=
  List.dropWhile_append_of_pos h

theorem dropBlanks_cons {c : Char} (h : isBlank c = false) (cs : List Char) :
    dropBlanks (c :: cs) = c :: cs := by
  simp [dropBlanks, h]

theorem skipsBlanks_readFlag : SkipsBlanks readFlag := by
  intro blanks cs h
  rw [readFlag, readFlag, dropBlanks_append h]

theorem skipsBlanks_readText : SkipsBlanks readText := by
  intro blanks cs h
  rw [readText, readText, dropBlanks_append h]

theorem skipsBlanks_readChoice (variant : String → Option α) :
    SkipsBlanks (readChoice variant) := by
  intro blanks cs h
  rw [readChoice, readChoice, dropBlanks_append h]

theorem reads_flagText (b : Bool) : Reads readFlag (Settings.flagText b) b := by
  intro rest
  cases b <;> rfl

theorem quoted_append (s : String) (rest : List Char) :
    Settings.quoted s ++ rest = '"' :: (s.toList.flatMap Quoted.encodeChar ++ '"' :: rest) := by
  simp [Settings.quoted, Quoted.encode]

theorem reads_quoted (s : String) : Reads readText (Settings.quoted s) s := by
  intro rest
  rw [quoted_append, readText, dropBlanks_cons (by decide)]
  simp [Quoted.read_encoded, Except.map]

/-- A text that names a variant is read as the variant. -/
theorem reads_choice_of_readText {variant : String → Option α} {text : List Char} {label : String}
    {a : α} (htext : Reads readText ('"' :: text) label) (h : variant label = some a) :
    Reads (readChoice variant) ('"' :: text) a := by
  intro rest
  have hread := htext rest
  rw [List.cons_append] at hread ⊢
  rw [readChoice, dropBlanks_cons (by decide)]
  simp [readVariant, hread, h]

/-- The name of a variant is read as the variant. -/
theorem reads_choice {variant : String → Option α} {label : String} {a : α}
    (h : variant label = some a) : Reads (readChoice variant) (Settings.quoted label) a :=
  reads_choice_of_readText (reads_quoted label) h

end Readers

/-! ## Objects -/

variable {σ τ : Type}

theorem colon_cons (cs : List Char) : colon (':' :: cs) = .ok cs := rfl

/-- The reader of a field takes this text, with white space in front or not, whatever the structure
holds already, and makes `store` of it. -/
structure Field.Takes (f : Field σ) (text : List Char) (store : σ → σ) : Prop where
  reads : ∀ s, Reads (f.read s) text (store s)
  skipsBlanks : ∀ s, SkipsBlanks (f.read s)

theorem Field.takes_storing {name : String} {read : Reader τ} {put : σ → τ → σ}
    {shrinks : read.Shrinks} (hblanks : SkipsBlanks read) {text : List Char} {a : τ}
    (h : Reads read text a) : (storing name read put shrinks).Takes text fun s => put s a where
  reads s rest := by
    have hread := h rest
    simp only [storing, hread, Except.map]
  skipsBlanks s blanks cs hb := by
    simp only [storing, hblanks blanks cs hb]

/-- A field that is given: the text of its value, and what that makes of the structure. -/
structure Entry (σ : Type) where
  field : Field σ
  text : List Char
  store : σ → σ
  takes : field.Takes text store

/-- The name of the field and the text of the value. -/
def Entry.line (e : Entry σ) : String × List Char := (e.field.name, e.text)

/-- What the entries make of a structure, one after the other. -/
def Entry.storeAll (entries : List (Entry σ)) (s : σ) : σ := entries.foldl (fun s e => e.store s) s

/-- Reading the entries of an object goes on after one that gives a field for the first time. -/
theorem readEntries_of_field {fields : List (Field σ)} {seen : List String} {first : Bool} {s t : σ}
    {cs afterName afterColon rest : List Char} {field : Field σ}
    (hname : readName first cs = .ok (some field.name, afterName))
    (hfield : fields.find? (fun f => f.name == field.name) = some field)
    (hseen : field.name ∉ seen) (hcolon : colon afterName = .ok afterColon)
    (hread : field.read s afterColon = .ok (t, rest)) :
    readEntries fields seen first s cs = readEntries fields (field.name :: seen) false t rest := by
  rw [readEntries]
  split
  · next hn => cases hname.symm.trans hn
  · next hn => cases hname.symm.trans hn
  · next name after hn =>
    cases hname.symm.trans hn
    simp only [hfield, if_neg hseen]
    split
    · next hc => cases hcolon.symm.trans hc
    · next hc =>
      cases hcolon.symm.trans hc
      split
      · next hr => cases hread.symm.trans hr
      · next hr =>
        cases hread.symm.trans hr
        rfl

/-- Reading the entries of an object goes on after one that gives no field. -/
theorem readEntries_of_unknown {fields : List (Field σ)} {seen : List String} {first : Bool} {s : σ}
    {cs afterName afterColon rest : List Char} {name : String}
    (hname : readName first cs = .ok (some name, afterName))
    (hfield : fields.find? (fun f => f.name == name) = none)
    (hcolon : colon afterName = .ok afterColon) (hskip : skipValue afterColon = .ok rest) :
    readEntries fields seen first s cs = readEntries fields seen false s rest := by
  conv_lhs => rw [readEntries]
  split
  · next hn => cases hname.symm.trans hn
  · next hn => cases hname.symm.trans hn
  · next hn =>
    cases hname.symm.trans hn
    simp only [hfield]
    split
    · next hc => cases hcolon.symm.trans hc
    · next hc =>
      cases hcolon.symm.trans hc
      split
      · next hs => cases hskip.symm.trans hs
      · next hs =>
        cases hskip.symm.trans hs
        rfl

/-- Reading the entries of an object ends at its closing brace. -/
theorem readEntries_of_close {fields : List (Field σ)} {seen : List String} {first : Bool} {s : σ}
    {cs rest : List Char} (h : dropBlanks cs = '}' :: rest) :
    readEntries fields seen first s cs = .ok (s, rest) := by
  have hname : readName first cs = .ok (none, rest) := by
    rw [readName, h]
    rfl
  rw [readEntries]
  split
  · next hn => cases hname.symm.trans hn
  · next hn =>
    cases hname.symm.trans hn
    rfl
  · next hn => cases hname.symm.trans hn

/-! ## Objects on lines of their own -/

open Settings (newline quoted objectText)

/-- The line of an entry. -/
def lineText (level : Nat) (e : String × List Char) : List Char :=
  newline (level + 1) ++ quoted e.1 ++ ": ".toList ++ e.2

/-- The lines of entries, with a comma in front of each but the first of all. -/
def linesText (level : Nat) (first : Bool) : List (String × List Char) → List Char
  | [] => []
  | e :: entries =>
    (if first then [] else [',']) ++ lineText level e ++ linesText level false entries

theorem flatten_intersperse_lineText (level : Nat) (entries : List (String × List Char)) :
    ((entries.map (lineText level)).intersperse [',']).flatten = linesText level true entries := by
  cases entries with
  | nil => rfl
  | cons e entries =>
    induction entries generalizing e with
    | nil => simp [linesText]
    | cons e' entries ih =>
      have hrest := ih e'
      simp only [List.map_cons, linesText, if_true, List.nil_append] at hrest
      simp only [List.map_cons, List.intersperse_cons_cons, List.flatten_cons, hrest, linesText,
        if_true, List.nil_append, Bool.false_eq_true, if_false, List.append_assoc]

theorem objectText_eq (level : Nat) (entries : List (String × List Char)) (rest : List Char) :
    objectText level entries ++ rest =
      '{' :: (linesText level true entries ++ (newline level ++ '}' :: rest)) := by
  have hlines := flatten_intersperse_lineText level entries
  have htext : objectText level entries =
      '{' :: ((entries.map (lineText level)).intersperse [',']).flatten ++ newline level ++ ['}'] :=
    rfl
  rw [htext, hlines]
  simp

theorem isBlank_of_mem_newline {level : Nat} : ∀ c ∈ newline level, isBlank c = true := by
  intro c hc
  rcases List.mem_cons.1 hc with rfl | hc
  · rfl
  · rw [(List.mem_replicate.1 hc).2]
    rfl

theorem readDueName_quoted (name : String) (rest : List Char) :
    readDueName (quoted name ++ rest) = .ok (some name, rest) := by
  rw [quoted_append, readDueName, if_pos rfl, Quoted.read_encoded]
  simp [Except.map]

theorem readName_line (level : Nat) (first : Bool) (name : String) (rest : List Char) :
    readName first ((if first then [] else [',']) ++ (newline level ++ (quoted name ++ rest))) =
      .ok (some name, rest) := by
  have hdue := readDueName_quoted name rest
  obtain ⟨cs, hcs⟩ : ∃ cs, quoted name ++ rest = '"' :: cs := ⟨_, rfl⟩
  have hdrop : dropBlanks (newline level ++ (quoted name ++ rest)) = '"' :: cs := by
    rw [dropBlanks_append isBlank_of_mem_newline, hcs, dropBlanks_cons (by decide)]
  rw [hcs] at hdue
  cases first with
  | true =>
    rw [if_pos rfl, List.nil_append, readName, hdrop]
    simpa using hdue
  | false =>
    rw [if_neg (by decide), List.singleton_append, readName, dropBlanks_cons (by decide)]
    simpa [hdrop] using hdue

/-- The lines of entries are read into their fields, one after the other. -/
theorem readEntries_linesText {fields : List (Field σ)} {entries : List (Entry σ)}
    {seen : List String} {first : Bool}
    (hknown : ∀ e ∈ entries, fields.find? (fun f => f.name == e.field.name) = some e.field)
    (hnodup : (entries.map fun e => e.field.name).Nodup)
    (hseen : ∀ e ∈ entries, e.field.name ∉ seen) (level : Nat) (s : σ) (rest : List Char) :
    readEntries fields seen first s
      (linesText level first (entries.map Entry.line) ++ (newline level ++ '}' :: rest)) =
        .ok (Entry.storeAll entries s, rest) := by
  induction entries generalizing seen first s with
  | nil =>
    refine readEntries_of_close ?_
    rw [List.map_nil, linesText, List.nil_append, dropBlanks_append isBlank_of_mem_newline,
      dropBlanks_cons (by decide)]
  | cons e entries ih =>
    obtain ⟨hfresh, hnodup'⟩ := List.nodup_cons.1 hnodup
    have hseen' : ∀ e' ∈ entries, e'.field.name ∉ e.field.name :: seen := by
      intro e' he' hmem
      rcases List.mem_cons.1 hmem with heq | hmem
      · exact hfresh (List.mem_map.2 ⟨e', he', heq⟩)
      · exact hseen e' (List.mem_cons_of_mem _ he') hmem
    have hknown' := fun e' he' => hknown e' (List.mem_cons_of_mem e he')
    generalize htail : linesText level false (entries.map Entry.line) ++
      (newline level ++ '}' :: rest) = tail
    have htext : linesText level first ((e :: entries).map Entry.line) ++
        (newline level ++ '}' :: rest) =
          (if first then [] else [',']) ++ (newline (level + 1) ++ (quoted e.field.name ++
            (':' :: ([' '] ++ (e.text ++ tail))))) := by
      simp [linesText, lineText, Entry.line, ← htail]
    have hread : e.field.read s ([' '] ++ (e.text ++ tail)) = .ok (e.store s, tail) := by
      rw [e.takes.skipsBlanks s [' '] _ (List.forall_mem_singleton.2 rfl)]
      exact e.takes.reads s tail
    rw [htext, readEntries_of_field (readName_line _ first _ _) (hknown e List.mem_cons_self)
      (hseen e List.mem_cons_self) (colon_cons _) hread, ← htail]
    exact ih hknown' hnodup' hseen' (e.store s)

/-- The entries give fields of the list, each once. -/
structure Gives (fields : List (Field σ)) (entries : List (Entry σ)) : Prop where
  known : ∀ e ∈ entries, fields.find? (fun f => f.name == e.field.name) = some e.field
  nodup : (entries.map fun e => e.field.name).Nodup

/-- An object whose entries give fields, each once, is read into the structure. -/
theorem reads_objectText {fields : List (Field σ)} {entries : List (Entry σ)}
    (h : Gives fields entries) (level : Nat) (s : σ) :
    Reads (readStruct fields s) (objectText level (entries.map Entry.line))
      (Entry.storeAll entries s) := by
  intro rest
  rw [objectText_eq, readStruct, dropBlanks_cons (by decide)]
  exact readEntries_linesText h.known h.nodup (fun _ _ => List.not_mem_nil) level s rest

theorem skipsBlanks_readStruct (fields : List (Field σ)) (s : σ) :
    SkipsBlanks (readStruct fields s) := by
  intro blanks cs h
  rw [readStruct, readStruct, dropBlanks_append h]

theorem Field.takes_struct {name : String} {fields : List (Field τ)} {start a : τ} {put : σ → τ → σ}
    {text : List Char} (h : Reads (readStruct fields start) text a) :
    (struct name fields start put).Takes text fun s => put s a :=
  takes_storing (skipsBlanks_readStruct fields start) h

end HostBridge.Json
