import HostBridge.Proofs.WrittenText
import Mathlib.Data.List.TakeWhile

/-!
# Settings written and read back

Settings are written as an object of objects. Each is a list of entries for the fields of its table
(`Column.entry`, `Section.entry`), so reading it back is reading these entries into the defaults,
and they leave nothing of the defaults.
-/

namespace HostBridge

open Json (Entry Gives Reads SkipsBlanks)

/-- Trimming ignores white space that is put around a text. -/
theorem Blank.trim_append {before cs after : List Char} (hbefore : ∀ c ∈ before, isBlank c = true)
    (hafter : ∀ c ∈ after, isBlank c = true) : trim (before ++ cs ++ after) = trim cs := by
  have hfront : (before ++ cs ++ after).dropWhile isBlank = (cs ++ after).dropWhile isBlank := by
    rw [List.append_assoc, List.dropWhile_append_of_pos hbefore]
  rw [trim, trim, hfront, List.dropWhile_append]
  split
  · next hempty =>
    -- The text is white space itself, so nothing is left of either.
    have hnil : after.dropWhile isBlank = [] := List.dropWhile_eq_nil_iff.2 hafter
    rw [hnil, List.isEmpty_iff.1 hempty]
  · have hback : ∀ c ∈ after.reverse, isBlank c = true :=
      fun c hc => hafter c (List.mem_reverse.1 hc)
    rw [List.reverse_append, List.dropWhile_append_of_pos hback]

namespace Settings

/-! ## Tables as entries -/

namespace Scalar

variable {α : Type}

theorem skipsBlanks (k : Scalar α) : SkipsBlanks k.read := by
  cases k with
  | flag => exact Json.skipsBlanks_readFlag
  | text => exact Json.skipsBlanks_readText
  | choice variant => exact Json.skipsBlanks_readChoice variant

/-- What is written is read. -/
theorem reads_write (k : Scalar α) (a : α) : Reads k.read (k.write a) a := by
  cases k with
  | flag => exact Json.reads_flagText a
  | text => exact Json.reads_quoted a
  | choice variant label known => exact Json.reads_choice (known a)

end Scalar

section Tables

variable {σ : Type}

/-- The entry of a field. -/
def Column.entry (s : σ) (c : Column σ) : Entry σ where
  field := c.field
  text := c.scalar.write (c.get s)
  store t := c.put t (c.get s)
  takes := Json.Field.takes_storing c.scalar.skipsBlanks (c.scalar.reads_write _)

/-- What is found under the name of an item of a table with distinct names is the item. -/
theorem find?_map_field {ι : Type 1} {items : List ι} {field : ι → Json.Field σ}
    (h : (items.map fun x => (field x).name).Nodup) {x : ι} (hx : x ∈ items) :
    (items.map field).find? (fun f => f.name == (field x).name) = some (field x) := by
  induction items with
  | nil => cases hx
  | cons y items ih =>
    obtain ⟨hy, hitems⟩ := List.nodup_cons.1 h
    rcases List.mem_cons.1 hx with rfl | hx
    · simp
    · have hne : (field y).name ≠ (field x).name :=
        fun heq => hy (List.mem_map.2 ⟨x, hx, heq.symm⟩)
      simpa [hne] using ih hitems hx

theorem gives_columns {columns : List (Column σ)} (h : (columns.map Column.name).Nodup) (s : σ) :
    Gives (columns.map Column.field) (columns.map (Column.entry s)) where
  known := List.forall_mem_map.2 fun _ hc => find?_map_field h hc
  nodup := by rwa [List.map_map]

/-- The entry of a section. -/
def Section.entry (s : σ) (e : Section σ) : Entry σ where
  field := e.field
  text := objectText 1 ((e.columns.map (Column.entry (e.get s))).map Entry.line)
  store t := e.put t (Entry.storeAll (e.columns.map (Column.entry (e.get s))) e.start)
  takes :=
    Json.Field.takes_struct (Json.reads_objectText (gives_columns e.distinct (e.get s)) 1 e.start)

theorem line_entry (s : σ) (e : Section σ) : (e.entry s).line = e.line s := by
  have hlines : (e.columns.map (Column.entry (e.get s))).map Entry.line =
      e.columns.map fun c => c.line (e.get s) := List.map_map
  exact congrArg (fun lines => (e.name, objectText 1 lines)) hlines

end Tables

/-! ## Settings -/

/-- The entries of settings, one for each section. -/
def entries (s : Settings) : List (Entry Settings) := sections.map (Section.entry s)

theorem distinct_sections : (sections.map Section.name).Nodup :=
  show ["binding", "logging", "script"].Nodup by decide

theorem gives_entries (s : Settings) : Gives (sections.map Section.field) s.entries where
  known := List.forall_mem_map.2 fun _ he => find?_map_field distinct_sections he
  nodup := by
    rw [entries, List.map_map]
    exact distinct_sections

/-- Settings are written as the object of their entries. -/
theorem render_eq (s : Settings) :
    s.render = String.ofList (objectText 0 (s.entries.map Entry.line)) := by
  rw [render, entries, List.map_map]
  exact congrArg (fun lines => String.ofList (objectText 0 lines))
    (List.map_congr_left fun e _ => (line_entry s e).symm)

/-- The entries of settings leave nothing of what was there before. -/
theorem storeAll_entries (s t : Settings) : Entry.storeAll s.entries t = s :=
  rfl

/-- The text of settings is well formed and holds all of them. -/
theorem readWhole_render (s : Settings) :
    Json.readWhole (sections.map Section.field) {} s.render = .ok s := by
  have hread := Json.reads_objectText s.gives_entries 0 {} []
  rw [List.append_nil, storeAll_entries] at hread
  rw [render_eq, Json.readWhole, String.toList_ofList, hread]
  rfl

/-! ## The level -/

/-- The settings with these characters around the level. -/
def pad (before after : List Char) (s : Settings) : Settings :=
  { s with logging.level := String.ofList (before ++ s.logging.level.toList ++ after) }

theorem filter?_pad {before after : List Char} (h : ∀ c ∈ before ++ after, Blank.isBlank c = true)
    (s : Settings) : (s.pad before after).logging.filter? = s.logging.filter? := by
  have htrim : Blank.trim (before ++ s.logging.level.toList ++ after) =
      Blank.trim s.logging.level.toList :=
    Blank.trim_append (fun c hc => h c (List.mem_append_left _ hc))
      (fun c hc => h c (List.mem_append_right _ hc))
  simp only [LoggingSettings.filter?, Filter.read?, pad, String.toList_ofList, htrim]

/-- **Settings are read back as they were written.** The text of settings is never malformed. If
their level means a filter, they are read back unchanged; otherwise the level is refused, and named
as it was given. White space around a level changes neither. -/
theorem parse_render (s : Settings) :
    parse s.render =
      (if s.logging.filter?.isSome then .ok s else .error (.invalidLevel s.logging.level)) ∧
    ∀ before after : List Char, (∀ c ∈ before ++ after, Blank.isBlank c = true) →
      parse (s.pad before after).render =
        if s.logging.filter?.isSome then .ok (s.pad before after)
        else .error (.invalidLevel (s.pad before after).logging.level) := by
  have hparse (t : Settings) : parse t.render =
      if t.logging.filter?.isSome then .ok t else .error (.invalidLevel t.logging.level) := by
    rw [parse, readWhole_render]
    cases hfilter : t.logging.filter? with
    | none => simp [filter, hfilter, Except.map]
    | some f => simp [filter, hfilter, Except.map]
  refine ⟨hparse s, fun before after h => ?_⟩
  rw [hparse, filter?_pad h]

/-- Settings of this level, all else other than by default. -/
def ofLevel (level : String) : Settings where
  binding := { proxyMode := .classProxy, collisions := .allow }
  logging := { level, logRejections := false }
  script := { drainsJobs := false }

theorem parse_render_escaped :
    parse (pad ['\t', ' '] ['\u00a0', '\n'] (ofLevel "Debug")).render =
        .ok (ofLevel "\t Debug\u00a0\n") ∧
      parse (ofLevel " \"\\\x01é😀 ").render = .error (.invalidLevel " \"\\\x01é😀 ") :=
  ⟨(parse_render (ofLevel "Debug")).2 ['\t', ' '] ['\u00a0', '\n']
      (List.all_eq_true.1 rfl),
    (parse_render (ofLevel " \"\\\x01é😀 ")).1⟩

end Settings

end HostBridge
