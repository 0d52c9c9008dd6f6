import HostBridge.Proofs.ObjectShape
import HostBridge.Proofs.SettingsText

/-!
# Settings given in part

Settings may be given in part. What a text gives takes the place of the defaults, in whatever order
it is given and whatever else stands in the text; what it leaves out keeps its default, in a section
that is given in part as in one that is not given. `overlay` says this field by field, and
`parse_overlays_defaults` that reading does it. The one thing that is asked of what else stands in
the text is that names, in it and in its sections, denote texts.
-/

namespace HostBridge

open Json (Document FieldSlot Fits Legible Member Misfits Shape Tree exists_of_mem_membersOf
  exists_of_valueOf? get_storeAll get_storeAll_struct membersOf membersOf_eq_of_mem namesIn
  of_readWhole_document readWhole_document valueOf? valueOf?_eq_some)

namespace Settings

/-! ## The shapes of tables -/

namespace Scalar

/-- The shape of what a field holds. -/
def shape : {α : Type} → Scalar α → Shape
  | _, flag => .flag
  | _, text => .text
  | _, choice variant _ _ => .choice variant

/-- What a tree is as what a field holds. -/
def value? : {α : Type} → Scalar α → Tree → Option α
  | _, flag => Tree.flag?
  | _, text => Tree.text?
  | _, choice variant _ _ => Tree.variant? variant

variable {α : Type}

theorem meets (k : Scalar α) : k.read.Meets k.shape k.value? := by
  cases k with
  | flag => exact Json.meets_readFlag
  | text => exact Json.meets_readText
  | choice variant => exact Json.meets_readChoice variant

/-- There are no names to look at in what a field holds. -/
theorem legible (k : Scalar α) (t : Tree) : k.shape.legible t := by
  cases k <;> trivial

/-- Only flags and texts matter. -/
theorem exists_value?_eq (k : Scalar α) :
    ∃ g : Bool ⊕ String → Option α, ∀ t, k.value? t = t.scalar?.bind g := by
  cases k with
  | flag => exact ⟨_, Tree.flag?_eq⟩
  | text => exact ⟨_, Tree.text?_eq⟩
  | choice variant => exact ⟨_, Tree.variant?_eq variant⟩

end Scalar

section Tables

variable {σ : Type} {ms : List Member}

/-- The name of a field and the shape of what it holds. -/
def Column.shape (c : Column σ) : String × Shape := (c.name, c.scalar.shape)

/-- The name of a section and its shape. -/
def Section.shape (e : Section σ) : String × Shape := (e.name, .object (e.columns.map Column.shape))

/-- What members give a field. -/
def Column.given? (c : Column σ) (ms : List Member) : Option c.content :=
  (valueOf? ms c.name).bind c.scalar.value?

/-- A field with its shape. -/
def Column.slot (c : Column σ) : FieldSlot σ :=
  .storing c.name c.put c.shrinks c.scalar.meets

theorem names_columns (columns : List (Column σ)) :
    FieldSlot.names (columns.map Column.slot) = columns.map Column.name :=
  List.map_map

theorem Section.nodup_slots (e : Section σ) :
    (FieldSlot.names (e.columns.map Column.slot)).Nodup :=
  names_columns e.columns ▸ e.distinct

/-- A section with its shape. -/
def Section.slot (e : Section σ) : FieldSlot σ := .struct e.name e.nodup_slots e.start e.put

theorem names_sections (es : List (Section σ)) :
    FieldSlot.names (es.map Section.slot) = es.map Section.name :=
  List.map_map

/-- What is put into a field is got from it, and from it only. -/
structure Apart (columns : List (Column σ)) : Prop where
  gets : ∀ c ∈ columns, ∀ s a, c.get (c.put s a) = a
  keeps : ∀ c ∈ columns, ∀ c' ∈ columns, c'.name ≠ c.name → ∀ s a, c.get (c'.put s a) = c.get s

/-- Members that are stored change each field to what they give it. -/
theorem Apart.get_storeAll {columns : List (Column σ)} (h : Apart columns)
    (hdistinct : (columns.map Column.name).Nodup)
    (honce : (namesIn (columns.map Column.name) ms).Nodup) {c : Column σ} (hc : c ∈ columns)
    (s : σ) : c.get (FieldSlot.storeAll (columns.map Column.slot) ms s) =
      (c.given? ms).getD (c.get s) := by
  refine Json.get_storeAll c.get c.scalar.value? (names_columns columns ▸ hdistinct)
    (names_columns columns ▸ honce) (List.mem_map_of_mem hc)
    (FieldSlot.sets_storing (h.gets c hc)) (List.forall_mem_map.2 fun c' hc' hne => ?_) s
  exact FieldSlot.keeps_storing (h.keeps c hc c' hc' hne)

/-- What is put into a section is got from it, and from it only. -/
structure SectionsApart (es : List (Section σ)) : Prop where
  gets : ∀ e ∈ es, ∀ s a, e.get (e.put s a) = a
  keeps : ∀ e ∈ es, ∀ e' ∈ es, e'.name ≠ e.name → ∀ s a, e.get (e'.put s a) = e.get s

/-- Members that are stored change each section to what is made of the members that they give it. -/
theorem SectionsApart.get_storeAll {es : List (Section σ)} (h : SectionsApart es)
    (hdistinct : (es.map Section.name).Nodup) (honce : (namesIn (es.map Section.name) ms).Nodup)
    {e : Section σ} (he : e ∈ es) {s : σ} (hstart : e.get s = e.start) :
    e.get (FieldSlot.storeAll (es.map Section.slot) ms s) =
      FieldSlot.storeAll (e.columns.map Column.slot) (membersOf ms e.name) e.start := by
  refine get_storeAll_struct e.get _ (names_sections es ▸ hdistinct) (names_sections es ▸ honce)
    (List.mem_map_of_mem he) (FieldSlot.sets_struct (h.gets e he))
    (List.forall_mem_map.2 fun e' he' hne => ?_) hstart
  exact FieldSlot.keeps_struct (h.keeps e he e' he' hne)

end Tables

/-- The names and the shapes of the sections. -/
def shapes : List (String × Shape) := sections.map Section.shape

theorem binding_mem_sections : bindingSection ∈ sections := .head _

theorem logging_mem_sections : loggingSection ∈ sections := .tail _ (.head _)

theorem script_mem_sections : scriptSection ∈ sections := .tail _ (.tail _ (.head _))

theorem map_entry_slot : (sections.map Section.slot).map FieldSlot.entry = shapes := rfl

theorem map_field_slot : (sections.map Section.slot).map FieldSlot.field =
    sections.map Section.field :=
  rfl

theorem apart_bindingColumns : Apart bindingColumns := by
  constructor <;> simp [bindingColumns]

theorem apart_loggingColumns : Apart loggingColumns := by
  constructor <;> simp [loggingColumns]

theorem apart_scriptColumns : Apart scriptColumns := by
  constructor <;> simp [scriptColumns]

theorem apart_sections : SectionsApart sections := by
  constructor <;> simp [sections, bindingSection, loggingSection, scriptSection]

end Settings

/-! ## Overlays -/

section Overlays

variable (ms : List Member)

/-- The settings with the fields that members give in their place. -/
def BindingSettings.overlay (s : BindingSettings) : BindingSettings where
  proxyMode := ((valueOf? ms "default_proxy_mode").bind
    (Tree.variant? ProxyMode.ofLabel?)).getD s.proxyMode
  collisions := ((valueOf? ms "collision_policy").bind
    (Tree.variant? CollisionPolicy.ofLabel?)).getD s.collisions

@[inherit_doc BindingSettings.overlay]
def LoggingSettings.overlay (s : LoggingSettings) : LoggingSettings where
  level := ((valueOf? ms "level").bind Tree.text?).getD s.level
  logRejections := ((valueOf? ms "log_rejections").bind Tree.flag?).getD s.logRejections

@[inherit_doc BindingSettings.overlay]
def ScriptSettings.overlay (s : ScriptSettings) : ScriptSettings where
  drainsJobs := ((valueOf? ms "drain_jobs_after_eval").bind Tree.flag?).getD s.drainsJobs

/-- The settings with what members give in their place, section by section. -/
def Settings.overlay (s : Settings) : Settings where
  binding := s.binding.overlay (membersOf ms "binding")
  logging := s.logging.overlay (membersOf ms "logging")
  script := s.script.overlay (membersOf ms "script")

end Overlays

namespace Settings

/-! ## Storing -/

section Storing

variable {ms : List Member}

theorem fits_membersOf (h : Fits shapes ms) {e : Section Settings} (he : e ∈ sections) :
    Fits (e.columns.map Column.shape) (membersOf ms e.name) :=
  h.membersOf (List.mem_map_of_mem he)

theorem once_membersOf (h : Fits shapes ms) {e : Section Settings} (he : e ∈ sections) :
    (namesIn (e.columns.map Column.name) (membersOf ms e.name)).Nodup := by
  have honce := (fits_membersOf h he).once
  rwa [List.map_map] at honce

theorem storeAll_bindingColumns (h : Fits shapes ms) (s : BindingSettings) :
    FieldSlot.storeAll (bindingColumns.map Column.slot) (membersOf ms "binding") s =
      s.overlay (membersOf ms "binding") := by
  have hget {c : Column BindingSettings} (hc : c ∈ bindingColumns) :=
    apart_bindingColumns.get_storeAll distinct_bindingColumns
      (once_membersOf h binding_mem_sections) hc s
  exact congrArg₂ BindingSettings.mk (hget (.head _)) (hget (.tail _ (.head _)))

theorem storeAll_loggingColumns (h : Fits shapes ms) (s : LoggingSettings) :
    FieldSlot.storeAll (loggingColumns.map Column.slot) (membersOf ms "logging") s =
      s.overlay (membersOf ms "logging") := by
  have hget {c : Column LoggingSettings} (hc : c ∈ loggingColumns) :=
    apart_loggingColumns.get_storeAll distinct_loggingColumns
      (once_membersOf h logging_mem_sections) hc s
  exact congrArg₂ LoggingSettings.mk (hget (.head _)) (hget (.tail _ (.head _)))

theorem storeAll_scriptColumns (h : Fits shapes ms) (s : ScriptSettings) :
    FieldSlot.storeAll (scriptColumns.map Column.slot) (membersOf ms "script") s =
      s.overlay (membersOf ms "script") :=
  congrArg ScriptSettings.mk (apart_scriptColumns.get_storeAll distinct_scriptColumns
    (once_membersOf h script_mem_sections) (.head _) s)

/-- Members that fit are stored over the defaults of every section. -/
theorem storeAll_sections (h : Fits shapes ms) :
    FieldSlot.storeAll (sections.map Section.slot) ms {} = overlay ms {} := by
  have honce : (namesIn (sections.map Section.name) ms).Nodup := h.once
  have hbinding := apart_sections.get_storeAll distinct_sections honce binding_mem_sections
    (s := {}) rfl
  have hlogging := apart_sections.get_storeAll distinct_sections honce logging_mem_sections
    (s := {}) rfl
  have hscript := apart_sections.get_storeAll distinct_sections honce script_mem_sections
    (s := {}) rfl
  generalize FieldSlot.storeAll (sections.map Section.slot) ms {} = s at hbinding hlogging hscript
  have hbinding' := hbinding.trans (storeAll_bindingColumns h {})
  have hlogging' := hlogging.trans (storeAll_loggingColumns h {})
  have hscript' := hscript.trans (storeAll_scriptColumns h {})
  calc s = ⟨s.binding, s.logging, s.script⟩ := rfl
    _ = overlay ms {} := by
      rw [show s.binding = _ from hbinding', show s.logging = _ from hlogging',
        show s.script = _ from hscript']
      rfl

end Storing

/-! ## What members give -/

/-- The members give a field of a section this flag or text. -/
def Assigns (ms : List Member) (place field : String) (v : Bool ⊕ String) : Prop :=
  ∃ m ∈ ms, m.name? = some place ∧ ∃ fields, m.tree.members? = some fields ∧
    ∃ f ∈ fields, f.name? = some field ∧ f.tree.scalar? = some v

/-- The members give the same to every field of every section, in whatever order and whatever else
they give. -/
def SameFields (ms ms' : List Member) : Prop :=
  ∀ e ∈ sections, ∀ c ∈ e.columns, ∀ v,
    Assigns ms e.name c.name v ↔ Assigns ms' e.name c.name v

section Giving

variable {ms ms' : List Member} {e : Section Settings} {c : Column e.content}

theorem scalar?_eq_some_iff (h : Fits shapes ms) (he : e ∈ sections) (hc : c ∈ e.columns)
    {v : Bool ⊕ String} :
    (valueOf? (membersOf ms e.name) c.name).bind Tree.scalar? = some v ↔
      Assigns ms e.name c.name v := by
  constructor
  · intro hv
    obtain ⟨t, ht, hscalar⟩ := Option.bind_eq_some_iff.1 hv
    obtain ⟨f, hf, hname, rfl⟩ := exists_of_valueOf? ht
    obtain ⟨m, hm, hplace, hfields⟩ := exists_of_mem_membersOf hf
    exact ⟨m, hm, hplace, _, hfields, f, hf, hname, hscalar⟩
  · rintro ⟨m, hm, hplace, given, hgiven, f, hf, hname, hscalar⟩
    have hmem : e.name ∈ shapes.map Prod.fst :=
      List.mem_map_of_mem (f := Prod.fst) (List.mem_map_of_mem he)
    have heq := membersOf_eq_of_mem h.once hmem hm hplace hgiven
    have honce := once_membersOf h he
    rw [heq] at honce ⊢
    rw [valueOf?_eq_some honce (List.mem_map_of_mem hc) hf hname, Option.bind_some, hscalar]

/-- Members that give the same give every field the same. -/
theorem given?_congr (h : Fits shapes ms) (h' : Fits shapes ms') (hsame : SameFields ms ms')
    (he : e ∈ sections) (hc : c ∈ e.columns) :
    c.given? (membersOf ms e.name) = c.given? (membersOf ms' e.name) := by
  have hscalar : (valueOf? (membersOf ms e.name) c.name).bind Tree.scalar? =
      (valueOf? (membersOf ms' e.name) c.name).bind Tree.scalar? := by
    refine Option.ext fun v => ?_
    rw [scalar?_eq_some_iff h he hc, hsame e he c hc, scalar?_eq_some_iff h' he hc]
  obtain ⟨g, hg⟩ := c.scalar.exists_value?_eq
  rw [Column.given?, Column.given?, funext hg, ← Option.bind_assoc, hscalar, Option.bind_assoc]

end Giving

/-- Members that give the same make the same settings. -/
theorem overlay_congr {ms ms' : List Member} (h : Fits shapes ms) (h' : Fits shapes ms')
    (hsame : SameFields ms ms') (s : Settings) : overlay ms s = overlay ms' s := by
  have hgiven {e : Section Settings} {c : Column e.content} (he : e ∈ sections)
      (hc : c ∈ e.columns) := given?_congr h h' hsame he hc
  have hbinding : s.binding.overlay (membersOf ms "binding") =
      s.binding.overlay (membersOf ms' "binding") :=
    congrArg₂ (fun (mode : Option ProxyMode) (policy : Option CollisionPolicy) =>
        BindingSettings.mk (mode.getD s.binding.proxyMode) (policy.getD s.binding.collisions))
      (hgiven binding_mem_sections (.head _)) (hgiven binding_mem_sections (.tail _ (.head _)))
  have hlogging : s.logging.overlay (membersOf ms "logging") =
      s.logging.overlay (membersOf ms' "logging") :=
    congrArg₂ (fun (level : Option String) (flag : Option Bool) =>
        LoggingSettings.mk (level.getD s.logging.level) (flag.getD s.logging.logRejections))
      (hgiven logging_mem_sections (.head _)) (hgiven logging_mem_sections (.tail _ (.head _)))
  have hscript : s.script.overlay (membersOf ms "script") =
      s.script.overlay (membersOf ms' "script") :=
    congrArg (fun flag : Option Bool => ScriptSettings.mk (flag.getD s.script.drainsJobs))
      (hgiven script_mem_sections (.head _))
  rw [overlay, overlay, hbinding, hlogging, hscript]

/-! ## Reading -/

theorem parse_of_readWhole {text : String} {s : Settings}
    (h : Json.readWhole (sections.map Section.field) {} text = .ok s) :
    parse text =
      if s.logging.filter?.isSome then .ok s else .error (.invalidLevel s.logging.level) := by
  rw [parse, h]
  cases hfilter : s.logging.filter? with
  | none => simp [filter, hfilter, Except.map]
  | some f => simp [filter, hfilter, Except.map]

theorem parse_of_legible {d : Document} (h : Fits shapes d.members)
    (hlegible : Legible shapes d.members) :
    parse d.text =
      if (overlay d.members {}).logging.filter?.isSome then .ok (overlay d.members {})
      else .error (.invalidLevel (overlay d.members {}).logging.level) := by
  rw [← map_entry_slot] at hlegible
  have hread := readWhole_document (map_entry_slot ▸ h) hlegible {}
  rw [map_field_slot, storeAll_sections h] at hread
  exact parse_of_readWhole hread

/-- A text that is not refused as such does not misfit and is legible. -/
theorem exists_parse_eq_error {d : Document}
    (h : Misfits shapes d.members ∨ ¬Legible shapes d.members) :
    ∃ f, parse d.text = .error (.parse f) := by
  cases hread : Json.readWhole (sections.map Section.field) {} d.text with
  | error f => exact ⟨f, by rw [parse, hread]⟩
  | ok s =>
    rw [← map_field_slot] at hread
    obtain ⟨hfits, hlegible⟩ :=
      of_readWhole_document (names_sections sections ▸ distinct_sections) hread
    rw [map_entry_slot] at hfits hlegible
    exact absurd h (not_or.2 ⟨hfits, not_not.2 hlegible⟩)

namespace Excerpt

open Json (Blanks Literal Number Padded Piece)

/-- One blank. -/
def blank : Blanks := ⟨[' '], List.forall_mem_singleton.2 rfl⟩

/-- A text without escapes. -/
def plain (s : String)
    (h : s.toList.all (fun c => c != '"' && c != '\\' && !Json.Quoted.isControl c) = true) :
    Literal :=
  s.toList.pmap Piece.plain fun c hc => by simpa [and_assoc] using List.all_eq_true.1 h c hc

/-- `-0.5e+3` -/
def number : Number where
  negative := true
  whole := ⟨['0'], List.forall_mem_singleton.2 rfl, List.cons_ne_nil _ _⟩
  noZeros _ := rfl
  fraction := some ⟨['5'], List.forall_mem_singleton.2 rfl, List.cons_ne_nil _ _⟩
  exponent := some
    ⟨'e', .inl rfl, some false, ['3'], List.forall_mem_singleton.2 rfl, List.cons_ne_nil _ _⟩

/-- `"level":"Debug"` -/
def level : Member := (⟨.none, plain "level" rfl, .none⟩, ⟨.none, .text (plain "Debug" rfl), .none⟩)

/-- `"log_rejections" : false` -/
def rejections : Member :=
  (⟨.none, plain "log_rejections" rfl, blank⟩, ⟨blank, .flag false, .none⟩)

/-- `"colour":"\ud800"` -/
def colour : Member :=
  (⟨.none, plain "colour" rfl, .none⟩, ⟨.none, .text [.unit 'd' '8' '0' '0' 0xd800 rfl], .none⟩)

/-- `"x": [-0.5e+3 ,null]` -/
def other : Member :=
  (⟨.none, plain "x" rfl, .none⟩,
    ⟨blank, .list .none [⟨.none, .number number, blank⟩, ⟨.none, .null, .none⟩], .none⟩)

/-- `"lo\u0067ging":` and an object. -/
def logging (fields : List Member) : Member :=
  (⟨.none, plain "lo" rfl ++ .unit '0' '0' '6' '7' 0x67 rfl :: plain "ging" rfl, .none⟩,
    ⟨.none, .object .none fields, .none⟩)

/-- `"script":{ }` -/
def script : Member := (⟨.none, plain "script" rfl, .none⟩, ⟨.none, .object blank [], .none⟩)

/-- A text with names that are not known. -/
def first : Document where
  before := blank
  members := [other, logging [level, colour, rejections]]

/-- A text that gives the same fields in another order. -/
def second : Document where
  members := [logging [rejections, level], script]
  after := blank

/-- A text that gives the level twice. -/
def third : Document where
  members := [script, logging [level, rejections, level]]

/-- `"\ud800":1` -/
def half : Member :=
  (⟨.none, [.unit 'd' '8' '0' '0' 0xd800 rfl], .none⟩,
    ⟨.none, .number
      { negative := false
        whole := ⟨['1'], List.forall_mem_singleton.2 rfl, List.cons_ne_nil _ _⟩
        noZeros := nofun
        fraction := none
        exponent := none }, .none⟩)

/-- A text whose one name is half of a surrogate pair. -/
def unpaired : Document where
  members := [half]

end Excerpt

end Settings

end HostBridge
