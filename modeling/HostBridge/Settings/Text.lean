import HostBridge.File
import HostBridge.Settings
import HostBridge.Settings.Table

/-!
# Settings in text

Settings are written as a JSON object of sections and read from any JSON text whose sections and
fields are of the right types. What is not given keeps its default, and what is not known is passed
over. After a successful reading the log level must mean a filter.
-/

namespace HostBridge

/-- Why settings are refused. -/
inductive SettingsError where
  | file (e : FileError)
  | parse (f : Json.Fault)
  | invalidLevel (level : String)
deriving DecidableEq

/-- The text of a settings error. -/
def SettingsError.message : SettingsError → String
  | file e => "failed to read settings file: " ++ e.message
  | parse .malformed => "invalid settings: the text is malformed"
  | parse .mismatch => "invalid settings: a value is of the wrong type"
  | parse .ended => "invalid settings: the text ends too early"
  | invalidLevel level => "unknown log level '" ++ level ++ "'"

namespace Settings

/-- The fields of the binding section. -/
def bindingColumns : List (Column BindingSettings) :=
  [ { name := "default_proxy_mode"
      scalar := .choice ProxyMode.ofLabel? ProxyMode.label ProxyMode.ofLabel?_label
      get := BindingSettings.proxyMode
      put := fun s m => { s with proxyMode := m } },
    { name := "collision_policy"
      scalar :=
        .choice CollisionPolicy.ofLabel? CollisionPolicy.label CollisionPolicy.ofLabel?_label
      get := BindingSettings.collisions
      put := fun s p => { s with collisions := p } } ]

/-- The fields of the logging section. -/
def loggingColumns : List (Column LoggingSettings) :=
  [ { name := "level"
      scalar := .text
      get := LoggingSettings.level
      put := fun s l => { s with level := l } },
    { name := "log_rejections"
      scalar := .flag
      get := LoggingSettings.logRejections
      put := fun s b => { s with logRejections := b } } ]

/-- The fields of the script section. -/
def scriptColumns : List (Column ScriptSettings) :=
  [ { name := "drain_jobs_after_eval"
      scalar := .flag
      get := ScriptSettings.drainsJobs
      put := fun s b => { s with drainsJobs := b } } ]

theorem distinct_bindingColumns : (bindingColumns.map Column.name).Nodup :=
  show ["default_proxy_mode", "collision_policy"].Nodup by decide

theorem distinct_loggingColumns : (loggingColumns.map Column.name).Nodup :=
  show ["level", "log_rejections"].Nodup by decide

theorem distinct_scriptColumns : (scriptColumns.map Column.name).Nodup :=
  show ["drain_jobs_after_eval"].Nodup by decide

/-- The binding section. -/
def bindingSection : Section Settings where
  name := "binding"
  columns := bindingColumns
  distinct := distinct_bindingColumns
  start := {}
  get := Settings.binding
  put s b := { s with binding := b }

/-- The logging section. -/
def loggingSection : Section Settings where
  name := "logging"
  columns := loggingColumns
  distinct := distinct_loggingColumns
  start := {}
  get := Settings.logging
  put s l := { s with logging := l }

/-- The script section. -/
def scriptSection : Section Settings where
  name := "script"
  columns := scriptColumns
  distinct := distinct_scriptColumns
  start := {}
  get := Settings.script
  put s t := { s with script := t }

/-- The sections. -/
def sections : List (Section Settings) := [bindingSection, loggingSection, scriptSection]

/-- The filter that the settings ask for. -/
def filter (s : Settings) : Except SettingsError Filter :=
  match s.logging.filter? with
  | some f => .ok f
  | none => .error (.invalidLevel s.logging.level)

/-- Read settings. -/
def parse (text : String) : Except SettingsError Settings :=
  match Json.readWhole (sections.map Section.field) {} text with
  | .error f => .error (.parse f)
  | .ok s => s.filter.map fun _ => s

/-- Read settings from a file. -/
def load (content : Except FileError String) : Except SettingsError Settings :=
  match content with
  | .error e => .error (.file e)
  | .ok text => parse text

/-- Write settings, two blanks for each level. -/
def render (s : Settings) : String :=
  String.ofList (objectText 0 (sections.map fun e => e.line s))

end Settings

end HostBridge
