/-!
# Log events

What the library reports of its work: events with a level, the part of the library that speaks, a
message and named fields. Operations return the events they emit; nothing is printed here.
-/

namespace HostBridge

/-- How grave an event is. -/
inductive Level where
  | trace
  | debug
  | info
  | warn
  | error
deriving DecidableEq

namespace Level

/-- The name in capitals, as log lines and log entries show it. -/
def label : Level → String
  | trace => "TRACE"
  | debug => "DEBUG"
  | info => "INFO"
  | warn => "WARN"
  | error => "ERROR"

/-- The level with a name in capitals. -/
def ofLabel? (s : String) : Option Level :=
  [trace, debug, info, warn, error].find? fun l => l.label == s

/-- The place of a level among the others: the gravest is first. -/
def rank : Level → Nat
  | trace => 5
  | debug => 4
  | info => 3
  | warn => 2
  | error => 1

end Level

/-- The part of the library that emits an event. -/
inductive Target where
  | host
  | builder
  | policy
  | resolver
  | cache
  | callback
  | snapshot
  | runtime
  | tracker
  | logging
  | program
  | strategy
deriving DecidableEq

/-- The path under which a part's events are listed. -/
def Target.path : Target → String
  | host => "tether::host"
  | builder => "tether_core::binding::builder"
  | policy => "tether_core::binding::policy"
  | resolver => "tether_core::binding::resolver"
  | cache => "tether_core::binding::cache"
  | callback => "tether_core::promise::callback"
  | snapshot => "tether_script::bind"
  | runtime => "tether_script::runtime"
  | tracker => "tether_script::tracker"
  | logging => "tether_services::logging"
  | program => "tether"
  | strategy => "strategy"

/-- A field of an event. Log lines quote `quoted` texts and show `plain` ones as they are. -/
inductive FieldText where
  | quoted (s : String)
  | plain (s : String)

/-- The text itself. -/
def FieldText.text : FieldText → String
  | quoted s => s
  | plain s => s

/-- Something the library reports. -/
structure Event where
  level : Level
  target : Target
  message : String
  fields : List (String × FieldText) := []

namespace FieldText

/-- A count. -/
def count (n : Nat) : FieldText := plain (Nat.repr n)

/-- A truth value. -/
def flag (b : Bool) : FieldText := plain (if b then "true" else "false")

/-- The characters of a quoted text: quotes and backslashes are escaped, and so are the control
characters that have a letter of their own. -/
def escape : Char → List Char
  | '"' => ['\\', '"']
  | '\\' => ['\\', '\\']
  | '\n' => ['\\', 'n']
  | '\r' => ['\\', 'r']
  | '\t' => ['\\', 't']
  | c => [c]

/-- The field as a log line shows it. -/
def line : FieldText → String
  | quoted s => "\"" ++ String.ofList (s.toList.flatMap escape) ++ "\""
  | plain s => s

end FieldText

namespace Event

/-- The event as a log line: the level right-aligned to five columns, the target, the message and
the fields in order. -/
def line (e : Event) : String :=
  let label := e.level.label
  " " ++ String.ofList (List.replicate (5 - label.length) ' ') ++ label ++ " " ++ e.target.path ++
    ": " ++ e.message ++
    String.join (e.fields.map fun f => " " ++ f.1 ++ "=" ++ f.2.line)

end Event

end HostBridge
