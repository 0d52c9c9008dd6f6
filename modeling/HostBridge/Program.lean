import HostBridge.Binding.Cache
import HostBridge.Program.Arguments
import HostBridge.Program.Demo
import HostBridge.Script.Text
import HostBridge.Script.Runtime
import HostBridge.Settings.Text

/-!
# The program

Load the settings, bind the vector class, run a script or the demo, run what is left of the job
queue, and report how many promises were rejected. The log is written to standard output as far as
the level in the settings lets it through. The first error ends the run.
-/

namespace HostBridge.Program

/-- The version of the program. -/
def version : String := "0.1.0"

/-- Why a run ends early. -/
inductive Failure where
  | settings (path : String) (e : SettingsError)
  | logging (e : SettingsError)
  | binding (e : RegistryError)
  | script (e : ScriptError)

namespace Failure

/-- The text of a failure and of what caused it, outermost first. -/
def chain : Failure → String × List String
  | settings path e =>
    ("loading settings from " ++ path, e.message :: match e with
      | .file e => [e.message]
      | _ => [])
  | logging e => (e.message, [])
  | binding e => (e.message, [])
  | script e => (e.message, match e with
      | .file e => [e.message]
      | .engine e => [e.message]
      | _ => [])

/-- A text with blanks after each of its line breaks. -/
def hang (blanks : Nat) (s : String) : String :=
  String.ofList (s.toList.flatMap fun c =>
    if c = '\n' then c :: List.replicate blanks ' ' else [c])

/-- Causes with their numbers, the further lines of each below its first. -/
def numbered : Nat → List String → List String
  | _, [] => []
  | n, s :: rest => ("    " ++ Nat.repr n ++ ": " ++ hang 7 s) :: numbered (n + 1) rest

/-- The report of a failure: what failed, and its causes, which are numbered if there are
several. -/
def report (f : Failure) : String :=
  let (text, causes) := f.chain
  let parts := ("Error: " ++ text) :: match causes with
    | [] => []
    | [cause] => ["", "Caused by:", "    " ++ hang 4 cause]
    | causes => "" :: "Caused by:" :: numbered 0 causes
  String.join (parts.map (· ++ "\n"))

end Failure

/-- What a run did: the lines it wrote, and the failure that ended it, if one did. -/
structure Report where
  output : List String
  failure : Option Failure := none

/-- The exit code of a run. -/
def Report.code (r : Report) : Nat := if r.failure.isSome then 1 else 0

/-- The callback of a run: it counts rejections and, if the settings say so, logs them. -/
def callback (s : Settings) : HostCallback :=
  .counting {} (if s.logging.logRejections then .listener (.logging .emitting) else .silent)

/-- An event of the program itself. -/
def notice (message : String) (fields : List (String × FieldText)) : Event :=
  { level := .info, target := .program, message, fields }

/-- The runtime after the script or the demo. -/
def runScript (r : Runtime Endpoint) (b : Binding HostType) (info : ClassInfo)
    (script : Option (String × ScriptFile)) : Ran Endpoint Unit :=
  let l := Endpoint.listener
  match script with
  | some (path, content) => r.executeFile l path content
  | none =>
    let shown := r.expose "origin" b (Demo.origin info)
    match shown.result with
    | .error e => ⟨.error e, shown.runtime, shown.events⟩
    | .ok () =>
      let ran := shown.runtime.execute l Demo.script
      match ran.result with
      | .error e => ⟨.error e, ran.runtime, shown.events ++ ran.events⟩
      | .ok () =>
        let asked := ran.runtime.eval l .transparent [.read "summary" none]
        let events := shown.events ++ ran.events ++ asked.events
        match asked.result with
        | .error e => ⟨.error e, asked.runtime, events⟩
        | .ok summary =>
          ⟨.ok (), asked.runtime, events ++
            [notice "demo script finished" [("summary", .plain summary.display)]]⟩

/-- The events of a run under settings that were loaded, and the failure that ended it. -/
def runWith (s : Settings) (f : Filter) (script : Option (String × ScriptFile)) :
    List Event × Option Failure :=
  let info := Vec2.info
  let start : List Event :=
    [ { level := .debug, target := .logging, message := "logging initialised",
        fields := [("level", .plain f.label)] },
      notice ("Tether v" ++ version) [] ]
  let installed := ({ drainsJobs := s.script.drainsJobs } : Runtime Endpoint).setCallback
    (some (callback s))
  let bound := ({} : Cache HostType).bind (.vector info) (Vec2.declaration info)
    s.binding.proxyMode (Strategy.passThrough HostType) s.binding.collisions
  let events := start ++ installed.2 ++ bound.events
  match bound.result with
  | .error e => (events, some (.binding e))
  | .ok p =>
    let b := p.binding
    let events := events ++
      [notice "host class bound"
        [("class", .quoted (HostTypes.name b.targetClass)),
          ("proxy_mode", .plain b.policy.proxyMode.label)]]
    let ran := runScript installed.1 b info script
    let events := events ++ ran.events
    match ran.result with
    | .error e => (events, some (.script e))
    | .ok () =>
      let drained := ran.runtime.runJobs Endpoint.listener
      let events := events ++ drained.events
      match drained.result with
      | .error e => (events, some (.script e))
      | .ok _ =>
        let stats := (drained.runtime.callback.bind Callback.stats?).getD {}
        (events ++
          [notice "runtime shut down"
            [("rejections", .count stats.total), ("unhandled", .count stats.unhandled)]], none)

/-- Run a script, or the demo, with settings from a file, or the defaults. -/
def run (settings : Option (String × Except FileError String))
    (script : Option (String × ScriptFile)) : Report :=
  let loaded : Except Failure Settings :=
    match settings with
    | none => .ok {}
    | some (path, content) => (Settings.load content).mapError (.settings path)
  match loaded with
  | .error e => { output := [], failure := some e }
  | .ok s =>
    match s.filter with
    | .error e => { output := [], failure := some (.logging e) }
    | .ok f =>
      let (events, failure) := runWith s f script
      { output := (events.filter fun e => f.admits e.level).map Event.line, failure }

/-- What the command line takes. -/
def usage : String :=
  "Usage: tether [SCRIPT] [--settings <PATH>]\n\n" ++
  "  SCRIPT             Script to run; the demo runs when there is none\n" ++
  "  --settings <PATH>  Settings file (JSON)\n" ++
  "  -h, --help         Print help\n" ++
  "  -V, --version      Print version\n"

/-- The line that tells the version. -/
def versionLine : String := "tether " ++ version

end HostBridge.Program
