import HostBridge.Binding.Policy
import HostBridge.Host.Types

/-!
# Strategies by rules

An interception strategy given by a list of rules: the first rule that fits the kind of access, the
member name and the class name applies, and without one the access passes. Every question the
strategy is asked is reported as an event of target `strategy`.
-/

namespace HostBridge

/-- The kinds of access that a strategy is asked about. -/
inductive AccessKind where
  | get
  | set
  | call
  | construct
deriving DecidableEq

/-- The name of a kind of access. -/
def AccessKind.label : AccessKind → String
  | get => "get"
  | set => "set"
  | call => "call"
  | construct => "construct"

/-- A rule: what it fits and what it does. -/
structure AccessRule where
  kind : AccessKind
  /-- The member name it fits, or any. -/
  name : Option String := none
  /-- The class name it fits, or any. -/
  className : Option String := none
  /-- Answer the arguments of a call, before anything else. -/
  echo : Bool := false
  /-- Store the value being written in a property of the receiver. -/
  store : Option String := none
  /-- Store a value in a property of the receiver. -/
  poke : Option (String × Value) := none
  /-- Fail. -/
  fail : Option String := none
  /-- Answer a value. -/
  value : Option Value := none
  /-- Answer an instance. -/
  make : Option HostObject := none

/-- A strategy by rules. -/
structure RuleStrategy where
  rules : List AccessRule := []
  /-- The names of the classes that cannot be shown through a class proxy. -/
  unproxyable : List String := []

namespace RuleStrategy

/-- The report of a question. -/
def note (text : String) : Event := { level := .trace, target := .strategy, message := text }

/-- The report of a question about an access. -/
def accessNote (kind : AccessKind) (className member : String) : Event :=
  note (kind.label ++ ":" ++ className ++ ":" ++ member)

/-- The rule that applies to an access. -/
def rule? (s : RuleStrategy) (kind : AccessKind) (className member : String) :
    Option AccessRule :=
  s.rules.find? fun r =>
    r.kind == kind && r.name.all (· == member) && r.className.all (· == className)

/-- What a rule does to the receiver, and the failure it raises. -/
def effect (r : AccessRule) (o : HostObject) : Except InvokeError Unit × HostObject :=
  let o' := match r.poke with
    | some (key, v) => o.putProp key v
    | none => o
  match r.fail with
  | some reason => (.error (.host reason), o')
  | none => (.ok (), o')

/-- The value is exactly `true`. -/
def isTrue : Option Value → Bool
  | some (.bool b) => b
  | _ => false

/-- The strategy itself. -/
def strategy (s : RuleStrategy) : Strategy HostType where
  get c name o :=
    let className := HostTypes.name c
    let noted := [accessNote .get className name]
    match s.rule? .get className name with
    | none => ⟨.ok none, o, noted⟩
    | some r =>
      let e := effect r o
      ⟨e.1.map fun _ => r.value, e.2, noted⟩
  set c name v o :=
    let className := HostTypes.name c
    let noted := [accessNote .set className name]
    match s.rule? .set className name with
    | none => ⟨.ok false, o, noted⟩
    | some r =>
      let stored := match r.store with
        | some key => HostObject.putProp o key v
        | none => o
      let e := effect r stored
      ⟨e.1.map fun _ => isTrue r.value, e.2, noted⟩
  call c name args o :=
    let className := HostTypes.name c
    let noted := [accessNote .call className name]
    match s.rule? .call className name with
    | none => ⟨.ok none, o, noted⟩
    | some r =>
      if r.echo then ⟨.ok (some (.array args)), o, noted⟩
      else
        let e := effect r o
        ⟨e.1.map fun _ => r.value, e.2, noted⟩
  construct c name _ :=
    let className := HostTypes.name c
    let noted := [accessNote .construct className name]
    match s.rule? .construct className name with
    | none => (.ok none, noted)
    | some r =>
      match r.fail with
      | some reason => (.error (.host reason), noted)
      | none => (.ok r.make, noted)
  proxyable c :=
    let className := HostTypes.name c
    (!s.unproxyable.contains className, [note ("proxyable:" ++ className)])

end RuleStrategy

end HostBridge
