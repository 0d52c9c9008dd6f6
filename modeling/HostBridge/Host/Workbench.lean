import HostBridge.Binding.Access
import HostBridge.Binding.Cache
import HostBridge.Host.Bag

/-!
# A workbench for bindings

One builder, one description that is not bound yet, one current binding, a cache and named objects,
with the commands on them. `Workbench.run` carries out a command: it answers, leaves a workbench
and emits events. A command that needs something the workbench does not have fails with a
`BenchError`. It then changes nothing, except that a command which takes an object in hand drops it
when there is no description to work by (`Workbench.afterFailure`).
-/

namespace HostBridge

/-- What the workbench does not have. -/
inductive BenchError where
  | noBuilder
  | noDescription
  | noBinding
  | noObject
  | noMember
  | noField
  | noConstructor
  | noGenericGetter
  | noGenericSetter
deriving DecidableEq

/-- The binding at hand, with its serial number if the cache published it. -/
structure CurrentBinding where
  binding : Binding HostType
  serial : Option Nat := none

/-- The state of a workbench. -/
structure Workbench where
  builder : Option (Builder HostType) := none
  /-- The class the builder was started for; described members are written for it. -/
  home : HostType := .foreign
  description : Option (Description HostType) := none
  current : Option CurrentBinding := none
  cache : Cache HostType := {}
  objects : Record HostObject := []

/-- How to build a binding outside the declared classes. -/
structure BindingPlan where
  targetClass : HostType
  additions : List (Addition HostType) := []
  collisions : CollisionPolicy := .reject
  policyClass : HostType
  proxyMode : ProxyMode := .objectProxy
  strategy : Strategy HostType := Strategy.passThrough HostType

/-- Build a binding by a plan. -/
def BindingPlan.build (p : BindingPlan) :
    Except RegistryError (Binding HostType) × List Event :=
  let built := (Builder.new p.targetClass).run (p.additions.map .add)
  let events := built.2 ++ built.1.publishEvents p.collisions
  match built.1.publish p.collisions with
  | .error e => (.error e, events)
  | .ok description =>
    (Binding.new (Policy.new p.proxyMode p.policyClass p.strategy) description, events)

/-- Why a description was not bound. -/
inductive BindError where
  | policy (e : PolicyError)
  | registry (e : RegistryError)

/-- The tables of overloads. -/
inductive OverloadTable where
  | methods
  | getters
  | setters
  | applyFunctions

/-- The commands of the workbench. -/
inductive Command where
  /-- Start a builder in place of the present one. -/
  | start (c : HostType)
  /-- Add a described member, written for the builder's first class or another. -/
  | add (m : BagMember) (owner : Option ClassInfo) (exposure : Exposure)
  | redirect (c : HostType)
  /-- Show the claims on a name. -/
  | claims (name : String)
  /-- Show the builder's tables. -/
  | builderTables
  /-- Publish the builder's description. The builder is gone either way. -/
  | publish (policy : CollisionPolicy)
  /-- Show the description's tables. -/
  | tables
  | contains (name : String)
  /-- Show the debugging texts. -/
  | texts
  | fieldGet (on name : String)
  | fieldSet (on name : String) (v : Value)
  /-- Run one overload, without choosing. -/
  | invoke (table : OverloadTable) (name : String) (index : Nat) (on : String) (args : List Value)
  | genericGet (index : Nat) (on name : String)
  | genericSet (index : Nat) (on name : String) (v : Value)
  /-- Run one constructor, without choosing. -/
  | make (index : Nat) (args : List Value)
  /-- Bind the description that is not bound yet, with a policy for its class or another. It is
  gone either way; when binding fails the current binding stays. -/
  | bind (mode : ProxyMode) (strategy : Option (Strategy HostType)) (policyClass : Option HostType)
  /-- Change the proxy mode of the current binding, or only show it. -/
  | proxyMode (mode : Option ProxyMode)
  | keep (name : String) (o : HostObject)
  | inspect (name : String)
  | get (on name : String)
  | set (on name : String) (v : Value)
  | call (on name : String) (args : List Value)
  | apply (on : String) (args : List Value)
  /-- Make an instance and keep it under a name. -/
  | construct (args : List Value) (name : String)
  | keys
  | snapshot (on : String)
  | cacheBind (c : HostType) (declaration : List (BuildStep HostType)) (mode : ProxyMode)
      (strategy : Strategy HostType) (policy : CollisionPolicy)
  | cachePublish (c : HostType) (plan : BindingPlan)
  | cacheGet (c : HostType)
  | cacheEvict (c : HostType)
  | cacheSize

/-- What the commands answer. -/
inductive Answer where
  /-- The builder's class and mode, and the fault of a redirect. -/
  | target (b : Builder HostType) (fault : Option RegistryError)
  | registered (r : Registration)
  | claims (kinds : List MemberKind) (known : Bool)
  | tables (d : Description HostType) (published : Bool)
  | published (r : Except RegistryError Unit)
  | truth (b : Bool)
  | texts (d : Description HostType) (policy : Option (Policy HostType))
  | ran (r : Except InvokeError Value)
  | stored (r : Except InvokeError Unit)
  | looked (r : Except InvokeError (Option Value))
  | offered (r : Except InvokeError Bool)
  | made (r : Except InvokeError HostObject) (accepted : Bool)
  | bound (r : Except BindError (Binding HostType))
  | proxyMode (mode : ProxyMode) (proxyable : Bool)
  | object (o : HostObject)
  | found (r : Except InvokeError (Option Value))
  | wrote (r : Except InvokeError Bool) (o : HostObject)
  | called (r : Except InvokeError (Option Value)) (o : HostObject)
  | constructed (r : Except InvokeError (Option HostObject))
  | names (names : List String)
  | snapshot (r : Except InvokeError (Record Value))
  /-- A binding from the cache, for a declared class or a planned one. -/
  | requested (declared : Option HostType) (r : CacheAnswer HostType)
  | entry (p : Option (Published HostType))
  | size (n : Nat)

/-- What carrying out a command gives. -/
structure Done where
  answer : Answer
  bench : Workbench
  events : List Event := []

namespace Workbench

/-! ## What is at hand -/

/-- The builder. -/
def theBuilder (w : Workbench) : Except BenchError (Builder HostType) :=
  match w.builder with
  | some b => .ok b
  | none => .error .noBuilder

/-- The current binding. -/
def theBinding (w : Workbench) : Except BenchError CurrentBinding :=
  match w.current with
  | some b => .ok b
  | none => .error .noBinding

/-- The description that is not bound yet, or the one of the current binding. -/
def theDescription (w : Workbench) : Except BenchError (Description HostType) :=
  match w.description, w.current with
  | some d, _ => .ok d
  | none, some c => .ok c.binding.description
  | none, none => .error .noDescription

/-- A named object. -/
def theObject (w : Workbench) (name : String) : Except BenchError HostObject :=
  match Record.get? w.objects name with
  | some o => .ok o
  | none => .error .noObject

/-- The field of a name. -/
def field (d : Description HostType) (name : String) : Except BenchError (Field HostType) :=
  match Record.get? d.fields name with
  | some f => .ok f
  | none => .error .noField

/-- The overloads of a table. -/
def overloads (d : Description HostType) (name : String) :
    OverloadTable → List (Method HostType)
  | .methods => (Record.get? d.methods name).getD []
  | .getters => (Record.get? d.getters name).getD []
  | .setters => (Record.get? d.setters name).getD []
  | .applyFunctions => d.applyFunctions

/-- The item of a list at an index, or the fault that there is none. -/
def item {α : Type} (items : List α) (index : Nat) (fault : BenchError) : Except BenchError α :=
  match items[index]? with
  | some a => .ok a
  | none => .error fault

/-- Keep an object under a name. -/
def keepObject (w : Workbench) (name : String) (o : HostObject) : Workbench :=
  { w with objects := Record.put w.objects name o }

/-! ## Groups of commands -/

/-- Run an access through the current binding on a named object. -/
def access {α : Type} (w : Workbench) (on : String)
    (run : Binding HostType → HostObject → Outcome HostType α)
    (answer : Except InvokeError α → HostObject → Answer) : Except BenchError Done := do
  let c ← w.theBinding
  let r := run c.binding (← w.theObject on)
  return ⟨answer r.result r.receiver, w.keepObject on r.receiver, r.events⟩

/-- Run part of a description on a named object, which is taken in hand first. -/
def operate {α β : Type} (w : Workbench) (on : String)
    (part : Description HostType → Except BenchError β)
    (run : β → HostObject → Except InvokeError α × HostObject)
    (answer : Except InvokeError α → Answer) : Except BenchError Done := do
  let o ← w.theObject on
  let r := run (← part (← w.theDescription)) o
  return ⟨answer r.1, w.keepObject on r.2, []⟩

/-- Bind the description that is not bound yet. -/
def bindDescription (w : Workbench) (mode : ProxyMode) (strategy : Option (Strategy HostType))
    (policyClass : Option HostType) : Except BenchError Done :=
  match w.description with
  | none => .error .noDescription
  | some d =>
    let w' := { w with description := none }
    match Policy.new? mode (policyClass.getD d.targetClass) strategy with
    | .error e => .ok ⟨.bound (.error (.policy e)), w', []⟩
    | .ok policy =>
      match Binding.new policy d with
      | .error e => .ok ⟨.bound (.error (.registry e)), w', []⟩
      | .ok b => .ok ⟨.bound (.ok b), { w' with current := some { binding := b } }, []⟩

/-- Change the proxy mode of the current binding, if a mode is given, and ask the strategy whether
it can proxy the class. A binding from the cache changes there too. -/
def changeProxyMode (w : Workbench) (mode : Option ProxyMode) : Except BenchError Done := do
  let c ← w.theBinding
  let mode' := mode.getD c.binding.policy.proxyMode
  let binding := c.binding.withProxyMode mode'
  let cache := match c.serial with
    | some serial => w.cache.refresh ⟨serial, binding⟩
    | none => w.cache
  let asked := binding.policy.strategy.proxyable binding.targetClass
  return ⟨.proxyMode mode' asked.1,
    { w with current := some { c with binding := binding }, cache := cache },
    c.binding.proxyModeEvents mode' ++ asked.2⟩

/-- Make a binding that the cache gave the current one. -/
def adopt (w : Workbench) (declared : Option HostType) (r : CacheAnswer HostType) : Done :=
  match r.result with
  | .ok p =>
    ⟨.requested declared r,
      { w with cache := r.cache, description := none,
               current := some { binding := p.binding, serial := some p.serial } }, r.events⟩
  | .error _ => ⟨.requested declared r, { w with cache := r.cache }, r.events⟩

/-! ## Carrying out commands -/

/-- Carry out a command. -/
def run (w : Workbench) : Command → Except BenchError Done
  | .start c =>
    let b := Builder.new c
    .ok ⟨.target b none, { w with builder := some b, home := c }, []⟩
  | .add m owner exposure => do
    let b ← w.theBuilder
    let r := b.add (m.addition (owner.getD w.home.info) exposure)
    return ⟨.registered r.1, { w with builder := some r.2 }, b.addEvents r.1⟩
  | .redirect c => do
    let b ← w.theBuilder
    match b.redirect c with
    | .ok b' => return ⟨.target b' none, { w with builder := some b' }, b.redirectEvents c⟩
    | .error e => return ⟨.target b (some e), w, []⟩
  | .claims name => do
    let b ← w.theBuilder
    return ⟨.claims (b.claims.of name) (b.keys.contains name), w, []⟩
  | .builderTables => do return ⟨.tables (← w.theBuilder).toDescription false, w, []⟩
  | .publish policy => do
    let b ← w.theBuilder
    let events := b.publishEvents policy
    match b.publish policy with
    | .ok d =>
      return ⟨.published (.ok ()), { w with builder := none, description := some d }, events⟩
    | .error e => return ⟨.published (.error e), { w with builder := none }, events⟩
  | .tables => do return ⟨.tables (← w.theDescription) true, w, []⟩
  | .contains name => do return ⟨.truth ((← w.theDescription).keys.contains name), w, []⟩
  | .texts => do
    return ⟨.texts (← w.theDescription) (w.current.map fun c => c.binding.policy), w, []⟩
  | .fieldGet on name => w.operate on (field · name) (fun f o => (f.get o, o)) .ran
  | .fieldSet on name v => w.operate on (field · name) (fun f o => f.set o v) .stored
  | .invoke table name index on args =>
    w.operate on (fun d => item (overloads d name table) index .noMember)
      (fun m o => m.invoke o args) .ran
  | .genericGet index on name =>
    w.operate on (fun d => item d.genericGetters index .noGenericGetter)
      (fun g o => (g.get o name, o)) .looked
  | .genericSet index on name v =>
    w.operate on (fun d => item d.genericSetters index .noGenericSetter)
      (fun g o => g.set o name v) .offered
  | .make index args => do
    let c ← item (← w.theDescription).constructors index .noConstructor
    return ⟨.made (c.construct args) (c.accepts args.length), w, []⟩
  | .bind mode strategy policyClass => w.bindDescription mode strategy policyClass
  | .proxyMode mode => w.changeProxyMode mode
  | .keep name o => .ok ⟨.object o, w.keepObject name o, []⟩
  | .inspect name => do return ⟨.object (← w.theObject name), w, []⟩
  | .get on name => w.access on (fun b o => b.get o name) fun r _ => .found r
  | .set on name v => w.access on (fun b o => b.set o name v) .wrote
  | .call on name args => w.access on (fun b o => b.call o name args) .called
  | .apply on args => w.access on (fun b o => b.apply o args) .called
  | .construct args name => do
    let r := (← w.theBinding).binding.construct args
    let w' := match r.1 with
      | .ok (some o) => w.keepObject name o
      | _ => w
    return ⟨.constructed r.1, w', r.2⟩
  | .keys => do return ⟨.names (← w.theBinding).binding.keys, w, []⟩
  | .snapshot on => w.access on (fun b o => b.snapshot o) fun r _ => .snapshot r
  | .cacheBind c declaration mode strategy policy =>
    .ok (w.adopt (some c) (w.cache.bind c declaration mode strategy policy))
  | .cachePublish c plan => .ok (w.adopt none (w.cache.getOrPublish c fun _ => plan.build))
  | .cacheGet c => .ok ⟨.entry (w.cache.get? c), w, []⟩
  | .cacheEvict c =>
    let r := w.cache.evict c
    .ok ⟨.entry r.1, { w with cache := r.2 }, []⟩
  | .cacheSize => .ok ⟨.size w.cache.size, w, []⟩

/-- The object that a command takes in hand before it asks for the description. -/
def inHand? : Command → Option String
  | .fieldGet on _ | .fieldSet on _ _ | .invoke _ _ _ on _ | .genericGet _ on _
  | .genericSet _ on _ _ => some on
  | _ => none

/-- The workbench after a command that failed. An object that was taken in hand is gone when there
was no description to work by. -/
def afterFailure (w : Workbench) (c : Command) : BenchError → Workbench
  | .noDescription =>
    match inHand? c with
    | some name => { w with objects := w.objects.filter fun e => e.1 != name }
    | none => w
  | _ => w

end Workbench

/-- The wording of what the workbench does not have. -/
def BenchError.message : BenchError → String
  | noBuilder => "no builder"
  | noDescription => "no descriptor"
  | noBinding => "no binding"
  | noObject => "no instance"
  | noMember => "no member"
  | noField => "no field"
  | noConstructor => "no constructor"
  | noGenericGetter => "no generic getter"
  | noGenericSetter => "no generic setter"

end HostBridge
