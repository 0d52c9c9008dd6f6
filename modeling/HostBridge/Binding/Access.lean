import HostBridge.Binding.Policy

/-!
# Access through a binding

Reads, writes, calls and constructions ask the strategy first. An error of the strategy ends the
access, an answer stands for the member's, and otherwise the description serves the access on the
receiver as the strategy left it. Calling an instance itself does not ask the strategy.

`none` and `false` mean that nothing serves the access; that is not an error.
-/

namespace HostBridge.Binding

variable {κ : Type} [HostTypes κ] [DecidableEq κ]

/-- The event of an access that the strategy answered. -/
def interceptedEvent (b : Binding κ) (what name : String) : Event :=
  { level := .trace, target := .resolver, message := what ++ " intercepted",
    fields := [("class", .quoted (HostTypes.name b.targetClass)), ("name", .quoted name)] }

/-- Read a property. -/
def get (b : Binding κ) (o : Object κ) (name : String) : Outcome κ (Option Value) :=
  let asked := b.policy.strategy.get b.targetClass name o
  match asked.result with
  | .error e => ⟨.error e, asked.receiver, asked.events⟩
  | .ok (some v) =>
    ⟨.ok (some v), asked.receiver, asked.events ++ [b.interceptedEvent "get" name]⟩
  | .ok none =>
    let served := b.description.read asked.receiver name
    ⟨served.1, served.2, asked.events⟩

/-- Write a property. The answer is whether anything took the value. -/
def set (b : Binding κ) (o : Object κ) (name : String) (v : Value) : Outcome κ Bool :=
  let asked := b.policy.strategy.set b.targetClass name v o
  match asked.result with
  | .error e => ⟨.error e, asked.receiver, asked.events⟩
  | .ok true => ⟨.ok true, asked.receiver, asked.events ++ [b.interceptedEvent "set" name]⟩
  | .ok false =>
    let served := b.description.write asked.receiver name v
    ⟨served.1, served.2, asked.events⟩

/-- Call a method. -/
def call (b : Binding κ) (o : Object κ) (name : String) (args : List Value) :
    Outcome κ (Option Value) :=
  let asked := b.policy.strategy.call b.targetClass name args o
  match asked.result with
  | .error e => ⟨.error e, asked.receiver, asked.events⟩
  | .ok (some v) =>
    ⟨.ok (some v), asked.receiver, asked.events ++ [b.interceptedEvent "call" name]⟩
  | .ok none =>
    let served := b.description.call asked.receiver name args
    ⟨served.1, served.2, asked.events⟩

/-- Make an instance. The strategy is asked under the name of the class, and no event is emitted
for its answer. -/
def construct (b : Binding κ) (args : List Value) :
    Except InvokeError (Option (Object κ)) × List Event :=
  let asked := b.policy.strategy.construct b.targetClass (HostTypes.name b.targetClass) args
  match asked.1 with
  | .ok none => (b.description.construct args, asked.2)
  | answer => (answer, asked.2)

/-- Call the instance itself. -/
def apply (b : Binding κ) (o : Object κ) (args : List Value) : Outcome κ (Option Value) :=
  let served := b.description.apply o args
  ⟨served.1, served.2, []⟩

/-- The names of the properties that are enumerated. -/
def keys (b : Binding κ) : List String := b.description.propertyKeys

/-- Read properties one after the other, each on the receiver that the one before left, keeping
those that are there and stopping at the first error. -/
def readAll (b : Binding κ) : Object κ → List String → Outcome κ (Record Value)
  | o, [] => ⟨.ok [], o, []⟩
  | o, name :: names =>
    let first := b.get o name
    match first.result with
    | .error e => ⟨.error e, first.receiver, first.events⟩
    | .ok found =>
      let rest := readAll b first.receiver names
      let kept := match found with
        | some v => rest.result.map fun r => (name, v) :: r
        | none => rest.result
      ⟨kept, rest.receiver, first.events ++ rest.events⟩

/-- Read every enumerated property. -/
def snapshot (b : Binding κ) (o : Object κ) : Outcome κ (Record Value) := b.readAll o b.keys

end HostBridge.Binding
