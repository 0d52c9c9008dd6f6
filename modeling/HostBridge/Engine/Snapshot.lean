import HostBridge.Binding.Access
import HostBridge.Engine.CopyIn

/-!
# Instances as engine objects

A bound instance is shown to scripts as a plain object with a copy of every enumerated property.
The properties lie one level below the instance, so classes with a restricted mode have their
containers sealed, and sealed values arrive as undefined.
-/

namespace HostBridge

/-- A property's value as a mode lets it through. -/
def ConversionMode.restrict (mode : ConversionMode) (v : Value) : Value :=
  if mode.convertsNested then v else v.sealContainer

variable {κ : Type} [HostTypes κ] [DecidableEq κ]

/-- Copy a bound instance into the engine. -/
def Heap.copyInstance (h : Heap) (b : Binding κ) (o : Object κ) :
    Outcome κ (EngineValue × Heap) :=
  let shot := b.snapshot o
  match shot.result with
  | .error e => ⟨.error e, shot.receiver, shot.events⟩
  | .ok entries =>
    let shown := entries.map fun e => (e.1, b.policy.conversionMode.restrict e.2)
    ⟨.ok (h.copyIn (.object shown)), shot.receiver, shot.events ++
      [{ level := .trace, target := .snapshot, message := "instance snapshot created",
         fields := [("class", .quoted (HostTypes.name b.targetClass))] }]⟩

end HostBridge
