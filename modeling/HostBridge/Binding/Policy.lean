import HostBridge.Binding.Builder

/-!
# Strategies, policies and bindings

An interception strategy is asked before any member on every access and may answer in its place;
it may also change the receiver and emit events. A policy says how a class is shown: its proxy
mode, which may change later, its conversion mode, and the strategy. A binding is a description
with a policy for the same class.
-/

namespace HostBridge

/-- What an operation on a receiver gives: its result, the receiver it leaves, also when it fails,
and the events emitted. -/
structure Outcome (κ : Type) [HostTypes κ] (α : Type) where
  result : Except InvokeError α
  receiver : Object κ
  events : List Event := []

/-- What is asked before the members of a class. `none` and `false` pass the access on. -/
structure Strategy (κ : Type) [HostTypes κ] where
  get : κ → String → Object κ → Outcome κ (Option Value)
  set : κ → String → Value → Object κ → Outcome κ Bool
  call : κ → String → List Value → Object κ → Outcome κ (Option Value)
  construct : κ → String → List Value →
    Except InvokeError (Option (Object κ)) × List Event
  /-- The class can be shown through a class proxy. -/
  proxyable : κ → Bool × List Event

/-- The strategy that passes every access on. -/
def Strategy.passThrough (κ : Type) [HostTypes κ] : Strategy κ where
  get _ _ o := ⟨.ok none, o, []⟩
  set _ _ _ o := ⟨.ok false, o, []⟩
  call _ _ _ o := ⟨.ok none, o, []⟩
  construct _ _ _ := (.ok none, [])
  proxyable _ := (true, [])

/-- How a class is shown. -/
structure Policy (κ : Type) [HostTypes κ] where
  proxyMode : ProxyMode
  targetClass : κ
  conversionMode : ConversionMode
  strategy : Strategy κ

namespace Policy

variable {κ : Type} [HostTypes κ]

/-- The policy for a class, with the class's conversion mode. -/
def new (proxyMode : ProxyMode) (targetClass : κ) (strategy : Strategy κ) : Policy κ :=
  ⟨proxyMode, targetClass, HostTypes.mode targetClass, strategy⟩

/-- The policy for a class with a strategy that may be absent. -/
def new? (proxyMode : ProxyMode) (targetClass : κ) (strategy : Option (Strategy κ)) :
    Except PolicyError (Policy κ) :=
  match strategy with
  | some s => .ok (new proxyMode targetClass s)
  | none => .error (.missingStrategy (HostTypes.name targetClass))

end Policy

/-- A published class: its description and its policy. -/
structure Binding (κ : Type) [HostTypes κ] where
  policy : Policy κ
  description : Description κ

namespace Binding

variable {κ : Type} [HostTypes κ]

/-- Pair a policy with a description of the same class. -/
def new [DecidableEq κ] (policy : Policy κ) (description : Description κ) :
    Except RegistryError (Binding κ) :=
  if policy.targetClass = description.targetClass then .ok ⟨policy, description⟩
  else
    .error (.classMismatch (HostTypes.name policy.targetClass)
      (HostTypes.name description.targetClass))

/-- The class that is bound. -/
def targetClass (b : Binding κ) : κ := b.description.targetClass

/-- Show the class in another proxy mode. -/
def withProxyMode (b : Binding κ) (mode : ProxyMode) : Binding κ :=
  { b with policy := { b.policy with proxyMode := mode } }

/-- The event of a change of proxy mode. Setting the present mode again is no change. -/
def proxyModeEvents (b : Binding κ) (mode : ProxyMode) : List Event :=
  if b.policy.proxyMode = mode then []
  else
    [{ level := .debug, target := .policy, message := "proxy mode changed",
       fields := [("class", .quoted (HostTypes.name b.policy.targetClass)),
         ("from", .plain b.policy.proxyMode.label), ("to", .plain mode.label)] }]

end Binding

end HostBridge
