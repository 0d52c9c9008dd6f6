import HostBridge.Binding.Policy

/-!
# The cache of bindings

At most one binding is published for each class. While it is there, every request for the class
gets that very binding and builds nothing. The first request for a class makes a slot for it, in
which the binding is put once it is built. A build that fails leaves the slot empty, and an empty
slot counts as none.

Published bindings carry a serial number, so that two can be told apart even if they look alike.
-/

namespace HostBridge

/-- A binding that the cache has published. -/
structure Published (κ : Type) [HostTypes κ] where
  serial : Nat
  binding : Binding κ

/-- Published bindings by class. -/
structure Cache (κ : Type) [HostTypes κ] where
  /-- The slots that were made, some of which may be empty. -/
  slots : List (κ × Option (Published κ)) := []
  /-- How many bindings have been published so far. -/
  issued : Nat := 0

/-- What a request gives: the binding, the cache afterwards, whether the build ran, and the events
emitted. -/
structure CacheAnswer (κ : Type) [HostTypes κ] where
  result : Except RegistryError (Published κ)
  cache : Cache κ
  built : Bool
  events : List Event := []

namespace Cache

variable {κ : Type} [HostTypes κ] [DecidableEq κ]

/-- The slot of a class, if one was made. -/
def slot? : List (κ × Option (Published κ)) → κ → Option (Option (Published κ))
  | [], _ => none
  | (c, p) :: rest, wanted => if c = wanted then some p else slot? rest wanted

/-- The slots with one for a class: an empty one if none was made before. -/
def openSlot (slots : List (κ × Option (Published κ))) (c : κ) :
    List (κ × Option (Published κ)) :=
  match slot? slots c with
  | some _ => slots
  | none => slots ++ [(c, none)]

/-- Put a binding in the slot of a class. -/
def fillSlot (slots : List (κ × Option (Published κ))) (c : κ) (p : Published κ) :
    List (κ × Option (Published κ)) :=
  slots.map fun e => if e.1 = c then (c, some p) else e

/-- The published binding of a class. -/
def get? (cache : Cache κ) (c : κ) : Option (Published κ) := (slot? cache.slots c).join

/-- The event of a binding being published. -/
def publishEvent (c : κ) : Event :=
  { level := .debug, target := .cache, message := "binding published",
    fields := [("class", .quoted (HostTypes.name c))] }

/-- The binding of a class, built and published if there is none. -/
def getOrPublish (cache : Cache κ) (c : κ)
    (build : Unit → Except RegistryError (Binding κ) × List Event) : CacheAnswer κ :=
  let opened : Cache κ := { cache with slots := openSlot cache.slots c }
  match opened.get? c with
  | some p => ⟨.ok p, opened, false, []⟩
  | none =>
    match build () with
    | (.error e, events) => ⟨.error e, opened, true, events⟩
    | (.ok binding, events) =>
      let p : Published κ := ⟨cache.issued, binding⟩
      ⟨.ok p, { slots := fillSlot opened.slots c p, issued := cache.issued + 1 }, true,
        events ++ [publishEvent c]⟩

/-- Build a binding of a class from the steps that declare its members. A class proxy that the
strategy refuses becomes an object proxy. The policy is for the class that the declaration ends
with, which may be another than `c`. -/
def build (c : κ) (declaration : List (BuildStep κ)) (proxyMode : ProxyMode)
    (strategy : Strategy κ) (policy : CollisionPolicy) :
    Except RegistryError (Binding κ) × List Event :=
  let built := (Builder.new c).run declaration
  let events := built.2 ++ built.1.publishEvents policy
  match built.1.publish policy with
  | .error e => (.error e, events)
  | .ok description =>
    let asked := if proxyMode = .classProxy then strategy.proxyable c else (true, [])
    let mode := if asked.1 then proxyMode else .objectProxy
    let downgrade : List Event :=
      if asked.1 then []
      else
        [{ level := .debug, target := .cache,
           message := "strategy cannot proxy class, using object mode",
           fields := [("class", .quoted (HostTypes.name c))] }]
    (Binding.new (Policy.new mode description.targetClass strategy) description,
      events ++ asked.2 ++ downgrade)

/-- The binding of a class, built from its declaration if there is none. -/
def bind (cache : Cache κ) (c : κ) (declaration : List (BuildStep κ)) (proxyMode : ProxyMode)
    (strategy : Strategy κ) (policy : CollisionPolicy) : CacheAnswer κ :=
  cache.getOrPublish c fun _ => build c declaration proxyMode strategy policy

/-- Drop the slot of a class, and say which binding was in it. -/
def evict (cache : Cache κ) (c : κ) : Option (Published κ) × Cache κ :=
  (cache.get? c, { cache with slots := cache.slots.filter fun e => e.1 ≠ c })

/-- The number of classes with a published binding. -/
def size (cache : Cache κ) : Nat := cache.slots.countP fun e => e.2.isSome

/-- No class has a published binding. -/
def isEmpty (cache : Cache κ) : Bool := cache.size == 0

/-- Replace the cached copy of a published binding after a change to it. -/
def refresh (cache : Cache κ) (p : Published κ) : Cache κ :=
  { cache with slots := cache.slots.map fun e =>
      (e.1, e.2.map fun q => if q.serial = p.serial then p else q) }

end Cache

end HostBridge
