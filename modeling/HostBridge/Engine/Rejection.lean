import HostBridge.Engine.CopyOut
import HostBridge.Rejection.Callback

/-!
# Rejections seen from the engine

The engine knows two transitions of a promise: it is rejected while no handler is attached, and a
handler is attached after that. The event that tells of one carries copies that look into no
container, so building it runs no script code and cannot fail.
-/

namespace HostBridge.Heap

/-- The event of a transition. -/
def rejection (h : Heap) (promise reason : EngineValue) (handled : Bool) : RejectionEvent :=
  ⟨RejectionKind.ofHandled handled, h.copyShallow promise, h.copyShallow reason⟩

end HostBridge.Heap
