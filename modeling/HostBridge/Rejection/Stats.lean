import HostBridge.Rejection

/-!
# Rejection statistics

Counts of the events of each kind, and the reason of the latest rejection without a handler.

A counter of 64 bits wraps around. The counts here are natural numbers, which is the same as long as
there are fewer than `2^64` events (`RejectionStats.Tallies.fits`).
-/

namespace HostBridge

/-- Counts of rejection events. -/
structure RejectionStats where
  noHandler : Nat := 0
  handlerAdded : Nat := 0
  rejectedAgain : Nat := 0
  resolvedAgain : Nat := 0
  lastReason : Option Value := none

namespace RejectionStats

/-- The number of events of a kind. -/
def count (s : RejectionStats) : RejectionKind → Nat
  | .noHandler => s.noHandler
  | .handlerAdded => s.handlerAdded
  | .rejectedAgain => s.rejectedAgain
  | .resolvedAgain => s.resolvedAgain

/-- The number of events. -/
def total (s : RejectionStats) : Nat :=
  s.noHandler + s.handlerAdded + s.rejectedAgain + s.resolvedAgain

/-- The rejections that still lack a handler, as far as the events show. -/
def unhandled (s : RejectionStats) : Nat := s.noHandler - s.handlerAdded

/-- Count an event. Only a rejection without a handler changes the latest reason. -/
def record (s : RejectionStats) (e : RejectionEvent) : RejectionStats :=
  match e.kind with
  | .noHandler => { s with noHandler := s.noHandler + 1, lastReason := some e.reason }
  | .handlerAdded => { s with handlerAdded := s.handlerAdded + 1 }
  | .rejectedAgain => { s with rejectedAgain := s.rejectedAgain + 1 }
  | .resolvedAgain => { s with resolvedAgain := s.resolvedAgain + 1 }

theorem count_record (s : RejectionStats) (e : RejectionEvent) (k : RejectionKind) :
    (s.record e).count k = s.count k + if e.kind = k then 1 else 0 := by
  unfold record
  cases e.kind <;> cases k <;> rfl

theorem total_record (s : RejectionStats) (e : RejectionEvent) :
    (s.record e).total = s.total + 1 := by
  unfold record total
  cases e.kind <;> simp <;> omega

end RejectionStats

end HostBridge
