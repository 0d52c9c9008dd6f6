import HostBridge.Rejection.Callback
import HostBridge.Script.Runtime

/-!
# Counting rejections

Every counting layer of a callback counts every event (`Callback.layers_deliver`), whatever the
innermost callback does: a panic comes out of the layers as it went in (`Callback.panicked_notify`),
and a layer that it passes has counted by then. What a layer shows is a tally of the events
(`RejectionStats.Tallies`), and counters of 64 bits show the same before `2^64` events
(`RejectionStats.Tallies.fits`).
-/

namespace HostBridge

/-! ## What a layer shows -/

namespace RejectionStats

/-- The counts tell of these events, oldest first. -/
structure Tallies (s : RejectionStats) (es : List RejectionEvent) : Prop where
  count (k : RejectionKind) : s.count k = es.countP (·.kind = k)
  total : s.total = es.length
  /-- The reason kept is that of the latest rejection without a handler. -/
  lastReason : s.lastReason = ((es.filter (·.kind = .noHandler)).getLast?).map (·.reason)

theorem lastReason_record (s : RejectionStats) (e : RejectionEvent) :
    (s.record e).lastReason = if e.kind = .noHandler then some e.reason else s.lastReason := by
  unfold record
  cases e.kind <;> rfl

theorem tallies_empty : Tallies {} [] := ⟨fun k => by cases k <;> rfl, rfl, rfl⟩

theorem Tallies.record {s : RejectionStats} {es : List RejectionEvent} (h : s.Tallies es)
    (e : RejectionEvent) : (s.record e).Tallies (es ++ [e]) where
  count k := by
    rw [count_record, h.count, List.countP_append, List.countP_singleton]
    simp only [decide_eq_true_eq]
  total := by rw [total_record, h.total, List.length_append, List.length_singleton]
  lastReason := by
    rw [lastReason_record, h.lastReason, List.filter_append]
    split
    · next he => simp [he]
    · next he => simp [he]

/-- The counts after these events. -/
def ofEvents (es : List RejectionEvent) : RejectionStats := es.foldl RejectionStats.record {}

theorem tallies_foldl {s : RejectionStats} {before : List RejectionEvent} (h : s.Tallies before)
    (es : List RejectionEvent) : (es.foldl RejectionStats.record s).Tallies (before ++ es) := by
  induction es generalizing s before with
  | nil => simpa using h
  | cons e es ih => simpa using ih (h.record e)

theorem tallies_ofEvents (es : List RejectionEvent) : (ofEvents es).Tallies es :=
  tallies_foldl tallies_empty es

/-! ## Counters of 64 bits -/

/-- A counter of 64 bits after events: it is counted up for each of a kind, and wraps around. -/
def counter (k : RejectionKind) (es : List RejectionEvent) : UInt64 :=
  es.foldl (fun n e => if e.kind = k then n + 1 else n) 0

theorem counter_eq (k : RejectionKind) (es : List RejectionEvent) :
    counter k es = .ofNat (es.countP (·.kind = k)) := by
  have hfrom (n : UInt64) : es.foldl (fun n e => if e.kind = k then n + 1 else n) n =
      n + .ofNat (es.countP (·.kind = k)) := by
    induction es generalizing n with
    | nil => exact (UInt64.add_zero n).symm
    | cons e es ih =>
      rw [List.foldl_cons, ih, List.countP_cons, UInt64.ofNat_add]
      split
      · next he => simp [he, UInt64.add_assoc, UInt64.add_comm]
      · next he => simp [he]
  exact (hfrom 0).trans (UInt64.zero_add _)

/-- The counts are what counters of 64 bits hold: none has wrapped around, and neither does their
sum. -/
structure Fits (s : RejectionStats) (es : List RejectionEvent) : Prop where
  toNat_counter (k : RejectionKind) : (counter k es).toNat = s.count k
  total_lt : s.total < UInt64.size

theorem Tallies.fits {s : RejectionStats} {es : List RejectionEvent} (h : s.Tallies es)
    (hes : es.length < UInt64.size) : s.Fits es where
  toNat_counter k := by
    rw [counter_eq, h.count]
    exact UInt64.toNat_ofNat_of_lt' (Nat.lt_of_le_of_lt List.countP_le_length hes)
  total_lt := h.total ▸ hes

end RejectionStats

/-- The state of an innermost callback after it was told of events, panics or not. -/
def Listener.after {σ : Type} (l : Listener σ) (s : σ) (es : List RejectionEvent) : σ :=
  es.foldl (fun s e => (l.notify s e).state) s

theorem Listener.panicked_logging {σ : Type} (lg : Logger σ) (s : σ) (e : RejectionEvent) :
    ((logging lg).notify s e).panicked = false := by
  unfold logging
  dsimp only
  split <;> rfl

theorem Notice.panicked_contain {σ : Type} (n : Notice σ) (report : Event) :
    (n.contain report).panicked = false := by
  unfold contain
  split
  · rfl
  · next h => simpa using h

theorem Notice.state_contain {σ : Type} (n : Notice σ) (report : Event) :
    (n.contain report).state = n.state := by
  unfold contain
  split <;> rfl

namespace Callback

variable {σ : Type} (l : Listener σ)

/-! ## Layers -/

/-- The counts of all layers, the outermost first. -/
def layers : Callback σ → List RejectionStats
  | counting stats below => stats :: below.layers
  | _ => []

/-- The state of the innermost callback, if there is one. -/
def innermost? : Callback σ → Option σ
  | silent => none
  | listener s => some s
  | counting _ below => below.innermost?

/-- So many layers that have counted nothing, over an innermost callback or nothing. -/
def stacked (inner : Option σ) : Nat → Callback σ
  | 0 => inner.elim silent listener
  | n + 1 => counting {} (stacked inner n)

@[simp]
theorem layers_stacked (inner : Option σ) (depth : Nat) :
    (stacked inner depth).layers = List.replicate depth {} := by
  induction depth with
  | zero => cases inner <;> rfl
  | succ n ih => rw [stacked, layers, ih, List.replicate_succ]

@[simp]
theorem innermost?_stacked (inner : Option σ) (depth : Nat) :
    (stacked inner depth).innermost? = inner := by
  induction depth with
  | zero => cases inner <;> rfl
  | succ n ih => exact ih

/-! ## One event -/

theorem layers_notify (c : Callback σ) (e : RejectionEvent) :
    (c.notify l e).state.layers = c.layers.map (·.record e) := by
  induction c with
  | silent | listener => rfl
  | counting stats below ih => exact congrArg (stats.record e :: ·) ih

theorem innermost?_notify (c : Callback σ) (e : RejectionEvent) :
    (c.notify l e).state.innermost? = c.innermost?.map fun s => (l.notify s e).state := by
  induction c with
  | silent | listener => rfl
  | counting _ _ ih => exact ih

/-- A callback panics exactly if the innermost one does. -/
theorem panicked_notify (c : Callback σ) (e : RejectionEvent) :
    (c.notify l e).panicked = c.innermost?.any fun s => (l.notify s e).panicked := by
  induction c with
  | silent | listener => rfl
  | counting _ _ ih => exact ih

theorem state_tracker (c : Callback σ) (e : RejectionEvent) :
    (c.tracker l e).state = (c.notify l e).state :=
  Notice.state_contain ..

/-! ## Any number of events -/

/-- The callback after it was told of events, panics or not. -/
def deliver (c : Callback σ) (es : List RejectionEvent) : Callback σ :=
  es.foldl (fun c e => (c.notify l e).state) c

theorem layers_deliver (c : Callback σ) (es : List RejectionEvent) :
    (c.deliver l es).layers = c.layers.map fun s => es.foldl RejectionStats.record s := by
  induction es generalizing c with
  | nil => exact (List.map_id _).symm
  | cons e es ih =>
    refine (ih _).trans ?_
    rw [layers_notify, List.map_map]
    rfl

theorem innermost?_deliver (c : Callback σ) (es : List RejectionEvent) :
    (c.deliver l es).innermost? = c.innermost?.map fun s => l.after s es := by
  induction es generalizing c with
  | nil => exact Option.map_id'.symm
  | cons e es ih =>
    refine (ih _).trans ?_
    rw [innermost?_notify, Option.map_map]
    rfl

theorem deliver_counting (s : RejectionStats) (below : Callback σ) (es : List RejectionEvent) :
    (counting s below).deliver l es =
      counting (es.foldl RejectionStats.record s) (below.deliver l es) := by
  induction es generalizing s below with
  | nil => rfl
  | cons e es ih => exact ih ..

/-- The engine tells a callback of everything: no panic keeps it from telling of what comes next. -/
theorem fst_tell (c : Callback σ) (es : List RejectionEvent) :
    (Runtime.tell l c es).1 = c.deliver l es := by
  induction es generalizing c with
  | nil => rfl
  | cons e es ih =>
    refine (ih _).trans ?_
    exact congrArg (fun c => deliver l c es) (state_tracker l c e)

/-- **Counts survive panics.** However many counting layers stand over whatever innermost callback,
after any events each layer shows the tally of all of them, in counters of 64 bits if there are
fewer than `2^64`, and the innermost callback has been told of all of them. The next event makes the
callback panic exactly if it makes the innermost one panic, so never one that logs, and the engine
sees no panic: it can tell of the next event. -/
theorem tallies_survive_panics (inner : Option σ) (depth : Nat) (es : List RejectionEvent) :
    (∃ s : RejectionStats, s.Tallies es ∧ (es.length < UInt64.size → s.Fits es) ∧
      ((stacked inner depth).deliver l es).layers = List.replicate depth s) ∧
    (Runtime.tell l (stacked inner depth) es).1 = (stacked inner depth).deliver l es ∧
    ((stacked inner depth).deliver l es).innermost? = inner.map (l.after · es) ∧
    (∀ e, (((stacked inner depth).deliver l es).notify l e).panicked =
      inner.any fun s => (l.notify (l.after s es) e).panicked) ∧
    (∀ (lg : Logger σ) (c : Callback σ) (e : RejectionEvent),
      (c.notify (.logging lg) e).panicked = false) ∧
    ∀ (c : Callback σ) (e : RejectionEvent),
      (c.tracker l e).panicked = false ∧ (c.tracker l e).state = (c.notify l e).state := by
  have htallies := RejectionStats.tallies_ofEvents es
  refine ⟨⟨_, htallies, htallies.fits, ?_⟩, fst_tell .., ?_, fun e => ?_,
    fun lg c e => ?_, fun c e => ⟨Notice.panicked_contain .., state_tracker ..⟩⟩
  · rw [layers_deliver, layers_stacked, List.map_replicate]
    rfl
  · rw [innermost?_deliver, innermost?_stacked]
  · rw [panicked_notify, innermost?_deliver, innermost?_stacked, Option.any_map]
  · rw [panicked_notify]
    cases c.innermost? with
    | none => rfl
    | some s => exact Listener.panicked_logging lg s e

end Callback

end HostBridge
