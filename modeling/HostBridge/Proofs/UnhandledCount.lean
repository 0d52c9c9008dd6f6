import HostBridge.Proofs.Requests
import HostBridge.Proofs.RejectionCount

/-!
# The number of unhandled rejections

Counts keep no promises apart, and yet the difference of two of them is the number of promises that
are rejected and unhandled. The reason is that every change of a machine is in balance
(`Machine.Change.balanced`): a promise becomes unhandled together with a report of its rejection,
and stops being so together with a report of its first handler. So the number on the heap and the
reports move together, through script code and jobs (`Machine.Proceeds.balanced`) and through the
requests to a runtime (`Runtime.Accounted.serve`).
-/

namespace HostBridge

/-! ## Reports in balance -/

/-- The reports tell how one number of unhandled rejections became another. -/
structure Balances (es : List RejectionEvent) (before after : Nat) : Prop where
  /-- An engine reports nothing else. -/
  kinds : ∀ e ∈ es, e.kind = .noHandler ∨ e.kind = .handlerAdded
  counts : before + es.countP (·.kind = .noHandler) = after + es.countP (·.kind = .handlerAdded)

namespace Balances

variable {es es' : List RejectionEvent} {a b c : Nat}

theorem nil (a : Nat) : Balances [] a a := ⟨nofun, rfl⟩

theorem append (h : Balances es a b) (h' : Balances es' b c) : Balances (es ++ es') a c where
  kinds e he := (List.mem_append.1 he).elim (h.kinds e) (h'.kinds e)
  counts := by
    have hcounts := h.counts
    have hcounts' := h'.counts
    rw [List.countP_append, List.countP_append]
    omega

theorem length (h : Balances es a b) :
    es.length = es.countP (·.kind = .noHandler) + es.countP (·.kind = .handlerAdded) := by
  rw [List.length_eq_countP_add_countP (fun e : RejectionEvent => decide (e.kind = .noHandler))]
  congr 1
  refine List.countP_congr fun e he => ?_
  rcases h.kinds e he with hk | hk <;> simp [hk]

/-- One rejection without a handler. -/
theorem rejected (h : Heap) (promise reason : EngineValue) :
    Balances [h.rejection promise reason false] 0 1 :=
  ⟨fun _ he => List.mem_singleton.1 he ▸ .inl rfl, rfl⟩

/-- One handler that comes late. -/
theorem handled (h : Heap) (promise reason : EngineValue) :
    Balances [h.rejection promise reason true] 1 0 :=
  ⟨fun _ he => List.mem_singleton.1 he ▸ .inr rfl, rfl⟩

/-- Reports that tell what becomes of one promise tell it of the heap. -/
theorem setPromise {h : Heap} {id : Nat} {p q : PromiseState} (hp : h.promise? id = some p)
    (hes : Balances es (if p.isUnhandled then 1 else 0) (if q.isUnhandled then 1 else 0)) :
    Balances es h.unhandled (h.setPromise id q).unhandled where
  kinds := hes.kinds
  counts := by
    have hone := hes.counts
    have hall := Heap.unhandled_setPromise hp q
    omega

end Balances

namespace Machine

variable {m m' m'' : Machine}

/-! ## Changes are in balance -/

/-- What happened to a machine is in balance: the new reports tell how the number of unhandled
rejections changed. The global object is no such promise, so putting it on the heap adds none. -/
def Balanced (m m' : Machine) : Prop :=
  m.globals.isUnhandled = false → m'.globals.isUnhandled = false ∧
    ∃ new, m'.rejections = m.rejections ++ new ∧ Balances new m.heap.unhandled m'.heap.unhandled

theorem Balanced.refl (m : Machine) : m.Balanced m :=
  fun hg => ⟨hg, [], (List.append_nil _).symm, .nil _⟩

theorem Balanced.trans (h : m.Balanced m') (h' : m'.Balanced m'') : m.Balanced m'' := by
  intro hg
  obtain ⟨hg', new, hnew, hbalances⟩ := h hg
  obtain ⟨hg'', new', hnew', hbalances'⟩ := h' hg'
  refine ⟨hg'', new ++ new', ?_, hbalances.append hbalances'⟩
  rw [hnew', hnew, List.append_assoc]

theorem Quiet.balanced (h : m.Quiet m') : m.Balanced m' := by
  intro hg
  refine ⟨h.globals.trans hg, [], ?_, ?_⟩
  · rw [h.rejections, List.append_nil]
  · rw [h.unhandled]
    exact .nil _

theorem balanced_settle (m : Machine) (id : Nat) (s : Settlement) : m.Balanced (m.settle id s) := by
  intro hg
  unfold settle
  split
  · next handled pledges hp =>
    refine ⟨hg, _, rfl, .setPromise hp ?_⟩
    cases s with
    | fulfilled v => exact .nil 0
    | rejected reason =>
      cases handled with
      | true => exact .nil 0
      | false => exact .rejected ..
  · exact Balanced.refl m hg

theorem balanced_leave {id : Nat} {p : PromiseState} (hp : m.heap.promise? id = some p)
    (v : EngineValue) (body : FunctionBody) : m.Balanced (m.leave id p v body) :=
  fun hg => ⟨hg, [], (List.append_nil _).symm, .setPromise hp (.nil _)⟩

theorem balanced_react {id : Nat} {p : PromiseState} (hp : m.heap.promise? id = some p)
    (r : Reaction) : m.Balanced (m.react id p r) := by
  intro hg
  rcases p with ⟨settlement, handled, pledges⟩
  cases settlement with
  | none => exact ⟨hg, [], (List.append_nil _).symm, .setPromise hp (.nil 0)⟩
  | some s =>
    refine ⟨hg, _, rfl, .setPromise hp ?_⟩
    cases s with
    | fulfilled v => exact .nil 0
    | rejected reason =>
      cases handled with
      | true => exact .nil 0
      | false => exact .handled ..

theorem Change.balanced (h : Change m m') : m.Balanced m' := by
  cases h with
  | quiet h => exact h.balanced
  | share => exact fun hg => Quiet.balanced (.heap (Heap.unhandled_alloc hg)) hg
  | queue => exact fun hg => ⟨hg, [], (List.append_nil _).symm, .nil _⟩
  | settle id s => exact balanced_settle m id s
  | leave hp v body => exact balanced_leave hp v body
  | react hp r => exact balanced_react hp r

/-! ## Jobs -/

/-- One thing that happens to a machine that runs code and jobs. -/
inductive Moves : Machine → Machine → Prop
  | change {m m' : Machine} (h : Change m m') : Moves m m'
  /-- A job is taken off the queue. -/
  | take {m : Machine} {j : Job} {rest : List Job} (queued : m.jobs = j :: rest) :
      Moves m { m with jobs := rest }

/-- The second machine comes from the first by running code and jobs. -/
def Proceeds : Machine → Machine → Prop := Relation.ReflTransGen Moves

theorem Evolves.proceeds (h : m.Evolves m') : m.Proceeds m' :=
  Evolves.induct (R := Proceeds) (fun _ => .refl) Relation.ReflTransGen.trans
    (fun h => .single (.change h)) h

theorem proceeds_drain {e : Engine} (he : e.Evolving) {d : Drained} (h : e.drain m = some d) :
    m.Proceeds d.machine := by
  refine Engine.drain_induct (P := fun m d => m.Proceeds d.machine) (fun m _ => .refl)
    (fun m j rest v m' queued hrun => ?_) (fun m j rest m' d queued hrun ih => ?_) h
  · exact .head (.take queued) (he.runJob hrun).proceeds
  · exact (Relation.ReflTransGen.head (.take queued) (he.runJob hrun).proceeds).trans ih

/-- **Whatever runs on a machine is in balance.** -/
theorem Proceeds.balanced (h : m.Proceeds m') : m.Balanced m' := by
  induction h with
  | refl => exact .refl m
  | tail _ move ih =>
    refine ih.trans ?_
    cases move with
    | change h => exact h.balanced
    | take queued => exact fun hg => ⟨hg, [], (List.append_nil _).symm, .nil _⟩

end Machine

namespace Runtime

variable {σ κ : Type} [HostTypes κ] [DecidableEq κ] {l : Listener σ} {r r' : Runtime σ}
  {m : Machine}

/-! ## Runtimes whose callback counts -/

/-- The outermost layer of the callback shows the tally of reports that tell how the unhandled
rejections on the heap came about, and nothing is left to be reported. The engine only makes the
machine evolve. -/
structure Accounted (r : Runtime σ) : Prop where
  engine : r.engine.Evolving
  told : r.machine.rejections = []
  globals : r.machine.globals.isUnhandled = false
  tallied : ∃ s below es, r.callback = some (.counting s below) ∧ s.Tallies es ∧
    Balances es 0 r.machine.heap.unhandled

namespace Accounted

theorem adopt (h : r.Accounted) (hm : r.machine.Proceeds m) : (r.adopt l m).1.Accounted := by
  obtain ⟨s, below, es, hc, htallies, hbalances⟩ := h.tallied
  obtain ⟨hg, new, hnew, hbalances'⟩ := hm.balanced h.globals
  rw [h.told, List.nil_append] at hnew
  refine ⟨by rw [engine_adopt]; exact h.engine, by rw [machine_adopt]; rfl,
    by rw [machine_adopt]; exact hg, ?_⟩
  refine ⟨_, below.deliver l new, es ++ new, ?_, RejectionStats.tallies_foldl htallies new, ?_⟩
  · rw [Runtime.adopt, hc, hnew]
    exact congrArg some ((Callback.fst_tell ..).trans (Callback.deliver_counting ..))
  · rw [machine_adopt]
    exact hbalances.append hbalances'

theorem of_quiet (h : r.Accounted) (hm : r.machine.Quiet r'.machine)
    (hc : r'.callback = r.callback) (he : r'.engine = r.engine) : r'.Accounted where
  engine := he ▸ h.engine
  told := hm.rejections.trans h.told
  globals := hm.globals.trans h.globals
  tallied := by
    rw [hc, hm.unhandled]
    exact h.tallied

theorem runJobs (h : r.Accounted) : (r.runJobs l).runtime.Accounted := by
  cases hd : r.engine.drain r.machine with
  | none =>
    rw [runJobs_of_none l r hd]
    exact h
  | some d =>
    rw [runtime_runJobs l r hd]
    exact h.adopt (Machine.proceeds_drain h.engine hd)

theorem finish {α : Type} (h : r.Accounted) (a : α) : (r.finish l a).runtime.Accounted := by
  unfold Runtime.finish
  split
  · exact h.runJobs
  · exact h

omit [DecidableEq κ] in
theorem evolves_of_code? (h : r.Accounted) {q : Request κ} {code : Completion × Machine}
    (hcode : r.code? q = some (some code)) : r.machine.Evolves code.2 := by
  rcases code?_cases hcode with ⟨script, hrun⟩ | ⟨heap, body, args, hu, hcall⟩
  · exact h.engine.run hrun
  · exact (Machine.Evolves.heap hu).trans (h.engine.call hcall)

theorem handle (h : r.Accounted) (q : Request κ) : (r.handle l q).runtime.Accounted := by
  by_cases hq : q = .runJobs
  · subst hq
    exact h.runJobs
  cases hcode : r.code? q with
  | none =>
    obtain ⟨hquiet, hcallback, hengine, -⟩ := handle_of_no_code l r hq hcode
    exact h.of_quiet hquiet hcallback hengine
  | some code =>
    rw [(handle_of_code l r hcode).2]
    cases code with
    | none => exact h
    | some code =>
      have hadopted := h.adopt (l := l) (h.evolves_of_code? hcode).proceeds
      rcases conclude_cases l r code q.take with ⟨-, e, -, -, hruntime⟩ | ⟨v, a, -, -, -, hruntime⟩
      · rw [hruntime]
        exact hadopted
      · rw [hruntime]
        exact hadopted.finish a

theorem serve (h : r.Accounted) (qs : List (Request κ)) : (r.serve l qs).Accounted := by
  induction qs generalizing r with
  | nil => exact h
  | cons q qs ih =>
    rw [Runtime.serve]
    split
    · exact ih (h.handle q)
    · exact h

end Accounted

/-- A new runtime with a callback that counts and tells another one. -/
def counting (below : Callback σ) : Runtime σ := { callback := some (.counting {} below) }

theorem accounted_counting (below : Callback σ) : (counting below).Accounted where
  engine := Engine.evolving_interpreter
  told := rfl
  globals := rfl
  tallied := ⟨{}, below, [], rfl, RejectionStats.tallies_empty, .nil 0⟩

/-- The counts of the callback show the number of promises on the heap that are rejected and
unhandled. -/
def ShowsUnhandled (r : Runtime σ) : Prop :=
  ∃ s, r.callback.bind Callback.stats? = some s ∧ s.unhandled = r.machine.heap.unhandled ∧
    s.count .handlerAdded ≤ s.count .noHandler ∧
    s.total = s.count .noHandler + s.count .handlerAdded

theorem Accounted.showsUnhandled (h : r.Accounted) : r.ShowsUnhandled := by
  obtain ⟨s, below, es, hc, htallies, hbalances⟩ := h.tallied
  have hcounts := hbalances.counts
  rw [← htallies.count, ← htallies.count] at hcounts
  refine ⟨s, by rw [hc]; rfl, ?_, by omega, ?_⟩
  · change s.count .noHandler - s.count .handlerAdded = _
    omega
  · rw [htallies.total, hbalances.length, htallies.count, htallies.count]

/-- **The number of unhandled rejections is the true one.** A runtime that starts with a callback
that counts shows it after any requests, and would show it at any moment of the next one: whatever
the machine has come to by then. -/
theorem shows_true_unhandled (l : Listener σ) (below : Callback σ) (qs : List (Request κ)) :
    ((counting below).serve l qs).ShowsUnhandled ∧
      ∀ m, ((counting below).serve l qs).machine.Proceeds m →
        (((counting below).serve l qs).adopt l m).1.ShowsUnhandled :=
  have h := (accounted_counting below).serve (l := l) qs
  ⟨h.showsUnhandled, fun _ hm => (h.adopt hm).showsUnhandled⟩

end Runtime

end HostBridge
