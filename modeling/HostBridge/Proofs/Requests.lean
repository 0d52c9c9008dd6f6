import HostBridge.Proofs.CodeEvolution
import HostBridge.Script.Runtime

/-!
# Requests to a runtime

The operations of a runtime as requests (`Runtime.Request`), of which any number are handled one
after the other (`Runtime.serve`), until one never returns. The engine and the callback of the
runtime stay the same throughout.

Those that run script code all go on in one way, which is said once: the code takes the machine
somewhere (`Runtime.code?`), the callback is told of what happened, and then the request ends early
or takes a value and runs the queue (`Runtime.handle_of_code`, `Runtime.conclude_cases`).
-/

namespace HostBridge

/-- The same operation with another answer. -/
def Ran.map {σ α β : Type} (f : α → β) (r : Ran σ α) : Ran σ β :=
  ⟨r.result.map f, r.runtime, r.events⟩

/-- The operation ends and fails of itself, not because of a job. -/
def ScriptError.isOwn : ScriptError → Bool
  | job _ | unending => false
  | _ => true

/-- The operation comes to an end. -/
def Ran.returns {σ α : Type} (r : Ran σ α) : Bool :=
  match r.result with
  | .error .unending => false
  | _ => true

theorem Ran.returns_congr {σ α : Type} {r r' : Ran σ α} (h : r.result = r'.result) :
    r.returns = r'.returns := by
  rw [returns, h, returns]

theorem Ran.returns_of_ok {σ α : Type} {r : Ran σ α} {a : α} (h : r.result = .ok a) :
    r.returns = true := by
  rw [returns, h]

theorem Ran.returns_of_own {σ α : Type} {r : Ran σ α} {e : ScriptError} (he : e.isOwn = true)
    (h : r.result = .error e) : r.returns = true := by
  rw [returns, h]
  cases e with
  | unending => cases he
  | _ => rfl

theorem Ran.returns_map {σ α β : Type} (f : α → β) (r : Ran σ α) :
    (r.map f).returns = r.returns := by
  rcases r with ⟨e | a, runtime, events⟩
  · cases e <;> rfl
  · rfl

/-- The machine once its transitions were told of. -/
def Machine.told (m : Machine) : Machine := { m with rejections := [] }

namespace Runtime

/-! ## Requests and replies -/

/-- A request to a runtime. -/
inductive Request (κ : Type) [HostTypes κ] where
  | runJobs
  | execute (script : Script)
  | executeFile (path : String) (content : ScriptFile)
  | eval (mode : ConversionMode) (script : Script)
  | call (name : String) (args : List Value)
  | expose (name : String) (b : Binding κ) (o : Object κ)
  /-- Say whether evaluations run the queue from now on. -/
  | drain (on : Bool)
  | collectTags

/-- What a request is answered with. -/
inductive Reply where
  | done
  | count (n : Nat)
  | value (v : Value)
  | tags (tags : List String)

variable {σ κ : Type} [HostTypes κ]

/-- The request runs script code and then the queue, if evaluations do. -/
def Request.evaluates : Request κ → Bool
  | execute _ | executeFile _ _ | eval _ _ | call _ _ => true
  | _ => false

/-- What a request takes of the value of its code. -/
def Request.take : Request κ → Heap → EngineValue → Except EngineError Reply
  | eval mode _, h, v => (h.copyOut mode v).map .value
  | call _ _, h, v => (h.copyOut .transparent v).map .value
  | _, _, _ => .ok .done

/-- Handle a request. -/
def handle [DecidableEq κ] (l : Listener σ) (r : Runtime σ) : Request κ → Ran σ Reply
  | .runJobs => (r.runJobs l).map .count
  | .execute script => (r.execute l script).map fun _ => .done
  | .executeFile path content => (r.executeFile l path content).map fun _ => .done
  | .eval mode script => (r.eval l mode script).map .value
  | .call name args => (r.call l name args).map .value
  | .expose name b o => (r.expose name b o).map fun _ => .done
  | .drain on => ⟨.ok .done, { r with drainsJobs := on }, []⟩
  | .collectTags => ⟨.ok (.tags r.collectTags.1), r.collectTags.2, []⟩

/-- Handle requests one after the other. With one that never returns, the runtime before it is the
last that is known. -/
def serve [DecidableEq κ] (l : Listener σ) (r : Runtime σ) : List (Request κ) → Runtime σ
  | [] => r
  | q :: qs => if (r.handle l q).returns then serve l (r.handle l q).runtime qs else r

/-- The script code that a request runs: how it ends, and the machine it leaves, if it does. There
is none if the file is no script, or if what is to be called is no function. -/
def code? (r : Runtime σ) : Request κ → Option (Option (Completion × Machine))
  | .execute script | .executeFile _ (.ok (.ok script)) | .eval _ script =>
    some (r.engine.run r.machine script)
  | .call name args =>
    match r.machine.global name with
    | .throwing _ => none
    | .value f =>
      (r.machine.heap.functionBody? f).map fun body =>
        let copied := r.machine.heap.copyInItems args
        r.engine.call { r.machine with heap := copied.2 } body copied.1
  | _ => none

/-- The code is a script, or a function that is called after its arguments were copied in. -/
theorem code?_cases {r : Runtime σ} {q : Request κ} {code : Option (Completion × Machine)}
    (h : r.code? q = some code) :
    (∃ script, r.engine.run r.machine script = code) ∨
      ∃ heap body args, heap.unhandled = r.machine.heap.unhandled ∧
        r.engine.call { r.machine with heap } body args = code := by
  unfold code? at h
  split at h
  · exact .inl ⟨_, Option.some.inj h⟩
  · exact .inl ⟨_, Option.some.inj h⟩
  · exact .inl ⟨_, Option.some.inj h⟩
  · split at h
    · cases h
    · obtain ⟨body, -, hcall⟩ := Option.map_eq_some_iff.1 h
      exact .inr ⟨_, body, _, Heap.unhandled_copyInItems .., hcall⟩
  · cases h

/-! ## Parts of operations -/

variable {α β : Type} (l : Listener σ) (r : Runtime σ)

@[simp]
theorem machine_adopt (m : Machine) : (r.adopt l m).1.machine = m.told := by
  unfold adopt
  split <;> rfl

@[simp]
theorem drainsJobs_adopt (m : Machine) : (r.adopt l m).1.drainsJobs = r.drainsJobs := by
  unfold adopt
  split <;> rfl

@[simp]
theorem engine_adopt (m : Machine) : (r.adopt l m).1.engine = r.engine := by
  unfold adopt
  split <;> rfl

theorem runJobs_of_none (h : r.engine.drain r.machine = none) : r.runJobs l = .unending r := by
  unfold runJobs
  rw [h]

theorem runtime_runJobs {d : Drained} (h : r.engine.drain r.machine = some d) :
    (r.runJobs l).runtime = (r.adopt l d.machine).1 := by
  unfold runJobs
  rw [h]
  dsimp only
  split <;> rfl

theorem result_runJobs {d : Drained} (h : r.engine.drain r.machine = some d) :
    (r.runJobs l).result =
      match d.failure with
      | some (_, v) => .error (.job (d.machine.heap.describe v))
      | none => .ok d.completed.length := by
  unfold runJobs
  rw [h]
  dsimp only
  cases d.failure <;> rfl

theorem drain_of_unending (h : (r.runJobs l).returns = false) :
    r.engine.drain r.machine = none := by
  cases hd : r.engine.drain r.machine with
  | none => rfl
  | some d =>
    rw [Ran.returns, result_runJobs l r hd] at h
    cases hf : d.failure <;> rw [hf] at h <;> cases h

theorem engine_runJobs : (r.runJobs l).runtime.engine = r.engine := by
  cases h : r.engine.drain r.machine with
  | none => rw [runJobs_of_none l r h, Ran.unending]
  | some d => rw [runtime_runJobs l r h, engine_adopt]

theorem engine_finish (a : α) : (r.finish l a).runtime.engine = r.engine := by
  unfold finish
  split
  · exact engine_runJobs l r
  · rfl

theorem finish_map (f : α → β) (a : α) : (r.finish l a).map f = r.finish l (f a) := by
  unfold finish
  split
  · unfold Ran.map
    dsimp only
    cases (r.runJobs l).result <;> rfl
  · rfl

theorem conclude_map (f : α → β) (code : Option (Completion × Machine))
    (take : Heap → EngineValue → Except EngineError α) :
    (r.conclude l code take).map f = r.conclude l code fun h v => (take h v).map f := by
  rcases code with _ | ⟨v | e, m⟩
  · rfl
  · unfold conclude
    dsimp only
    cases take m.heap v with
    | error e => rfl
    | ok a =>
      dsimp only [Except.map]
      rw [← finish_map]
      rfl
  · rfl

/-- A request whose code has run ends early, with an error of its own, or takes what it is to take
of the value and goes on with that. -/
theorem conclude_cases (code : Completion × Machine)
    (take : Heap → EngineValue → Except EngineError α) :
    ((∀ v a, code.1 = .normal v → take code.2.heap v ≠ .ok a) ∧
      ∃ e : ScriptError, e.isOwn = true ∧ (r.conclude l (some code) take).result = .error e ∧
        (r.conclude l (some code) take).runtime = (r.adopt l code.2).1) ∨
    ∃ v a, code.1 = .normal v ∧ take code.2.heap v = .ok a ∧
      (r.conclude l (some code) take).result = ((r.adopt l code.2).1.finish l a).result ∧
      (r.conclude l (some code) take).runtime = ((r.adopt l code.2).1.finish l a).runtime := by
  rcases code with ⟨v | e, m⟩
  · unfold conclude
    dsimp only
    cases htake : take m.heap v with
    | error e =>
      refine .inl ⟨fun v' a hv => ?_, .engine e, rfl, rfl, rfl⟩
      cases hv
      rw [htake]
      exact nofun
    | ok a => exact .inr ⟨v, a, rfl, htake, rfl, rfl⟩
  · exact .inl ⟨nofun, .exception _, rfl, rfl, rfl⟩

variable [DecidableEq κ]

/-- **Requests that run code conclude in one way.** -/
theorem handle_of_code {q : Request κ} {code : Option (Completion × Machine)}
    (h : r.code? q = some code) : (r.handle l q).result = (r.conclude l code q.take).result ∧
      (r.handle l q).runtime = (r.conclude l code q.take).runtime := by
  have hmap {α : Type} (f : α → Reply) (take : Heap → EngineValue → Except EngineError α) :=
    conclude_map l r f code take
  unfold code? at h
  split at h
  · cases h
    exact ⟨congrArg Ran.result (hmap (fun _ => .done) _), congrArg Ran.runtime (hmap _ _)⟩
  · cases h
    -- The file's operation says one event more, so only the two parts are equal.
    have hresult := congrArg Ran.result (hmap (fun _ => .done) fun _ _ => .ok ())
    have hruntime := congrArg Ran.runtime (hmap (fun _ => .done) fun _ _ => .ok ())
    exact ⟨hresult, hruntime⟩
  · cases h
    exact ⟨congrArg Ran.result (hmap .value _), congrArg Ran.runtime (hmap .value _)⟩
  · next name args =>
    split at h
    · cases h
    · next f hf =>
      obtain ⟨body, hbody, rfl⟩ := Option.map_eq_some_iff.1 h
      have hcall := hmap .value fun h v => h.copyOut .transparent v
      simp only [handle, call, hf, hbody]
      exact ⟨congrArg Ran.result hcall, congrArg Ran.runtime hcall⟩
  · cases h

theorem unhandled_copyInstance {h h' : Heap} {b : Binding κ} {o : Object κ} {v : EngineValue}
    (hr : (h.copyInstance b o).result = .ok (v, h')) : h'.unhandled = h.unhandled := by
  unfold Heap.copyInstance at hr
  dsimp only at hr
  split at hr
  · cases hr
  · have hcopy := Except.ok.inj hr
    exact congrArg (fun copied => copied.2.unhandled) hcopy.symm ▸ Heap.unhandled_copyIn ..

/-- An instance is shown, or nothing changes. -/
theorem expose_cases (name : String) (b : Binding κ) (o : Object κ) :
    (∃ e : ScriptError, e.isOwn = true ∧ (r.expose name b o).result = .error e ∧
      (r.expose name b o).runtime = r) ∨
    ∃ m, r.machine.Quiet m ∧ (r.expose name b o).result = .ok () ∧
      (r.expose name b o).runtime = { r with machine := m } := by
  unfold expose
  dsimp only
  split
  · exact .inl ⟨.invoke _, rfl, rfl, rfl⟩
  · next v heap hshown =>
    have hheap : r.machine.Quiet { r.machine with heap } := .heap (unhandled_copyInstance hshown)
    split
    · next m hstore => exact .inr ⟨m, hheap.trans (.store hstore), rfl, rfl⟩
    · exact .inl ⟨.engine .thrown, rfl, rfl, rfl⟩

/-- A request that runs no code, and is not to run the queue, fails or does something quiet. -/
theorem handle_of_no_code {q : Request κ} (hq : q ≠ .runJobs) (h : r.code? q = none) :
    r.machine.Quiet (r.handle l q).runtime.machine ∧
      (r.handle l q).runtime.callback = r.callback ∧ (r.handle l q).runtime.engine = r.engine ∧
      ((∃ e : ScriptError, e.isOwn = true ∧ (r.handle l q).result = .error e) ∨
        q.evaluates = false ∧ ∃ a, (∀ n, a ≠ .count n) ∧ (∀ v, a ≠ .value v) ∧
          (r.handle l q).result = .ok a) := by
  cases q with
  | runJobs => exact absurd rfl hq
  | execute script => cases h
  | eval mode script => cases h
  | executeFile path content =>
    rcases content with e | e | script
    · exact ⟨.refl _, rfl, rfl, .inl ⟨.file e, rfl, rfl⟩⟩
    · exact ⟨.refl _, rfl, rfl, .inl ⟨.engine e, rfl, rfl⟩⟩
    · cases h
  | call name args =>
    simp only [handle, call]
    cases hf : r.machine.global name with
    | throwing e => exact ⟨.refl _, rfl, rfl, .inl ⟨.engine .thrown, rfl, rfl⟩⟩
    | value f =>
      simp only [code?, hf, Option.map_eq_none_iff] at h
      simp only [h]
      exact ⟨.refl _, rfl, rfl, .inl ⟨.engine (.notFunction _), rfl, rfl⟩⟩
  | expose name b o =>
    rcases r.expose_cases name b o with ⟨e, he, hresult, hruntime⟩ | ⟨m, hquiet, hresult, hruntime⟩
    · dsimp only [handle, Ran.map]
      rw [hresult, hruntime]
      exact ⟨.refl _, rfl, rfl, .inl ⟨e, he, rfl⟩⟩
    · dsimp only [handle, Ran.map]
      rw [hresult, hruntime]
      exact ⟨hquiet, rfl, rfl, .inr ⟨rfl, .done, nofun, nofun, rfl⟩⟩
  | drain on => exact ⟨.refl _, rfl, rfl, .inr ⟨rfl, .done, nofun, nofun, rfl⟩⟩
  | collectTags =>
    exact ⟨⟨rfl, rfl, rfl, rfl, rfl⟩, rfl, rfl, .inr ⟨rfl, .tags _, nofun, nofun, rfl⟩⟩

/-- Requests leave the engine as it is. -/
theorem engine_handle (q : Request κ) : (r.handle l q).runtime.engine = r.engine := by
  by_cases hq : q = .runJobs
  · subst hq
    exact engine_runJobs l r
  cases hcode : r.code? q with
  | none => exact (handle_of_no_code l r hq hcode).2.2.1
  | some code =>
    rw [(handle_of_code l r hcode).2]
    cases code with
    | none => rfl
    | some code =>
      rcases conclude_cases l r code q.take with ⟨-, e, -, -, hruntime⟩ | ⟨v, a, -, -, -, hruntime⟩
      · rw [hruntime, engine_adopt]
      · rw [hruntime, engine_finish, engine_adopt]

end Runtime

end HostBridge
