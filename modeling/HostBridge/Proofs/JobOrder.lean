import HostBridge.Host.Types
import HostBridge.Proofs.Requests

/-!
# The order of jobs

All that is asked of an engine is that script code and jobs, whatever they do and however they end,
only append to the queue (`Engine.Appends`). Jobs are only taken off its front. So what was queued
at first, followed by all that is queued later, is what is run, followed by what is left
(`Engine.Works.conserves`): jobs run in the order in which they were queued, each once, and none is
lost. `Runtime.jobs_run_in_order` says this of any requests to a runtime, together with what each
answer tells of the queue. A request returns unless its code never ends, or the jobs after it do not
(`Runtime.code?_or_endless_of_unending`). The interpreter is such an engine
(`Engine.appends_interpreter`).
-/

namespace HostBridge

namespace Machine

variable {m m' : Machine} {ran added : List Job} {failure : Option EngineValue}

theorem jobs_eq_of_told (h : m.told = m'.told) : m.jobs = m'.jobs := by
  have hjobs := congrArg Machine.jobs h
  exact hjobs

theorem heap_eq_of_told (h : m.told = m'.told) : m.heap = m'.heap := by
  have hheap := congrArg Machine.heap h
  exact hheap

/-! ## Code appends -/

theorem jobs_prefix_settle (m : Machine) (id : Nat) (s : Settlement) :
    m.jobs <+: (m.settle id s).jobs := by
  unfold settle
  split
  · exact List.prefix_append ..
  · exact List.prefix_rfl

theorem jobs_prefix_react (m : Machine) (id : Nat) (p : PromiseState) (r : Reaction) :
    m.jobs <+: (m.react id p r).jobs := by
  unfold react
  split
  · exact List.prefix_rfl
  · exact List.prefix_append ..

theorem Change.jobs_prefix (h : Change m m') : m.jobs <+: m'.jobs := by
  cases h with
  | quiet h => rw [h.jobs]
  | share => exact List.prefix_rfl
  | queue | leave => exact List.prefix_append ..
  | settle => exact jobs_prefix_settle ..
  | react => exact jobs_prefix_react ..

/-- **Code only appends to the queue.** -/
theorem Evolves.exists_jobs_eq (h : m.Evolves m') : ∃ new, m'.jobs = m.jobs ++ new := by
  have happends : m.jobs <+: m'.jobs :=
    Evolves.induct (R := fun m m' => m.jobs <+: m'.jobs) (fun _ => List.prefix_rfl)
      List.IsPrefix.trans Change.jobs_prefix h
  obtain ⟨new, hnew⟩ := happends
  exact ⟨new, hnew.symm⟩

end Machine

namespace Engine

variable {e : Engine} {m m' : Machine} {ran added : List Job} {failure : Option EngineValue}

/-- Whatever the engine does, it only appends to the queue. -/
structure Appends (e : Engine) : Prop where
  run {m m' : Machine} {script : Script} {c : Completion} :
    e.run m script = some (c, m') → ∃ new, m'.jobs = m.jobs ++ new
  call {m m' : Machine} {body : FunctionBody} {args : List EngineValue} {c : Completion} :
    e.call m body args = some (c, m') → ∃ new, m'.jobs = m.jobs ++ new
  runJob {m m' : Machine} {j : Job} {failure : Option EngineValue} :
    e.runJob m j = some (failure, m') → ∃ new, m'.jobs = m.jobs ++ new

theorem Evolving.appends (h : e.Evolving) : e.Appends where
  run hrun := (h.run hrun).exists_jobs_eq
  call hcall := (h.call hcall).exists_jobs_eq
  runJob hjob := (h.runJob hjob).exists_jobs_eq

theorem appends_interpreter : interpreter.Appends := evolving_interpreter.appends

/-! ## Working off the queue -/

/-- Jobs `ran` are taken off the front of the queue, each once the one before has run to its end.
They queue `added`, in this order. With a `failure` the last of them failed. -/
inductive Works (e : Engine) :
    Machine → List Job → List Job → Option EngineValue → Machine → Prop
  | rest (m : Machine) : Works e m [] [] none m
  | fails {m m' : Machine} {j : Job} {rest new : List Job} {v : EngineValue}
      (queued : m.jobs = j :: rest) (run : e.runJob { m with jobs := rest } j = some (some v, m'))
      (appended : m'.jobs = rest ++ new) : Works e m [j] new (some v) m'
  | goes {m m' m'' : Machine} {j : Job} {rest new ran added : List Job}
      {failure : Option EngineValue}
      (queued : m.jobs = j :: rest) (run : e.runJob { m with jobs := rest } j = some (none, m'))
      (appended : m'.jobs = rest ++ new) (next : Works e m' ran added failure m'') :
      Works e m (j :: ran) (new ++ added) failure m''

/-- **No job is lost, repeated or overtaken.** -/
theorem Works.conserves (h : e.Works m ran added failure m') :
    m.jobs ++ added = ran ++ m'.jobs := by
  induction h with
  | rest m => exact List.append_nil _
  | fails queued _ appended => rw [queued, appended, List.cons_append, List.singleton_append]
  | goes queued _ appended _ ih =>
    rw [queued, List.cons_append, ← List.append_assoc, ← appended, ih, List.cons_append]

theorem Works.ran_of_failure {v : EngineValue} (h : e.Works m ran added (some v) m') :
    ∃ done j, ran = done ++ [j] := by
  generalize hf : some v = failure at h
  induction h with
  | rest => cases hf
  | @fails _ _ j => exact ⟨[], j, rfl⟩
  | @goes _ _ _ j _ _ _ _ _ _ _ _ _ ih =>
    obtain ⟨done, last, rfl⟩ := ih hf
    exact ⟨j :: done, last, rfl⟩

/-- A queue that is worked off until it is empty or a job fails is run. -/
theorem Works.leads (h : e.Works m ran added failure m') (hend : failure = none → m'.jobs = [])
    (done : List Job) : ∃ d, Loop.Leads e.turn (done, m) d := by
  induction h generalizing done with
  | rest m => exact ⟨_, .answers (by rw [turn, hend rfl])⟩
  | fails queued run => exact ⟨_, .answers (by simp only [turn, queued, run]; rfl)⟩
  | goes queued run _ _ ih =>
    obtain ⟨d, hd⟩ := ih hend (done ++ [_])
    exact ⟨d, .goes (by simp only [turn, queued, run]; rfl) hd⟩

/-- The jobs do not come to an end: however many are worked off, none fails and others are left. -/
def Endless (e : Engine) (m : Machine) : Prop :=
  ∀ ran added failure m', e.Works m ran added failure m' → failure = none ∧ m'.jobs ≠ []

theorem endless_of_drain (h : e.drain m = none) : e.Endless m := by
  intro ran added failure m' works
  by_contra hends
  have hend : failure = none → m'.jobs = [] := fun hf => by_contra fun hne => hends ⟨hf, hne⟩
  obtain ⟨d, hd⟩ := works.leads hend []
  cases h.symm.trans (Loop.run_eq_some_iff.2 hd)

/-- What running the queue did was to work it off, until it was empty or a job failed. -/
def Drains (e : Engine) (m : Machine) (d : Drained) : Prop :=
  (∃ added, e.Works m (d.completed ++ d.failure.toList.map (·.1)) added (d.failure.map (·.2))
    d.machine) ∧ (d.failure = none → d.machine.jobs = [])

/-- By induction on how often a job is taken off the queue. -/
theorem Appends.drains (he : e.Appends) {d : Drained} (h : e.drain m = some d) : e.Drains m d := by
  refine drain_induct (P := e.Drains) (fun m queued => ?_) (fun m j rest v m' queued hrun => ?_)
    (fun m j rest m' d queued hrun ih => ?_) h
  · exact ⟨⟨[], .rest m⟩, fun _ => queued⟩
  · obtain ⟨new, appended⟩ := he.runJob hrun
    exact ⟨⟨new, .fails queued hrun appended⟩, by simp⟩
  · obtain ⟨new, appended⟩ := he.runJob hrun
    obtain ⟨⟨added, works⟩, emptied⟩ := ih
    exact ⟨⟨new ++ added, .goes queued hrun appended works⟩, emptied⟩

end Engine

namespace Runtime

variable {σ κ : Type} [HostTypes κ] [DecidableEq κ] (l : Listener σ) (r : Runtime σ)

/-! ## One request -/

/-- What a request does to the queue. -/
structure Turn where
  /-- The jobs that the code of the request queues. -/
  queued : List Job
  /-- The jobs that are run, in order. -/
  ran : List Job
  /-- The jobs that those queue. -/
  added : List Job
  /-- The exception of the last job that is run, if it failed. -/
  failure : Option EngineValue

/-- The jobs that enter the queue, in order. -/
def Turn.entered (t : Turn) : List Job := t.queued ++ t.added

/-- The machine that a request has before it runs any job, unless its code never ends. -/
def beforeJobs (q : Request κ) : Machine :=
  match r.code? q, q with
  | some (some code), _ => code.2.told
  | some none, _ | none, .runJobs => r.machine
  | none, q => (r.handle l q).runtime.machine

/-- A request that returns takes this turn. -/
structure Takes (q : Request κ) (t : Turn) : Prop where
  /-- What comes before the jobs appends to the queue. -/
  queues : (r.beforeJobs l q).jobs = r.machine.jobs ++ t.queued
  /-- Nothing but script code does. -/
  codeQueues : r.code? q = none → t.queued = []
  /-- Then jobs are worked off, and nothing comes after them. -/
  works : ∃ m, r.engine.Works (r.beforeJobs l q) t.ran t.added t.failure m ∧
    (r.handle l q).runtime.machine.told = m.told
  /-- To run the queue is to count the jobs run, unless one fails. -/
  answers : q = .runJobs → t.failure = none → (r.handle l q).result = .ok (.count t.ran.length)
  /-- A job that fails makes the request fail. -/
  reports (v : EngineValue) : t.failure = some v →
    (r.handle l q).result = .error (.job ((r.handle l q).runtime.machine.heap.describe v))
  /-- A count is the number of jobs run, and all of them are run. -/
  counts (n : Nat) : (r.handle l q).result = .ok (.count n) →
    t.ran.length = n ∧ t.failure = none ∧ (r.handle l q).runtime.machine.jobs = []
  /-- A job that fails is the last one run, and all that come after it stay queued. -/
  fails (text : String) : (r.handle l q).result = .error (.job text) →
    ∃ done j v, t.ran = done ++ [j] ∧ t.failure = some v ∧
      text = (r.handle l q).runtime.machine.heap.describe v ∧
      r.machine.jobs ++ t.entered = done ++ j :: (r.handle l q).runtime.machine.jobs
  /-- A request that fails otherwise runs no job and keeps the queue as its code left it. -/
  endsEarly (e : ScriptError) : (∀ text, e ≠ .job text) → (r.handle l q).result = .error e →
    t.ran = [] ∧ (r.handle l q).runtime.machine.jobs = r.machine.jobs ++ t.queued
  /-- An evaluation that succeeds leaves an empty queue behind, if evaluations run the queue. -/
  empties (a : Reply) : q.evaluates → r.drainsJobs → (r.handle l q).result = .ok a →
    (r.handle l q).runtime.machine.jobs = []
  /-- If they do not, it runs no job. -/
  waits : q.evaluates → r.drainsJobs = false → t.ran = []
  /-- A value is a copy that was taken before any job ran. -/
  copies (v : Value) : (r.handle l q).result = .ok (.value v) →
    ∃ w m, r.code? q = some (some (.normal w, m)) ∧ q.take m.heap w = .ok (.value v)
  /-- It is answered with, unless a job fails. -/
  returns (w : EngineValue) (m : Machine) (a : Reply) : r.code? q = some (some (.normal w, m)) →
    q.take m.heap w = .ok a → t.failure = none → (r.handle l q).result = .ok a

/-! ## Every request takes a turn -/

variable {l r} {q : Request κ} {queued ran added : List Job} {m : Machine}

/-- A request that fails before any job runs. -/
theorem Takes.of_error {e : ScriptError}
    (queues : (r.beforeJobs l q).jobs = r.machine.jobs ++ queued)
    (codeQueues : r.code? q = none → queued = []) (hq : q ≠ .runJobs)
    (untaken : ∀ w m a, r.code? q = some (some (.normal w, m)) → q.take m.heap w ≠ .ok a)
    (he : e.isOwn = true) (hresult : (r.handle l q).result = .error e)
    (hmachine : (r.handle l q).runtime.machine.told = (r.beforeJobs l q).told) :
    Takes l r q ⟨queued, [], [], none⟩ where
  queues := queues
  codeQueues := codeQueues
  works := ⟨_, .rest _, hmachine⟩
  answers h := absurd h hq
  reports _ h := nomatch h
  counts _ h := nomatch hresult.symm.trans h
  fails text h := by
    cases hresult.symm.trans h
    cases he
  endsEarly _ _ _ := ⟨rfl, (Machine.jobs_eq_of_told hmachine).trans queues⟩
  empties _ _ _ h := nomatch hresult.symm.trans h
  waits _ _ := rfl
  copies _ h := nomatch hresult.symm.trans h
  returns w m a hcode htake := absurd htake (untaken w m a hcode)

/-- A request that ends with a job that fails. -/
theorem Takes.of_failure {v : EngineValue}
    (queues : (r.beforeJobs l q).jobs = r.machine.jobs ++ queued)
    (codeQueues : r.code? q = none → queued = []) (drains : q.evaluates → r.drainsJobs = true)
    (works : r.engine.Works (r.beforeJobs l q) ran added (some v) m)
    (hresult : (r.handle l q).result = .error (.job (m.heap.describe v)))
    (hmachine : (r.handle l q).runtime.machine.told = m.told) :
    Takes l r q ⟨queued, ran, added, some v⟩ where
  queues := queues
  codeQueues := codeQueues
  works := ⟨m, works, hmachine⟩
  answers _ h := nomatch h
  reports w h := by
    cases h
    rw [hresult, Machine.heap_eq_of_told hmachine]
  counts _ h := nomatch hresult.symm.trans h
  fails text h := by
    obtain ⟨done, j, rfl⟩ := works.ran_of_failure
    have htext : m.heap.describe v = text :=
      ScriptError.job.inj (Except.error.inj (hresult.symm.trans h))
    have hconserves := works.conserves
    rw [queues, List.append_assoc, List.append_assoc] at hconserves
    refine ⟨done, j, v, rfl, rfl, ?_, ?_⟩
    · rw [Machine.heap_eq_of_told hmachine, htext]
    · rw [Machine.jobs_eq_of_told hmachine]
      exact hconserves
  endsEarly e he h := absurd (Except.error.inj (hresult.symm.trans h)).symm (he _)
  empties _ _ _ h := nomatch hresult.symm.trans h
  waits hq h := absurd (h.symm.trans (drains hq)) nofun
  copies _ h := nomatch hresult.symm.trans h
  returns _ _ _ _ _ h := nomatch h

omit [DecidableEq κ] in
theorem Request.take_ne_count (q : Request κ) (h : Heap) (v : EngineValue) (n : Nat) :
    q.take h v ≠ .ok (.count n) := by
  unfold Request.take
  split
  · cases h.copyOut _ v <;> exact nofun
  · cases h.copyOut _ v <;> exact nofun
  · exact nofun

/-- A request whose code has run, and after it all jobs that are to be run. -/
theorem Takes.of_code {code : Completion × Machine} {v : EngineValue} {a : Reply}
    (hcode : r.code? q = some (some code)) (hv : code.1 = .normal v)
    (htake : q.take code.2.heap v = .ok a)
    (queues : (r.beforeJobs l q).jobs = r.machine.jobs ++ queued)
    (works : r.engine.Works (r.beforeJobs l q) ran added none m)
    (hresult : (r.handle l q).result = .ok a)
    (hmachine : (r.handle l q).runtime.machine.told = m.told)
    (hempty : r.drainsJobs → m.jobs = []) (hwaits : r.drainsJobs = false → ran = []) :
    Takes l r q ⟨queued, ran, added, none⟩ where
  queues := queues
  codeQueues h := nomatch hcode.symm.trans h
  works := ⟨m, works, hmachine⟩
  answers h := by
    subst h
    cases hcode
  reports _ h := nomatch h
  counts n h := by
    rw [Except.ok.inj (hresult.symm.trans h)] at htake
    exact absurd htake (q.take_ne_count _ v n)
  fails _ h := nomatch hresult.symm.trans h
  endsEarly _ _ h := nomatch hresult.symm.trans h
  empties _ _ hd _ := (Machine.jobs_eq_of_told hmachine).trans (hempty hd)
  waits _ := hwaits
  copies w h := by
    rw [Except.ok.inj (hresult.symm.trans h)] at htake
    exact ⟨v, code.2, hcode.trans (congrArg (some ∘ some) (Prod.ext hv rfl)), htake⟩
  returns w m' b hcode' htake' _ := by
    cases hcode.symm.trans hcode'
    cases hv
    cases htake.symm.trans htake'
    exact hresult

variable (l r)

theorem beforeJobs_of_code {code : Completion × Machine} (hcode : r.code? q = some (some code)) :
    r.beforeJobs l q = code.2.told := by
  unfold beforeJobs
  rw [hcode]

theorem works_runJobs (he : r.engine.Appends) (hreturns : (r.runJobs l).returns) :
    ∃ ran added failure m,
      r.engine.Works r.machine ran added failure m ∧
      (r.runJobs l).runtime.machine.told = m.told ∧
      (failure = none ∧ (r.runJobs l).result = .ok ran.length ∧ m.jobs = [] ∨
        ∃ v, failure = some v ∧ (r.runJobs l).result = .error (.job (m.heap.describe v))) := by
  cases hd : r.engine.drain r.machine with
  | none =>
    rw [runJobs_of_none l r hd] at hreturns
    cases hreturns
  | some d =>
    obtain ⟨⟨added, works⟩, emptied⟩ := he.drains hd
    refine ⟨_, added, _, _, works, by rw [runtime_runJobs l r hd, machine_adopt]; rfl, ?_⟩
    rw [result_runJobs l r hd]
    cases hf : d.failure with
    | none => exact .inl ⟨rfl, by simp, emptied hf⟩
    | some f => exact .inr ⟨f.2, rfl, rfl⟩

theorem works_finish {α : Type} (he : r.engine.Appends) {a : α}
    (hreturns : (r.finish l a).returns) : ∃ ran added failure m,
      r.engine.Works r.machine ran added failure m ∧
      (r.finish l a).runtime.machine.told = m.told ∧
      (failure = none ∧ (r.finish l a).result = .ok a ∧ (r.drainsJobs → m.jobs = []) ∧
          (r.drainsJobs = false → ran = []) ∨
        ∃ v, failure = some v ∧ r.drainsJobs ∧
          (r.finish l a).result = .error (.job (m.heap.describe v))) := by
  unfold finish at hreturns ⊢
  split
  · next hdrains =>
    rw [if_pos hdrains] at hreturns
    have hreturns : (r.runJobs l).returns := (Ran.returns_map (fun _ => a) _).symm.trans hreturns
    obtain ⟨ran, added, failure, m, works, hmachine, hend⟩ := works_runJobs l r he hreturns
    refine ⟨ran, added, failure, m, works, hmachine, ?_⟩
    dsimp only
    rcases hend with ⟨hf, hresult, hempty⟩ | ⟨v, hf, hresult⟩
    · refine .inl ⟨hf, ?_, fun _ => hempty, fun h => absurd (h.symm.trans hdrains) nofun⟩
      rw [hresult]
      rfl
    · refine .inr ⟨v, hf, hdrains, ?_⟩
      rw [hresult]
      rfl
  · next hdrains =>
    exact ⟨[], [], none, _, .rest _, rfl, .inl ⟨rfl, rfl, fun h => absurd h hdrains, fun _ => rfl⟩⟩

omit [DecidableEq κ] in
theorem exists_jobs_eq_of_code? {r : Runtime σ} (he : r.engine.Appends)
    {code : Completion × Machine} (hcode : r.code? q = some (some code)) :
    ∃ new, code.2.jobs = r.machine.jobs ++ new := by
  rcases code?_cases hcode with ⟨script, hrun⟩ | ⟨heap, body, args, -, hcall⟩
  · exact he.run hrun
  · obtain ⟨new, hnew⟩ := he.call hcall
    exact ⟨new, hnew⟩

theorem exists_takes_runJobs (he : r.engine.Appends) (hreturns : (r.runJobs l).returns) :
    ∃ t, Takes l r (.runJobs : Request κ) t := by
  obtain ⟨ran, added, failure, m, works, hmachine, hend⟩ := works_runJobs l r he hreturns
  have hqueues : (r.beforeJobs l (.runJobs : Request κ)).jobs = r.machine.jobs ++ [] :=
    (List.append_nil _).symm
  rcases hend with ⟨rfl, hresult, hempty⟩ | ⟨v, rfl, hresult⟩
  · have hcount : (r.handle l (.runJobs : Request κ)).result = .ok (.count ran.length) :=
      congrArg (Except.map Reply.count) hresult
    exact ⟨⟨[], ran, added, none⟩,
      { queues := hqueues
        codeQueues := fun _ => rfl
        works := ⟨m, works, hmachine⟩
        answers := fun _ _ => hcount
        reports := fun _ h => nomatch h
        counts := fun n h => ⟨Reply.count.inj (Except.ok.inj (hcount.symm.trans h)), rfl,
          (Machine.jobs_eq_of_told hmachine).trans hempty⟩
        fails := fun _ h => nomatch hcount.symm.trans h
        endsEarly := fun _ _ h => nomatch hcount.symm.trans h
        empties := fun _ h => nomatch h
        waits := fun h => nomatch h
        copies := fun _ h => nomatch hcount.symm.trans h
        returns := fun _ _ _ h => nomatch h }⟩
  · exact ⟨_, .of_failure hqueues (fun _ => rfl) nofun works
      (congrArg (Except.map Reply.count) hresult) hmachine⟩

theorem exists_takes_of_code (he : r.engine.Appends) {code : Completion × Machine}
    (hcode : r.code? q = some (some code)) (hreturns : (r.handle l q).returns) :
    ∃ t, Takes l r q t := by
  obtain ⟨hresult, hruntime⟩ := handle_of_code l r hcode
  have hbefore := beforeJobs_of_code l r hcode
  obtain ⟨queued, hqueued⟩ := exists_jobs_eq_of_code? he hcode
  have hqueues : (r.beforeJobs l q).jobs = r.machine.jobs ++ queued := hbefore ▸ hqueued
  have hnone : r.code? q = none → queued = [] := fun h => nomatch hcode.symm.trans h
  have hq : q ≠ .runJobs := fun h => by
    subst h
    cases hcode
  rcases conclude_cases l r code q.take with
    ⟨untaken, e, herr, herror, hearly⟩ | ⟨v, a, hv, htake, hend, hlater⟩
  · refine ⟨_, .of_error hqueues hnone hq (fun w m a h => ?_) herr (hresult.trans herror) ?_⟩
    · cases hcode.symm.trans h
      exact untaken w a rfl
    · rw [hruntime, hearly, machine_adopt, hbefore]
  · have hfinish : ((r.adopt l code.2).1.finish l a).returns :=
      (Ran.returns_congr (hresult.trans hend)).symm.trans hreturns
    obtain ⟨ran, added, failure, m, works, hmachine, hends⟩ :=
      works_finish l (r.adopt l code.2).1 (by rwa [engine_adopt]) hfinish
    rw [engine_adopt, machine_adopt, ← hbefore] at works
    rw [drainsJobs_adopt, ← hend, ← hresult] at hends
    rw [← hlater, ← hruntime] at hmachine
    rcases hends with ⟨rfl, hok, hempty, hwaits⟩ | ⟨w, rfl, hdrains, hfailed⟩
    · exact ⟨_, .of_code hcode hv htake hqueues works hok hmachine hempty hwaits⟩
    · exact ⟨_, .of_failure hqueues hnone (fun _ => hdrains) works hfailed hmachine⟩

theorem exists_takes_of_no_code (hq : q ≠ .runJobs) (hcode : r.code? q = none) :
    ∃ t, Takes l r q t := by
  obtain ⟨hquiet, -, -, hend⟩ := handle_of_no_code l r hq hcode
  have hbefore : r.beforeJobs l q = (r.handle l q).runtime.machine := by
    unfold beforeJobs
    rw [hcode]
    cases q <;> first | rfl | exact absurd rfl hq
  have hqueues : (r.beforeJobs l q).jobs = r.machine.jobs ++ [] := by
    rw [hbefore, hquiet.jobs, List.append_nil]
  have untaken (w : EngineValue) (m : Machine) (a : Reply)
      (h : r.code? q = some (some (.normal w, m))) :=
    (nomatch hcode.symm.trans h : q.take m.heap w ≠ .ok a)
  rcases hend with ⟨e, he, herror⟩ | ⟨hevaluates, a, hcount, hvalue, hok⟩
  · exact ⟨_, .of_error hqueues (fun _ => rfl) hq untaken he herror (by rw [hbefore])⟩
  · have hanswer {b : Reply} (h : (r.handle l q).result = .ok b) : a = b :=
      Except.ok.inj (hok.symm.trans h)
    exact ⟨⟨[], [], [], none⟩,
      { queues := hqueues
        codeQueues := fun _ => rfl
        works := ⟨_, .rest _, by rw [hbefore]⟩
        answers := fun h => absurd h hq
        reports := fun _ h => nomatch h
        counts := fun n h => absurd (hanswer h) (hcount n)
        fails := fun _ h => nomatch hok.symm.trans h
        endsEarly := fun _ _ h => nomatch hok.symm.trans h
        empties := fun _ h => absurd (hevaluates.symm.trans h) nofun
        waits := fun h => absurd (hevaluates.symm.trans h) nofun
        copies := fun v h => absurd (hanswer h) (hvalue v)
        returns := fun w m b h htake => absurd htake (untaken w m b h) }⟩

theorem exists_takes (he : r.engine.Appends) (q : Request κ) (hreturns : (r.handle l q).returns) :
    ∃ t, Takes l r q t := by
  by_cases hq : q = .runJobs
  · subst hq
    exact exists_takes_runJobs l r he ((Ran.returns_map Reply.count _).symm.trans hreturns)
  cases hcode : r.code? q with
  | none => exact exists_takes_of_no_code l r hq hcode
  | some code =>
    cases code with
    | some code => exact exists_takes_of_code l r he hcode hreturns
    | none =>
      unfold Ran.returns at hreturns
      rw [(handle_of_code l r hcode).1] at hreturns
      cases hreturns

/-- **A request returns**, unless its code never ends or the jobs after it do not. -/
theorem code?_or_endless_of_unending (h : (r.handle l q).returns = false) :
    r.code? q = some none ∨ r.engine.Endless (r.beforeJobs l q) := by
  by_cases hq : q = .runJobs
  · subst hq
    have hjobs := (Ran.returns_map Reply.count (r.runJobs l)).symm.trans h
    exact .inr (Engine.endless_of_drain (drain_of_unending l r hjobs))
  cases hcode : r.code? q with
  | none =>
    rcases (handle_of_no_code l r hq hcode).2.2.2 with ⟨e, he, hresult⟩ | ⟨-, a, -, -, hresult⟩
    · cases h.symm.trans (Ran.returns_of_own he hresult)
    · cases h.symm.trans (Ran.returns_of_ok hresult)
  | some code =>
    cases code with
    | none => exact .inl rfl
    | some code =>
      have hresult := (handle_of_code l r hcode).1
      rcases conclude_cases l r code q.take with ⟨-, e, he, herror, -⟩ | ⟨v, a, -, -, hend, -⟩
      · cases h.symm.trans (Ran.returns_of_own he (hresult.trans herror))
      · have hfinish := (Ran.returns_congr (hresult.trans hend)).symm.trans h
        unfold finish at hfinish
        split at hfinish
        · have hjobs := (Ran.returns_map (fun _ => a) _).symm.trans hfinish
          have hdrain := drain_of_unending l _ hjobs
          rw [engine_adopt, machine_adopt, ← beforeJobs_of_code l r hcode] at hdrain
          exact .inr (Engine.endless_of_drain hdrain)
        · cases hfinish

/-- What enters the queue in a turn leaves it at the front or stays. -/
theorem Takes.conserves {t : Turn} (h : Takes l r q t) :
    r.machine.jobs ++ t.entered = t.ran ++ (r.handle l q).runtime.machine.jobs := by
  obtain ⟨m, works, hmachine⟩ := h.works
  rw [Turn.entered, ← List.append_assoc, ← h.queues, works.conserves,
    Machine.jobs_eq_of_told hmachine]

/-! ## Any number of requests -/

/-- The turns of requests that are handled one after the other. -/
inductive Turns : Runtime σ → List (Request κ) → List Turn → Prop
  | nil (r : Runtime σ) : Turns r [] []
  /-- A request that never returns, after which no other is handled. -/
  | stuck {r : Runtime σ} {q : Request κ} (unending : (r.handle l q).returns = false)
      (endless : r.code? q = some none ∨ r.engine.Endless (r.beforeJobs l q))
      (qs : List (Request κ)) : Turns r (q :: qs) []
  | cons {r : Runtime σ} {q : Request κ} {qs : List (Request κ)} {t : Turn} {ts : List Turn}
      (returned : (r.handle l q).returns) (takes : Takes l r q t)
      (rest : Turns (r.handle l q).runtime qs ts) : Turns r (q :: qs) (t :: ts)

/-- **Jobs run in order, once, and none is lost.** With any engine that only appends to the queue,
every request takes its turn, until one never returns because its code or the jobs never end, and
over all of them what is queued, in the order in which it came, is what is run followed by what is
left. -/
theorem jobs_run_in_order (he : r.engine.Appends) (qs : List (Request κ)) :
    ∃ turns, Turns l r qs turns ∧
      r.machine.jobs ++ turns.flatMap Turn.entered =
        turns.flatMap Turn.ran ++ (r.serve l qs).machine.jobs := by
  induction qs generalizing r with
  | nil => exact ⟨[], .nil r, List.append_nil _⟩
  | cons q qs ih =>
    cases hreturns : (r.handle l q).returns with
    | false =>
      refine ⟨[], .stuck hreturns (code?_or_endless_of_unending l r hreturns) qs, ?_⟩
      rw [serve, hreturns]
      exact List.append_nil _
    | true =>
      obtain ⟨t, takes⟩ := exists_takes l r he q hreturns
      obtain ⟨ts, turns, conserved⟩ := ih (r.handle l q).runtime (by rwa [engine_handle])
      refine ⟨t :: ts, .cons hreturns takes turns, ?_⟩
      calc r.machine.jobs ++ (t :: ts).flatMap Turn.entered
          = r.machine.jobs ++ t.entered ++ ts.flatMap Turn.entered := by
            rw [List.flatMap_cons, List.append_assoc]
        _ = t.ran ++ ((r.handle l q).runtime.machine.jobs ++ ts.flatMap Turn.entered) := by
            rw [takes.conserves, List.append_assoc]
        _ = (t :: ts).flatMap Turn.ran ++ (r.serve l (q :: qs)).machine.jobs := by
            rw [conserved, List.flatMap_cons, List.append_assoc, serve, if_pos hreturns]

namespace Failing

/-- A function that queues another one and then does something else. -/
def queueing (rest : List Script.Code) : FunctionBody :=
  .closure
    { parameters := []
      body := .expression (.call (.name "queueMicrotask") [.function [] [] false]) :: rest
      constructible := false
      names := [] }

/-- A runtime with two jobs that queue others, of which the first then fails. -/
def runtime : Runtime Unit :=
  { machine :=
    { jobs := [.direct (queueing [.throw (.literal (.int 3))]), .direct (queueing [])] } }

/-- A listener that is told nothing here. -/
def listener : Listener Unit := ⟨fun s _ => ⟨false, s, []⟩⟩

end Failing

/-- Running the queue ends with the first job, and leaves the second one and the one that the first
queued. -/
theorem jobs_run_in_order_failing :
    (Failing.runtime.engine.drain Failing.runtime.machine).map
        (fun d => (d.completed.length, d.failure.isSome, d.machine.jobs.length)) =
      some (0, true, 2) ∧
    Failing.runtime.engine.Appends ∧
    ∃ turns, Turns Failing.listener Failing.runtime
        ([.runJobs, .drain false, .execute [], .runJobs] : List (Request HostType)) turns ∧
      Failing.runtime.machine.jobs ++ turns.flatMap Turn.entered =
        turns.flatMap Turn.ran ++ (Failing.runtime.serve Failing.listener
          ([.runJobs, .drain false, .execute [], .runJobs] :
            List (Request HostType))).machine.jobs :=
  ⟨by rw [Engine.drain, Loop.run_eq_some_iff.2 (.answers rfl)]; rfl, Engine.appends_interpreter,
    jobs_run_in_order Failing.listener Failing.runtime Engine.appends_interpreter _⟩

end Runtime

end HostBridge
