import HostBridge.Proofs.WorkEvolution
import HostBridge.Script.Engine

/-!
# How code changes a machine

Whatever code does, the machine evolves. For expressions and code this is by recursion on them
(`Script.evolving_expressions`, `Script.evolving_code`), as long as it is so for the functions that
they call; for these it is by recursion on how many calls may be inside each other
(`Script.evolving_runs`). So it holds for scripts, for calls from outside and for jobs: for all that
the interpreter does (`Engine.evolving_interpreter`).
-/

namespace HostBridge

namespace Script

open Work

section Evaluation

variable {runs : Runner} (hruns : runs.Evolving)

include hruns

/-! ## Conversions -/

theorem evolving_say (v : EngineValue) (body : FunctionBody) : Evolving (say runs v body) := by
  unfold say
  split
  · exact evolving_callBody hruns _ _ _
  · exact .ask _

theorem evolving_primitiveBy (v : EngineValue) (names : List String) :
    Evolving (primitiveBy runs v names) := by
  induction names with
  | nil => exact .refuse _
  | cons name names ih =>
    refine (evolving_readProperty _ _ _).bind fun f => (evolving_bodyOf? f).bind fun body => ?_
    split
    · exact ih
    · exact (evolving_say hruns v _).bind fun a => .ite ih (.pure a)

theorem evolving_primitive (names : List String) (v : EngineValue) :
    Evolving (primitive runs names v) :=
  .ite (evolving_primitiveBy hruns v names) (.pure v)

theorem evolving_primitiveOf (v : EngineValue) : Evolving (primitiveOf runs v) :=
  .get_bind fun m => evolving_primitive hruns _ v m

theorem evolving_text (v : EngineValue) : Evolving (text runs v) :=
  (evolving_primitive hruns forText v).bind fun _ => .ask _

theorem evolving_key (v : EngineValue) : Evolving (key runs v) := by
  unfold key
  split
  · exact .pure _
  · exact evolving_text hruns _

theorem evolving_applyUnary (op : UnaryOp) (v : EngineValue) :
    Evolving (applyUnary runs op v) := by
  have hoperand : Evolving (operand runs op v) := by
    unfold operand
    split
    case h_4 | h_5 | h_6 => exact .pure v
    all_goals exact evolving_primitive hruns forNumber v
  exact hoperand.bind fun _ => .ask _

theorem evolving_operands (op : BinaryOp) (a b : EngineValue) :
    Evolving (operands runs op a b) := by
  have hnumbers : Evolving (do
      let x ← primitive runs forNumber a
      let y ← primitive runs forNumber b
      return (x, y)) :=
    (evolving_primitive hruns _ a).bind fun x => (evolving_primitive hruns _ b).bind fun y =>
      .pure (x, y)
  cases op with
  | arithmetic op | bits op | order op => exact hnumbers
  | add =>
    exact (evolving_primitiveOf hruns a).bind fun x => (evolving_primitiveOf hruns b).bind fun y =>
      .pure (x, y)
  | equal negated =>
    exact .ite ((evolving_primitiveOf hruns a).bind fun x => .pure (x, b))
      (.ite ((evolving_primitiveOf hruns b).bind fun y => .pure (a, y)) (.pure (a, b)))
  | within =>
    exact .ite ((evolving_primitive hruns forText a).bind fun x => .pure (x, b)) (.pure (a, b))
  | same negated | instanceOf => exact .pure (a, b)

theorem evolving_applyBinary (op : BinaryOp) (a b : EngineValue) :
    Evolving (applyBinary runs op a b) :=
  (evolving_operands hruns op a b).bind fun _ => .ask _

/-! ## References -/

theorem evolving_fetch (r : Reference) : Evolving (r.fetch runs) := by
  unfold Reference.fetch
  split
  · exact evolving_lookup _
  · exact evolving_readGlobal _
  · exact evolving_readProperty _ _ _
  · exact evolving_readProperty _ _ _
  · exact evolving_readProperty _ _ _
  · exact (evolving_key hruns _).bind fun name => evolving_readProperty _ _ name
  · exact .pure _

theorem evolving_assign (v : EngineValue) (r : Reference) : Evolving (r.assign runs v) := by
  cases r with
  | name x => exact evolving_assignName x v
  | global key => exact evolving_writeGlobal key v
  | property target key => exact evolving_write target key v
  | item target k => exact (evolving_key hruns k).bind fun name => evolving_write target name v
  | value => exact .refuse _

theorem evolving_removeAt (r : Reference) : Evolving (r.remove runs) := by
  cases r with
  | global key => exact evolving_removeGlobal key
  | property target key => exact evolving_remove target key
  | item target k => exact (evolving_key hruns k).bind fun name => evolving_remove target name
  | name | value => exact .pure _

omit hruns in
theorem evolving_member {v : Work EngineValue} (hv : v.Evolving) (e : Expr) (key : String) :
    Evolving (member e v key) :=
  (evolving_isGlobalObject e).bind fun _ => .ite (.pure _) (hv.bind fun _ => .pure _)

theorem evolving_itemOf {v k : Work EngineValue} (hv : v.Evolving) (hk : k.Evolving) (e : Expr) :
    Evolving (itemOf runs e v k) :=
  (evolving_isGlobalObject e).bind fun _ =>
    .ite (hk.bind fun k => (evolving_key hruns k).bind fun _ => .pure _)
      (hv.bind fun _ => hk.bind fun _ => .pure _)

section

variable {target : Work Reference} {value : Work EngineValue} (htarget : target.Evolving)

include htarget

theorem evolving_callAt {args : Work (List EngineValue)} (hargs : args.Evolving) :
    Evolving (callAt runs target args) :=
  htarget.bind fun r => (evolving_fetch hruns r).bind fun f => hargs.bind fun args =>
    evolving_invoke hruns r.receiver f args

theorem evolving_assignAt (hvalue : value.Evolving) : Evolving (assignAt runs target value) :=
  htarget.bind fun r => hvalue.bind fun v => (evolving_assign hruns v r).bind fun _ => .pure v

theorem evolving_updateAt (hvalue : value.Evolving) (op : Operation) :
    Evolving (updateAt runs target op value) := by
  refine htarget.bind fun r => (evolving_fetch hruns r).bind fun before => ?_
  cases op with
  | binary op =>
    exact hvalue.bind fun v => (evolving_applyBinary hruns op before v).bind fun after =>
      (evolving_assign hruns after r).bind fun _ => .pure after
  | logical op =>
    exact .ite (.pure before)
      (hvalue.bind fun v => (evolving_assign hruns v r).bind fun _ => .pure v)

theorem evolving_stepAt (op : BinaryOp) (after : Bool) :
    Evolving (stepAt runs target op after) := by
  have hnumber (v : EngineValue) : Evolving (numberAndOne runs v) := by
    refine (evolving_primitive hruns forNumber v).bind fun v => ?_
    split
    · exact .pure _
    · exact (Evolving.ask _).bind fun _ => .pure _
  exact htarget.bind fun r => (evolving_fetch hruns r).bind fun v => (hnumber v).bind fun x =>
    (Evolving.ask _).bind fun changed => (evolving_assign hruns changed r).bind fun _ => .pure _

end

/-! ## Functions and loops -/

omit hruns in
theorem evolving_makeFunction (parameters : List String) (body : List Code)
    (constructible : Bool) : Evolving (makeFunction parameters body constructible) :=
  .get_bind fun m =>
    Evolving.ite ((Evolving.make rfl).bind fun _ => .make rfl) (.make rfl) m

omit hruns in
theorem evolves_foldl_renew (names : List String) (m : Machine) :
    m.Evolves (names.foldl Machine.renew m) := by
  induction names generalizing m with
  | nil => exact .refl m
  | cons name names ih => exact (m.evolves_renew name).trans (ih _)

omit hruns in
/-- A loop goes through its test, its code and its step. -/
theorem evolving_turn {test : Work Bool} {body : Work Ending} {step : Work Unit}
    (htest : test.Evolving) (hbody : body.Evolving) (hstep : step.Evolving)
    (renewed : List String) (testNow : Bool) (v : Option EngineValue) :
    Evolving (turn renewed test body step testNow v) := by
  have hon (w : Option EngineValue) : Evolving (do
      modify fun m => renewed.foldl Machine.renew m
      step
      return .inl (true, w) : Work ((Bool × Option EngineValue) ⊕ Ending)) :=
    (Evolving.modify fun m => evolves_foldl_renew renewed m).bind fun _ =>
      hstep.bind fun _ => .pure _
  refine (Evolving.ite htest (.pure true)).bind fun go =>
    .ite (hbody.bind fun ending => ?_) (.pure _)
  split
  · exact .pure _
  · exact .pure _
  · exact hon _
  · exact hon _

/-! ## Expressions -/

omit hruns in
/-- The node with an entry more is no other promise. An entry may set the object to inherit from,
which is found on the heap. -/
theorem yields_evaluateEntries_text {n : Node} {t : EngineText} {e : Expr} {es : List Expr}
    (he : Evolving (evaluate runs e))
    (hes : ∀ n : Node, (evaluateEntries runs n es).Yields fun n' => n'.promise? = n.promise?) :
    (evaluateEntries runs n (.entry (.literal (.text t)) e :: es)).Yields
      fun n' => n'.promise? = n.promise? := by
  rw [evaluateEntries]
  refine he.yields.bind fun v _ => ?_
  split
  · intro m r hr
    obtain ⟨hn, hu, -⟩ := m.heap.setParent_keeps n v
    obtain ⟨hm, hyields⟩ := hes (m.heap.setParent n v).1 _ r hr
    exact ⟨(Machine.Evolves.heap hu).trans hm, fun n' hn' => (hyields n' hn').trans hn⟩
  · rw [← n.promise?_define t (.plain v)]
    exact hes _

/-- **Expressions only make a machine evolve.** By induction on the expression, with a case for each
equation of the evaluator. -/
theorem evolving_expressions :
    (∀ e, Evolving (evaluate runs e)) ∧
      (∀ n es, (evaluateEntries runs n es).Yields fun n' => n'.promise? = n.promise?) ∧
      (∀ es, Evolving (evaluateItems runs es)) ∧ ∀ es, Evolving (evaluateAll runs es) := by
  apply evaluate.mutual_induct
  -- Names and properties.
  case case1 => exact fun v => .pure v
  case case2 => exact evolving_lookup
  case case3 =>
    intro e key he
    rw [evaluate]
    exact (evolving_member he e key).bind (evolving_fetch hruns)
  case case4 =>
    intro e k he hk
    rw [evaluate]
    exact (evolving_itemOf hruns he hk e).bind (evolving_fetch hruns)
  case case5 =>
    intro e key he
    rw [evaluate]
    refine he.bind fun v => ?_
    split
    · exact .pure _
    · exact .pure _
    · exact evolving_readProperty _ _ key
  -- Operators.
  case case6 =>
    intro x
    rw [evaluate]
    exact (evolving_isKnown x).bind fun known =>
      .ite ((evolving_lookup x).bind fun v => evolving_applyUnary hruns .typeof v) (.pure _)
  case case7 =>
    intro op e hop he
    rw [evaluate]
    · exact he.bind fun v => evolving_applyUnary hruns op v
    · exact hop
  case case8 =>
    intro e k he hk
    rw [evaluate]
    exact (evolving_itemOf hruns he hk e).bind (evolving_removeAt hruns)
  case case9 =>
    intro op a b ha hb
    rw [evaluate]
    exact ha.bind fun x => hb.bind fun y => evolving_applyBinary hruns op x y
  case case10 =>
    intro op a b ha hb
    rw [evaluate]
    exact ha.bind fun v => .ite (.pure v) hb
  case case11 =>
    intro test yes no htest hyes hno
    rw [evaluate]
    exact htest.bind fun v => .ite hyes hno
  case case12 =>
    intro a b ha hb
    rw [evaluate]
    exact ha.bind fun _ => hb
  -- Texts, objects and functions.
  case case13 =>
    intro texts es hes
    rw [evaluate]
    exact hes.bind fun vs => (Evolving.mapM (evolving_text hruns) vs).bind fun ts => .pure _
  case case14 =>
    intro items hitems
    rw [evaluate]
    exact hitems.bind fun items => .make rfl
  case case15 => exact .pure _
  case case16 =>
    intro entries hentries
    rw [evaluate]
    exact (hentries.bind fun n hn =>
      (Evolving.make (Node.isUnhandled_of_promise?_eq hn)).yields).evolving
  case case17 =>
    intro key e he
    rw [evaluate]
    exact he
  case case18 => exact fun source flags => .make rfl
  case case19 => exact evolving_makeFunction
  -- Calls.
  case case20 =>
    intro args hargs
    rw [evaluate]
    refine (evolving_lookup "eval").bind fun f => hargs.bind fun args =>
      (evolving_bodyOf? f).bind fun body => ?_
    split
    · exact evolving_runText hruns true _
    · exact evolving_invoke hruns _ f _
  case case21 =>
    intro e key args he hargs
    rw [evaluate]
    exact evolving_callAt hruns (evolving_member he e key) hargs
  case case22 =>
    intro e k args he hk hargs
    rw [evaluate]
    exact evolving_callAt hruns (evolving_itemOf hruns he hk e) hargs
  case case23 =>
    intro f args heval hproperty hitem hf hargs
    rw [evaluate]
    · exact evolving_callAt hruns (hf.bind fun f => .pure _) hargs
    · exact heval
    · exact hproperty
    · exact hitem
  case case24 =>
    intro f args hf hargs
    rw [evaluate]
    exact hf.bind fun f => hargs.bind fun args => evolving_construct hruns f args
  -- Assignments.
  case case25 =>
    intro x e he
    rw [evaluate]
    exact evolving_assignAt hruns (.pure _) he
  case case26 =>
    intro e key value he hvalue
    rw [evaluate]
    exact evolving_assignAt hruns (evolving_member he e key) hvalue
  case case27 =>
    intro e k value he hk hvalue
    rw [evaluate]
    exact evolving_assignAt hruns (evolving_itemOf hruns he hk e) hvalue
  case case28 =>
    intro target e hname hproperty hitem he
    rw [evaluate]
    · exact evolving_assignAt hruns (.pure _) he
    · exact hname
    · exact hproperty
    · exact hitem
  case case29 =>
    intro x op e he
    rw [evaluate]
    exact evolving_updateAt hruns (.pure _) he op
  case case30 =>
    intro e key op value he hvalue
    rw [evaluate]
    exact evolving_updateAt hruns (evolving_member he e key) hvalue op
  case case31 =>
    intro e k op value he hk hvalue
    rw [evaluate]
    exact evolving_updateAt hruns (evolving_itemOf hruns he hk e) hvalue op
  case case32 =>
    intro target op e hname hproperty hitem he
    rw [evaluate]
    · exact evolving_updateAt hruns (.pure _) he op
    · exact hname
    · exact hproperty
    · exact hitem
  case case33 =>
    intro x op after
    rw [evaluate]
    exact evolving_stepAt hruns (.pure _) op after
  case case34 =>
    intro e key op after he
    rw [evaluate]
    exact evolving_stepAt hruns (evolving_member he e key) op after
  case case35 =>
    intro e k op after he hk
    rw [evaluate]
    exact evolving_stepAt hruns (evolving_itemOf hruns he hk e) op after
  case case36 =>
    intro target op after hname hproperty hitem
    rw [evaluate]
    · exact evolving_stepAt hruns (.pure _) op after
    · exact hname
    · exact hproperty
    · exact hitem
  -- Entries of objects, items and arguments.
  case case37 => exact fun n => .pure rfl
  case case38 => exact fun n t e es he hes _ => yields_evaluateEntries_text he hes
  case case39 =>
    intro n k e es hk hkey he hdefine
    rw [evaluateEntries]
    · refine hkey.yields.bind fun k _ => (evolving_key hruns k).yields.bind fun name _ =>
        he.yields.bind fun v _ => ?_
      rw [← n.promise?_define name (.plain v)]
      exact hdefine name v
    · exact hk
  case case40 =>
    intro n e es htext hentry hes
    rw [evaluateEntries]
    · exact hes
    · exact htext
    · exact hentry
  case case41 => exact .pure _
  case case42 =>
    intro es hes
    rw [evaluateItems]
    exact hes.bind fun vs => .pure _
  case case43 =>
    intro e es hhole he hes
    rw [evaluateItems]
    · exact he.bind fun v => hes.bind fun vs => .pure _
    · exact hhole
  case case44 => exact .pure _
  case case45 =>
    intro e es he hes
    rw [evaluateAll]
    exact he.bind fun v => hes.bind fun vs => .pure _

/-! ## Code -/

/-- **Code only makes a machine evolve.** By induction on the code, with a case for each equation of
the evaluator. -/
theorem evolving_code : (∀ c, Evolving (run runs c)) ∧ ∀ v cs, Evolving (runAll runs v cs) := by
  have hevaluate := (evolving_expressions hruns).1
  apply run.mutual_induct runs
  case case1 =>
    intro e
    rw [run]
    exact (hevaluate e).bind fun v => .pure _
  case case2 =>
    intro e
    rw [run]
    exact (hevaluate e).bind fun v => .throw v
  case case3 =>
    intro e
    rw [run]
    exact (hevaluate e).bind fun v => .pure _
  case case4 =>
    intro kind name e
    rw [run]
    exact (hevaluate e).bind fun v => (evolving_declare kind name v).bind fun _ => .pure _
  case case5 =>
    intro test yes no hyes hno
    rw [run]
    exact (hevaluate test).bind fun v => (Evolving.ite hyes hno).bind fun ending => .pure _
  case case6 =>
    intro body hbody
    rw [run]
    exact hbody.withNames _
  case case7 =>
    intro testFirst renewed test body step hbody
    rw [run]
    exact .again (fun b => evolving_turn ((hevaluate test).bind fun v => .pure _) hbody
      ((hevaluate step).bind fun _ => .pure _) renewed b.1 b.2) _
  case case8 => exact .pure _
  case case9 => exact .pure _
  case case10 =>
    intro body parameter handler hbody hhandler
    rw [run]
    exact ((hbody.withNames _).tryCatch fun e => hhandler.withNames _).bind fun ending => .pure _
  case case11 =>
    intro body after hbody hafter
    rw [run]
    refine (hbody.withNames _).attempt.bind fun r => (hafter.withNames _).bind fun ending => ?_
    split
    · exact (Evolving.ofExcept r).bind fun ending => .pure _
    · exact .pure _
  case case12 => exact fun v => .pure _
  case case13 =>
    intro v c cs hc hcs
    rw [runAll]
    refine hc.bind fun ending => ?_
    split
    · exact hcs _
    · exact .pure _

end Evaluation

/-! ## The runner -/

theorem evolving_runner (calls : Nat) : (runner calls).Evolving := by
  induction calls with
  | zero => exact fun _ _ _ => .refuse _
  | succ calls ih => exact fun names new body => ((evolving_code ih).2 none body).inScope names new

theorem evolving_runs : runs.Evolving := evolving_runner maxCalls

theorem evolving_runCode (body : List Code) : Evolving (runCode body) :=
  (evolving_declareNames body).bind fun _ =>
    ((evolving_code evolving_runs).2 none body).bind fun ending => .pure ending.result

/-! ## Statements -/

theorem evolving_keep (name : String) (v : EngineValue) : Evolving (keep name v) :=
  (evolving_writeGlobal name v).bind fun _ => .pure v

theorem evolving_step (s : Statement) : Evolving (step s) := by
  cases s with
  | store name v => exact evolving_keep name v
  | value v => exact .pure v
  | read name key =>
    cases key with
    | none => exact evolving_readGlobal name
    | some key => exact (evolving_readGlobal name).bind fun v => evolving_readProperty _ v key
  | keys name => exact (evolving_readGlobal name).bind fun v => .ofRun fun m => m.evolves_keys v
  | log tag =>
    rw [step]
    exact .ofRun fun m => Machine.Change.evolves (.quiet ⟨rfl, rfl, rfl, rfl, rfl⟩)
  | throw v => exact .throw v
  | settled name s =>
    have hpromise : Evolving (ofRun fun m => m.promiseFor s) :=
      .ofRun fun m => m.evolves_promiseFor s
    cases name with
    | none => exact hpromise
    | some name => exact hpromise.bind (evolving_keep name)
  | pending name =>
    refine .get_bind fun m => (Evolving.make rfl).bind (fun p => ?_) m
    refine (Evolving.modify fun m => ?_).bind fun _ => evolving_keep name p
    exact Machine.Change.evolves (.quiet ⟨rfl, rfl, rfl, rfl, rfl⟩)
  | settle promise s =>
    refine .get_bind fun m => ?_
    split
    · next id _ => exact Evolving.ofRun (fun m => m.evolves_resolve id 0 s) m
    · exact .still rfl
  | attach name promise branch handler =>
    exact (evolving_readGlobal promise).bind fun v => (evolving_readProperty _ v _).bind fun f =>
      (Evolving.make rfl).bind fun h => (evolving_invoke evolving_runs v f [h]).bind
        (evolving_keep name)
  | microtask handler =>
    rw [step]
    exact .ofRun fun m => (Machine.Change.queue m _).evolves
  | function name body => exact (Evolving.make rfl).bind (evolving_keep name)
  | code body => exact evolving_runCode body

theorem evolving_runFrom (v : EngineValue) (script : Script) : Evolving (runFrom v script) := by
  induction script generalizing v with
  | nil => exact .pure v
  | cons s rest ih => exact (evolving_step s).bind fun v => ih v

/-! ## Jobs -/

theorem evolving_derive (r : Reaction) (s : Settlement) : Evolving (derive r s) := by
  unfold derive
  split
  · exact .pure s
  · refine (evolving_callBody evolving_runs _ _ _).attempt.bind fun x => ?_
    split
    · exact .pure _
    · exact .pure _

theorem evolving_runJob (j : Job) : Evolving (runJob j) := by
  unfold runJob
  split
  · exact (evolving_callBody evolving_runs _ _ _).bind fun _ => .pure _
  · exact (evolving_derive _ _).bind fun _ => .modify fun m => m.evolves_resolve _ _ _
  · split
    · exact .modify fun m => m.evolves_follow _ _ _
    · exact evolving_entrust evolving_runs _ _ _ _

end Script

namespace Machine

open Script

/-- The machine after work that ends is one that it evolves into. -/
theorem evolves_of_complete {a : Work EngineValue} (ha : a.Evolving) {m m' : Machine}
    {c : Completion} (h : a.complete m = some (c, m')) : m.Evolves m' := by
  obtain ⟨r, hr, hcomplete⟩ := Option.map_eq_some_iff.1 h
  cases hcomplete
  exact ha m r hr

variable {m m' : Machine} {c : Completion}

theorem evolves_run {script : Script} (h : m.run script = some (c, m')) : m.Evolves m' :=
  evolves_of_complete (evolving_runFrom .undefined script) h

theorem evolves_call {body : FunctionBody} {args : List EngineValue}
    (h : m.call body args = some (c, m')) : m.Evolves m' :=
  evolves_of_complete (evolving_callBody evolving_runs .undefined body args) h

theorem evolves_runJob {j : Job} {failure : Option EngineValue}
    (h : m.runJob j = some (failure, m')) : m.Evolves m' := by
  obtain ⟨r, hr, hrun⟩ := Option.map_eq_some_iff.1 h
  cases hrun
  exact evolving_runJob j m r hr

end Machine

/-! ## Engines -/

/-- Whatever the engine does, the machine evolves. -/
structure Engine.Evolving (e : Engine) : Prop where
  run {m m' : Machine} {script : Script} {c : Completion} :
    e.run m script = some (c, m') → m.Evolves m'
  call {m m' : Machine} {body : FunctionBody} {args : List EngineValue} {c : Completion} :
    e.call m body args = some (c, m') → m.Evolves m'
  runJob {m m' : Machine} {j : Job} {failure : Option EngineValue} :
    e.runJob m j = some (failure, m') → m.Evolves m'

theorem Engine.evolving_interpreter : interpreter.Evolving where
  run := Machine.evolves_run
  call := Machine.evolves_call
  runJob := Machine.evolves_runJob

end HostBridge
