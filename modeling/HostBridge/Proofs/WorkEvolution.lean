import HostBridge.Proofs.Evolution

/-!
# How work changes a machine

Work on a machine answers or throws, or never comes to an end. Whatever it does, if it comes to an
end the machine has evolved (`Script.Work.Evolving`): the primitive pieces of work do so, and
putting pieces together keeps it, also when work is done again and again.

A function that a script wrote is called through a runner, so calls do so as well if what the runner
runs does (`Script.Runner.Evolving`).
-/

namespace HostBridge.Script

namespace Work

variable {α β : Type}

/-! ## Running pieces of work -/

theorem run_bind (a : Work α) (f : α → Work β) (m : Machine) :
    (a >>= f).run m = (a.run m).bind fun r =>
      match r.1 with
      | .ok x => (f x).run r.2
      | .error e => some (.error e, r.2) := by
  rw [ExceptT.run_bind]
  change StateT.bind a.run _ m = _
  rw [StateT.bind]
  congr 1
  funext r
  rcases r with ⟨e | x, m'⟩ <;> rfl

theorem run_tryCatch (a : Work α) (f : EngineValue → Work α) (m : Machine) :
    (tryCatch a f).run m = (a.run m).bind fun r =>
      match r.1 with
      | .ok x => some (.ok x, r.2)
      | .error e => (f e).run r.2 := by
  change (ExceptT.tryCatch a f).run m = _
  rw [ExceptT.tryCatch, ExceptT.run_mk]
  change StateT.bind a.run _ m = _
  rw [StateT.bind]
  congr 1
  funext r
  rcases r with ⟨e | x, m'⟩ <;> rfl

theorem run_ofExcept (x : Except EngineValue α) (m : Machine) :
    (ofExcept x : Work α).run m = some (x, m) := by
  cases x <;> rfl

theorem run_ofRun (f : Machine → Completion × Machine) (m : Machine) :
    ∃ x, (ofRun f).run m = some (x, (f m).2) := by
  rw [ofRun, ExceptT.run_mk]
  rcases f m with ⟨v | e, m'⟩
  · exact ⟨_, rfl⟩
  · exact ⟨_, rfl⟩

/-! ## Work under which machines evolve -/

/-- A machine on which the work is done evolves, if the work ends, and what it answers has a
property. -/
def Yields (P : α → Prop) (a : Work α) : Prop :=
  ∀ (m : Machine) r, a.run m = some r → m.Evolves r.2 ∧ ∀ x, r.1 = .ok x → P x

/-- This machine evolves when the work is done on it, if the work ends. -/
def EvolvingOn (m : Machine) (a : Work α) : Prop := ∀ r, a.run m = some r → m.Evolves r.2

/-- Every machine evolves when the work is done on it, if the work ends. -/
def Evolving (a : Work α) : Prop := ∀ m, a.EvolvingOn m

theorem Evolving.yields {a : Work α} (h : a.Evolving) : a.Yields fun _ => True :=
  fun m r hr => ⟨h m r hr, fun _ _ => trivial⟩

theorem Yields.evolving {P : α → Prop} {a : Work α} (h : a.Yields P) : a.Evolving :=
  fun m r hr => (h m r hr).1

namespace EvolvingOn

variable {a : Work α} {m m' : Machine} {x : Except EngineValue α}

/-- Work whose end is known. -/
theorem of_run (h : a.run m = some (x, m')) (hm : m.Evolves m') : a.EvolvingOn m := by
  intro r hr
  cases h.symm.trans hr
  exact hm

/-- Work that leaves the machine as it is. -/
theorem still (h : a.run m = some (x, m)) : a.EvolvingOn m := of_run h (.refl m)

end EvolvingOn

theorem Yields.pure {P : α → Prop} {x : α} (hx : P x) : Yields P (pure x) := by
  rintro m r ⟨⟩
  refine ⟨.refl m, ?_⟩
  rintro y ⟨⟩
  exact hx

theorem Yields.bind {P : α → Prop} {Q : β → Prop} {a : Work α} {f : α → Work β} (ha : a.Yields P)
    (hf : ∀ x, P x → (f x).Yields Q) : Yields Q (a >>= f) := by
  intro m r hr
  rw [run_bind] at hr
  obtain ⟨⟨y, m'⟩, hrun, hr⟩ := Option.bind_eq_some_iff.1 hr
  obtain ⟨hm, hP⟩ := ha m _ hrun
  cases y with
  | error e =>
    cases hr
    refine ⟨hm, ?_⟩
    rintro x ⟨⟩
  | ok x =>
    obtain ⟨hm', hQ⟩ := hf x (hP x rfl) m' r hr
    exact ⟨hm.trans hm', hQ⟩

namespace Evolving

theorem bind {a : Work α} {f : α → Work β} (ha : a.Evolving) (hf : ∀ x, (f x).Evolving) :
    Evolving (a >>= f) :=
  (ha.yields.bind fun x _ => (hf x).yields).evolving

theorem pure (x : α) : Evolving (pure x) := fun _ => .still rfl

theorem throw (e : EngineValue) : Evolving (throw e : Work α) := fun _ => .still rfl

theorem refuse (message : String) : Evolving (refuse message : Work α) := .throw _

theorem ite {c : Prop} [Decidable c] {a b : Work α} (ha : a.Evolving) (hb : b.Evolving) :
    Evolving (if c then a else b) := by
  split
  · exact ha
  · exact hb

theorem ofExcept (x : Except EngineValue α) : Evolving (ofExcept x) :=
  fun m => .still (run_ofExcept x m)

/-- Work that looks at the machine first. -/
theorem get_bind {f : Machine → Work α} (h : ∀ m, (f m).EvolvingOn m) : Evolving (get >>= f) := h

theorem modify {g : Machine → Machine} (hg : ∀ m : Machine, m.Evolves (g m)) :
    Evolving (modify g) :=
  fun m => .of_run rfl (hg m)

theorem ofRun {f : Machine → Completion × Machine} (hf : ∀ m : Machine, m.Evolves (f m).2) :
    Evolving (ofRun f) := by
  intro m
  obtain ⟨x, hx⟩ := run_ofRun f m
  exact .of_run hx (hf m)

theorem tryCatch {a : Work α} {f : EngineValue → Work α} (ha : a.Evolving)
    (hf : ∀ e, (f e).Evolving) : Evolving (tryCatch a f) := by
  intro m r hr
  rw [run_tryCatch] at hr
  obtain ⟨⟨y, m'⟩, hrun, hr⟩ := Option.bind_eq_some_iff.1 hr
  have hm := ha m _ hrun
  cases y with
  | error e => exact hm.trans (hf e m' r hr)
  | ok x =>
    cases hr
    exact hm

theorem attempt {a : Work α} (ha : a.Evolving) : Evolving (attempt a) := by
  intro m r hr
  obtain ⟨s, hs, rfl⟩ := Option.map_eq_some_iff.1 hr
  exact ha m s hs

/-- A verdict on work is about the machine that the work leaves. -/
theorem machine_verdict {r : Except EngineValue (β ⊕ α) × Machine} :
    (∀ s, verdict r = .inl s → s.2 = r.2) ∧ ∀ s, verdict r = .inr s → s.2 = r.2 := by
  obtain ⟨_ | _ | _, m⟩ := r <;> simp [verdict]

/-- Work that is done again and again, by induction on the times. -/
theorem again {a : β → Work (β ⊕ α)} (ha : ∀ b, (a b).Evolving) (b : β) :
    Evolving (again a b) := by
  have hleads {s : β × Machine} {r : Except EngineValue α × Machine}
      (h : Loop.Leads (fun s => ((a s.1).run s.2).map verdict) s r) : s.2.Evolves r.2 := by
    induction h with
    | answers h =>
      obtain ⟨t, hrun, hverdict⟩ := Option.map_eq_some_iff.1 h
      rw [machine_verdict.2 _ hverdict]
      exact ha _ _ t hrun
    | goes h _ ih =>
      obtain ⟨t, hrun, hverdict⟩ := Option.map_eq_some_iff.1 h
      rw [machine_verdict.1 _ hverdict] at ih
      exact (ha _ _ t hrun).trans ih
  exact fun m r hr => hleads (Loop.run_eq_some_iff.1 hr)

theorem mapM {f : α → Work β} (hf : ∀ x, (f x).Evolving) (xs : List α) :
    Evolving (xs.mapM f) := by
  induction xs with
  | nil => exact .pure []
  | cons x xs ih =>
    rw [List.mapM_cons]
    exact (hf x).bind fun y => ih.bind fun ys => .pure (y :: ys)

theorem ask (f : Heap → Except EngineValue α) : Evolving (ask f) :=
  get_bind fun m => Evolving.ofExcept (f m.heap) m

theorem make {n : Node} (hn : n.isUnhandled = false) : Evolving (make n) :=
  fun m => .of_run rfl (.alloc m hn)

theorem inScope {a : Work α} (ha : a.Evolving) (names : List (String × Nat))
    (new : List (String × Variable)) : Evolving (inScope names new a) := by
  intro m r hr
  obtain ⟨s, hs, rfl⟩ := Option.map_eq_some_iff.1 hr
  exact ((Machine.Evolves.names m _ _ _).trans (ha _ s hs)).trans (.names _ _ _ _)

theorem withNames {a : Work α} (ha : a.Evolving) (new : List (String × Variable)) :
    Evolving (withNames new a) :=
  get_bind fun m => ha.inScope m.names new m

end Evolving

/-! ## Properties and names -/

theorem evolving_bodyOf? (f : EngineValue) : Evolving (bodyOf? f) := fun _ => .still rfl

theorem evolving_readProperty (access : Machine.Access) (v : EngineValue) (name : EngineText) :
    Evolving (readProperty access v name) :=
  .ofRun .refl

theorem evolving_readGlobal (name : EngineText) : Evolving (readGlobal name) := .ofRun .refl

theorem evolving_globalObject : Evolving globalObject :=
  fun m => .of_run rfl (Machine.Change.share m).evolves

theorem evolving_writeGlobal (name : EngineText) (v : EngineValue) :
    Evolving (writeGlobal name v) := by
  refine .get_bind fun m => ?_
  cases hs : m.store name v with
  | error e => exact .still rfl
  | ok m' => exact .of_run rfl (Machine.evolves_store hs)

theorem evolving_write (target : EngineValue) (name : EngineText) (v : EngineValue) :
    Evolving (write target name v) := by
  refine .get_bind fun m => ?_
  split
  · exact .still rfl
  · exact .still rfl
  · dsimp only
    split
    · exact .of_run rfl (.update (Heap.promise?_define ..))
    · exact .of_run rfl (.update (Heap.promise?_define ..))
    · next id _ _ _ _ =>
      cases ha : m.heap.assign (m.heap.node id) name v with
      | error e => exact .still rfl
      | ok r =>
        obtain ⟨hn, hu, hsame⟩ := Heap.assign_keeps ha
        exact .of_run rfl ((Machine.Evolves.heap hu).trans (.update (hn.trans (hsame id).symm)))
  · exact .still rfl
  · exact .still rfl
  · exact .still rfl

theorem evolving_remove (target : EngineValue) (name : EngineText) :
    Evolving (remove target name) := by
  refine .get_bind fun m => ?_
  split
  · exact .still rfl
  · exact .still rfl
  · exact .of_run rfl (.update (Node.promise?_without ..))
  · exact .still rfl

theorem evolving_removeGlobal (name : EngineText) : Evolving (removeGlobal name) :=
  fun _ => .of_run rfl (Machine.Change.evolves
    (.quiet ⟨rfl, rfl, rfl, rfl, Node.isUnhandled_of_promise?_eq (Node.promise?_without ..)⟩))

theorem evolving_lookup (name : String) : Evolving (lookup name) := by
  refine .get_bind fun m => ?_
  split
  · split
    · exact .still rfl
    · exact .still rfl
  · split
    · split
      · exact evolving_globalObject m
      · exact .still rfl
    · exact evolving_readGlobal name m

theorem evolving_isKnown (name : String) : Evolving (isKnown name) := by
  refine .get_bind fun m => ?_
  split
  · exact .still rfl
  · exact .still rfl

theorem evolving_isGlobalObject (e : Expr) : Evolving (isGlobalObject e) := by
  unfold isGlobalObject
  split
  · exact fun _ => .still rfl
  · exact .pure _

theorem evolving_assignName (name : String) (v : EngineValue) : Evolving (assignName name v) := by
  refine .get_bind fun m => ?_
  split
  · dsimp only
    split
    · exact .still rfl
    · exact .still rfl
    · exact .of_run rfl (.names m _ _ _)
  · split
    · exact .still rfl
    · exact evolving_writeGlobal name v m

theorem evolving_declare (kind : Declaration) (name : String) (v : EngineValue) :
    Evolving (declare kind name v) := by
  refine .get_bind fun m => ?_
  split
  · split
    · exact .of_run rfl (.names m _ _ _)
    · exact .still rfl
  all_goals
    split
    · exact .of_run rfl (.names m _ _ _)
    · exact evolving_writeGlobal name v m

theorem evolving_declareGlobals (names : List String) : Evolving (declareGlobals names) :=
  .get_bind fun _ => .of_run rfl (Machine.Change.evolves (.quiet ⟨rfl, rfl, rfl, rfl,
    Node.isUnhandled_of_promise?_eq (Node.promise?_foldl (fun n x => n.promise?_define x _) _ _)⟩))

theorem evolving_declareNames (body : List Code) : Evolving (declareNames body) := by
  refine .get_bind fun m => ?_
  dsimp only
  split
  · exact .still rfl
  · split
    · exact .still rfl
    · exact (evolving_declareGlobals _).bind (fun _ => .modify fun m => .names m _ _ _) m

end Work

open Work

/-! ## Calls -/

/-- Every machine evolves when the runner runs code on it, if that ends. -/
def Runner.Evolving (runs : Runner) : Prop := ∀ names new body, Work.Evolving (runs names new body)

variable {runs : Runner} (hruns : runs.Evolving)

include hruns

theorem evolving_runSource (direct : Bool) (source : String) :
    Evolving (runSource runs direct source) := by
  unfold runSource
  split
  · exact .refuse _
  · refine .ite (.get_bind fun m => ?_) ((evolving_declareGlobals _).bind fun _ => ?_)
    · exact (hruns _ _ _).bind (fun ending => .pure ending.result) m
    · exact (hruns _ _ _).bind fun ending => .pure ending.result

theorem evolving_runText (direct : Bool) (t : EngineText) : Evolving (runText runs direct t) := by
  unfold runText
  split
  · exact evolving_runSource hruns direct _
  · exact .refuse _

theorem evolving_callNative (receiver : EngineValue) (f : Native) (args : List EngineValue) :
    Evolving (callNative runs receiver f args) := by
  have halone (f : Native) :
      Evolving (ofRun fun m => m.withHeap (m.heap.callNative f args)) :=
    .ofRun fun m => m.evolves_withHeap f args
  unfold callNative
  dsimp only
  split
  · refine (evolving_bodyOf? _).bind fun body => ?_
    split
    · exact (Evolving.modify fun m => (Machine.Change.queue m _).evolves).bind fun _ => .pure _
    · exact .refuse _
  · split
    · exact evolving_runText hruns false _
    · exact .pure _
  · exact .refuse _
  · exact halone _
  · exact (evolving_bodyOf? _).bind fun fulfilment => (evolving_bodyOf? _).bind fun rejection =>
      .ofRun fun m => m.evolves_attach receiver fulfilment rejection
  · exact .ofRun fun m => m.evolves_promiseFor _
  · exact .ofRun fun m => m.evolves_promiseFor _
  · exact .pure _
  · exact halone _
  · exact .ask _
  · refine .get_bind fun m => ?_
    split
    · next length _ => exact Evolving.ofRun (fun m => m.evolves_push _ length args) m
    · exact halone _ m
  · split
    · exact .pure _
    · exact halone _
  · exact .ask _

theorem evolving_callAlone (receiver : EngineValue) (body : FunctionBody)
    (args : List EngineValue) : Evolving (callAlone runs receiver body args) := by
  unfold callAlone
  cases body with
  | closure c => exact (hruns _ _ _).bind fun ending => .pure ending.value
  | identity | count | one => exact .pure _
  | arguments => exact .make rfl
  | throw => exact .throw _
  | typeof => exact .ask _
  | keys => exact .ofRun fun m => m.evolves_keys _
  | reject => exact .ofRun fun m => m.evolves_settled (.rejected (args.headD .undefined))
  | job => exact .ofRun fun m => (Machine.Change.queue m _).evolves
  | handler h => exact .ofRun fun m => m.evolves_logTag h
  | settle id pledges rejects => exact .ofRun fun m => m.evolves_resolve id pledges _
  | native f => exact evolving_callNative hruns receiver f args
  | classFactory => exact .refuse _

theorem evolving_callBody (receiver : EngineValue) (body : FunctionBody)
    (args : List EngineValue) : Evolving (callBody runs receiver body args) := by
  unfold callBody
  split
  · refine (evolving_readProperty _ _ _).bind fun f => (evolving_bodyOf? f).bind fun body => ?_
    split
    · exact evolving_callAlone hruns _ _ _
    · exact .refuse _
  · exact evolving_callAlone hruns _ _ _

theorem evolving_invoke (receiver f : EngineValue) (args : List EngineValue) :
    Evolving (invoke runs receiver f args) := by
  refine (evolving_bodyOf? f).bind fun body => ?_
  split
  · exact evolving_callBody hruns _ _ _
  · exact .refuse _

omit hruns in
theorem evolving_settlers (id pledges : Nat) : Evolving (settlers id pledges) :=
  (Evolving.make rfl).bind fun _ => (Evolving.make rfl).bind fun _ => .pure _

theorem evolving_entrust (id pledges : Nat) (receiver : EngineValue) (body : FunctionBody) :
    Evolving (entrust runs id pledges receiver body) :=
  ((evolving_settlers id pledges).bind fun fs =>
    (evolving_callBody hruns receiver body fs).bind fun _ => .pure ()).tryCatch
      fun e => .modify fun m => m.evolves_resolve id pledges (.rejected e)

theorem evolving_constructPromise (executor : EngineValue) :
    Evolving (constructPromise runs executor) := by
  refine (evolving_bodyOf? executor).bind fun body => ?_
  split
  · exact .refuse _
  · exact .get_bind fun m => (Evolving.make rfl).bind (fun p =>
      (evolving_entrust hruns _ _ _ _).bind fun _ => .pure p) m

omit hruns in
theorem evolving_inheriting (f : EngineValue) : Evolving (inheriting f) := by
  refine (evolving_readProperty _ _ _).bind fun v => ?_
  split
  · exact .make rfl
  · exact .make rfl

theorem evolving_construct (f : EngineValue) (args : List EngineValue) :
    Evolving (construct runs f args) := by
  refine (evolving_bodyOf? f).bind fun body => ?_
  split
  · exact .refuse _
  · exact evolving_constructPromise hruns _
  · exact .ofRun fun m => m.evolves_constructNative _ _ args
  · exact .refuse _
  · refine .ite ((evolving_inheriting f).bind fun made => ?_) (.refuse _)
    split
    · exact .pure made
    · exact (evolving_callBody hruns _ _ _).bind fun v => .pure _

end HostBridge.Script
