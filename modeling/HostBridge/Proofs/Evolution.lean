import Mathlib.Logic.Relation
import HostBridge.Proofs.RoundTrip
import HostBridge.Script.Method

/-!
# How a machine changes

Whatever runs on a machine, a script, a function or a job, changes it in a few ways only. They are
listed once (`Machine.Change`): jobs are put at the end of the queue, promises are settled, left to
another object or given a reaction, and everything else leaves the queue, the reports on promises
and the number of unhandled rejections as they are. A machine evolves into another
(`Machine.Evolves`) by any number of such changes.

This module shows it for the operations of the machine that run no code of scripts: settling
promises, attaching functions to them and making objects. What is true of every change is then true
of everything that can happen to a machine.
-/

namespace HostBridge

/-! ## Promises on the heap -/

namespace Node

/-- The promise that an object is. -/
def promise? (n : Node) : Option PromiseState :=
  match n.kind with
  | .promise p => some p
  | _ => none

/-- The object is a promise that is rejected with no handler attached so far. -/
def isUnhandled (n : Node) : Bool := n.promise?.any PromiseState.isUnhandled

theorem isUnhandled_of_promise?_eq {n n' : Node} (h : n'.promise? = n.promise?) :
    n'.isUnhandled = n.isUnhandled := by
  rw [isUnhandled, isUnhandled, h]

@[simp]
theorem promise?_define (n : Node) (name : EngineText) (p : Property) :
    (n.define name p).promise? = n.promise? := by
  rcases n with ⟨kind, props, parent⟩
  unfold define
  split
  · next hkind _ =>
    cases hkind
    split <;> rfl
  · rfl

@[simp]
theorem promise?_without (n : Node) (name : EngineText) :
    (n.without name).promise? = n.promise? := by
  rcases n with ⟨kind, props, parent⟩
  unfold without
  split
  · next hkind _ =>
    cases hkind
    rfl
  · rfl

@[simp]
theorem promise?_push (n : Node) (v : EngineValue) : (n.push v).promise? = n.promise? := by
  rcases n with ⟨kind, props, parent⟩
  unfold push
  split
  · next hkind =>
    cases hkind
    split
    · rfl
    · exact promise?_define ..
  · rfl

/-- Changing an object again and again, each time to one that is the same promise, or is none as
before. -/
theorem promise?_foldl {α : Type} {f : Node → α → Node} (hf : ∀ n x, (f n x).promise? = n.promise?)
    (xs : List α) (n : Node) : (xs.foldl f n).promise? = n.promise? := by
  induction xs generalizing n with
  | nil => rfl
  | cons x xs ih => exact (ih _).trans (hf n x)

end Node

namespace Heap

theorem promise?_eq (h : Heap) (id : Nat) : h.promise? id = (h.node id).promise? := rfl

theorem unhandled_eq_countP (h : Heap) : h.unhandled = h.nodes.countP Node.isUnhandled := by
  rw [← Array.countP_toList, List.countP_eq_length_filter]
  unfold unhandled
  congr 2
  funext n
  unfold Node.isUnhandled Node.promise?
  cases n.kind <;> rfl

/-- No standard object is a promise. -/
theorem promise?_standard (s : Standard) : s.node.promise? = none := by
  cases s <;> rfl

/-- Only numbers that were given out stand for promises. -/
theorem exists_of_promise? {h : Heap} {id : Nat} {p : PromiseState} (hp : h.promise? id = some p) :
    ¬ id < Standard.count ∧ ∃ hi : id - Standard.count < h.nodes.size,
      h.nodes[id - Standard.count].promise? = some p := by
  rw [promise?_eq, node] at hp
  split at hp
  · cases hs : Standard.all[id]? with
    | none =>
      rw [hs] at hp
      cases hp
    | some s =>
      rw [hs] at hp
      cases (promise?_standard s).symm.trans hp
  · next hid =>
    refine ⟨hid, ?_⟩
    rw [Array.getD] at hp
    split at hp
    · next hi => exact ⟨hi, hp⟩
    · cases hp

theorem unhandled_alloc {h : Heap} {n : Node} (hn : n.isUnhandled = false) :
    (h.alloc n).2.unhandled = h.unhandled := by
  rw [unhandled_eq_countP, unhandled_eq_countP, alloc, Array.countP_push, hn]
  rfl

/-- Adding an object puts it under the next number. -/
theorem node_alloc (h : Heap) (n : Node) (id : Nat) :
    (h.alloc n).2.node id = if id = h.next then n else h.node id := by
  rw [alloc, node, node, next]
  by_cases hid : id < Standard.count
  · rw [if_pos hid, if_pos hid, if_neg (by omega)]
  · rw [if_neg hid, if_neg hid, Array.getD_eq_getD_getElem?, Array.getElem?_push,
      Array.getD_eq_getD_getElem?]
    by_cases hnext : id = Standard.count + h.nodes.size
    · rw [if_pos (by omega), if_pos hnext]
      rfl
    · rw [if_neg (by omega), if_neg hnext]

/-- Promises that are there stay as they are when an object is added. -/
theorem promise?_alloc {h : Heap} {id : Nat} {p : PromiseState} (hp : h.promise? id = some p)
    (n : Node) : (h.alloc n).2.promise? id = some p := by
  obtain ⟨hid, hi, -⟩ := exists_of_promise? hp
  rw [promise?_eq, node_alloc, if_neg]
  · exact hp
  · rw [next]
    omega

/-- An object that is no promise makes none. -/
theorem promise?_alloc_of_eq_none {n : Node} (hn : n.promise? = none) (h : Heap) (id : Nat) :
    (h.alloc n).2.promise? id = h.promise? id := by
  rw [promise?_eq, promise?_eq, node_alloc]
  split
  · next hid =>
    rw [hn, hid, node, if_neg (by rw [next]; omega), Array.getD, dif_neg (by rw [next]; omega)]
    rfl
  · rfl

/-- Changing the object with a number changes the count by what it and the new one contribute. -/
theorem unhandled_update {h : Heap} {id : Nat} (hid : ¬ id < Standard.count)
    (hi : id - Standard.count < h.nodes.size) (n : Node) :
    (h.update id n).unhandled + (if h.nodes[id - Standard.count].isUnhandled then 1 else 0) =
      h.unhandled + if n.isUnhandled then 1 else 0 := by
  have hle : (if h.nodes[id - Standard.count].isUnhandled then 1 else 0) ≤
      h.nodes.countP Node.isUnhandled := by
    split
    · next hu => exact Array.countP_pos_iff.2 ⟨_, Array.getElem_mem hi, hu⟩
    · exact Nat.zero_le _
  rw [unhandled_eq_countP, unhandled_eq_countP, update, if_neg hid, Array.setIfInBounds, dif_pos hi,
    Array.countP_set]
  omega

/-- An object that is the same promise, or is none as before, changes nothing in the count. -/
theorem unhandled_update_of_promise? {h : Heap} {id : Nat} {n : Node}
    (hn : n.promise? = (h.node id).promise?) : (h.update id n).unhandled = h.unhandled := by
  by_cases hid : id < Standard.count
  · rw [update, if_pos hid]
  by_cases hi : id - Standard.count < h.nodes.size
  · have hnode : h.node id = h.nodes[id - Standard.count] := by
      rw [node, if_neg hid, Array.getD, dif_pos hi]
      rfl
    have hu := unhandled_update hid hi n
    rw [← hnode, Node.isUnhandled_of_promise?_eq hn] at hu
    exact Nat.add_right_cancel hu
  · rw [update, if_neg hid, Array.setIfInBounds, dif_neg hi]

/-- A promise in another state. -/
theorem unhandled_setPromise {h : Heap} {id : Nat} {p : PromiseState} (hp : h.promise? id = some p)
    (q : PromiseState) :
    (h.setPromise id q).unhandled + (if p.isUnhandled then 1 else 0) =
      h.unhandled + if q.isUnhandled then 1 else 0 := by
  obtain ⟨hid, hi, hn⟩ := exists_of_promise? hp
  have hu := unhandled_update hid hi { h.node id with kind := .promise q }
  rw [show h.nodes[id - Standard.count].isUnhandled = p.isUnhandled by
    rw [Node.isUnhandled, hn]; rfl] at hu
  exact hu

/-! ### What leaves the count alone -/

theorem promise?_define (h : Heap) (n : Node) (name : EngineText) (p : Property) :
    (h.define n name p).promise? = n.promise? := by
  rcases n with ⟨kind, props, parent⟩
  unfold define
  split
  · next hkind _ _ =>
    cases hkind
    rfl
  · exact Node.promise?_define ..

theorem setParent_keeps (h : Heap) (n : Node) (v : EngineValue) :
    (h.setParent n v).1.promise? = n.promise? ∧ (h.setParent n v).2.unhandled = h.unhandled ∧
      ∀ id, (h.setParent n v).2.promise? id = h.promise? id := by
  unfold setParent
  split
  · exact ⟨rfl, rfl, fun _ => rfl⟩
  · exact ⟨rfl, rfl, fun _ => rfl⟩
  · exact ⟨rfl, unhandled_alloc rfl, promise?_alloc_of_eq_none rfl h⟩
  · exact ⟨rfl, rfl, fun _ => rfl⟩

theorem assign_keeps {h h' : Heap} {n n' : Node} {name : EngineText} {v : EngineValue}
    (ha : h.assign n name v = .ok (n', h')) :
    n'.promise? = n.promise? ∧ h'.unhandled = h.unhandled ∧
      ∀ id, h'.promise? id = h.promise? id := by
  unfold assign at ha
  split at ha
  · cases ha
    exact ⟨rfl, rfl, fun _ => rfl⟩
  · split at ha
    · cases ha
      exact ⟨rfl, rfl, fun _ => rfl⟩
    · cases ha
    · cases ha
  · split at ha
    · have hset := Except.ok.inj ha
      have hkeeps := setParent_keeps h n v
      rw [hset] at hkeeps
      exact hkeeps
    · cases ha
    · cases ha
  · split at ha
    · cases ha
      exact ⟨rfl, rfl, fun _ => rfl⟩
    · cases ha

theorem unhandled_toObject (h : Heap) (v : EngineValue) :
    (h.toObject v).2.unhandled = h.unhandled := by
  unfold toObject
  split
  · exact unhandled_alloc rfl
  · exact unhandled_alloc rfl
  · exact unhandled_alloc rfl
  · split
    · exact unhandled_alloc rfl
    · rfl

theorem unhandled_toArray (h : Heap) (args : List EngineValue) :
    (h.toArray args).2.unhandled = h.unhandled := by
  unfold toArray
  split
  · split
    · exact unhandled_alloc rfl
    · rfl
  · split
    · split
      · exact unhandled_alloc rfl
      · rfl
    · rfl
  · exact unhandled_alloc rfl

theorem isUnhandled_toRegexp {h : Heap} {source flags : EngineValue} {kind : NodeKind}
    (hk : h.toRegexp source flags = .ok kind) : ({ kind } : Node).isUnhandled = false := by
  unfold toRegexp at hk
  simp only [bind, Except.bind] at hk
  split at hk
  · cases hk
  split at hk
  · cases hk
  split at hk
  · cases hk
    rfl
  · cases hk

/-- Functions of the engine make no promises. -/
theorem unhandled_callNative (h : Heap) (f : Native) (args : List EngineValue) :
    (h.callNative f args).2.unhandled = h.unhandled := by
  unfold callNative
  dsimp only
  split <;> try rfl
  · exact unhandled_toObject ..
  · exact unhandled_toArray ..
  · split
    · next hk => exact unhandled_alloc (isUnhandled_toRegexp hk)
    · rfl
  · split
    · rfl
    · exact unhandled_alloc rfl
  · exact unhandled_alloc rfl

/-! ### Copying in -/

mutual

theorem unhandled_copyIn : (h : Heap) → (v : Value) → (h.copyIn v).2.unhandled = h.unhandled
  | h, .array items => by
    rw [copyIn]
    exact (unhandled_alloc rfl).trans (unhandled_copyInItems h items)
  | h, .object entries => by
    obtain ⟨hn, hu⟩ := copyInEntries_keeps h {} entries
    rw [copyIn]
    exact (unhandled_alloc (Node.isUnhandled_of_promise?_eq hn)).trans hu
  | h, .undefined | h, .sealed _ | h, .null | h, .bool _ | h, .int _ | h, .float _
  | h, .text _ => by rw [copyIn]

theorem unhandled_copyInItems : (h : Heap) → (vs : List Value) →
    (h.copyInItems vs).2.unhandled = h.unhandled
  | h, [] => rfl
  | h, v :: vs => by
    rw [copyInItems]
    exact (unhandled_copyInItems _ vs).trans (unhandled_copyIn h v)

theorem copyInEntries_keeps : (h : Heap) → (n : Node) → (es : List (String × Value)) →
    (h.copyInEntries n es).1.promise? = n.promise? ∧
      (h.copyInEntries n es).2.unhandled = h.unhandled
  | h, n, [] => ⟨rfl, rfl⟩
  | h, n, (name, v) :: es => by
    obtain ⟨hn, hu⟩ := copyInEntries_keeps (h.copyIn v).2 (enter n name (h.copyIn v).1) es
    rw [copyInEntries]
    refine ⟨hn.trans ?_, hu.trans (unhandled_copyIn h v)⟩
    unfold Node.promise?
    rw [kind_enter]

end

end Heap

/-! ## Changes -/

namespace Machine

/-- The second machine differs from the first in what concerns neither jobs nor promises. -/
structure Quiet (m m' : Machine) : Prop where
  jobs : m'.jobs = m.jobs
  waiting : m'.waiting = m.waiting
  rejections : m'.rejections = m.rejections
  unhandled : m'.heap.unhandled = m.heap.unhandled
  globals : m'.globals.isUnhandled = m.globals.isUnhandled

namespace Quiet

variable {m m' m'' : Machine}

theorem refl (m : Machine) : m.Quiet m := ⟨rfl, rfl, rfl, rfl, rfl⟩

theorem trans (h : m.Quiet m') (h' : m'.Quiet m'') : m.Quiet m'' where
  jobs := h'.jobs.trans h.jobs
  waiting := h'.waiting.trans h.waiting
  rejections := h'.rejections.trans h.rejections
  unhandled := h'.unhandled.trans h.unhandled
  globals := h'.globals.trans h.globals

/-- Another heap with as many unhandled rejections. -/
theorem heap {h : Heap} (hu : h.unhandled = m.heap.unhandled) : m.Quiet { m with heap := h } :=
  ⟨rfl, rfl, rfl, hu, rfl⟩

theorem store {name : EngineText} {v : EngineValue} (h : m.store name v = .ok m') :
    m.Quiet m' := by
  unfold Machine.store at h
  cases ha : m.heap.assign m.globals name v with
  | error e =>
    rw [ha] at h
    cases h
  | ok r =>
    rw [ha] at h
    cases h
    obtain ⟨hn, hu, -⟩ := Heap.assign_keeps ha
    exact ⟨rfl, rfl, rfl, hu, Node.isUnhandled_of_promise?_eq hn⟩

end Quiet

/-- One change of a machine. -/
inductive Change : Machine → Machine → Prop
  | quiet {m m' : Machine} (h : m.Quiet m') : Change m m'
  /-- The global object as it is now is put on the heap. -/
  | share (m : Machine) : Change m (m.alloc m.globals).2
  /-- A function is queued as a job of its own. -/
  | queue (m : Machine) (body : FunctionBody) : Change m (m.queue body)
  | settle (m : Machine) (id : Nat) (s : Settlement) : Change m (m.settle id s)
  | leave {m : Machine} {id : Nat} {p : PromiseState} (hp : m.heap.promise? id = some p)
      (v : EngineValue) (body : FunctionBody) : Change m (m.leave id p v body)
  | react {m : Machine} {id : Nat} {p : PromiseState} (hp : m.heap.promise? id = some p)
      (r : Reaction) : Change m (m.react id p r)

/-- The second machine comes from the first by changes. -/
def Evolves : Machine → Machine → Prop := Relation.ReflTransGen Change

theorem Change.evolves {m m' : Machine} (h : Change m m') : m.Evolves m' := .single h

namespace Evolves

variable {m m' m'' : Machine}

@[refl]
theorem refl (m : Machine) : m.Evolves m := Relation.ReflTransGen.refl

theorem trans (h : m.Evolves m') (h' : m'.Evolves m'') : m.Evolves m'' :=
  Relation.ReflTransGen.trans h h'

/-- What is true of a machine and itself, and goes from one change to the next, is true of whatever
a machine evolves into. -/
theorem induct {R : Machine → Machine → Prop} (refl : ∀ m, R m m)
    (trans : ∀ {m m' m''}, R m m' → R m' m'' → R m m'') (change : ∀ {m m'}, Change m m' → R m m')
    (h : m.Evolves m') : R m m' := by
  induction h with
  | refl => exact refl m
  | tail _ step ih => exact trans ih (change step)

theorem heap {h : Heap} (hu : h.unhandled = m.heap.unhandled) : m.Evolves { m with heap := h } :=
  Change.evolves (.quiet (.heap hu))

theorem update {id : Nat} {n : Node} (hn : n.promise? = (m.heap.node id).promise?) :
    m.Evolves { m with heap := m.heap.update id n } :=
  heap (Heap.unhandled_update_of_promise? hn)

theorem alloc (m : Machine) {n : Node} (hn : n.isUnhandled = false) : m.Evolves (m.alloc n).2 :=
  heap (Heap.unhandled_alloc hn)

/-- Other variables under other names. -/
theorem names (m : Machine) (cells : Array Variable) (names outermost : List (String × Nat)) :
    m.Evolves { m with cells, names, outermost } :=
  Change.evolves (.quiet ⟨rfl, rfl, rfl, rfl, rfl⟩)

end Evolves

theorem evolves_logTag (m : Machine) (h : Handler) : m.Evolves (m.logTag h) :=
  Change.evolves (.quiet ⟨rfl, rfl, rfl, rfl, rfl⟩)

theorem evolves_store {m m' : Machine} {name : EngineText} {v : EngineValue}
    (h : m.store name v = .ok m') : m.Evolves m' :=
  Change.evolves (.quiet (.store h))

theorem evolves_renew (m : Machine) (name : String) : m.Evolves (m.renew name) := by
  unfold renew
  split
  · exact .names m _ _ _
  · exact .refl m

/-! ## Promises -/

theorem evolves_resolve (m : Machine) (id pledges : Nat) (s : Settlement) :
    m.Evolves (m.resolve id pledges s) := by
  unfold resolve
  split
  · exact .refl m
  · next p hp =>
    split
    · split
      · exact (Change.settle ..).evolves
      · split
        · exact (Change.settle ..).evolves
        · split
          · exact (Change.leave hp ..).evolves
          · exact (Change.settle ..).evolves
    · exact .refl m

theorem evolves_settled (m : Machine) (s : Settlement) : m.Evolves (m.settled s).2 :=
  (Evolves.alloc m rfl).trans (evolves_resolve ..)

theorem evolves_promiseFor (m : Machine) (s : Settlement) : m.Evolves (m.promiseFor s).2 := by
  unfold promiseFor
  dsimp only
  split
  · split
    · split
      · exact .refl m
      · exact .refl m
      · exact evolves_settled m (.fulfilled (.ref _))
    · exact evolves_settled m (.fulfilled (.ref _))
  · exact evolves_settled m s

theorem evolves_attach (m : Machine) (v : EngineValue)
    (fulfilment rejection : Option FunctionBody) :
    m.Evolves (m.attach v fulfilment rejection).2 := by
  unfold attach
  dsimp only
  split
  · split
    · next hp _ =>
      exact (Evolves.alloc m rfl).trans (Change.react (Heap.promise?_alloc hp _) _).evolves
    · exact .refl m
    · exact .refl m
  · exact .refl m

theorem evolves_follow (m : Machine) (id pledges other : Nat) :
    m.Evolves (m.follow id pledges other) := by
  unfold follow
  split
  · next hp _ => exact (Change.react hp _).evolves
  · exact evolves_resolve ..
  · exact evolves_resolve ..

/-! ## Objects -/

theorem evolves_keys (m : Machine) (v : EngineValue) : m.Evolves (m.keys v).2 := by
  unfold keys
  split
  · exact .refl m
  · exact .alloc m rfl

theorem evolves_push (m : Machine) (id length : Nat) (args : List EngineValue) :
    m.Evolves (m.push id length args).2 :=
  .update (Node.promise?_foldl Node.promise?_push args _)

theorem evolves_withHeap (m : Machine) (f : Native) (args : List EngineValue) :
    m.Evolves (m.withHeap (m.heap.callNative f args)).2 :=
  .heap (Heap.unhandled_callNative ..)

theorem evolves_constructNative (m : Machine) (name : String) (parameters : Nat)
    (args : List EngineValue) : m.Evolves (m.constructNative name parameters args).2 := by
  unfold constructNative
  dsimp only
  split
  case h_6 | h_7 => exact .refl m
  case h_8 =>
    split
    · exact .alloc m rfl
    · split
      · exact .alloc m rfl
      · exact .refl m
  case h_9 | h_10 => exact .alloc m rfl
  case h_11 =>
    split
    · exact .alloc m rfl
    · exact .refl m
    · exact .refl m
  case h_12 =>
    split
    · exact evolves_withHeap ..
    · split
      · exact .alloc m rfl
      · exact .refl m
  all_goals exact evolves_withHeap ..

end Machine

end HostBridge
