import HostBridge.Host.Vector
import HostBridge.Proofs.Agreement
import HostBridge.Proofs.ForeignReceiver

/-!
# Accesses of vectors

What each access of a vector through the binding of its class does. A component is written only by
writing it with a number (`Bound.set_number`), both only by `scale` with one number
(`Bound.call_scale`), and no access that fails or finds nothing changes either. `Vec2.Accords` says
so of one access, and `Vec2.AccordsAll` of accesses one after the other.
-/

namespace HostBridge

/-! ## Components -/

/-- The components of a vector. -/
inductive Axis where
  | x
  | y
deriving DecidableEq

/-- The name of a component. -/
def Axis.name : Axis → String
  | x => "x"
  | y => "y"

namespace Vec2

/-- A component. -/
def component (v : Vec2) : Axis → Double
  | .x => v.x
  | .y => v.y

/-- The vector with another number as a component. -/
def put (v : Vec2) : Axis → Double → Vec2
  | .x, d => { v with x := d }
  | .y, d => { v with y := d }

/-- The vector with both components multiplied. -/
def scaled (v : Vec2) (factor : Double) : Vec2 := ⟨v.x.mul factor, v.y.mul factor⟩

theorem component_put (v : Vec2) (axis other : Axis) (d : Double) :
    (v.put axis d).component other = if other = axis then d else v.component other := by
  cases axis <;> cases other <;> rfl

/-! ## The tables of the class -/

/-- The field of a component. -/
def field (axis : Axis) : Field HostType where
  name := axis.name
  owner := .vector info
  read v := .float (component v axis)
  write := some (writeComponent fun v d => put v axis d)

/-- The getter `length`. -/
def lengthGetter : Method HostType :=
  Method.getter "length" (HostType.vector info) fun v : Vec2 => .float (Double.hypot v.x v.y)

/-- The method `scale`. -/
def scaleMethod : Method HostType :=
  { name := "scale", arity := .exactly 1, owner := .vector info, body := scale }

/-- The constructor from two numbers. -/
def factory : Constructor HostType :=
  { arity := .exactly 2, owner := .vector info, make := make }

/-- The members that are declared. -/
def members : List (Addition HostType) :=
  [.factory factory, .field (field .x), .field (field .y), .getter lengthGetter,
    .method scaleMethod]

theorem declaration_eq : declaration info = members.map .add := rfl

/-- What they are published as. -/
def description : Description HostType where
  targetClass := .vector info
  mode := .transparent
  constructors := [factory]
  fields := [("x", field .x), ("y", field .y)]
  getters := [("length", [lengthGetter])]
  methods := [("scale", [scaleMethod])]
  keys := ["x", "y", "length", "scale"]

theorem ofLog_members :
    (Builder.ofLog (.vector info) members).toDescription = description := rfl

/-- An instance of the class. -/
abbrev object (v : Vec2) : HostObject := .vector info v

theorem getterOf_description (name : String) :
    firstAccepting ((Record.get? description.getters name).getD []) 0 =
      if name = "length" then some lengthGetter else none := by
  simp only [description, Record.get?, eq_comm (a := name)]
  split <;> rfl

theorem fieldOf_description_name (axis : Axis) :
    Record.get? description.fields axis.name = some (field axis) := by
  cases axis <;> rfl

theorem fieldOf_description {name : String} (h : ∀ axis : Axis, axis.name ≠ name) :
    Record.get? description.fields name = none := by
  have hx : "x" ≠ name := h .x
  have hy : "y" ≠ name := h .y
  simp [description, Record.get?, hx, hy]

theorem methodsOf_description (name : String) :
    Record.get? description.methods name = if name = "scale" then some [scaleMethod] else none := by
  simp only [description, Record.get?, eq_comm (a := name)]

end Vec2

theorem Axis.name_injective : Function.Injective Axis.name := by
  intro a a' h
  cases a <;> cases a' <;> simp_all [name]

theorem Axis.name_ne_length (axis : Axis) : axis.name ≠ "length" := by
  cases axis <;> decide

namespace Args

variable {args : List Value} {i : Nat} {value : Value}

theorem double_of_some (hvalue : args[i]? = some value) {d : Double}
    (hd : value.toDouble? = some d) : double args i = .ok d := by
  simp only [double, through, get, hvalue, hd]

theorem double_of_none (hvalue : args[i]? = some value) (hd : value.toDouble? = none) :
    double args i = .error (.argumentType i "number" value.typeName) := by
  simp only [double, through, get, hvalue, hd]

end Args

/-! ## One access -/

namespace Vec2

/-- The binding has the tables of the vector class, and its strategy passes every access on. -/
structure Bound (b : Binding HostType) : Prop where
  description : b.description = description
  passes : b.policy.strategy = .passThrough HostType

theorem bound_of_builtBy {b : Binding HostType}
    (h : b.BuiltBy (HostType.vector info) (declaration info))
    (hpass : b.policy.strategy = .passThrough HostType) : Bound b where
  description := h.description_eq.trans ofLog_members
  passes := hpass

namespace Bound

variable {b : Binding HostType} (h : Bound b) (v : Vec2)

include h

theorem get_component (axis : Axis) :
    b.get v.object axis.name = ⟨.ok (some (.float (v.component axis))), v.object, []⟩ := by
  have hget : (field axis).get v.object = .ok (.float (v.component axis)) := Object.view_self _ _ _
  simp only [Binding.get, h.passes, Strategy.passThrough, h.description, Description.read,
    getterOf_description, if_neg axis.name_ne_length, fieldOf_description_name, hget, Except.map]

theorem get_length :
    b.get v.object "length" = ⟨.ok (some (.float (Double.hypot v.x v.y))), v.object, []⟩ := by
  have hinvoke : lengthGetter.invoke v.object [] =
      (.ok (.float (Double.hypot v.x v.y)), v.object) := rfl
  simp only [Binding.get, h.passes, Strategy.passThrough, h.description, Description.read,
    getterOf_description, if_true, hinvoke, Except.map]

theorem get_other {name : String} (hname : ∀ axis : Axis, axis.name ≠ name)
    (hlength : name ≠ "length") : b.get v.object name = ⟨.ok none, v.object, []⟩ := by
  simp only [Binding.get, h.passes, Strategy.passThrough, h.description, Description.read,
    getterOf_description, if_neg hlength, fieldOf_description hname]
  rfl

/-- No read changes the vector. -/
theorem receiver_get (name : String) : (b.get v.object name).receiver = v.object := by
  by_cases hlength : name = "length"
  · rw [hlength, h.get_length]
  · by_cases hname : ∃ axis : Axis, axis.name = name
    · obtain ⟨axis, rfl⟩ := hname
      rw [h.get_component]
    · rw [h.get_other v (not_exists.1 hname) hlength]

theorem set_component (axis : Axis) (value : Value) :
    b.set v.object axis.name value =
      ⟨(writeComponent (fun v d => put v axis d) v value).1.map fun _ => true,
        (writeComponent (fun v d => put v axis d) v value).2.object, []⟩ := by
  have hset : (field axis).set v.object value =
      ((writeComponent (fun v d => put v axis d) v value).1,
        (writeComponent (fun v d => put v axis d) v value).2.object) := rfl
  have hsetters : firstAccepting ((Record.get? Vec2.description.setters axis.name).getD []) 1 =
      none := rfl
  simp only [Binding.set, h.passes, Strategy.passThrough, h.description, Description.write,
    hsetters, fieldOf_description_name, hset]

theorem set_number (axis : Axis) {value : Value} {d : Double} (hd : value.toDouble? = some d) :
    b.set v.object axis.name value = ⟨.ok true, (v.put axis d).object, []⟩ := by
  rw [h.set_component, writeComponent, Args.double_of_some rfl hd]
  rfl

theorem set_not_number (axis : Axis) {value : Value} (hd : value.toDouble? = none) :
    b.set v.object axis.name value =
      ⟨.error (.argumentType 0 "number" value.typeName), v.object, []⟩ := by
  rw [h.set_component, writeComponent, Args.double_of_none rfl hd]
  rfl

theorem set_other {name : String} (hname : ∀ axis : Axis, axis.name ≠ name) (value : Value) :
    b.set v.object name value = ⟨.ok false, v.object, []⟩ := by
  have hsetters : firstAccepting ((Record.get? Vec2.description.setters name).getD []) 1 =
      none := rfl
  simp only [Binding.set, h.passes, Strategy.passThrough, h.description, Description.write,
    hsetters, fieldOf_description hname]
  rfl

/-- Calling `scale` runs it if the number of arguments is right. -/
theorem call_scale (args : List Value) :
    b.call v.object "scale" args =
      ⟨(Description.invokeFirst "scale" [scaleMethod] v.object args).1.map some,
        (Description.invokeFirst "scale" [scaleMethod] v.object args).2, []⟩ := by
  simp only [Binding.call, h.passes, Strategy.passThrough, h.description, Description.call,
    methodsOf_description, if_true]

theorem call_scale_one (arg : Value) :
    b.call v.object "scale" [arg] =
      ⟨(scale v [arg]).1.map some, (scale v [arg]).2.object, []⟩ :=
  h.call_scale v [arg]

theorem call_scale_number {arg : Value} {factor : Double}
    (hfactor : arg.toDouble? = some factor) :
    b.call v.object "scale" [arg] = ⟨.ok (some .undefined), (v.scaled factor).object, []⟩ := by
  rw [h.call_scale_one, scale, Args.double_of_some rfl hfactor]
  rfl

theorem call_scale_not_number {arg : Value} (hfactor : arg.toDouble? = none) :
    b.call v.object "scale" [arg] =
      ⟨.error (.argumentType 0 "number" arg.typeName), v.object, []⟩ := by
  rw [h.call_scale_one, scale, Args.double_of_none rfl hfactor]
  rfl

theorem call_scale_count {args : List Value} (hcount : args.length ≠ 1) :
    b.call v.object "scale" args =
      ⟨.error (.arityMismatch "scale" args.length), v.object, []⟩ := by
  have hfirst : firstAccepting [scaleMethod] args.length = none := by
    simp [firstAccepting, scaleMethod, Method.accepts, Arity.accepts, hcount]
  rw [h.call_scale, Description.invokeFirst, hfirst]
  rfl

theorem call_other {name : String} (hname : name ≠ "scale") (args : List Value) :
    b.call v.object name args = ⟨.ok none, v.object, []⟩ := by
  simp only [Binding.call, h.passes, Strategy.passThrough, h.description, Description.call,
    methodsOf_description, if_neg hname]

theorem apply_eq (args : List Value) : b.apply v.object args = ⟨.ok none, v.object, []⟩ := by
  simp only [Binding.apply, h.description]
  rfl

theorem snapshot_eq :
    b.snapshot v.object = ⟨.ok [("x", .float v.x), ("y", .float v.y),
      ("length", .float (Double.hypot v.x v.y))], v.object, []⟩ := by
  have hkeys : b.keys = [Axis.name .x, Axis.name .y, "length"] := by
    rw [Binding.keys, h.description]
    rfl
  simp only [Binding.snapshot, hkeys, Binding.readAll, h.get_component, h.get_length]
  rfl

theorem construct_pair (p q : Value) :
    (b.construct [p, q]).1 = (make [p, q]).map fun v => some v.object := by
  have hconstruct : Vec2.description.construct [p, q] =
      ((make [p, q]).map object).map some := rfl
  simp only [Binding.construct, h.passes, Strategy.passThrough, h.description, hconstruct]
  cases make [p, q] <;> rfl

theorem construct_count {args : List Value} (hcount : args.length ≠ 2) :
    (b.construct args).1 = .error (.arityMismatch "Vec2" args.length) := by
  have hfind : Vec2.description.constructors.find? (fun c => c.accepts args.length) = none := by
    simp [Vec2.description, factory, Constructor.accepts, Arity.accepts, hcount]
  simp only [Binding.construct, h.passes, Strategy.passThrough, h.description,
    Description.construct, hfind]
  rfl

end Bound

/-- Two arguments make a vector if both are numbers. -/
theorem make_pair_eq_ok_iff {p q : Value} {v : Vec2} :
    make [p, q] = .ok v ↔ p.toDouble? = some v.x ∧ q.toDouble? = some v.y := by
  have hp0 : [p, q][0]? = some p := rfl
  have hq1 : [p, q][1]? = some q := rfl
  rw [make]
  cases hp : p.toDouble? with
  | none => simp [Args.double_of_none hp0 hp]
  | some x =>
    cases hq : q.toDouble? with
    | none => simp [Args.double_of_some hp0 hp, Args.double_of_none hq1 hq]
    | some y =>
      simp only [Args.double_of_some hp0 hp, Args.double_of_some hq1 hq, Except.ok.injEq,
        Option.some.injEq]
      exact ⟨fun hv => hv ▸ ⟨rfl, rfl⟩, fun hv => by rw [hv.1, hv.2]⟩

/-! ## What an access may change -/

/-- An access of a vector that ends so leaves the vector `w`: the same one, unless a component was
written with a number or both were scaled by one. -/
structure Accords (b : Binding HostType) (v : Vec2) (a : Binding.Access)
    (out : Outcome HostType Binding.Answer) (w : Vec2) : Prop where
  receiver : out.receiver = w.object
  atomic : (∀ answer, out.result = .ok answer → answer.found = false) → w = v
  set : ∀ name value, a = .set name value →
    (out.result = .ok (.taken true) ↔
      (∃ axis : Axis, axis.name = name) ∧ ∃ d, value.toDouble? = some d) ∧
    ∀ (axis : Axis) (d : Double), axis.name = name → value.toDouble? = some d →
      w.component axis = d ∧ (∀ other, other ≠ axis → w.component other = v.component other) ∧
      (b.get out.receiver name).result = .ok (some (.float d))
  call : ∀ name args, a = .call name args →
    ((∃ r, out.result = .ok (.value (some r))) ↔
      name = "scale" ∧ ∃ arg factor, args = [arg] ∧ arg.toDouble? = some factor) ∧
    ∀ arg factor, name = "scale" → args = [arg] → arg.toDouble? = some factor →
      w = ⟨v.x.mul factor, v.y.mul factor⟩
  reads : (∀ name value, a ≠ .set name value) → (∀ name args, a ≠ .call name args) → w = v

/-- Each of several accesses, one after the other, leaves what it may of the vector that the one
before left. -/
inductive AccordsAll (b : Binding HostType) :
    Vec2 → List Binding.Access → List (Outcome HostType Binding.Answer) → Prop
  | nil (v : Vec2) : AccordsAll b v [] []
  | cons {v w : Vec2} {a : Binding.Access} {out : Outcome HostType Binding.Answer}
      {accesses : List Binding.Access} {outs : List (Outcome HostType Binding.Answer)}
      (first : Accords b v a out w) (rest : AccordsAll b w accesses outs) :
      AccordsAll b v (a :: accesses) (out :: outs)

/-- An access that neither writes nor calls, and leaves the vector as it is. -/
theorem accords_of_still {b : Binding HostType} {v : Vec2} {a : Binding.Access}
    {out : Outcome HostType Binding.Answer} (hreceiver : out.receiver = v.object)
    (hset : ∀ name value, a ≠ .set name value) (hcall : ∀ name args, a ≠ .call name args) :
    Accords b v a out v where
  receiver := hreceiver
  atomic _ := rfl
  set name value ha := absurd ha (hset name value)
  call name args ha := absurd ha (hcall name args)
  reads _ _ := rfl

namespace Bound

variable {b : Binding HostType} (h : Bound b) (v : Vec2)

include h

theorem accords_set_number (axis : Axis) {value : Value} {d : Double}
    (hd : value.toDouble? = some d) :
    Accords b v (.set axis.name value) (b.perform v.object (.set axis.name value))
      (v.put axis d) := by
  have hout : b.perform v.object (.set axis.name value) =
      ⟨.ok (.taken true), (v.put axis d).object, []⟩ := by
    rw [Binding.perform, h.set_number v axis hd]
    rfl
  rw [hout]
  refine ⟨rfl, fun hnone => absurd (hnone _ rfl) (by decide), ?_, by simp, ?_⟩
  · rintro name value' ⟨⟩
    refine ⟨iff_of_true rfl ⟨⟨axis, rfl⟩, d, hd⟩, fun axis' d' haxis hd' => ?_⟩
    obtain rfl : axis' = axis := Axis.name_injective haxis
    obtain rfl : d = d' := Option.some.inj (hd.symm.trans hd')
    refine ⟨by rw [component_put, if_pos rfl], fun other hne => ?_, ?_⟩
    · rw [component_put, if_neg hne]
    · rw [h.get_component, component_put, if_pos rfl]
  · intro hset
    exact absurd rfl (hset _ _)

/-- A write that is not of a number to a component. -/
theorem accords_set_refused {name : String} {value : Value}
    (hrefused : (∀ axis : Axis, axis.name ≠ name) ∨ value.toDouble? = none) :
    Accords b v (.set name value) (b.perform v.object (.set name value)) v := by
  have hout : (b.perform v.object (.set name value)).receiver = v.object ∧
      (b.perform v.object (.set name value)).result ≠ .ok (.taken true) := by
    by_cases hname : ∃ axis : Axis, axis.name = name
    · obtain ⟨axis, rfl⟩ := hname
      have hd := hrefused.resolve_left fun hne => hne axis rfl
      rw [Binding.perform, h.set_not_number v axis hd]
      exact ⟨rfl, by simp [Outcome.map, Except.map]⟩
    · rw [Binding.perform, h.set_other v (not_exists.1 hname)]
      exact ⟨rfl, by simp [Outcome.map, Except.map]⟩
  have hnot : ¬((∃ axis : Axis, axis.name = name) ∧ ∃ d, value.toDouble? = some d) := by
    rintro ⟨⟨axis, haxis⟩, d, hd⟩
    rcases hrefused with hname | hnone
    · exact hname axis haxis
    · cases hnone.symm.trans hd
  refine ⟨hout.1, fun _ => rfl, ?_, by simp, fun _ _ => rfl⟩
  rintro name' value' ⟨⟩
  exact ⟨iff_of_false hout.2 hnot, fun axis d haxis hd => absurd ⟨⟨axis, haxis⟩, d, hd⟩ hnot⟩

theorem accords_set (name : String) (value : Value) :
    ∃ w, Accords b v (.set name value) (b.perform v.object (.set name value)) w := by
  by_cases hname : ∃ axis : Axis, axis.name = name
  · obtain ⟨axis, rfl⟩ := hname
    cases hd : value.toDouble? with
    | none => exact ⟨v, h.accords_set_refused v (.inr hd)⟩
    | some d => exact ⟨v.put axis d, h.accords_set_number v axis hd⟩
  · exact ⟨v, h.accords_set_refused v (.inl (not_exists.1 hname))⟩

theorem accords_call_scale {arg : Value} {factor : Double}
    (hfactor : arg.toDouble? = some factor) :
    Accords b v (.call "scale" [arg]) (b.perform v.object (.call "scale" [arg]))
      (v.scaled factor) := by
  have hout : b.perform v.object (.call "scale" [arg]) =
      ⟨.ok (.value (some .undefined)), (v.scaled factor).object, []⟩ := by
    rw [Binding.perform, h.call_scale_number v hfactor]
    rfl
  rw [hout]
  refine ⟨rfl, fun hnone => absurd (hnone _ rfl) (by decide), by simp, ?_, ?_⟩
  · rintro name args ⟨⟩
    refine ⟨iff_of_true ⟨_, rfl⟩ ⟨rfl, arg, factor, rfl, hfactor⟩, ?_⟩
    rintro arg' factor' - ⟨⟩ hfactor'
    obtain rfl : factor = factor' := Option.some.inj (hfactor.symm.trans hfactor')
    rfl
  · intro _ hcall
    exact absurd rfl (hcall _ _)

/-- A call that is not of `scale` with one number. -/
theorem accords_call_refused {name : String} {args : List Value}
    (hrefused : ¬(name = "scale" ∧ ∃ arg factor, args = [arg] ∧ arg.toDouble? = some factor)) :
    Accords b v (.call name args) (b.perform v.object (.call name args)) v := by
  have hout : (b.perform v.object (.call name args)).receiver = v.object ∧
      ∀ r, (b.perform v.object (.call name args)).result ≠ .ok (.value (some r)) := by
    by_cases hname : name = "scale"
    · subst hname
      by_cases hcount : args.length = 1
      · obtain ⟨arg, rfl⟩ := List.length_eq_one_iff.1 hcount
        have hnone : arg.toDouble? = none := by
          rw [Option.eq_none_iff_forall_ne_some]
          exact fun factor hfactor => hrefused ⟨rfl, arg, factor, rfl, hfactor⟩
        rw [Binding.perform, h.call_scale_not_number v hnone]
        exact ⟨rfl, by simp [Outcome.map, Except.map]⟩
      · rw [Binding.perform, h.call_scale_count v hcount]
        exact ⟨rfl, by simp [Outcome.map, Except.map]⟩
    · rw [Binding.perform, h.call_other v hname]
      exact ⟨rfl, by simp [Outcome.map, Except.map]⟩
  refine ⟨hout.1, fun _ => rfl, by simp, ?_, fun _ _ => rfl⟩
  rintro name' args' ⟨⟩
  refine ⟨iff_of_false (not_exists.2 hout.2) hrefused, ?_⟩
  intro arg factor hname hargs hfactor
  exact absurd ⟨hname, arg, factor, hargs, hfactor⟩ hrefused

theorem accords_call (name : String) (args : List Value) :
    ∃ w, Accords b v (.call name args) (b.perform v.object (.call name args)) w := by
  by_cases hscale : name = "scale" ∧ ∃ arg factor, args = [arg] ∧ arg.toDouble? = some factor
  · obtain ⟨rfl, arg, factor, rfl, hfactor⟩ := hscale
    exact ⟨_, h.accords_call_scale v hfactor⟩
  · exact ⟨v, h.accords_call_refused v hscale⟩

/-- **One access** of a vector leaves what it may. -/
theorem exists_accords (a : Binding.Access) : ∃ w, Accords b v a (b.perform v.object a) w := by
  cases a with
  | get name => exact ⟨v, accords_of_still (h.receiver_get v name) (by simp) (by simp)⟩
  | set name value => exact h.accords_set v name value
  | call name args => exact h.accords_call v name args
  | apply args =>
    refine ⟨v, accords_of_still ?_ (by simp) (by simp)⟩
    rw [Binding.perform, h.apply_eq]
    rfl
  | keys => exact ⟨v, accords_of_still rfl (by simp) (by simp)⟩
  | snapshot =>
    refine ⟨v, accords_of_still ?_ (by simp) (by simp)⟩
    rw [Binding.perform, h.snapshot_eq]
    rfl

/-- **A run of accesses** of a vector leaves what it may, access by access. -/
theorem accordsAll (accesses : List Binding.Access) :
    AccordsAll b v accesses (b.performAll v.object accesses) := by
  induction accesses generalizing v with
  | nil => exact .nil v
  | cons a accesses ih =>
    obtain ⟨w, hfirst⟩ := h.exists_accords v a
    rw [Binding.performAll, hfirst.receiver]
    exact .cons hfirst (ih w)

/-- Two numbers make the vector of them, and nothing else makes one. -/
theorem construct_eq_ok_iff {args : List Value} {o : HostObject} :
    (b.construct args).1 = .ok (some o) ↔
      ∃ p q x y, args = [p, q] ∧ p.toDouble? = some x ∧ q.toDouble? = some y ∧
        o = object ⟨x, y⟩ := by
  by_cases hcount : args.length = 2
  · obtain ⟨p, q, rfl⟩ := List.length_eq_two.1 hcount
    rw [h.construct_pair]
    constructor
    · intro ho
      cases hmake : make [p, q] with
      | error e => simp [hmake, Except.map] at ho
      | ok v =>
        simp only [hmake, Except.map, Except.ok.injEq, Option.some.injEq] at ho
        obtain ⟨hx, hy⟩ := make_pair_eq_ok_iff.1 hmake
        exact ⟨p, q, v.x, v.y, rfl, hx, hy, ho.symm⟩
    · rintro ⟨_, _, x, y, ⟨⟩, hx, hy, rfl⟩
      have hmake : make [p, q] = .ok ⟨x, y⟩ := make_pair_eq_ok_iff.2 ⟨hx, hy⟩
      rw [hmake]
      rfl
  · rw [h.construct_count hcount]
    refine iff_of_false (by simp) ?_
    rintro ⟨p, q, -, -, rfl, -⟩
    exact hcount rfl

end Bound

/-- The declaration can be published in every proxy mode and under every policy. -/
theorem build_declaration (proxyMode : ProxyMode) (policy : CollisionPolicy) :
    (Cache.build (HostType.vector info) (declaration info) proxyMode (.passThrough HostType)
      policy).1 = .ok (.passing proxyMode (.vector info) members) := by
  have hcollisions : Admitted.collisions members = [] := rfl
  rw [declaration_eq, Cache.build_passThrough]
  exact if_neg fun hreject => hreject.2 hcollisions

theorem builtBy_passing (proxyMode : ProxyMode) :
    (Binding.passing proxyMode (.vector info) members).BuiltBy (HostType.vector info)
      (declaration info) :=
  ⟨.reject, _, rfl, rfl⟩

/-- **Accesses of vectors are atomic and touch only what they name.** The vector class can be
published under every policy. In a binding that comes of its declaration and passes every access on,
accesses of a vector one after the other, of whatever names, values and arguments, each leave what
they may (`Accords`): nothing changes by an access that fails or finds nothing, nor by a read, a
call of the vector itself or a snapshot; a write succeeds exactly if it is of a number to a
component, which then has that number, while the other has what it had, and a read finds it; a call
succeeds exactly if it is of `scale` with one number, and multiplies both. A construction succeeds
exactly with two numbers, and makes the vector of them. -/
theorem accesses_accord :
    (∀ (proxyMode : ProxyMode) (policy : CollisionPolicy), ∃ b : Binding HostType,
      (Cache.build (HostType.vector info) (declaration info) proxyMode (.passThrough HostType)
        policy).1 = .ok b ∧
      b.BuiltBy (HostType.vector info) (declaration info) ∧
      b.policy.strategy = .passThrough HostType) ∧
    ∀ b : Binding HostType, b.BuiltBy (HostType.vector info) (declaration info) →
      b.policy.strategy = .passThrough HostType →
      (∀ (v : Vec2) (accesses : List Binding.Access),
        AccordsAll b v accesses (b.performAll v.object accesses)) ∧
      ∀ (args : List Value) (o : HostObject), (b.construct args).1 = .ok (some o) ↔
        ∃ p q x y, args = [p, q] ∧ p.toDouble? = some x ∧ q.toDouble? = some y ∧
          o = object ⟨x, y⟩ := by
  refine ⟨fun proxyMode policy => ?_, fun b hb hpass => ?_⟩
  · exact ⟨_, build_declaration proxyMode policy, builtBy_passing proxyMode, rfl⟩
  · have hbound := bound_of_builtBy hb hpass
    exact ⟨hbound.accordsAll, fun args o => hbound.construct_eq_ok_iff⟩

/-- Writes, calls and reads of a vector, some of which cannot be served. -/
def mixedAccesses : List Binding.Access :=
  [.set "x" (.text "1"), .set "y" (.float (.ofInt 7)), .get "y", .set "length" (.float (.ofInt 1)),
    .call "scale" [.null], .call "scale" [], .call "scale" [.int 2], .call "x" [], .apply [.int 2],
    .snapshot]

/-- The write of a text, the write of a getter, `scale` without a number or an argument and the
call of a field leave the vector as it was. -/
theorem accesses_accord_mixed :
    let b := Binding.passing .classProxy (.vector info) members
    let v : Vec2 := ⟨.ofInt 3, .ofInt 4⟩
    let w : Vec2 := ⟨.ofInt 3, .ofInt 7⟩
    let scaled : Vec2 := ⟨(Double.ofInt 3).mul (.ofInt 2), (Double.ofInt 7).mul (.ofInt 2)⟩
    AccordsAll b v mixedAccesses (b.performAll v.object mixedAccesses) ∧
    (b.performAll v.object mixedAccesses).map (·.receiver) =
      [v.object, w.object, w.object, w.object, w.object, w.object, scaled.object, scaled.object,
        scaled.object, scaled.object] ∧
    (b.construct [.int 3, .float (.ofInt 4)]).1 = .ok (some v.object) := by
  intro b v w scaled
  have hb : b.BuiltBy (HostType.vector info) (declaration info) := builtBy_passing .classProxy
  have haccords := accesses_accord.2 b hb rfl
  refine ⟨haccords.1 v mixedAccesses, rfl, (haccords.2 _ _).2 ?_⟩
  exact ⟨_, _, .ofInt 3, .ofInt 4, rfl, rfl, rfl, rfl⟩

end Vec2

end HostBridge
