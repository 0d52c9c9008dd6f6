import HostBridge.Binding.Cache
import HostBridge.Proofs.Access
import HostBridge.Proofs.Keys
import Mathlib.Data.List.Forall2

/-!
# Declarations that read alike

Two declarations of a class may differ in members that are not admitted, and in what admitted
members answer inside the containers of their values. The first kind of difference leaves no trace
in the binding (`Cache.build_passThrough`). The second shows only inside the containers of a
snapshot: members that stand against each other read alike (`Addition.ReadsAlike`), one read of the
two lists keeps the receivers in relation (`Admitted.read_agree`), so a run of reads does
(`Binding.readAll_agree`), and a snapshot is one (`Binding.snapshot_agree`).
-/

namespace HostBridge

variable {κ : Type} [HostTypes κ] [DecidableEq κ]

/-! ## What building gives -/

/-- **What building gives.** Rejected collisions are the error, under the name of the class that the
declaration ends with; else there is a binding for that class, in the proxy mode that was asked for
unless the strategy refuses it. -/
theorem Cache.build_fst (c : κ) (declaration : List (BuildStep κ)) (proxyMode : ProxyMode)
    (strategy : Strategy κ) (policy : CollisionPolicy) :
    let b := ((Builder.new c).run declaration).1
    let mode := if proxyMode = .classProxy ∧ (strategy.proxyable c).1 = false then .objectProxy
      else proxyMode
    (build c declaration proxyMode strategy policy).1 =
      if policy = .reject ∧ b.collisions ≠ [] then
        .error (.collisions (HostTypes.name b.targetClass) b.collisions)
      else .ok ⟨.new mode b.targetClass strategy, b.toDescription⟩ := by
  intro b mode
  -- the strategy is asked only about class proxies
  have hmode : (if (if proxyMode = .classProxy then strategy.proxyable c else (true, [])).1 = true
      then proxyMode else .objectProxy) = mode := by
    by_cases hclass : proxyMode = .classProxy
    · cases hasked : (strategy.proxyable c).1 <;> simp [mode, hclass, hasked]
    · simp [mode, hclass]
  unfold build
  simp only [Builder.publish, hmode]
  by_cases hcollide : policy = .reject ∧ b.collisions ≠ []
  · rw [if_pos hcollide, if_pos hcollide]
  · rw [if_neg hcollide, if_neg hcollide]
    exact if_pos rfl

/-! ## Bindings that pass every access on -/

/-- The binding of a class that has admitted the given members, with the strategy that passes every
access on. -/
def Binding.passing (proxyMode : ProxyMode) (c : κ) (log : List (Addition κ)) : Binding κ where
  policy := .new proxyMode c (.passThrough κ)
  description := (Builder.ofLog c log).toDescription

/-- **Building without redirects** reads nothing of a declaration but its admitted members. -/
theorem Cache.build_passThrough (c : κ) (members : List (Addition κ)) (proxyMode : ProxyMode)
    (collisions : CollisionPolicy) :
    let log := members.filter fun a => (HostTypes.mode c).admits a.exposure
    (Cache.build c (members.map .add) proxyMode (.passThrough κ) collisions).1 =
      if collisions = .reject ∧ Admitted.collisions log ≠ [] then
        .error (.collisions (HostTypes.name c) (Admitted.collisions log))
      else .ok (.passing proxyMode c log) := by
  intro log
  have hrun : ((Builder.new c).run (members.map .add)).1 = Builder.ofLog c log := by
    rw [Builder.run_new, classAfter_map_add, admitted_map_add]
  have hmode : (if proxyMode = .classProxy ∧ ((Strategy.passThrough κ).proxyable c).1 = false then
      ProxyMode.objectProxy else proxyMode) = proxyMode :=
    if_neg fun h => by cases h.2
  rw [build_fst, hrun, hmode]
  rfl

theorem Binding.get_passing (proxyMode : ProxyMode) (c : κ) (log : List (Addition κ))
    (o : Object κ) (name : String) :
    (passing proxyMode c log).get o name =
      ⟨(Admitted.read log o name).1, (Admitted.read log o name).2, []⟩ :=
  get_eq_admitted_get rfl o name

/-! ## Members that read alike -/

/-- Two values that differ at most inside a container. -/
def Value.AlikeOutside (v w : Value) : Prop := v = w ∨ v.isContainer = true ∧ w.isContainer = true

/-- Two results agree: they are the same fault, or answers in relation. -/
inductive Agree {α : Type} (S : α → α → Prop) : Except InvokeError α → Except InvokeError α → Prop
  | error (e : InvokeError) : Agree S (.error e) (.error e)
  | ok {a b : α} (h : S a b) : Agree S (.ok a) (.ok b)

theorem Agree.map {α β : Type} {S : α → α → Prop} {T : β → β → Prop} {r r' : Except InvokeError α}
    {f g : α → β} (h : Agree S r r') (hfg : ∀ a b, S a b → T (f a) (g b)) :
    Agree T (r.map f) (r'.map g) := by
  cases h with
  | error e => exact .error e
  | ok hab => exact .ok (hfg _ _ hab)

theorem Agree.refl {α : Type} {S : α → α → Prop} (hS : ∀ a, S a a) (r : Except InvokeError α) :
    Agree S r r := by
  cases r with
  | error e => exact .error e
  | ok a => exact .ok (hS a)

namespace Addition

/-- The member is asked when properties are read. -/
def isReader : Addition κ → Bool
  | field _ | getter _ | genericGetter _ => true
  | _ => false

/-- Two members of one kind and name, which on receivers in relation answer values that differ at
most inside a container, and leave receivers in relation. Of members that are not asked when
properties are read nothing else is required. -/
inductive ReadsAlike (R : Object κ → Object κ → Prop) : Addition κ → Addition κ → Prop
  | field {f g : Field κ} (hname : f.name = g.name)
      (hread : ∀ o o', R o o' → Agree Value.AlikeOutside (f.get o) (g.get o')) :
      ReadsAlike R (field f) (field g)
  | getter {m n : Method κ} (hname : m.name = n.name) (harity : m.arity = n.arity)
      (hread : ∀ o o', R o o' → Agree Value.AlikeOutside (m.invoke o []).1 (n.invoke o' []).1 ∧
        R (m.invoke o []).2 (n.invoke o' []).2) :
      ReadsAlike R (getter m) (getter n)
  | genericGetter {g k : GenericGetter κ} (hname : g.name = k.name)
      (hread : ∀ o o' key, R o o' →
        Agree (Option.Rel Value.AlikeOutside) (g.get o key) (k.get o' key)) :
      ReadsAlike R (genericGetter g) (genericGetter k)
  | other {a b : Addition κ} (ha : a.isReader = false) (hb : b.isReader = false)
      (hclaim : a.claimed? = b.claimed?) : ReadsAlike R a b

/-- A member reads like itself. -/
theorem ReadsAlike.refl (a : Addition κ) : ReadsAlike Eq a a := by
  have hvalue : ∀ v : Value, v.AlikeOutside v := fun v => .inl rfl
  have hfound : ∀ v : Option Value, Option.Rel Value.AlikeOutside v v := by
    intro v
    cases v with
    | none => exact .none
    | some v => exact .some (hvalue v)
  cases a with
  | field f =>
    refine .field rfl ?_
    rintro o _ rfl
    exact .refl hvalue _
  | getter m =>
    refine .getter rfl rfl ?_
    rintro o _ rfl
    exact ⟨.refl hvalue _, rfl⟩
  | genericGetter g =>
    refine .genericGetter rfl ?_
    rintro o _ key rfl
    exact .refl hfound _
  | _ => exact .other rfl rfl rfl

variable {R : Object κ → Object κ → Prop} {a b : Addition κ}

theorem ReadsAlike.claimed?_eq (h : ReadsAlike R a b) : a.claimed? = b.claimed? := by
  cases h with
  | field hname _ => simp [claimed?, hname]
  | getter hname _ _ => simp [claimed?, hname]
  | genericGetter hname _ => simp [claimed?, hname]
  | other _ _ hclaim => exact hclaim

/-- A member that is not asked serves no read. -/
theorem serves_none_of_not_isReader (ha : a.isReader = false) (name : String) :
    a.getterFor? name = none ∧ a.fieldFor? name = none ∧ (∀ o, a.answer? o name = none) := by
  cases a with
  | field f => cases ha
  | getter m => cases ha
  | genericGetter g => cases ha
  | _ => exact ⟨rfl, rfl, fun _ => rfl⟩

namespace ReadsAlike

/-- Getters stand against getters that are chosen for the same names. -/
theorem getterFor? (h : ReadsAlike R a b) (name : String) :
    Option.Rel (fun m n : Method κ => ∀ o o', R o o' →
        Agree Value.AlikeOutside (o.run m.owner fun s => m.body s []).1
            (o'.run n.owner fun s => n.body s []).1 ∧
          R (o.run m.owner fun s => m.body s []).2 (o'.run n.owner fun s => n.body s []).2)
      (a.getterFor? name) (b.getterFor? name) := by
  cases h with
  | @getter m n hname harity hread =>
    simp only [Addition.getterFor?, ← hname, ← harity]
    split
    · rename_i hserves
      refine .some fun o o' hR => ?_
      have hn : n.accepts ([] : List Value).length = true := by
        unfold Method.accepts
        rw [← harity]
        exact hserves.2
      rw [← m.invoke_of_accepts o [] hserves.2, ← n.invoke_of_accepts o' [] hn]
      exact hread o o' hR
    · exact .none
  | field _ _ => exact .none
  | genericGetter _ _ => exact .none
  | other ha hb _ =>
    rw [(serves_none_of_not_isReader ha name).1, (serves_none_of_not_isReader hb name).1]
    exact .none

/-- Fields stand against fields of the same name. -/
theorem fieldFor? (h : ReadsAlike R a b) (name : String) :
    Option.Rel (fun f g : Field κ =>
        ∀ o o', R o o' → Agree Value.AlikeOutside (f.get o) (g.get o'))
      (a.fieldFor? name) (b.fieldFor? name) := by
  cases h with
  | field hname hread =>
    simp only [Addition.fieldFor?, hname]
    split
    · exact .some hread
    · exact .none
  | getter _ _ _ => exact .none
  | genericGetter _ _ => exact .none
  | other ha hb _ =>
    rw [(serves_none_of_not_isReader ha name).2.1, (serves_none_of_not_isReader hb name).2.1]
    exact .none

/-- Generic getters answer for the same keys. -/
theorem answer? (h : ReadsAlike R a b) {o o' : Object κ} (hR : R o o') (key : String) :
    Option.Rel (Agree (Option.Rel Value.AlikeOutside)) (a.answer? o key) (b.answer? o' key) := by
  cases h with
  | @genericGetter g k hname hread =>
    have hanswer := hread o o' key hR
    unfold GenericGetter.get at hanswer
    simp only [Addition.answer?]
    generalize (o.view g.owner fun s => g.read s key) = r,
      (o'.view k.owner fun s => k.read s key) = r' at hanswer ⊢
    cases hanswer with
    | error e => exact .some (.error e)
    | ok hfound =>
      cases hfound with
      | none => exact .none
      | some hv => exact .some (.ok (.some hv))
  | field _ _ => exact .none
  | getter _ _ _ => exact .none
  | other ha hb _ =>
    rw [(serves_none_of_not_isReader ha key).2.2, (serves_none_of_not_isReader hb key).2.2]
    exact .none

/-- Enumerated names are the same. -/
theorem names_eq (h : ReadsAlike R a b) :
    a.field?.map Prod.fst = b.field?.map Prod.fst ∧
      a.getter?.map Prod.fst = b.getter?.map Prod.fst := by
  cases h with
  | field hname _ => simp [hname]
  | getter hname _ _ => simp [hname]
  | genericGetter _ _ => exact ⟨rfl, rfl⟩
  | other ha hb _ =>
    have hnone : ∀ x : Addition κ, x.isReader = false → x.field? = none ∧ x.getter? = none := by
      intro x hx
      cases x with
      | field f => cases hx
      | getter m => cases hx
      | _ => exact ⟨rfl, rfl⟩
    rw [(hnone a ha).1, (hnone b hb).1, (hnone a ha).2, (hnone b hb).2]
    exact ⟨rfl, rfl⟩

end ReadsAlike

end Addition

/-- Searching two lists whose members stand against each other. -/
theorem findSome?_rel {α β : Type} {S : α → α → Prop} {T : β → β → Prop} {f g : α → Option β}
    {l l' : List α} (h : List.Forall₂ S l l')
    (hfg : ∀ a b, S a b → Option.Rel T (f a) (g b)) :
    Option.Rel T (l.findSome? f) (l'.findSome? g) := by
  induction h with
  | nil => exact .none
  | @cons a b l l' hab _ ih =>
    have hfirst := hfg a b hab
    rw [List.findSome?_cons, List.findSome?_cons]
    generalize f a = x, g b = y at hfirst ⊢
    cases hfirst with
    | none => exact ih
    | some hxy => exact .some hxy

/-- Two lists of entries under the same names, whose values differ at most inside a container. -/
def Record.AlikeOutside : Record Value → Record Value → Prop :=
  List.Forall₂ fun e e' => e.1 = e'.1 ∧ e.2.AlikeOutside e'.2

section Runs

variable {R : Object κ → Object κ → Prop} {log log' : List (Addition κ)} {o o' : Object κ}
  (proxyMode : ProxyMode) (c : κ)

/-- **One read** of two lists whose members read alike. -/
theorem Admitted.read_agree (hlog : List.Forall₂ (Addition.ReadsAlike R) log log') (hR : R o o')
    (name : String) :
    Agree (Option.Rel Value.AlikeOutside) (read log o name).1 (read log' o' name).1 ∧
      R (read log o name).2 (read log' o' name).2 := by
  have hgetter := findSome?_rel hlog fun a b h => h.getterFor? name
  have hfield := findSome?_rel hlog fun a b h => h.fieldFor? name
  have hgeneric := findSome?_rel hlog fun a b h => h.answer? hR name
  unfold read
  generalize log.findSome? (Addition.getterFor? name) = m,
    log'.findSome? (Addition.getterFor? name) = m' at hgetter ⊢
  cases hgetter with
  | some hmm =>
    obtain ⟨hanswer, hleft⟩ := hmm o o' hR
    exact ⟨hanswer.map fun _ _ hv => .some hv, hleft⟩
  | none =>
    generalize log.findSome? (Addition.fieldFor? name) = f,
      log'.findSome? (Addition.fieldFor? name) = f' at hfield ⊢
    cases hfield with
    | some hff => exact ⟨(hff o o' hR).map fun _ _ hv => .some hv, hR⟩
    | none =>
      generalize log.findSome? (Addition.answer? o name) = r,
        log'.findSome? (Addition.answer? o' name) = r' at hgeneric ⊢
      cases hgeneric with
      | some hrr => exact ⟨hrr, hR⟩
      | none => exact ⟨.ok .none, hR⟩

namespace Binding

/-- **A run of reads**, each on the receiver that the one before left. -/
theorem readAll_agree (hlog : List.Forall₂ (Addition.ReadsAlike R) log log') (hR : R o o')
    (names : List String) :
    Agree Record.AlikeOutside ((passing proxyMode c log).readAll o names).result
      ((passing proxyMode c log').readAll o' names).result := by
  induction names generalizing o o' with
  | nil => exact .ok .nil
  | cons name names ih =>
    obtain ⟨hread, hleft⟩ := Admitted.read_agree hlog hR name
    simp only [readAll, get_passing]
    generalize Admitted.read log o name = r, Admitted.read log' o' name = r' at hread hleft ⊢
    obtain ⟨r, o₁⟩ := r
    obtain ⟨r', o₁'⟩ := r'
    have hrest := ih hleft
    cases hread with
    | error e => exact .error e
    | ok hfound =>
      cases hfound with
      | none => exact hrest
      | some hv => exact hrest.map fun _ _ hes => .cons ⟨rfl, hv⟩ hes

theorem keys_filterMap_eq {β : Type} {part : Addition κ → Option (String × β)}
    (hlog : List.Forall₂ (Addition.ReadsAlike R) log log')
    (hpart : ∀ a b, a.ReadsAlike R b → (part a).map Prod.fst = (part b).map Prod.fst) :
    Record.keys (log.filterMap part) = Record.keys (log'.filterMap part) := by
  unfold Record.keys
  rw [List.map_filterMap, List.map_filterMap]
  induction hlog with
  | nil => rfl
  | @cons a b log log' hab _ ih =>
    rw [List.filterMap_cons, List.filterMap_cons, ih, hpart a b hab]

theorem keys_passing_eq (hlog : List.Forall₂ (Addition.ReadsAlike R) log log') :
    (passing proxyMode c log).keys = (passing proxyMode c log').keys := by
  have hfields := keys_filterMap_eq hlog fun a b h => h.names_eq.1
  have hgetters := keys_filterMap_eq hlog fun a b h => h.names_eq.2
  simp only [keys, passing, Description.propertyKeys, Builder.ofLog, Record.keys_firsts,
    Record.keys_group, hfields, hgetters]

/-- **Two snapshots** of bindings whose members read alike differ only inside containers. -/
theorem snapshot_agree (hlog : List.Forall₂ (Addition.ReadsAlike R) log log') (hR : R o o') :
    Agree Record.AlikeOutside ((passing proxyMode c log).snapshot o).result
      ((passing proxyMode c log').snapshot o').result := by
  unfold snapshot
  rw [keys_passing_eq proxyMode c hlog]
  exact readAll_agree proxyMode c hlog hR _

end Binding

omit [DecidableEq κ] in
/-- Members that claim alike collide alike. -/
theorem Admitted.collisions_eq_of_claimed? {log log' : List (Addition κ)}
    (h : log.map Addition.claimed? = log'.map Addition.claimed?) :
    collisions log = collisions log' := by
  induction log using List.reverseRecOn generalizing log' with
  | nil =>
    obtain rfl : log' = [] := by simpa using h.symm
    rfl
  | append_singleton log a ih =>
    rw [List.map_append, eq_comm, List.map_eq_append_iff] at h
    obtain ⟨front, last, rfl, hfront, hlast⟩ := h
    obtain ⟨a', rfl, ha⟩ := List.map_eq_singleton_iff.1 hlast
    have hclaims : log.filterMap Addition.claimed? = front.filterMap Addition.claimed? := by
      have hsome := congrArg (List.filterMap id) hfront
      simpa [List.filterMap_map] using hsome.symm
    rw [collisions_concat, collisions_concat, ih hfront.symm]
    simp only [collision?, kindsOn, hclaims, ha]

variable {proxyMode c} in
/-- Declarations whose admitted members read alike are published alike. -/
theorem Cache.build_of_readsAlike {members members' : List (Addition κ)} {b : Binding κ}
    {collisions : CollisionPolicy}
    (hlog : List.Forall₂ (Addition.ReadsAlike R)
      (members.filter fun a => (HostTypes.mode c).admits a.exposure)
      (members'.filter fun a => (HostTypes.mode c).admits a.exposure))
    (hb : (Cache.build c (members.map .add) proxyMode (.passThrough κ) collisions).1 = .ok b) :
    b = .passing proxyMode c (members.filter fun a => (HostTypes.mode c).admits a.exposure) ∧
      (Cache.build c (members'.map .add) proxyMode (.passThrough κ) collisions).1 =
        .ok (.passing proxyMode c
          (members'.filter fun a => (HostTypes.mode c).admits a.exposure)) := by
  have hclaimed : (members.filter fun a => (HostTypes.mode c).admits a.exposure).map
        Addition.claimed? =
      (members'.filter fun a => (HostTypes.mode c).admits a.exposure).map Addition.claimed? := by
    rw [← List.forall₂_eq_eq_eq, List.forall₂_map_left_iff, List.forall₂_map_right_iff]
    exact hlog.imp fun a b h => h.claimed?_eq
  rw [build_passThrough] at hb ⊢
  rw [← Admitted.collisions_eq_of_claimed? hclaimed]
  split at hb
  · cases hb
  · rename_i hpublished
    rw [if_neg hpublished]
    exact ⟨(Except.ok.inj hb).symm, rfl⟩

end Runs

end HostBridge
