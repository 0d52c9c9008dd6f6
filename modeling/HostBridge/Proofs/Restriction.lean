import HostBridge.Engine.Read
import HostBridge.Engine.Snapshot
import HostBridge.Host.Bag
import HostBridge.Proofs.Agreement
import HostBridge.Proofs.CopyWhole

/-!
# What restricted classes show

A class that declares a restricted mode shows scripts its admitted members alone, and of their
values nothing that lies inside a container. An instance is copied into an object that is made of
the entries of its snapshot, each container replaced by undefined (`Heap.copyInstance_eq`). Members
that are not admitted leave no trace in the binding (`Cache.build_passThrough`), and if two runs
differ only inside the containers that members answer, the entries differ only there too
(`Binding.snapshot_agree`), so the objects are the same (`Heap.copyInstance_of_restricted`).

One name is special. Assigning under the name of the parent makes no property, so a container under
that name is not replaced by undefined; reading the name gives the parent
(`Heap.copyInstance_hides_parentName`).
-/

namespace HostBridge

/-! ## Scalars in the engine -/

/-- What scripts see of a value that a restricted class answers: a scalar as it is, nothing of a
container. -/
def Value.shown : Value → EngineValue
  | undefined | sealed _ | array _ | object _ => .undefined
  | null => .null
  | bool b => .bool b
  | int i => Heap.ofInt64 i
  | float d => .ofDouble d
  | text s => .ofString s

/-- The entries of a snapshot as scripts see them. -/
def Record.shown (entries : Record Value) : Record EngineValue :=
  entries.map fun e => (e.1, e.2.shown)

/-- The parent after a scalar was assigned under its name, if one was: null takes it away. -/
def Node.parentAfter : Option EngineValue → Option Nat → Option Nat
  | some .null, _ => none
  | _, parent => parent

/-- The object with these scalars as its properties. Under the name of the parent it has none. -/
def Node.ofScalars (scalars : Record EngineValue) : Node where
  props := Record.inside ((scalars.filter fun e => e.1 ≠ parentName).map fun e => (e.1, .plain e.2))
  parent := parentAfter (scalars.get? parentName) (some Standard.object.id)

theorem EngineValue.isObject_ofDouble (d : Double) : (ofDouble d).isObject = false := by
  unfold ofDouble
  split
  · split <;> rfl
  · rfl

namespace Value

theorem isObject_shown (v : Value) : v.shown.isObject = false := by
  cases v with
  | int i =>
    show (Heap.ofInt64 i).isObject = false
    unfold Heap.ofInt64
    split
    · rfl
    · exact EngineValue.isObject_ofDouble _
  | float d => exact EngineValue.isObject_ofDouble d
  | _ => rfl

theorem shown_of_isContainer {v : Value} (h : v.isContainer = true) : v.shown = .undefined := by
  cases v with
  | array items => rfl
  | object entries => rfl
  | _ => cases h

end Value

theorem Value.AlikeOutside.shown_eq {v w : Value} (h : v.AlikeOutside w) : v.shown = w.shown := by
  rcases h with rfl | ⟨hv, hw⟩
  · rfl
  · rw [shown_of_isContainer hv, shown_of_isContainer hw]

theorem Record.AlikeOutside.shown_eq {es es' : Record Value} (h : Record.AlikeOutside es es') :
    Record.shown es = Record.shown es' := by
  unfold Record.shown
  induction h with
  | nil => rfl
  | @cons e e' es es' he _ ih =>
    rw [List.map_cons, List.map_cons, ih, he.1, he.2.shown_eq]

theorem Record.keys_shown (entries : Record Value) :
    Record.keys (Record.shown entries) = Record.keys entries :=
  List.map_map

namespace Heap

/-- A sealed value takes no place on the heap. -/
theorem copyIn_sealContainer (h : Heap) (v : Value) : h.copyIn v.sealContainer = (v.shown, h) := by
  cases v <;> rfl

theorem copyInEntries_sealContainer (h : Heap) (n : Node) (entries : Record Value) :
    h.copyInEntries n (entries.map fun e => (e.1, e.2.sealContainer)) =
      ((Record.shown entries).foldl (fun n e => enter n e.1 e.2) n, h) := by
  induction entries generalizing n with
  | nil => rfl
  | cons e entries ih =>
    rw [List.map_cons, copyInEntries, copyIn_sealContainer]
    exact ih _

/-- A scalar under the name of the parent makes no property. -/
theorem enter_parentName {x : EngineValue} (hx : x.isObject = false) (n : Node) :
    enter n parentName x = { n with parent := Node.parentAfter (some x) n.parent } := by
  unfold enter
  rw [if_pos rfl]
  cases x with
  | ref id => cases hx
  | _ => rfl

theorem enter_of_ne {n : Node} {name : String} (hname : name ≠ parentName)
    (hnew : EngineText.ofString name ∉ n.props.keys) (x : EngineValue) :
    enter n name x = { n with props := n.props ++ [(EngineText.ofString name, .plain x)] } := by
  unfold enter
  rw [if_neg hname, Record.put_of_not_mem _ _ hnew]

/-- Scalars that are entered under distinct names make an object's properties in their order. -/
theorem foldl_enter (scalars : Record EngineValue) (n : Node)
    (hscalar : ∀ e ∈ scalars, e.2.isObject = false) (hnames : scalars.keys.Nodup)
    (hnew : ∀ name ∈ scalars.keys, EngineText.ofString name ∉ n.props.keys) :
    scalars.foldl (fun n e => enter n e.1 e.2) n =
      { n with
        props := n.props ++ (Node.ofScalars scalars).props
        parent := Node.parentAfter (scalars.get? parentName) n.parent } := by
  induction scalars generalizing n with
  | nil => simp [Node.ofScalars, Node.parentAfter, Record.inside]
  | cons e scalars ih =>
    obtain ⟨name, x⟩ := e
    obtain ⟨hx, hrest⟩ := List.forall_mem_cons.1 hscalar
    obtain ⟨hname, hnodup⟩ := List.nodup_cons.1 (Record.keys_cons _ scalars ▸ hnames)
    obtain ⟨hfresh, hothers⟩ := List.forall_mem_cons.1 (Record.keys_cons _ scalars ▸ hnew)
    rw [List.foldl_cons]
    by_cases hparent : name = parentName
    · subst hparent
      -- no other entry can change the parent after this one
      have hnone : Record.get? scalars parentName = none := (Record.get?_eq_none_iff _ _).2 hname
      rw [enter_parentName hx,
        ih { n with parent := Node.parentAfter (some x) n.parent } hrest hnodup hothers, hnone]
      simp [Node.ofScalars, Node.parentAfter, Record.get?]
    · rw [enter_of_ne hparent hfresh]
      have hothers' : ∀ other ∈ Record.keys scalars,
          EngineText.ofString other ∉
            Record.keys (n.props ++ [(EngineText.ofString name, .plain x)]) := by
        intro other hother
        simp only [Record.keys_concat, List.mem_append, List.mem_singleton, not_or,
          EngineText.ofString_inj]
        exact ⟨hothers other hother, fun heq => hname (heq ▸ hother)⟩
      rw [ih _ hrest hnodup hothers']
      simp [Node.ofScalars, Record.get?, Record.inside, hparent]

end Heap

variable {κ : Type} [HostTypes κ] [DecidableEq κ]

/-! ## The copy of an instance -/

/-- A snapshot lists names in the order in which they are read, and leaves out those that nothing
serves. -/
theorem Binding.keys_readAll {b : Binding κ} {o : Object κ} {names : List String}
    {entries : Record Value} (h : (b.readAll o names).result = .ok entries) :
    entries.keys.Sublist names := by
  induction names generalizing o entries with
  | nil =>
    cases h
    exact List.Sublist.slnil
  | cons name names ih =>
    simp only [readAll] at h
    cases hget : (b.get o name).result with
    | error e => simp [hget] at h
    | ok found =>
      cases hrest : (b.readAll (b.get o name).receiver names).result with
      | error e => cases found <;> simp [hget, hrest, Except.map] at h
      | ok rest =>
        cases found with
        | none =>
          simp only [hget, hrest, Except.ok.injEq] at h
          subst h
          exact (ih hrest).cons name
        | some v =>
          simp only [hget, hrest, Except.map, Except.ok.injEq] at h
          subst h
          exact (ih hrest).cons_cons name

/-- **The copy of an instance of a restricted class** is one new object, made of what its snapshot
shows. -/
theorem Heap.copyInstance_eq {b : Binding κ} (hkeys : b.keys.Nodup)
    (hmode : b.policy.conversionMode.convertsNested = false) (h : Heap) (o : Object κ) :
    (h.copyInstance b o).result =
      (b.snapshot o).result.map fun entries => h.alloc (.ofScalars entries.shown) := by
  unfold copyInstance
  cases hshot : (b.snapshot o).result with
  | error e => simp [hshot, Except.map]
  | ok entries =>
    have hnames : entries.shown.keys.Nodup := by
      rw [Record.keys_shown]
      exact hkeys.sublist (Binding.keys_readAll hshot)
    have hscalar : ∀ e ∈ entries.shown, e.2.isObject = false := by
      intro e he
      obtain ⟨e', -, rfl⟩ := List.mem_map.1 he
      exact Value.isObject_shown e'.2
    have hnode := foldl_enter entries.shown {} hscalar hnames (by simp)
    simp only [hshot, ConversionMode.restrict, hmode, Bool.false_eq_true, if_false, Except.map]
    rw [copyIn, copyInEntries_sealContainer, hnode]
    rfl

/-! ## What the copy shows -/

/-- An object shows entries as a restricted class lets them be seen. -/
structure Node.Shows (n : Node) (entries : Record Value) : Prop where
  kind : n.kind = .plain
  /-- The properties are the entries, but for one under the name of the parent. -/
  keys_eq : Record.keys n.props =
    ((Record.keys entries).filter fun name => name ≠ parentName).map EngineText.ofString
  get?_eq : ∀ name v, (name, v) ∈ entries → name ≠ parentName →
    Record.get? n.props name = some (.plain v.shown)
  /-- A container arrives as undefined. -/
  get?_container : ∀ name v, (name, v) ∈ entries → name ≠ parentName → v.isContainer = true →
    Record.get? n.props name = some (.plain .undefined)
  /-- No property leads to an object. -/
  scalar : ∀ e ∈ n.props, ∃ x : EngineValue, e.2 = .plain x ∧ x.isObject = false
  /-- The object inherits from no other than the standard object. -/
  parent : n.parent = some Standard.object.id ∨ n.parent = none

theorem Node.shows_ofScalars {entries : Record Value} (hnames : (Record.keys entries).Nodup) :
    (Node.ofScalars (Record.shown entries)).Shows entries := by
  have hkeys : Record.keys (Node.ofScalars (Record.shown entries)).props =
      ((Record.keys entries).filter fun name => name ≠ parentName).map EngineText.ofString := by
    simp [Node.ofScalars, Record.inside, Record.shown, Record.keys, List.filter_map,
      Function.comp_def]
  have hget : ∀ name v, (name, v) ∈ entries → name ≠ parentName →
      Record.get? (Node.ofScalars (Record.shown entries)).props name =
        some (.plain v.shown) := by
    intro name v hmem hname
    rw [Node.ofScalars, Record.get?_inside]
    apply Record.get?_of_mem
    · have hsub : (Record.keys ((Record.shown entries).filter fun e => e.1 ≠ parentName)).Sublist
          (Record.keys entries) := by
        rw [← Record.keys_shown]
        exact List.filter_sublist.map _
      rw [Record.NodupKeys, Record.keys_map]
      exact hnames.sublist hsub
    · refine List.mem_map.2 ⟨(name, v.shown), List.mem_filter.2 ⟨?_, by simpa using hname⟩, rfl⟩
      exact List.mem_map.2 ⟨(name, v), hmem, rfl⟩
  refine ⟨rfl, hkeys, hget, ?_, ?_, ?_⟩
  · intro name v hmem hname hv
    rw [hget name v hmem hname, Value.shown_of_isContainer hv]
  · intro e he
    obtain ⟨p, hp, rfl⟩ := List.mem_map.1 he
    obtain ⟨e', he', rfl⟩ := List.mem_map.1 hp
    obtain ⟨e'', -, rfl⟩ := List.mem_map.1 (List.mem_filter.1 he').1
    exact ⟨_, rfl, Value.isObject_shown e''.2⟩
  · unfold Node.ofScalars Node.parentAfter
    split
    · exact .inr rfl
    · exact .inl rfl

section Passing

variable {c : κ} (hmode : (HostTypes.mode c).convertsNested = false) (proxyMode : ProxyMode)
include hmode

theorem Heap.copyInstance_passing (log : List (Addition κ)) (h : Heap) (o : Object κ) :
    (h.copyInstance (.passing proxyMode c log) o).result =
      ((Binding.passing proxyMode c log).snapshot o).result.map fun entries =>
        h.alloc (.ofScalars (Record.shown entries)) :=
  copyInstance_eq (b := .passing proxyMode c log) (Builder.nodup_propertyKeys_ofLog c log) hmode h o

/-- **One run.** The copy shows the entries of the snapshot, and its properties are named for
admitted fields and getters. -/
theorem Heap.exists_shows_of_copyInstance {log : List (Addition κ)} {h h' : Heap} {o : Object κ}
    {x : EngineValue}
    (hresult : (h.copyInstance (.passing proxyMode c log) o).result = .ok (x, h')) :
    ∃ n entries, (x, h') = h.alloc n ∧
      ((Binding.passing proxyMode c log).snapshot o).result = .ok entries ∧ n.Shows entries ∧
      ∀ name ∈ Record.keys n.props,
        ∃ a ∈ log, a.property?.map EngineText.ofString = some name := by
  rw [copyInstance_passing hmode] at hresult
  cases hshot : ((Binding.passing proxyMode c log).snapshot o).result with
  | error e =>
    rw [hshot] at hresult
    cases hresult
  | ok entries =>
    rw [hshot] at hresult
    have hnames := Binding.keys_readAll hshot
    have hshows := Node.shows_ofScalars ((Builder.nodup_propertyKeys_ofLog c log).sublist hnames)
    refine ⟨_, entries, (Except.ok.inj hresult).symm, rfl, hshows, ?_⟩
    intro name hname
    rw [hshows.keys_eq] at hname
    obtain ⟨key, hkey, rfl⟩ := List.mem_map.1 hname
    obtain ⟨a, ha, hproperty⟩ := (Builder.mem_propertyKeys_ofLog c log key).1
      (hnames.subset (List.mem_filter.1 hkey).1)
    exact ⟨a, ha, by rw [hproperty, Option.map_some]⟩

/-- **Two runs.** Where the members read alike, the copies are the same. -/
theorem Heap.copyInstance_eq_of_readsAlike {R : Object κ → Object κ → Prop}
    {log log' : List (Addition κ)} (hlog : List.Forall₂ (Addition.ReadsAlike R) log log') (h : Heap)
    {o o' : Object κ} (hR : R o o') :
    (h.copyInstance (.passing proxyMode c log') o').result =
      (h.copyInstance (.passing proxyMode c log) o).result := by
  have hagree := Binding.snapshot_agree proxyMode c hlog hR
  rw [copyInstance_passing hmode, copyInstance_passing hmode]
  generalize ((Binding.passing proxyMode c log).snapshot o).result = r,
    ((Binding.passing proxyMode c log').snapshot o').result = r' at hagree ⊢
  cases hagree with
  | error e => rfl
  | ok hentries => rw [Except.map, Except.map, hentries.shown_eq]

end Passing

namespace Guarded

/-- A class that lets through what is marked. -/
def info : ClassInfo :=
  { path := "host::Guarded", name := "Guarded", declaredMode := some .allowOnly }

/-- A marked getter that answers an array. -/
def tags (items : List Value) : Method HostType :=
  { Method.getter "tags" (HostType.bag info) (fun _ => .array items) with exposure := .allow }

/-- A marked field and a marked getter. -/
def marked (items : List Value) : List (Addition HostType) :=
  [(BagMember.field "code" (.prop "code") none).addition info .allow, .getter (tags items)]

theorem readsAlike_marked (items items' : List Value) :
    List.Forall₂ (Addition.ReadsAlike Eq) (marked items) (marked items') := by
  refine .cons (.refl _) (.cons (.getter rfl rfl ?_) .nil)
  rintro o _ rfl
  by_cases htype : o.type = .bag info
  · obtain ⟨type, state⟩ := o
    subst htype
    exact ⟨.ok (.inr ⟨rfl, rfl⟩), rfl⟩
  · have hmismatch : ∀ vs, (tags vs).invoke o [] = (.error (.receiverMismatch info.path), o) :=
      fun vs => Object.run_of_ne o (.bag info) htype _
    rw [hmismatch, hmismatch]
    exact ⟨.error _, rfl⟩

/-- A field that is not marked. -/
def unmarked : Addition HostType := (BagMember.field "secret" .all none).addition info .unmarked

/-- An instance. -/
def sample : HostObject := .bag info [("code", .int 7)]

/-- A marked field under the name of the parent. -/
def parental : Addition HostType :=
  (BagMember.field parentName (.const (.array [.int 7])) none).addition info .allow

/-- The class built from members, where collisions are rejected. -/
def build (members : List (Addition HostType)) : Except RegistryError (Binding HostType) :=
  (Cache.build (.bag info) (members.map .add) .objectProxy (.passThrough HostType) .reject).1

end Guarded

namespace Heap

/-- **Restricted classes show only what they let through.** Let a class declare a restricted mode,
and build it from members, without redirects and with the strategy that passes every access on.
Then a copied instance is one new object, which shows the entries of the snapshot. Its properties
are named for admitted fields and getters alone, and none of them leads to an object: a container
arrives as undefined, unless its name is that of the parent, which is no property.

Members that are not admitted change nothing of the binding. If the admitted members of two
declarations differ at most inside the containers they answer, then both are built or none is, and
copies of receivers in relation are the same, down to the fault where copying fails. -/
theorem copyInstance_of_restricted {c : κ} {mode : ConversionMode}
    (hdeclared : HostTypes.declaredMode c = some mode) (hmode : mode ≠ .transparent)
    {members : List (Addition κ)} {proxyMode : ProxyMode} {collisions : CollisionPolicy}
    {b : Binding κ}
    (hb : (Cache.build c (members.map .add) proxyMode (.passThrough κ) collisions).1 = .ok b) :
    (∀ (h h' : Heap) (o : Object κ) (x : EngineValue),
      (h.copyInstance b o).result = .ok (x, h') →
      ∃ n entries, (x, h') = h.alloc n ∧ (b.snapshot o).result = .ok entries ∧ n.Shows entries ∧
        ∀ name ∈ Record.keys n.props, ∃ a ∈ members,
          a.property?.map EngineText.ofString = some name ∧
          (mode = .allowOnly → a.exposure = .allow) ∧
          (mode = .blockOnly → a.exposure ≠ .block)) ∧
    (∀ members' : List (Addition κ),
      members'.filter (fun a => mode.admits a.exposure) =
        members.filter (fun a => mode.admits a.exposure) →
      (Cache.build c (members'.map .add) proxyMode (.passThrough κ) collisions).1 = .ok b) ∧
    ∀ (R : Object κ → Object κ → Prop) (members' : List (Addition κ)),
      List.Forall₂ (Addition.ReadsAlike R) (members.filter fun a => mode.admits a.exposure)
        (members'.filter fun a => mode.admits a.exposure) →
      ∃ b', (Cache.build c (members'.map .add) proxyMode (.passThrough κ) collisions).1 = .ok b' ∧
        ∀ (h : Heap) (o o' : Object κ), R o o' →
          (h.copyInstance b' o').result = (h.copyInstance b o).result := by
  obtain rfl : HostTypes.mode c = mode := by
    rw [HostTypes.mode, hdeclared]
    rfl
  have hnested : (HostTypes.mode c).convertsNested = false := by
    cases hc : HostTypes.mode c with
    | transparent => exact absurd hc hmode
    | allowOnly => rfl
    | blockOnly => rfl
  have hself : List.Forall₂ (Addition.ReadsAlike Eq)
      (members.filter fun a => (HostTypes.mode c).admits a.exposure)
      (members.filter fun a => (HostTypes.mode c).admits a.exposure) :=
    List.forall₂_same.2 fun a _ => .refl a
  obtain ⟨rfl, -⟩ := Cache.build_of_readsAlike hself hb
  refine ⟨?_, ?_, ?_⟩
  · intro h h' o x hresult
    obtain ⟨n, entries, halloc, hshot, hshows, hnames⟩ :=
      exists_shows_of_copyInstance hnested proxyMode hresult
    refine ⟨n, entries, halloc, hshot, hshows, ?_⟩
    intro name hname
    obtain ⟨a, ha, hproperty⟩ := hnames name hname
    obtain ⟨hmem, hadmits⟩ := List.mem_filter.1 ha
    refine ⟨a, hmem, hproperty, ?_, ?_⟩
    · intro hallow
      simpa [hallow, ConversionMode.admits] using hadmits
    · intro hblock
      simpa [hblock, ConversionMode.admits] using hadmits
  · intro members' hsame
    rw [Cache.build_passThrough] at hb ⊢
    rw [hsame]
    exact hb
  · intro R members' hlog
    obtain ⟨-, hb'⟩ := Cache.build_of_readsAlike hlog hb
    refine ⟨_, hb', ?_⟩
    intro h o o' hR
    exact copyInstance_eq_of_readsAlike hnested proxyMode hlog h hR

open Guarded in
/-- The unmarked field and the contents of the array do not show. -/
theorem copyInstance_of_restricted_guarded :
    ∃ b b', Guarded.build (marked [.int 1] ++ [unmarked]) = .ok b ∧
      Guarded.build (marked [.text "x", .null]) = .ok b' ∧
      (∃ n, (({} : Heap).copyInstance b sample).result = .ok (({} : Heap).alloc n) ∧
        Record.keys n.props = ["code", "tags"] ∧
        Record.get? n.props "tags" = some (.plain .undefined)) ∧
      ∀ (h : Heap) (o : HostObject),
        (h.copyInstance b' o).result = (h.copyInstance b o).result := by
  have hb : Guarded.build (marked [.int 1] ++ [unmarked]) =
      .ok (.passing .objectProxy (.bag info) (marked [.int 1])) := rfl
  obtain ⟨hshown, -, hruns⟩ := copyInstance_of_restricted
    (rfl : HostTypes.declaredMode (HostType.bag info) = some .allowOnly) (by decide) hb
  obtain ⟨b', hb', hsame⟩ := hruns Eq (marked [.text "x", .null])
    (readsAlike_marked [.int 1] [.text "x", .null])
  refine ⟨_, b', hb, hb', ?_, fun h o => hsame h o o rfl⟩
  obtain ⟨n, entries, halloc, hshot, hshows, -⟩ := hshown {} _ sample _ rfl
  obtain rfl : [("code", .int 7), ("tags", .array [.int 1])] = entries := Except.ok.inj hshot
  exact ⟨n, congrArg Except.ok halloc, hshows.keys_eq,
    hshows.get?_container "tags" (.array [.int 1]) (by simp) (by decide) rfl⟩

open Guarded in
/-- A container under the name of the parent does not arrive as undefined: the object has no such
property, and reading the name gives the object from which it inherits. -/
theorem copyInstance_hides_parentName :
    ∃ b x h', Guarded.build [parental] = .ok b ∧
      (b.snapshot sample).result = .ok [(parentName, .array [.int 7])] ∧
      (({} : Heap).copyInstance b sample).result = .ok (x, h') ∧
      h'.get x parentName = .value (.ref Standard.object.id) :=
  ⟨_, _, _, rfl, rfl, rfl, rfl⟩

end Heap

end HostBridge
