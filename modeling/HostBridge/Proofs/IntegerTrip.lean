import HostBridge.Proofs.IntegerView
import HostBridge.Proofs.Position

/-!
# Integers through the engine

An integer goes into the engine as an integer if it has 32 bits, else as the nearest double. Up to
`2^53` that double is the integer itself, and the integer view of doubles is exact, so in whichever
of the two forms the engine holds the number, what comes out is viewed as the integer that went in.
This carries over to every position of a larger value at which the copy has anything at all and to
which the names are kept (`Heap.copyOut_copyIn_integer`).

The names are a true condition: they are cut at null characters, so that one integer may come back
in the place of another, and nothing comes back under the name of the parent
(`Heap.roundTrip_replaces_integer`).
-/

namespace HostBridge

/-- The number for which an engine value stands. -/
def EngineValue.number? : EngineValue → Option ℚ
  | int k => some k.toInt
  | float d => d.value?
  | _ => none

theorem Double.value?_ofInt {n : ℤ} (hn : n.natAbs ≤ 2 ^ 53) : (ofInt n).value? = some (n : ℚ) :=
  value?_eq_some_intCast_iff.2 (rank_of_toInt? (toInt?_ofInt hn))

/-- An integer that has come back is still viewed as it was. -/
theorem Value.toInt64?_normal_int {i : Int64} (hi : i.toInt.natAbs ≤ 2 ^ 53)
    (make : Record Value → Value) : ((int i).normal make).toInt64? = some i := by
  rw [normal]
  split
  · rfl
  · exact wholeInt64?_eq_some_iff_value?.2 (Double.value?_ofInt hi)

namespace Heap

variable {h : Heap} {mode : ConversionMode}

/-- An integer of 32 bits stays an integer in the engine. -/
theorem ofInt64_of_fitsInt32 {i : Int64} (hi : Value.FitsInt32 i.toInt) :
    ∃ k : Int32, ofInt64 i = .int k ∧ k.toInt = i.toInt := by
  obtain ⟨hle, hlt⟩ := Value.fitsInt32_iff.1 hi
  exact ⟨Int32.ofInt i.toInt, if_pos ⟨hle, hlt⟩, Int32.toInt_ofInt_of_le hle hlt⟩

/-- Any other integer is a double there. -/
theorem ofInt64_of_not_fitsInt32 {i : Int64} (hi : ¬ Value.FitsInt32 i.toInt) :
    ofInt64 i = .float (Double.ofInt i.toInt) := by
  have hlook := look_ofInt64 {} i .object
  rw [Value.normal, if_neg hi] at hlook
  have hdouble : ofInt64 i = EngineValue.ofDouble (Double.ofInt i.toInt) :=
    if_neg fun hfits => hi (Value.fitsInt32_iff.2 hfits)
  rw [hdouble, EngineValue.ofDouble] at hlook ⊢
  split at hlook
  · split at hlook
    · cases hlook
    · rename_i hlarge
      rw [if_neg hlarge]
  · rfl

/-- What stands for an integer of 64 bits is viewed as that integer outside. -/
theorem copyOut_of_number? {x : EngineValue} {i : Int64} (hx : x.number? = some (i.toInt : ℚ)) :
    ∃ u, h.copyOut mode x = .ok u ∧ u.toInt64? = some i := by
  have hleaf : ∀ u, h.look x = .ok (.leaf u) → h.copyOut mode x = .ok u := fun u hu => by
    rw [copyOut, copyWithin_leaf hu]
    rfl
  cases x with
  | int k =>
    refine ⟨_, hleaf _ rfl, ?_⟩
    have hk : k.toInt = i.toInt := by exact_mod_cast Option.some.inj hx
    rw [Value.toInt64?, Option.some.injEq, ← Int64.toInt_inj, Int32.toInt_toInt64, hk]
  | float d => exact ⟨_, hleaf _ rfl, Value.wholeInt64?_eq_some_iff_value?.2 hx⟩
  | _ => cases hx

/-- **Integers up to `2^53` come back from the engine.** There they are integers if they have 32
bits and doubles else, of the same number in both cases, and whatever stands for an integer in the
engine is viewed as it outside.

The same holds at every position of a value, in every mode, if the names on the way to it are kept:
the value can be copied, and the integer is at its position, if that is within the limits of
copying, or if at least no container on the way to it is sealed in the copy. -/
theorem copyOut_copyIn_integer (h : Heap) (mode : ConversionMode) :
    (∀ i : Int64, -2 ^ 53 ≤ i.toInt → i.toInt ≤ 2 ^ 53 →
      (h.copyIn (.int i)).1.number? = some (i.toInt : ℚ) ∧
      ((∃ k, (h.copyIn (.int i)).1 = .int k) ↔ Value.FitsInt32 i.toInt) ∧
      ((∃ d, (h.copyIn (.int i)).1 = .float d) ↔ ¬ Value.FitsInt32 i.toInt)) ∧
    (∀ (x : EngineValue) (i : Int64), x.number? = some (i.toInt : ℚ) →
      ∃ u, h.copyOut mode x = .ok u ∧ u.toInt64? = some i) ∧
    ∀ v : Value, (∀ r ∈ v.objects, r.NodupKeys) →
      ∃ u, (h.copyIn v).2.copyOut mode (h.copyIn v).1 = .ok u ∧
        ∀ (steps : List Value.Step) (i : Int64), v.KeepsWay steps →
          v.at? steps = some (.int i) → -2 ^ 53 ≤ i.toInt → i.toInt ≤ 2 ^ 53 →
          (steps.length ≤ levels mode → v.containers ≤ maxContainers →
            (u.at? steps).bind Value.toInt64? = some i) ∧
          ((∀ before name, before <+: steps → u.at? before ≠ some (.sealed name)) →
            (u.at? steps).bind Value.toInt64? = some i) := by
  refine ⟨fun i hlow hhigh => ?_, fun x i => copyOut_of_number?, fun v hnames => ?_⟩
  · rw [copyIn]
    by_cases hfits : Value.FitsInt32 i.toInt
    · obtain ⟨k, hk, hki⟩ := ofInt64_of_fitsInt32 hfits
      simp [hk, hki, hfits, EngineValue.number?]
    · have hvalue := Double.value?_ofInt (n := i.toInt) (by omega)
      simp [ofInt64_of_not_fitsInt32 hfits, hfits, EngineValue.number?, hvalue]
  · obtain ⟨u, hu, hshows⟩ := exists_copyOut_copyIn hnames h mode
    refine ⟨u, hu, fun steps i hway hi hlow hhigh => ?_⟩
    have hscalar := Value.isContainer_normal (v := .int i) objectOf rfl
    have hview := Value.toInt64?_normal_int (i := i) (by omega) objectOf
    rcases hshows steps _ (Value.at?_normal hnames hway hi) hscalar with
      hat | ⟨before, name, hprefix, hlt, hsealed, hfar⟩
    · rw [hat, Option.bind_some, hview]
      exact ⟨fun _ _ => rfl, fun _ => rfl⟩
    · -- a container on the way is sealed, so the position is beyond the limits
      refine ⟨fun hlength hcount => ?_,
        fun hreached => absurd hsealed (hreached before name hprefix)⟩
      omega

/-- The ends of the range come back from inside an array of an object, and an integer of 32 bits
beside them. -/
theorem copyOut_copyIn_integer_ends :
    let v : Value := .object [("ends", .array [.int (-9007199254740992), .int 9007199254740992]),
      ("count", .int (-2147483648))]
    v.at? [.entry "ends", .item 1] = some (.int 9007199254740992) ∧
    v.at? [.entry "count"] = some (.int (-2147483648)) ∧
    ∃ u, (({} : Heap).copyIn v).2.copyOut .transparent (({} : Heap).copyIn v).1 = .ok u ∧
      (u.at? [.entry "ends", .item 1]).bind Value.toInt64? = some 9007199254740992 ∧
      (u.at? [.entry "count"]).bind Value.toInt64? = some (-2147483648) := by
  intro v
  have hnames : ∀ r ∈ v.objects, r.NodupKeys := by
    simp [v, Value.objects, Value.objectsOfEntries, Value.objectsOfItems, Record.NodupKeys]
  have hcount : v.containers ≤ maxContainers := by
    have htwo : v.containers = 2 := rfl
    rw [htwo]
    decide
  have hkeys : ∀ name, name = "ends" ∨ name = "count" →
      Record.KeepsName [("ends", Value.array [.int (-9007199254740992), .int 9007199254740992]),
        ("count", .int (-2147483648))] name := by
    rintro name (rfl | rfl) <;>
      exact Record.keepsName_of_forall (by decide) (by simp) (by simp)
  have hends : v.KeepsWay [.entry "ends", .item 1] := by
    refine ⟨hkeys _ (.inl rfl), fun u hu => ?_⟩
    cases hu
    exact ⟨trivial, fun _ _ => trivial⟩
  have hsmall : v.KeepsWay [.entry "count"] := ⟨hkeys _ (.inr rfl), fun _ _ => trivial⟩
  obtain ⟨u, hu, hat⟩ := (copyOut_copyIn_integer {} .transparent).2.2 v hnames
  refine ⟨rfl, rfl, u, hu, ?_, ?_⟩
  · exact (hat _ _ hends rfl (by decide) (by decide)).1 (by decide) hcount
  · exact (hat _ _ hsmall rfl (by decide) (by decide)).1 (by decide) hcount

/-- An integer is replaced by another whose name is the same up to its null character, and one that
stands under the name of the parent is lost. -/
theorem roundTrip_replaces_integer :
    let v : Value := .object [("a", .int 1), ("a\x00b", .int 2)]
    let u : Value := .object [("__proto__", .int 5)]
    v.at? [.entry "a"] = some (.int 1) ∧
    ({} : Heap).roundTrip v = .ok (.object [("a", .int 2)]) ∧
    u.at? [.entry "__proto__"] = some (.int 5) ∧
    ({} : Heap).roundTrip u = .ok (.object []) := by
  intro v u
  have hmerged : ({} : Heap).roundTrip v = .ok (.object [("a", .int 2)]) := by cbv
  have hparent : ({} : Heap).roundTrip u = .ok (.object []) := by cbv
  exact ⟨rfl, hmerged, rfl, hparent⟩

end Heap

end HostBridge
