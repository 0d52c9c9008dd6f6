import HostBridge.Text.Surrogate

/-!
# Texts inside the engine

A script engine's texts are sequences of 16-bit units, so half of a surrogate pair may stand alone
in one. An engine text is a list of characters and such lone halves, and it has a text form outside
the engine exactly when there is no lone half in it.
-/

namespace HostBridge

/-- A character of an engine text, or half of a surrogate pair that stands alone. -/
inductive Point where
  | char (c : Char)
  | lone (unit : Nat)
deriving DecidableEq

/-- A text as the engine holds it. -/
abbrev EngineText := List Point

namespace EngineText

/-- A text from outside the engine. -/
def ofString (s : String) : EngineText := s.toList.map .char

instance : Coe String EngineText := ⟨ofString⟩

/-- A unit that is not part of a pair. -/
def ofUnit (unit : Nat) : Point :=
  if Surrogate.isHigh unit || Surrogate.isLow unit then .lone unit else .char (Char.ofNat unit)

/-- The text of a sequence of 16-bit units. -/
def ofUnits : List Nat → EngineText
  | [] => []
  | [unit] => [ofUnit unit]
  | a :: b :: units =>
    if Surrogate.isHigh a && Surrogate.isLow b then
      .char (Surrogate.char a b) :: ofUnits units
    else ofUnit a :: ofUnits (b :: units)

/-- The 16-bit units of a point. -/
def pointUnits : Point → List Nat
  | .char c => if c.toNat < 0x10000 then [c.toNat] else Surrogate.halves c
  | .lone unit => [unit]

/-- The 16-bit units of a text. -/
def units (t : EngineText) : List Nat := t.flatMap pointUnits

/-- Two texts one after the other. Halves of a pair that come together become a character. -/
def append (a b : EngineText) : EngineText := ofUnits (units a ++ units b)

/-- The texts of the units of a text, one by one. -/
def singles (t : EngineText) : List EngineText := (units t).map fun u => [ofUnit u]

/-- The text of one unit of a text. -/
def unitAt? (t : EngineText) (i : Nat) : Option EngineText := (singles t)[i]?

/-- The characters of a text whose first byte outside the engine is number `offset`, or the number
of the byte at which a lone half would start. -/
def decodeFrom (offset : Nat) : EngineText → Except Nat (List Char)
  | [] => .ok []
  | .char c :: t => (decodeFrom (offset + c.utf8Size) t).map (c :: ·)
  | .lone _ :: _ => .error offset

/-- The text outside the engine, or the byte offset of the first lone half. -/
def decode (t : EngineText) : Except Nat String := (decodeFrom 0 t).map String.ofList

/-- The characters of a text, with lone halves left out. -/
def plain (t : EngineText) : String :=
  String.ofList (t.filterMap fun
    | .char c => some c
    | .lone _ => none)

theorem decodeFrom_ofChars (offset : Nat) (cs : List Char) :
    decodeFrom offset (cs.map .char) = .ok cs := by
  induction cs generalizing offset with
  | nil => rfl
  | cons c cs ih => simp [decodeFrom, ih, Except.map]

/-- A text that comes from outside goes back unchanged. -/
@[simp] theorem decode_ofString (s : String) : (ofString s).decode = .ok s := by
  simp [decode, ofString, decodeFrom_ofChars, Except.map]

@[simp] theorem plain_ofString (s : String) : (ofString s).plain = s := by
  have hchars (cs : List Char) : (cs.map Point.char).filterMap (fun
      | .char c => some c
      | .lone _ => none) = cs := by
    induction cs with
    | nil => rfl
    | cons c cs ih => simp [ih]
  rw [plain, ofString, hchars, String.ofList_toList]

theorem ofString_injective {s s' : String} (h : ofString s = ofString s') : s = s' := by
  have hdecode := congrArg decode h
  rw [decode_ofString, decode_ofString] at hdecode
  exact Except.ok.inj hdecode

@[simp] theorem ofString_inj {s s' : String} : ofString s = ofString s' ↔ s = s' :=
  ⟨ofString_injective, congrArg ofString⟩

end EngineText

end HostBridge
