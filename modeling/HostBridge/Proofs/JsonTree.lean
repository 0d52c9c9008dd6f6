import HostBridge.Proofs.WrittenText

/-!
# JSON texts as trees

A tree holds a JSON text in full: what it says and how that is spelled, with the white space between
its tokens, the escapes in its texts and the digits of its numbers. `Tree.chars` is the text, so the
texts of trees are those that the grammar of JSON allows.

A text between quotes is a list of pieces. The grammar lets it escape half of a surrogate pair that
stands alone, and then it denotes nothing (`Literal.meaning?`). Such a text can be skipped, but a
reader that has to know what it denotes refuses it as malformed.
-/

namespace HostBridge.Json

/-! ## White space -/

/-- White space between tokens. -/
structure Blanks where
  chars : List Char
  blank : ∀ c ∈ chars, isBlank c = true

/-- No white space. -/
def Blanks.none : Blanks := ⟨[], nofun⟩

/-- Something with white space around it. -/
structure Padded (α : Type) where
  before : Blanks := .none
  content : α
  after : Blanks := .none

theorem Blanks.dropBlanks_append (b : Blanks) (cs : List Char) :
    dropBlanks (b.chars ++ cs) = dropBlanks cs :=
  Json.dropBlanks_append b.blank cs

/-! ## Texts -/

/-- A piece of a text between quotes. -/
inductive Piece where
  /-- A character that stands for itself. -/
  | plain (c : Char) (h : c ≠ '"' ∧ c ≠ '\\' ∧ Quoted.isControl c = false)
  /-- An escape of one letter. -/
  | letter (e c : Char) (h : Quoted.letter? e = some c)
  /-- An escape of a 16-bit unit. -/
  | unit (a b c d : Char) (n : Nat) (h : Quoted.unit? a b c d = some n)

/-- The characters of a piece. -/
def Piece.chars : Piece → List Char
  | plain c _ => [c]
  | letter e _ _ => ['\\', e]
  | unit a b c d _ _ => ['\\', 'u', a, b, c, d]

/-- A text between quotes. -/
abbrev Literal := List Piece

namespace Literal

/-- The characters between the quotes. -/
def inner (q : Literal) : List Char := q.flatMap Piece.chars

/-- The text with its quotes. -/
def chars (q : Literal) : List Char := '"' :: (inner q ++ ['"'])

/-- What a text denotes. Half of a surrogate pair denotes nothing by itself. -/
def meaning? : Literal → Option (List Char)
  | [] => some []
  | .plain c _ :: q => (meaning? q).map (c :: ·)
  | .letter _ c _ :: q => (meaning? q).map (c :: ·)
  | .unit _ _ _ _ n _ :: q =>
    if Surrogate.isLow n then none
    else if Surrogate.isHigh n then
      match q with
      | .unit _ _ _ _ m _ :: q =>
        if Surrogate.isLow m then (meaning? q).map (Surrogate.char n m :: ·) else none
      | _ => none
    else (meaning? q).map (Char.ofNat n :: ·)

/-- What a text denotes, as a string. -/
def string? (q : Literal) : Option String := (meaning? q).map String.ofList

end Literal

/-! ## Numbers -/

/-- One or more digits. -/
structure Digits where
  chars : List Char
  digit : ∀ c ∈ chars, Numeral.isDigit c = true
  nonempty : chars ≠ []

/-- An exponent with its mark. -/
structure Exponent where
  mark : Char
  isMark : mark = 'e' ∨ mark = 'E'
  sign : Option Bool
  digits : Digits

/-- The characters of an exponent. -/
def Exponent.chars (e : Exponent) : List Char :=
  e.mark :: (e.sign.elim [] (fun negative => [if negative then '-' else '+']) ++ e.digits.chars)

/-- A number as it is written. -/
structure Number where
  negative : Bool := false
  whole : Digits
  noZeros : whole.chars.head? = some '0' → whole.chars = ['0']
  fraction : Option Digits := none
  exponent : Option Exponent := none

/-- The characters of a number. -/
def Number.chars (n : Number) : List Char :=
  (if n.negative then ['-'] else []) ++ n.whole.chars ++
    (n.fraction.elim [] fun ds => '.' :: ds.chars) ++ n.exponent.elim [] Exponent.chars

/-! ## Trees -/

/-- A JSON value as it is written. White space that stands alone in brackets, or in front of the
first item, is `inside`. -/
inductive Tree where
  | null
  | flag (b : Bool)
  | number (n : Number)
  | text (q : Literal)
  | list (inside : Blanks) (items : List (Padded Tree))
  | object (inside : Blanks) (members : List (Padded Literal × Padded Tree))

/-- A member of an object: its name and its value. -/
abbrev Member := Padded Literal × Padded Tree

/-- The text of something with the white space around it. -/
def Padded.chars {α : Type} (text : α → List Char) (p : Padded α) : List Char :=
  p.before.chars ++ (text p.content ++ p.after.chars)

/-- Texts with commas between them, and one in front unless the first is the first of all. -/
def commaed (first : Bool) : List (List Char) → List Char
  | [] => []
  | t :: ts => (if first then t else ',' :: t) ++ commaed false ts

namespace Tree

mutual

/-- The text of a tree. -/
def chars : Tree → List Char
  | null => ['n', 'u', 'l', 'l']
  | flag b => Settings.flagText b
  | number n => n.chars
  | text q => q.chars
  | list inside items => '[' :: (inside.chars ++ (commaed true (itemTexts items) ++ [']']))
  | object inside members =>
    '{' :: (inside.chars ++ (commaed true (memberTexts members) ++ ['}']))

/-- The texts of the items of a list. -/
def itemTexts : List (Padded Tree) → List (List Char)
  | [] => []
  | ⟨before, t, after⟩ :: items => (before.chars ++ (chars t ++ after.chars)) :: itemTexts items

/-- The texts of the members of an object. -/
def memberTexts : List (Padded Literal × Padded Tree) → List (List Char)
  | [] => []
  | (name, ⟨before, t, after⟩) :: members =>
    (name.chars Literal.chars ++ ':' :: (before.chars ++ (chars t ++ after.chars))) ::
      memberTexts members

end

end Tree

/-- The text of a member. -/
def Member.chars (m : Member) : List Char :=
  m.1.chars Literal.chars ++ ':' :: m.2.chars Tree.chars

namespace Tree

theorem itemTexts_eq (items : List (Padded Tree)) :
    itemTexts items = items.map (Padded.chars chars) := by
  induction items with
  | nil => rfl
  | cons i items ih => rw [itemTexts, ih, List.map_cons, Padded.chars]

theorem memberTexts_eq (members : List Member) :
    memberTexts members = members.map Member.chars := by
  induction members with
  | nil => rfl
  | cons m members ih =>
    rw [memberTexts, ih, List.map_cons, Member.chars, Padded.chars]
    rfl

/-- Induction over a tree and the trees in it. -/
@[elab_as_elim]
theorem ind {P : Tree → Prop} (null : P .null) (flag : ∀ b, P (.flag b))
    (number : ∀ n, P (.number n)) (text : ∀ q, P (.text q))
    (list : ∀ inside items, (∀ i ∈ items, P i.content) → P (.list inside items))
    (object : ∀ inside members, (∀ m ∈ members, P m.2.content) → P (.object inside members))
    (t : Tree) : P t := by
  refine @Tree.rec P (fun items => ∀ i ∈ items, P i.content)
    (fun members => ∀ m ∈ members, P m.2.content) (fun i => P i.content) (fun m => P m.2.content)
    null flag number text list object ?_ ?_ ?_ ?_ (fun _ _ _ h => h) (fun _ _ h => h) t
  · simp
  · exact fun i items hi hitems => List.forall_mem_cons.2 ⟨hi, hitems⟩
  · simp
  · exact fun m members hm hmembers => List.forall_mem_cons.2 ⟨hm, hmembers⟩

end Tree

/-! ## What texts are read as -/

theorem toOption_map {ε α β : Type} (f : α → β) (r : Except ε α) :
    (r.map f).toOption = r.toOption.map f := by
  cases r <;> rfl

theorem eq_ok_of_toOption {ε α : Type} {r : Except ε α} {a : α} (h : r.toOption = some a) :
    r = .ok a := by
  cases r with
  | error e => cases h
  | ok b => cases h; rfl

namespace Quoted

theorem read_letter {e c : Char} (h : letter? e = some c) (rest : List Char) :
    read ('\\' :: e :: rest) = push c (read rest) := by
  have hu : e ≠ 'u' := by
    rintro rfl
    cases h
  rw [read]
  · rw [h]
  · exact fun _ _ _ _ _ he _ => hu he
  · exact hu

section Units

variable {a b c d : Char} {n : Nat} (h : unit? a b c d = some n)

include h

theorem read_unit (hlow : Surrogate.isLow n = false) (hhigh : Surrogate.isHigh n = false)
    (rest : List Char) :
    read ('\\' :: 'u' :: a :: b :: c :: d :: rest) = push (Char.ofNat n) (read rest) := by
  rw [read, h]
  simp [hlow, hhigh]

theorem read_low (hlow : Surrogate.isLow n = true) (rest : List Char) :
    read ('\\' :: 'u' :: a :: b :: c :: d :: rest) = .error .malformed := by
  rw [read, h]
  simp [hlow]

theorem read_pair (hlow : Surrogate.isLow n = false) (hhigh : Surrogate.isHigh n = true)
    {a' b' c' d' : Char} {m : Nat} (h' : unit? a' b' c' d' = some m) (rest : List Char) :
    read ('\\' :: 'u' :: a :: b :: c :: d :: '\\' :: 'u' :: a' :: b' :: c' :: d' :: rest) =
      if Surrogate.isLow m then push (Surrogate.char n m) (read rest) else .error .malformed := by
  rw [read, h]
  simp [hlow, hhigh, h']

theorem read_unpaired (hlow : Surrogate.isLow n = false) (hhigh : Surrogate.isHigh n = true)
    {rest : List Char} (hrest : ∀ a b c d tail, rest ≠ '\\' :: 'u' :: a :: b :: c :: d :: tail) :
    read ('\\' :: 'u' :: a :: b :: c :: d :: rest) = .error (unpaired rest) := by
  rw [read, h]
  simp only [hlow, hhigh, Bool.false_eq_true, if_false, if_true]

end Units

theorem toOption_push (c : Char) (r : Except Fault (List Char × List Char)) :
    (push c r).toOption = r.toOption.map fun p => (c :: p.1, p.2) := by
  cases r <;> rfl

end Quoted

namespace Literal

/-- A text is read as what it denotes, and refused if it denotes nothing. -/
theorem toOption_read_inner (q : Literal) (rest : List Char) :
    (Quoted.read (inner q ++ '"' :: rest)).toOption = (meaning? q).map fun t => (t, rest) := by
  have hcons (p : Piece) (q : Literal) : inner (p :: q) ++ '"' :: rest =
      p.chars ++ (inner q ++ '"' :: rest) := by
    simp [inner]
  fun_induction meaning? q with
  | case1 => rfl
  | case2 c h q ih =>
    rw [hcons, Piece.chars, List.singleton_append, Quoted.read_plain h, Quoted.toOption_push, ih,
      Option.map_map, Option.map_map]
    rfl
  | case3 e c h q ih =>
    rw [hcons]
    simp only [Piece.chars, List.cons_append, List.nil_append]
    rw [Quoted.read_letter h, Quoted.toOption_push, ih, Option.map_map, Option.map_map]
    rfl
  | case4 a b c d n h q hlow =>
    rw [hcons, Piece.chars]
    exact congrArg Except.toOption (Quoted.read_low h hlow _)
  | case5 a b c d n h hlow hhigh a' b' c' d' m h' q hlow' ih =>
    rw [hcons, hcons, Piece.chars, Piece.chars]
    simp only [List.cons_append, List.nil_append]
    rw [Quoted.read_pair h (by simpa using hlow) hhigh h', if_pos hlow', Quoted.toOption_push, ih,
      Option.map_map, Option.map_map]
    rfl
  | case6 a b c d n h hlow hhigh a' b' c' d' m h' q hlow' =>
    rw [hcons, hcons, Piece.chars, Piece.chars]
    simp only [List.cons_append, List.nil_append]
    rw [Quoted.read_pair h (by simpa using hlow) hhigh h', if_neg hlow']
    rfl
  | case7 a b c d n h q hlow hhigh hq =>
    -- what follows the half is the closing quote, a character or an escape of one letter
    have hrest : ∀ a b c d tail,
        inner q ++ '"' :: rest ≠ '\\' :: 'u' :: a :: b :: c :: d :: tail := by
      intro a b c d tail heq
      cases q with
      | nil => cases heq
      | cons p q =>
        rw [hcons] at heq
        cases p with
        | plain c' h' => exact h'.2.1 (List.cons.inj heq).1
        | letter e c' h' =>
          have he : e = 'u' := (List.cons.inj (List.cons.inj heq).2).1
          rw [he] at h'
          cases h'
        | unit a' b' c' d' m h' => exact hq _ _ _ _ _ _ _ rfl
    rw [hcons, Piece.chars]
    exact congrArg Except.toOption (Quoted.read_unpaired h (by simpa using hlow) hhigh hrest)
  | case8 a b c d n h q hlow hhigh ih =>
    rw [hcons, Piece.chars]
    simp only [List.cons_append, List.nil_append]
    rw [Quoted.read_unit h (by simpa using hlow) (by simpa using hhigh), Quoted.toOption_push, ih,
      Option.map_map, Option.map_map]
    rfl

end Literal

end HostBridge.Json
