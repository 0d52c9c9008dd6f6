import HostBridge.Proofs.JsonTree
import Mathlib.Data.List.DropRight

/-!
# Skipping values

A value whose name is not known is skipped by a machine that keeps a stack of open brackets. Its
transitions are stated once (`skipFrom_value_open` and the lemmas after it), and all else follows
from them:

* what a reader takes off the front of a text, skipping takes off too (`skipped_readStruct`), so
  reading a value of known type and skipping it leave the same rest;
* every tree can be skipped (`skipValue_padded`), whatever its texts denote and however deep it is.
-/

namespace HostBridge.Json

/-! ## Texts -/

namespace Quoted

theorem skip_plain {c : Char} (h : c ≠ '"' ∧ c ≠ '\\' ∧ isControl c = false) (rest : List Char) :
    skip (c :: rest) = skip rest := by
  obtain ⟨hquote, hslash, hcontrol⟩ := h
  rw [skip]
  · simp [hcontrol]
  · exact hquote
  · exact fun _ _ _ _ _ hc _ => hslash hc
  · exact fun _ hc _ => hslash hc
  · exact fun _ _ hc _ => hslash hc
  · exact fun hc _ => hslash hc

theorem skip_letter {e c : Char} (h : letter? e = some c) (rest : List Char) :
    skip ('\\' :: e :: rest) = skip rest := by
  have hu : e ≠ 'u' := by
    rintro rfl
    cases h
  rw [skip]
  · rw [h]
  · exact fun _ _ _ _ _ he _ => hu he
  · exact hu

theorem skip_unit {a b c d : Char} {n : Nat} (h : unit? a b c d = some n) (rest : List Char) :
    skip ('\\' :: 'u' :: a :: b :: c :: d :: rest) = skip rest := by
  rw [skip, h]

/-- What is read can be skipped. -/
theorem skip_of_read {cs t rest : List Char} (h : read cs = .ok (t, rest)) :
    skip cs = .ok rest := by
  fun_induction read cs generalizing t
  case case2 => cases h; rfl
  case case6 a b c d n hn _ _ a' b' c' d' tail m hm _ ih =>
    obtain ⟨u, -, hu⟩ := push_eq_ok h
    rw [skip_unit hn, skip_unit hm, ih hu]
  case case9 a b c d tail n hn _ _ ih =>
    obtain ⟨u, -, hu⟩ := push_eq_ok h
    rw [skip_unit hn, ih hu]
  case case12 e tail _ _ c hc ih =>
    obtain ⟨u, -, hu⟩ := push_eq_ok h
    rw [skip_letter hc, ih hu]
  case case15 c tail hquote _ _ hcons hnil hcontrol ih =>
    have hslash : c ≠ '\\' := by
      intro hc
      cases tail with
      | nil => exact hnil hc rfl
      | cons e tail => exact hcons e tail hc rfl
    obtain ⟨u, -, hu⟩ := push_eq_ok h
    rw [skip_plain ⟨hquote, hslash, by simpa using hcontrol⟩, ih hu]
  all_goals cases h

end Quoted

theorem Literal.skip_inner (q : Literal) (rest : List Char) :
    Quoted.skip (inner q ++ '"' :: rest) = .ok rest := by
  induction q with
  | nil => rfl
  | cons p q ih =>
    have hcons : inner (p :: q) ++ '"' :: rest = p.chars ++ (inner q ++ '"' :: rest) := by
      simp [inner]
    rw [hcons]
    cases p with
    | plain c h => exact (Quoted.skip_plain h _).trans ih
    | letter e c h => exact (Quoted.skip_letter h _).trans ih
    | unit a b c d n h => exact (Quoted.skip_unit h _).trans ih

/-! ## Steps of skipping -/

section Steps

variable {stack : List Bracket} {b : Bracket} {c : Char} {cs rest rest' : List Char}

/-- The character that opens a bracket. -/
def Bracket.open : Bracket → Char
  | list => '['
  | object => '{'

theorem skipFrom_value_open (h : dropBlanks cs = b.open :: rest) :
    skipFrom .value stack cs = skipFrom (.opened b) stack rest := by
  conv_lhs => rw [skipFrom]
  split
  · next hd => cases hd.symm.trans h
  · next hd =>
    cases hd.symm.trans h
    cases b <;> rfl

theorem skipFrom_value_scalar (h : dropBlanks cs = c :: rest) (hlist : c ≠ '[') (hobject : c ≠ '{')
    (hs : skipScalar (c :: rest) = .ok rest') :
    skipFrom .value stack cs = skipFrom .complete stack rest' := by
  conv_lhs => rw [skipFrom]
  split
  · next hd => cases hd.symm.trans h
  · next hd =>
    cases hd.symm.trans h
    rw [if_neg hlist, if_neg hobject]
    split
    · next hs' => cases hs.symm.trans hs'
    · next hs' => cases hs.symm.trans hs'; rfl

theorem skipFrom_opened_close (h : dropBlanks cs = b.close :: rest) :
    skipFrom (.opened b) stack cs = skipFrom .complete stack rest := by
  conv_lhs => rw [skipFrom]
  split
  · next hd => cases hd.symm.trans h
  · next hd =>
    cases hd.symm.trans h
    rw [if_pos rfl]

theorem skipFrom_opened_name (h : dropBlanks cs = c :: rest) (hc : c ≠ b.close)
    (hn : skipName b (c :: rest) = .ok rest') :
    skipFrom (.opened b) stack cs = skipFrom .value (b :: stack) rest' := by
  conv_lhs => rw [skipFrom]
  split
  · next hd => cases hd.symm.trans h
  · next hd =>
    cases hd.symm.trans h
    rw [if_neg hc]
    split
    · next hn' => cases hn.symm.trans hn'
    · next hn' => cases hn.symm.trans hn'; rfl

theorem skipFrom_complete_comma (h : dropBlanks cs = ',' :: rest)
    (hn : skipName b rest = .ok rest') :
    skipFrom .complete (b :: stack) cs = skipFrom .value (b :: stack) rest' := by
  conv_lhs => rw [skipFrom]
  split
  · next hd => cases hd.symm.trans h
  · next hd =>
    cases hd.symm.trans h
    rw [if_pos rfl]
    split
    · next hn' => cases hn.symm.trans hn'
    · next hn' => cases hn.symm.trans hn'; rfl

theorem skipFrom_complete_close (h : dropBlanks cs = b.close :: rest) :
    skipFrom .complete (b :: stack) cs = skipFrom .complete stack rest := by
  have hcomma : b.close ≠ ',' := by cases b <;> decide
  conv_lhs => rw [skipFrom]
  split
  · next hd => cases hd.symm.trans h
  · next hd =>
    cases hd.symm.trans h
    rw [if_neg hcomma, if_pos rfl]

theorem skipFrom_complete_nil : skipFrom .complete [] cs = .ok cs := by
  rw [skipFrom]

theorem skipFrom_value_congr (h : dropBlanks cs = dropBlanks rest) :
    skipFrom .value stack cs = skipFrom .value stack rest := by
  rw [skipFrom, skipFrom]
  split <;> split <;> grind

theorem skipFrom_opened_congr (h : dropBlanks cs = dropBlanks rest) :
    skipFrom (.opened b) stack cs = skipFrom (.opened b) stack rest := by
  rw [skipFrom, skipFrom]
  split <;> split <;> grind

theorem skipFrom_complete_congr (h : dropBlanks cs = dropBlanks rest) :
    skipFrom .complete (b :: stack) cs = skipFrom .complete (b :: stack) rest := by
  rw [skipFrom, skipFrom]
  split <;> split <;> grind

end Steps

/-- Skipping goes on in the brackets around a value as it would after the value. -/
theorem skipFrom_append {place : Place} {stack : List Bracket} {cs rest : List Char}
    (h : skipFrom place stack cs = .ok rest) (more : List Bracket) :
    skipFrom place (stack ++ more) cs = skipFrom .complete more rest := by
  fun_induction skipFrom place stack cs
  case case2 hd ih => rw [skipFrom_value_open (b := .list) hd, ih h]
  case case3 hd _ ih => rw [skipFrom_value_open (b := .object) hd, ih h]
  case case5 hd hlist hobject _ hs ih => rw [skipFrom_value_scalar hd hlist hobject hs, ih h]
  case case7 hd ih => rw [skipFrom_opened_close hd, ih h]
  case case9 hd hc _ hn ih =>
    rw [skipFrom_opened_name hd hc hn]
    exact ih h
  case case10 => cases h; rfl
  case case13 hn hd ih =>
    rw [List.cons_append, skipFrom_complete_comma hd hn]
    exact ih h
  case case14 hd _ ih => rw [List.cons_append, skipFrom_complete_close hd, ih h]
  all_goals cases h

/-! ## Skipping in a bracket -/

/-- Skip what is left in a bracket, from its opening on or from after a value in it. -/
def skipIn (b : Bracket) (first : Bool) (stack : List Bracket) (cs : List Char) :
    Except Fault (List Char) :=
  if first then skipFrom (.opened b) stack cs else skipFrom .complete (b :: stack) cs

section SkipIn

variable {stack : List Bracket} {b : Bracket} {first : Bool} {c : Char} {cs rest rest' : List Char}

theorem skipIn_close (h : dropBlanks cs = b.close :: rest) :
    skipIn b first stack cs = skipFrom .complete stack rest := by
  cases first with
  | true => exact skipFrom_opened_close h
  | false => exact skipFrom_complete_close h

theorem dropBlanks_of_eq (h : dropBlanks cs = c :: rest) : dropBlanks (c :: rest) = c :: rest := by
  have hidem : dropBlanks (dropBlanks cs) = dropBlanks cs := List.dropWhile_idempotent isBlank cs
  rwa [h] at hidem

theorem skipName_object (h : dropBlanks cs = '"' :: rest) (hs : Quoted.skip rest = .ok rest') :
    skipName .object cs = colon rest' := by
  simp [skipName, h, hs]

end SkipIn

/-! ## Readers -/

section Readers

variable {α σ : Type}

/-- What a reader takes can be skipped. -/
def Reader.Skipped (p : Reader α) : Prop :=
  ∀ cs a rest, p cs = .ok (a, rest) → skipValue cs = .ok rest

/-- What is skipped as a value that is not in brackets. -/
theorem skipValue_of_skipScalar {c : Char} {cs tail rest : List Char}
    (h : dropBlanks cs = c :: tail) (hlist : c ≠ '[') (hobject : c ≠ '{')
    (hs : skipScalar (c :: tail) = .ok rest) : skipValue cs = .ok rest := by
  rw [skipValue, skipFrom_value_scalar h hlist hobject hs, skipFrom_complete_nil]

theorem skipped_readFlag : readFlag.Skipped := by
  intro cs b rest h
  unfold readFlag at h
  split at h
  · next tail hd =>
    cases hw : word ['r', 'u', 'e'] tail with
    | error f => simp [hw, Except.map] at h
    | ok r =>
      simp only [hw, Except.map, Except.ok.injEq, Prod.mk.injEq] at h
      exact h.2 ▸ skipValue_of_skipScalar hd (by decide) (by decide) hw
  · next tail hd =>
    cases hw : word ['a', 'l', 's', 'e'] tail with
    | error f => simp [hw, Except.map] at h
    | ok r =>
      simp only [hw, Except.map, Except.ok.injEq, Prod.mk.injEq] at h
      exact h.2 ▸ skipValue_of_skipScalar hd (by decide) (by decide) hw
  · cases h

theorem exists_read_of_readText {cs rest : List Char} {t : String}
    (h : readText cs = .ok (t, rest)) :
    ∃ tail u, dropBlanks cs = '"' :: tail ∧ Quoted.read tail = .ok (u, rest) ∧
      t = String.ofList u := by
  unfold readText at h
  split at h
  · next tail hd =>
    cases hr : Quoted.read tail with
    | error f => simp [hr, Except.map] at h
    | ok p =>
      simp only [hr, Except.map, Except.ok.injEq, Prod.mk.injEq] at h
      exact ⟨tail, p.1, hd, by rw [← h.2, hr], h.1.symm⟩
  · cases h

theorem skipped_readText : readText.Skipped := by
  intro cs t rest h
  obtain ⟨tail, u, hd, hr, -⟩ := exists_read_of_readText h
  exact skipValue_of_skipScalar hd (by decide) (by decide) (Quoted.skip_of_read hr)

theorem exists_readText_of_readVariant {variant : String → Option α} {cs rest : List Char} {a : α}
    (h : readVariant variant cs = .ok (a, rest)) :
    ∃ name, readText cs = .ok (name, rest) ∧ variant name = some a := by
  unfold readVariant at h
  split at h
  · cases h
  · next name tail hr =>
    split at h
    · next hv =>
      cases h
      exact ⟨name, hr, hv⟩
    · cases h

theorem exists_of_readNull {cs rest : List Char} (h : readNull cs = .ok rest) :
    ∃ tail, dropBlanks cs = 'n' :: tail ∧ word ['u', 'l', 'l'] tail = .ok rest := by
  unfold readNull at h
  split at h
  · next tail hd => exact ⟨tail, hd, h⟩
  · cases h

/-- A choice that is given as an object with one entry. -/
theorem skipValue_of_tagged {variant : String → Option α} {cs tail afterName afterColon
    afterNull rest : List Char} {a : α} (hd : dropBlanks cs = '{' :: tail)
    (hname : readDueVariant variant tail = .ok (a, afterName))
    (hcolon : colon afterName = .ok afterColon) (hnull : readNull afterColon = .ok afterNull)
    (hclose : dropBlanks afterNull = '}' :: rest) : skipValue cs = .ok rest := by
  obtain ⟨tail', hquote, hvariant⟩ : ∃ tail', dropBlanks tail = '"' :: tail' ∧
      readVariant variant ('"' :: tail') = .ok (a, afterName) := by
    unfold readDueVariant at hname
    split at hname
    · cases hname
    · next c rest hd =>
      split at hname
      · next hc => exact ⟨rest, hc ▸ hd, hc ▸ hname⟩
      · cases hname
  obtain ⟨name, htext, -⟩ := exists_readText_of_readVariant hvariant
  obtain ⟨tail'', u, hquote', hread, -⟩ := exists_read_of_readText htext
  rw [dropBlanks_cons (by decide)] at hquote'
  cases hquote'
  obtain ⟨ull, hn, hword⟩ := exists_of_readNull hnull
  have hskip : skipName .object ('"' :: tail') = .ok afterColon := by
    rw [skipName_object (dropBlanks_cons (by decide) _) (Quoted.skip_of_read hread), hcolon]
  calc skipValue cs
      = skipFrom (.opened .object) [] tail := skipFrom_value_open (b := .object) hd
    _ = skipFrom .value [.object] afterColon := skipFrom_opened_name hquote (by decide) hskip
    _ = skipFrom .complete [.object] afterNull :=
        skipFrom_value_scalar hn (by decide) (by decide) hword
    _ = skipFrom .complete [] rest := skipFrom_complete_close hclose
    _ = .ok rest := skipFrom_complete_nil

theorem skipped_readChoice (variant : String → Option α) : (readChoice variant).Skipped := by
  intro cs a rest h
  unfold readChoice at h
  split at h
  · cases h
  · next c tail hd =>
    split at h
    · next hc =>
      subst hc
      obtain ⟨name, htext, -⟩ := exists_readText_of_readVariant h
      obtain ⟨tail', u, hquote, hread, -⟩ := exists_read_of_readText htext
      rw [dropBlanks_of_eq hd] at hquote
      cases hquote
      exact skipValue_of_skipScalar hd (by decide) (by decide) (Quoted.skip_of_read hread)
    · split at h
      · next hc =>
        subst hc
        split at h
        · cases h
        · next hname =>
          split at h
          · cases h
          · next hcolon =>
            split at h
            · cases h
            · next hnull =>
              split at h
              · cases h
              · next hclose =>
                split at h
                · next hc =>
                  cases h
                  exact skipValue_of_tagged hd hname hcolon hnull (hc ▸ hclose)
                · cases h
      · cases h

theorem exists_read_of_readDueName {cs rest : List Char} {name : Option String}
    (h : readDueName cs = .ok (name, rest)) :
    ∃ tail u, cs = '"' :: tail ∧ Quoted.read tail = .ok (u, rest) ∧
      name = some (String.ofList u) := by
  cases cs with
  | nil => cases h
  | cons c tail =>
    rw [readDueName] at h
    split at h
    · next hc =>
      cases hr : Quoted.read tail with
      | error f => simp [hr, Except.map] at h
      | ok p =>
        simp only [hr, Except.map, Except.ok.injEq, Prod.mk.injEq] at h
        exact ⟨tail, p.1, by rw [hc], by rw [← h.2, hr], h.1.symm⟩
    · cases h

/-- Where no name is found the object is closed; else there is a name, after a comma unless it is
the first. -/
theorem readName_cases {first : Bool} {cs rest : List Char} {name : Option String}
    (h : readName first cs = .ok (name, rest)) :
    (name = none ∧ dropBlanks cs = '}' :: rest) ∨
    ∃ tail u, Quoted.read tail = .ok (u, rest) ∧ name = some (String.ofList u) ∧
      if first then dropBlanks cs = '"' :: tail
      else ∃ afterComma, dropBlanks cs = ',' :: afterComma ∧
        dropBlanks afterComma = '"' :: tail := by
  unfold readName at h
  split at h
  · cases h
  · next c tail hd =>
    split at h
    · next hc =>
      cases h
      exact .inl ⟨rfl, hc ▸ hd⟩
    · split at h
      · next hfirst =>
        obtain ⟨tail', u, hquote, hread, hname⟩ := exists_read_of_readDueName h
        exact .inr ⟨tail', u, hread, hname, by rw [if_pos hfirst, hd, hquote]⟩
      · next hfirst =>
        split at h
        · next hc =>
          obtain ⟨tail', u, hquote, hread, hname⟩ := exists_read_of_readDueName h
          exact .inr ⟨tail', u, hread, hname, by
            rw [if_neg hfirst]
            exact ⟨tail, hc ▸ hd, hquote⟩⟩
        · cases h

/-- Reading the name and the colon of an entry skips them. -/
theorem skipIn_of_readName {first : Bool} {cs afterName rest : List Char} {name : String}
    (h : readName first cs = .ok (some name, afterName)) (hcolon : colon afterName = .ok rest)
    (stack : List Bracket) :
    skipIn .object first stack cs = skipFrom .value (.object :: stack) rest := by
  rcases readName_cases h with ⟨hnone, -⟩ | ⟨tail, u, hread, -, hplace⟩
  · cases hnone
  have hskip := Quoted.skip_of_read hread
  cases first with
  | true =>
    rw [if_pos rfl] at hplace
    have hname : skipName .object ('"' :: tail) = .ok rest := by
      rw [skipName_object (dropBlanks_of_eq hplace) hskip, hcolon]
    exact skipFrom_opened_name hplace (by decide) hname
  | false =>
    rw [if_neg (by decide)] at hplace
    obtain ⟨afterComma, hcomma, hquote⟩ := hplace
    have hname : skipName .object afterComma = .ok rest := by
      rw [skipName_object hquote hskip, hcolon]
    exact skipFrom_complete_comma hcomma hname

/-- What a field takes can be skipped. -/
def Field.Skipped (f : Field σ) : Prop := ∀ s, (f.read s).Skipped

theorem Field.Skipped.skipFrom {f : Field σ} (h : f.Skipped) {s t : σ} {cs rest : List Char}
    (hread : f.read s cs = .ok (t, rest)) (stack : List Bracket) :
    Json.skipFrom .value stack cs = Json.skipFrom .complete stack rest :=
  skipFrom_append (h s cs t rest hread) stack

theorem Field.skipped_storing {name : String} {read : Reader α} {put : σ → α → σ}
    {shrinks : read.Shrinks} (h : read.Skipped) : (storing name read put shrinks).Skipped := by
  intro s cs t rest hread
  cases hr : read cs with
  | error f => simp [storing, hr, Except.map] at hread
  | ok p =>
    simp only [storing, hr, Except.map, Except.ok.injEq, Prod.mk.injEq] at hread
    exact hread.2 ▸ h cs p.1 p.2 hr

/-- Reading the entries of an object skips them. -/
theorem skipIn_of_readEntries {fields : List (Field σ)} (hfields : ∀ f ∈ fields, f.Skipped)
    {seen : List String} {first : Bool} {s t : σ} {cs rest : List Char}
    (h : readEntries fields seen first s cs = .ok (t, rest)) (stack : List Bracket) :
    skipIn .object first stack cs = skipFrom .complete stack rest := by
  fun_induction readEntries fields seen first s cs
  case case2 hn =>
    cases h
    rcases readName_cases hn with ⟨-, hclose⟩ | ⟨_, _, _, hname, _⟩
    · exact skipIn_close hclose
    · cases hname
  case case5 hn _ _ hcolon _ hskip ih =>
    rw [skipIn_of_readName hn hcolon]
    exact (skipFrom_append hskip (.object :: stack)).trans (ih h)
  case case9 hn field hfind _ _ hcolon _ _ hread ih =>
    rw [skipIn_of_readName hn hcolon]
    exact ((hfields field (List.mem_of_find?_eq_some hfind)).skipFrom hread _).trans (ih h)
  all_goals cases h

/-- Reading the items of a list skips them. -/
theorem skipIn_of_readItems {fields : List (Field σ)} (hfields : ∀ f ∈ fields, f.Skipped)
    {first : Bool} {s t : σ} {cs rest : List Char}
    (h : readItems first s fields cs = .ok (t, rest)) (stack : List Bracket) :
    skipIn .list first stack cs = skipFrom .complete stack rest := by
  fun_induction readItems first s fields cs
  case case2 hd =>
    cases h
    exact skipIn_close hd
  case case5 hd =>
    cases h
    exact skipIn_close hd
  case case7 hd hc _ _ hread ih =>
    obtain ⟨hfield, hrest⟩ := List.forall_mem_cons.1 hfields
    calc skipIn .list true stack _
        = skipFrom .value (.list :: stack) _ := skipFrom_opened_name hd hc rfl
      _ = skipFrom .complete (.list :: stack) _ := hfield.skipFrom hread _
      _ = skipFrom .complete stack rest := ih hrest h
  case case11 hfirst _ _ hd' _ _ _ hread hd _ ih =>
    obtain ⟨hfield, hrest⟩ := List.forall_mem_cons.1 hfields
    rw [Bool.not_eq_true] at hfirst
    subst hfirst
    calc skipIn .list false stack _
        = skipFrom .value (.list :: stack) _ := skipFrom_complete_comma hd rfl
      _ = skipFrom .value (.list :: stack) _ :=
          skipFrom_value_congr (hd'.trans (dropBlanks_of_eq hd').symm)
      _ = skipFrom .complete (.list :: stack) _ := hfield.skipFrom hread _
      _ = skipFrom .complete stack rest := ih hrest h
  all_goals cases h

/-- What is read as a structure can be skipped. -/
theorem skipped_readStruct {fields : List (Field σ)} (hfields : ∀ f ∈ fields, f.Skipped) (s : σ) :
    (readStruct fields s).Skipped := by
  intro cs t rest h
  unfold readStruct at h
  split at h
  · cases h
  · next c tail hd =>
    split at h
    · next hc =>
      subst hc
      calc skipValue cs = skipFrom (.opened .list) [] tail := skipFrom_value_open (b := .list) hd
        _ = skipFrom .complete [] rest := skipIn_of_readItems hfields h []
        _ = .ok rest := skipFrom_complete_nil
    · split at h
      · next hc =>
        subst hc
        calc skipValue cs
            = skipFrom (.opened .object) [] tail := skipFrom_value_open (b := .object) hd
          _ = skipFrom .complete [] rest := skipIn_of_readEntries hfields h []
          _ = .ok rest := skipFrom_complete_nil
      · cases h

end Readers

/-! ## Numbers -/

/-- The text is not continued by a digit. -/
def NoDigit (cs : List Char) : Prop := ∀ c ∈ cs.head?, Numeral.isDigit c = false

/-- The text is continued, if at all, by white space, a comma or a closing bracket. -/
def Ends (cs : List Char) : Prop :=
  ∀ c ∈ cs.head?, isBlank c = true ∨ c = ',' ∨ c = ']' ∨ c = '}'

namespace Numeral

theorem digits_append (ds : Digits) {tail : List Char} (h : NoDigit tail) :
    digits (ds.chars ++ tail) = (ds.chars, tail) := by
  have htail : tail.takeWhile isDigit = [] ∧ tail.dropWhile isDigit = tail := by
    cases tail with
    | nil => exact ⟨rfl, rfl⟩
    | cons c tail =>
      have hc := h c rfl
      simp [hc]
  rw [digits, List.takeWhile_append_of_pos ds.digit, List.dropWhile_append_of_pos ds.digit,
    htail.1, htail.2, List.append_nil]

theorem someDigits_append (atEnd : Fault) (ds : Digits) {tail : List Char} (h : NoDigit tail) :
    someDigits atEnd (ds.chars ++ tail) = .ok (ds.chars, tail) := by
  have hdigits := digits_append ds h
  cases hcs : ds.chars with
  | nil => exact absurd hcs ds.nonempty
  | cons c cs =>
    have hc : isDigit c = true := ds.digit c (hcs ▸ List.mem_cons_self)
    rw [hcs] at hdigits
    rw [List.cons_append, someDigits, if_pos hc]
    exact congrArg Except.ok hdigits

theorem readExponent_chars (atEnd : Fault) (n : Numeral) (e : Exponent) {rest : List Char}
    (h : NoDigit rest) : ∃ m, readExponent atEnd n (e.chars ++ rest) = .ok (m, rest) := by
  have hsome := someDigits_append atEnd e.digits h
  obtain ⟨mark, hmark, sign, ds⟩ := e
  simp only [Exponent.chars, List.cons_append, List.append_assoc, readExponent, if_pos hmark]
  rcases sign with - | - | -
  · -- the digits are not taken for a sign
    obtain ⟨c, cs, hcs⟩ := List.exists_cons_of_ne_nil ds.nonempty
    have hc : isDigit c = true := ds.digit c (hcs ▸ List.mem_cons_self)
    simp only [Option.elim_none, List.nil_append]
    rw [hcs] at hsome ⊢
    split
    · next heq => cases heq; cases hc
    · next heq => cases heq; cases hc
    · rw [hsome]
      exact ⟨_, rfl⟩
  · exact ⟨_, congrArg (Except.map _) hsome⟩
  · exact ⟨_, congrArg (Except.map _) hsome⟩

theorem readExponent_none (atEnd : Fault) (n : Numeral) {rest : List Char} (h : Ends rest) :
    readExponent atEnd n rest = .ok (n, rest) := by
  cases rest with
  | nil => rfl
  | cons c rest =>
    have hc : ¬(c = 'e' ∨ c = 'E') := by
      have := h c rfl
      rintro (rfl | rfl) <;> revert this <;> decide
    simp only [readExponent, if_neg hc]

theorem noDigit_of_ends {rest : List Char} (h : Ends rest) : NoDigit rest := by
  intro c hc
  rcases h c hc with hblank | rfl | rfl | rfl
  · simp only [isBlank, Bool.or_eq_true, beq_iff_eq] at hblank
    rcases hblank with ((rfl | rfl) | rfl) | rfl <;> rfl
  all_goals rfl

/-- An exponent, if there is one, and what follows the number. -/
theorem readExponent_optional (atEnd : Fault) (n : Numeral) (e : Option Exponent)
    {rest : List Char} (h : Ends rest) :
    ∃ m, readExponent atEnd n (e.elim [] Exponent.chars ++ rest) = .ok (m, rest) := by
  cases e with
  | none => exact ⟨n, readExponent_none atEnd n h⟩
  | some e => exact readExponent_chars atEnd n e (noDigit_of_ends h)

theorem head_exponent (e : Option Exponent) {rest : List Char} (h : Ends rest) :
    ∀ c ∈ (e.elim [] Exponent.chars ++ rest).head?, c ≠ '.' ∧ isDigit c = false := by
  intro c hc
  cases e with
  | none =>
    refine ⟨?_, noDigit_of_ends h c hc⟩
    rintro rfl
    rcases h '.' hc with hend | hend | hend | hend <;> revert hend <;> decide
  | some e =>
    cases hc
    rcases e.isMark with hmark | hmark <;> rw [hmark] <;> decide

theorem readFraction_optional (atEnd : Fault) (whole : List Char) (fraction : Option Digits)
    (e : Option Exponent) {rest : List Char} (h : Ends rest) :
    ∃ m, readFraction atEnd whole ((fraction.elim [] fun ds => '.' :: ds.chars) ++
      (e.elim [] Exponent.chars ++ rest)) = .ok (m, rest) := by
  have hhead := head_exponent e h
  cases fraction with
  | none =>
    rw [Option.elim_none, List.nil_append, readFraction]
    · exact readExponent_optional atEnd _ e h
    · intro tail htail
      rw [htail] at hhead
      exact (hhead '.' rfl).1 rfl
  | some ds =>
    have hdigits := someDigits_append atEnd ds fun c hc => (hhead c hc).2
    simp only [Option.elim_some, List.cons_append, readFraction, hdigits]
    exact readExponent_optional atEnd _ e h

theorem head_fraction (fraction : Option Digits) (e : Option Exponent) {rest : List Char}
    (h : Ends rest) : NoDigit ((fraction.elim [] fun ds => '.' :: ds.chars) ++
      (e.elim [] Exponent.chars ++ rest)) := by
  intro c hc
  cases fraction with
  | none => exact (head_exponent e h c hc).2
  | some ds =>
    cases hc
    rfl

/-- A number, without its sign, is read up to what follows it. -/
theorem read_number (atEnd : Fault) (n : Number) {rest : List Char} (h : Ends rest) :
    ∃ m, read atEnd (n.whole.chars ++ ((n.fraction.elim [] fun ds => '.' :: ds.chars) ++
      (n.exponent.elim [] Exponent.chars ++ rest))) = .ok (m, rest) := by
  have hnodigit := head_fraction n.fraction n.exponent h
  have hfraction (whole : List Char) :=
    readFraction_optional atEnd whole n.fraction n.exponent h
  generalize (n.fraction.elim [] fun ds => '.' :: ds.chars) ++
    (n.exponent.elim [] Exponent.chars ++ rest) = tail at hnodigit hfraction
  by_cases hzero : n.whole.chars.head? = some '0'
  · rw [n.noZeros hzero, List.singleton_append]
    cases tail with
    | nil => exact hfraction ['0']
    | cons c tail =>
      have hc := hnodigit c rfl
      simp only [read, hc, Bool.false_eq_true, if_false]
      exact hfraction ['0']
  · rw [read]
    · rw [someDigits_append atEnd n.whole hnodigit]
      exact hfraction n.whole.chars
    · intro cs hcs
      cases hwhole : n.whole.chars with
      | nil => exact n.whole.nonempty hwhole
      | cons c cs' =>
        rw [hwhole] at hcs hzero
        exact hzero (congrArg List.head? hcs)

end Numeral

theorem skipScalar_number (n : Number) {rest : List Char} (h : Ends rest) :
    skipScalar (n.chars ++ rest) = .ok rest := by
  obtain ⟨m, hm⟩ := Numeral.read_number .malformed n h
  have hassoc : n.chars ++ rest = (if n.negative then ['-'] else []) ++ (n.whole.chars ++
      ((n.fraction.elim [] fun ds => '.' :: ds.chars) ++
        (n.exponent.elim [] Exponent.chars ++ rest))) := by
    simp [Number.chars]
  rw [hassoc]
  cases n.negative with
  | true =>
    simp only [if_true, List.singleton_append, skipScalar, hm]
    rfl
  | false =>
    obtain ⟨c, cs, hcs⟩ := List.exists_cons_of_ne_nil n.whole.nonempty
    have hc : Numeral.isDigit c = true := n.whole.digit c (hcs ▸ List.mem_cons_self)
    have hne {d : Char} (hd : Numeral.isDigit d = false) : c ≠ d := by
      rintro rfl
      cases hc.symm.trans hd
    rw [hcs, List.cons_append] at hm
    rw [if_neg (by decide), List.nil_append, hcs, List.cons_append, skipScalar]
    · rw [if_pos hc, hm]
      rfl
    all_goals exact hne rfl

/-! ## Trees -/

namespace Tree

/-- What the text of a tree may start with. -/
def startsWith (t : Tree) (c : Char) : Bool :=
  match t with
  | null => c == 'n'
  | flag _ => c == 't' || c == 'f'
  | number _ => c == '-' || Numeral.isDigit c
  | text _ => c == '"'
  | list _ _ => c == '['
  | object _ _ => c == '{'

theorem exists_startsWith (t : Tree) : ∃ c, t.startsWith c = true ∧ t.chars.head? = some c := by
  cases t with
  | null => exact ⟨_, rfl, rfl⟩
  | flag b => cases b <;> exact ⟨_, rfl, rfl⟩
  | number n =>
    obtain ⟨c, cs, hcs⟩ := List.exists_cons_of_ne_nil n.whole.nonempty
    have hc : Numeral.isDigit c = true := n.whole.digit c (hcs ▸ List.mem_cons_self)
    cases hn : n.negative with
    | true => exact ⟨'-', rfl, by simp [chars, Number.chars, hn]⟩
    | false => exact ⟨c, by simp [startsWith, hc], by simp [chars, Number.chars, hn, hcs]⟩
  | text q => exact ⟨_, rfl, rfl⟩
  | list inside items => exact ⟨_, rfl, rfl⟩
  | object inside members => exact ⟨_, rfl, rfl⟩

theorem isBlank_of_startsWith {t : Tree} {c : Char} (h : t.startsWith c = true) :
    isBlank c = false := by
  by_contra hblank
  simp only [isBlank, Bool.not_eq_false, Bool.or_eq_true, beq_iff_eq] at hblank
  rcases hblank with ((rfl | rfl) | rfl) | rfl <;> cases t <;>
    simp [startsWith, Numeral.isDigit] at h

theorem ne_close_of_startsWith {t : Tree} {c : Char} (h : t.startsWith c = true) (b : Bracket) :
    c ≠ b.close := by
  rintro rfl
  cases b <;> cases t <;> simp [startsWith, Bracket.close, Numeral.isDigit] at h

/-- White space in front of a tree is dropped, and nothing of the tree. -/
theorem dropBlanks_chars (t : Tree) (rest : List Char) :
    ∃ c cs, dropBlanks (t.chars ++ rest) = c :: cs ∧ t.chars ++ rest = c :: cs ∧
      t.startsWith c = true := by
  obtain ⟨c, hc, hhead⟩ := t.exists_startsWith
  obtain ⟨cs, hcs⟩ := List.head?_eq_some_iff.1 hhead
  rw [hcs, List.cons_append, dropBlanks_cons (isBlank_of_startsWith hc)]
  exact ⟨c, cs ++ rest, rfl, rfl, hc⟩

/-- A value that is not in brackets. -/
def IsScalar : Tree → Prop
  | list _ _ | object _ _ => False
  | _ => True

theorem IsScalar.ne_of_startsWith {t : Tree} (ht : t.IsScalar) {c : Char}
    (h : t.startsWith c = true) : c ≠ '[' ∧ c ≠ '{' := by
  constructor <;> rintro rfl <;> cases t <;> simp_all [startsWith, IsScalar, Numeral.isDigit]

theorem IsScalar.skipScalar_chars {t : Tree} (ht : t.IsScalar) {rest : List Char} (h : Ends rest) :
    skipScalar (t.chars ++ rest) = .ok rest := by
  cases t with
  | null => rfl
  | flag b => cases b <;> rfl
  | number n => exact skipScalar_number n h
  | text q =>
    have hskip := Literal.skip_inner q rest
    simpa [chars, Literal.chars, skipScalar] using hskip
  | list inside items => exact ht.elim
  | object inside members => exact ht.elim

/-- The tree can be skipped, whatever brackets are open, up to what ends it. -/
def IsSkipped (t : Tree) : Prop :=
  ∀ stack rest, Ends rest →
    skipFrom .value stack (t.chars ++ rest) = skipFrom .complete stack rest

theorem IsScalar.isSkipped {t : Tree} (ht : t.IsScalar) : t.IsSkipped := by
  intro stack rest h
  obtain ⟨c, cs, hd, hcs, hc⟩ := t.dropBlanks_chars rest
  obtain ⟨hlist, hobject⟩ := ht.ne_of_startsWith hc
  exact skipFrom_value_scalar hd hlist hobject (hcs ▸ ht.skipScalar_chars h)

end Tree

/-- A text that is skipped as one item of a bracket, the first or after a comma. -/
def IsItem (b : Bracket) (p : List Char) : Prop :=
  ∀ stack rest, Ends rest →
    skipIn b true stack (p ++ rest) = skipFrom .complete (b :: stack) rest ∧
    skipIn b false stack (',' :: (p ++ rest)) = skipFrom .complete (b :: stack) rest

theorem ends_commaed (b : Bracket) (ps : List (List Char)) (rest : List Char) :
    Ends (commaed false ps ++ b.close :: rest) := by
  intro c hc
  cases ps with
  | nil =>
    cases hc
    cases b
    · exact .inr (.inr (.inl rfl))
    · exact .inr (.inr (.inr rfl))
  | cons p ps =>
    cases hc
    exact .inr (.inl rfl)

/-- Items with commas between them are skipped up to the closing bracket. -/
theorem skipIn_commaed {b : Bracket} {ps : List (List Char)} (h : ∀ p ∈ ps, IsItem b p)
    (first : Bool) (stack : List Bracket) (rest : List Char) :
    skipIn b first stack (commaed first ps ++ b.close :: rest) =
      skipFrom .complete stack rest := by
  have hclose (rest : List Char) : dropBlanks (b.close :: rest) = b.close :: rest :=
    dropBlanks_cons (by cases b <;> rfl) rest
  induction ps generalizing first with
  | nil => exact skipIn_close (hclose rest)
  | cons p ps ih =>
    obtain ⟨hp, hps⟩ := List.forall_mem_cons.1 h
    obtain ⟨hfirst, hnext⟩ := hp stack _ (ends_commaed b ps rest)
    rw [commaed, List.append_assoc]
    cases first with
    | true => exact hfirst.trans (ih hps false)
    | false => exact hnext.trans (ih hps false)

theorem ends_blanks_append (b : Blanks) {rest : List Char} (h : Ends rest) :
    Ends (b.chars ++ rest) := by
  intro c hc
  cases hb : b.chars with
  | nil =>
    rw [hb] at hc
    exact h c hc
  | cons d cs =>
    rw [hb] at hc
    cases hc
    exact .inl (b.blank c (hb ▸ List.mem_cons_self))

theorem Padded.chars_append (t : Padded Tree) (rest : List Char) : t.chars Tree.chars ++ rest =
    t.before.chars ++ (t.content.chars ++ (t.after.chars ++ rest)) := by
  simp [Padded.chars]

theorem Padded.dropBlanks_chars (t : Padded Tree) (rest : List Char) :
    dropBlanks (t.chars Tree.chars ++ rest) = t.content.chars ++ (t.after.chars ++ rest) := by
  obtain ⟨c, cs, hd, hcs, -⟩ := t.content.dropBlanks_chars (t.after.chars ++ rest)
  rw [t.chars_append, t.before.dropBlanks_append, hd, hcs]

/-- A tree with white space around it is skipped with the white space. -/
theorem skipFrom_padded {t : Padded Tree} (ht : t.content.IsSkipped) (b : Bracket)
    (stack : List Bracket) {rest : List Char} (h : Ends rest) :
    skipFrom .value (b :: stack) (t.chars Tree.chars ++ rest) =
      skipFrom .complete (b :: stack) rest := by
  rw [t.chars_append, skipFrom_value_congr (t.before.dropBlanks_append _),
    ht (b :: stack) _ (ends_blanks_append t.after h),
    skipFrom_complete_congr (t.after.dropBlanks_append rest)]

theorem isItem_padded {t : Padded Tree} (ht : t.content.IsSkipped) :
    IsItem .list (t.chars Tree.chars) := by
  intro stack rest h
  have hvalue := skipFrom_padded ht .list stack h
  obtain ⟨c, cs, -, hcs, hc⟩ := t.content.dropBlanks_chars (t.after.chars ++ rest)
  have hdrop := (t.dropBlanks_chars rest).trans hcs
  constructor
  · calc skipIn .list true stack (t.chars Tree.chars ++ rest)
        = skipFrom .value (.list :: stack) (c :: cs) :=
          skipFrom_opened_name hdrop (Tree.ne_close_of_startsWith hc .list) rfl
      _ = skipFrom .value (.list :: stack) (t.chars Tree.chars ++ rest) :=
          skipFrom_value_congr ((dropBlanks_of_eq hdrop).trans hdrop.symm)
      _ = skipFrom .complete (.list :: stack) rest := hvalue
  · exact (skipFrom_complete_comma rfl rfl).trans hvalue

theorem colon_append (b : Blanks) (cs : List Char) : colon (b.chars ++ ':' :: cs) = .ok cs := by
  rw [colon, b.dropBlanks_append, dropBlanks_cons (by decide)]
  rfl

theorem Member.chars_append (m : Member) (rest : List Char) :
    m.chars ++ rest = m.1.before.chars ++ ('"' :: (m.1.content.inner ++
      '"' :: (m.1.after.chars ++ ':' :: (m.2.chars Tree.chars ++ rest)))) := by
  simp [Member.chars, Padded.chars, Literal.chars]

theorem Member.dropBlanks_chars (m : Member) (rest : List Char) :
    dropBlanks (m.chars ++ rest) = '"' :: (m.1.content.inner ++
      '"' :: (m.1.after.chars ++ ':' :: (m.2.chars Tree.chars ++ rest))) := by
  rw [m.chars_append, m.1.before.dropBlanks_append, dropBlanks_cons (by decide)]

theorem isItem_member {m : Member} (hm : m.2.content.IsSkipped) : IsItem .object m.chars := by
  intro stack rest h
  have hvalue := skipFrom_padded hm .object stack h
  have hdrop := m.dropBlanks_chars rest
  have hname {cs : List Char} (hcs : dropBlanks cs = dropBlanks (m.chars ++ rest)) :
      skipName .object cs = .ok (m.2.chars Tree.chars ++ rest) := by
    rw [skipName_object (hcs.trans hdrop) (m.1.content.skip_inner _), colon_append]
  constructor
  · exact (skipFrom_opened_name hdrop (by decide)
      (hname ((dropBlanks_of_eq hdrop).trans hdrop.symm))).trans hvalue
  · exact (skipFrom_complete_comma rfl (hname rfl)).trans hvalue

/-- Items in brackets are skipped as one value. -/
theorem skipFrom_bracketed {b : Bracket} {ps : List (List Char)} (h : ∀ p ∈ ps, IsItem b p)
    (inside : Blanks) (stack : List Bracket) (rest : List Char) :
    skipFrom .value stack (b.open :: (inside.chars ++ (commaed true ps ++ b.close :: rest))) =
      skipFrom .complete stack rest := by
  have hopen : isBlank b.open = false := by cases b <;> rfl
  rw [skipFrom_value_open (dropBlanks_cons hopen _),
    skipFrom_opened_congr (inside.dropBlanks_append _)]
  exact skipIn_commaed h true stack rest

/-- Every tree can be skipped. -/
theorem Tree.isSkipped (t : Tree) : t.IsSkipped := by
  induction t using Tree.ind with
  | null => exact IsScalar.isSkipped (t := .null) trivial
  | flag b => exact IsScalar.isSkipped (t := .flag b) trivial
  | number n => exact IsScalar.isSkipped (t := .number n) trivial
  | text q => exact IsScalar.isSkipped (t := .text q) trivial
  | list inside items ih =>
    intro stack rest _
    have hitems : ∀ p ∈ itemTexts items, IsItem .list p := by
      rw [itemTexts_eq]
      intro p hp
      obtain ⟨i, hi, rfl⟩ := List.mem_map.1 hp
      exact isItem_padded (ih i hi)
    have hchars : (Tree.list inside items).chars ++ rest =
        '[' :: (inside.chars ++ (commaed true (itemTexts items) ++ ']' :: rest)) := by
      simp [chars]
    rw [hchars]
    exact skipFrom_bracketed hitems inside stack rest
  | object inside members ih =>
    intro stack rest _
    have hmembers : ∀ p ∈ memberTexts members, IsItem .object p := by
      rw [memberTexts_eq]
      intro p hp
      obtain ⟨m, hm, rfl⟩ := List.mem_map.1 hp
      exact isItem_member (ih m hm)
    have hchars : (Tree.object inside members).chars ++ rest =
        '{' :: (inside.chars ++ (commaed true (memberTexts members) ++ '}' :: rest)) := by
      simp [chars]
    rw [hchars]
    exact skipFrom_bracketed hmembers inside stack rest

/-- **Skipping a value** takes its text off the front. What the text denotes does not matter, nor
what follows the value if that cannot be taken for a part of it. -/
theorem skipValue_padded (t : Padded Tree) {rest : List Char} (h : Ends rest) :
    skipValue (t.chars Tree.chars ++ rest) = .ok (t.after.chars ++ rest) := by
  rw [t.chars_append, skipValue, skipFrom_value_congr (t.before.dropBlanks_append _),
    t.content.isSkipped [] _ (ends_blanks_append t.after h), skipFrom_complete_nil]

end HostBridge.Json
