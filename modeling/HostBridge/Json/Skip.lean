import HostBridge.Json.Numeral
import HostBridge.Json.Quoted

/-!
# Skipping values

A value that nobody asked for is passed over, however deep it is nested. It must be well-formed,
but numbers may have any size, and texts may hold half of a surrogate pair. The brackets that are
open stand on a stack, innermost first, so nesting costs no recursion.
-/

namespace HostBridge.Json

/-- Read the letters of a word. -/
def word : List Char → List Char → Except Fault (List Char)
  | [], cs => .ok cs
  | _ :: _, [] => .error .ended
  | w :: ws, c :: cs => if w = c then word ws cs else .error .malformed

/-- An open bracket. -/
inductive Bracket where
  | list
  | object
deriving DecidableEq

/-- The character that closes a bracket. -/
def Bracket.close : Bracket → Char
  | list => ']'
  | object => '}'

/-- Where skipping stands. -/
inductive Place where
  /-- A value is due. -/
  | value
  /-- A bracket was just opened. -/
  | opened (b : Bracket)
  /-- A value is complete. -/
  | complete

/-- After an opening bracket a value may be due before anything is used up. -/
def Place.weight : Place → Nat
  | opened _ => 1
  | _ => 0

/-- Read the colon between a name and its value. -/
def colon (cs : List Char) : Except Fault (List Char) :=
  match dropBlanks cs with
  | [] => .error .ended
  | c :: rest => if c = ':' then .ok rest else .error .malformed

/-- Skip what comes before a value inside a bracket: nothing in a list, the name and the colon in
an object. -/
def skipName : Bracket → List Char → Except Fault (List Char)
  | .list, cs => .ok cs
  | .object, cs =>
    match dropBlanks cs with
    | [] => .error .ended
    | c :: rest =>
      if c = '"' then
        match Quoted.skip rest with
        | .error f => .error f
        | .ok rest => colon rest
      else .error .malformed

/-- Skip a value that is not in brackets. A number that ends too early is malformed. -/
def skipScalar : List Char → Except Fault (List Char)
  | [] => .error .ended
  | '"' :: rest => Quoted.skip rest
  | 'n' :: rest => word ['u', 'l', 'l'] rest
  | 't' :: rest => word ['r', 'u', 'e'] rest
  | 'f' :: rest => word ['a', 'l', 's', 'e'] rest
  | '-' :: rest => (Numeral.read .malformed rest).map (·.2)
  | c :: rest =>
    if Numeral.isDigit c then (Numeral.read .malformed (c :: rest)).map (·.2)
    else .error .malformed

theorem length_word_le {w cs rest : List Char} (h : word w cs = .ok rest) :
    rest.length ≤ cs.length := by
  induction w generalizing cs with
  | nil => simp_all [word]
  | cons a w ih =>
    cases cs with
    | nil => simp [word] at h
    | cons c cs =>
      simp only [word] at h
      split at h
      · have := ih h
        simp only [List.length_cons]
        omega
      · simp at h

theorem length_colon_lt {cs rest : List Char} (h : colon cs = .ok rest) :
    rest.length < cs.length := by
  have hb := length_dropBlanks_le cs
  unfold colon at h
  split at h
  · simp at h
  · rename_i hd
    split at h
    · rw [hd] at hb
      simp only [List.length_cons] at hb
      simp only [Except.ok.injEq] at h
      rw [← h]
      omega
    · simp at h

theorem length_skipName_le {b : Bracket} {cs rest : List Char} (h : skipName b cs = .ok rest) :
    rest.length ≤ cs.length := by
  cases b with
  | list => simp_all [skipName]
  | object =>
    have hb := length_dropBlanks_le cs
    simp only [skipName] at h
    split at h
    · simp at h
    · rename_i hd
      split at h
      · split at h
        · simp at h
        · rename_i hs
          have h1 := Quoted.length_skip_lt _ _ hs
          have h2 := length_colon_lt h
          rw [hd] at hb
          simp only [List.length_cons] at hb
          omega
      · simp at h

theorem length_skipScalar_lt {cs rest : List Char} (h : skipScalar cs = .ok rest) :
    rest.length < cs.length := by
  have number {cs rest : List Char}
      (h : (Numeral.read .malformed cs).map (·.2) = .ok rest) : rest.length < cs.length := by
    cases hn : Numeral.read .malformed cs with
    | error f => simp [hn, Except.map] at h
    | ok p =>
      simp only [hn, Except.map, Except.ok.injEq] at h
      exact h ▸ Numeral.length_read_lt hn
  unfold skipScalar at h
  split at h
  · simp at h
  · exact Nat.lt_succ_of_lt (Quoted.length_skip_lt _ _ h)
  · exact Nat.lt_succ_of_le (length_word_le h)
  · exact Nat.lt_succ_of_le (length_word_le h)
  · exact Nat.lt_succ_of_le (length_word_le h)
  · exact Nat.lt_succ_of_lt (number h)
  · split at h
    · exact number h
    · simp at h

/-- Skip from a place on, until the value is complete and no bracket is open. -/
def skipFrom (place : Place) (stack : List Bracket) (cs : List Char) :
    Except Fault (List Char) :=
  match place with
  | .value =>
    match _hd : dropBlanks cs with
    | [] => .error .ended
    | c :: rest =>
      if c = '[' then skipFrom (.opened .list) stack rest
      else if c = '{' then skipFrom (.opened .object) stack rest
      else
        match _hs : skipScalar (c :: rest) with
        | .error f => .error f
        | .ok rest => skipFrom .complete stack rest
  | .opened b =>
    match _hd : dropBlanks cs with
    | [] => .error .ended
    | c :: rest =>
      if c = b.close then skipFrom .complete stack rest
      else
        match _hn : skipName b (c :: rest) with
        | .error f => .error f
        | .ok rest => skipFrom .value (b :: stack) rest
  | .complete =>
    match stack with
    | [] => .ok cs
    | b :: stack =>
      match _hd : dropBlanks cs with
      | [] => .error .ended
      | c :: rest =>
        if c = ',' then
          match _hn : skipName b rest with
          | .error f => .error f
          | .ok rest => skipFrom .value (b :: stack) rest
        else if c = b.close then skipFrom .complete stack rest
        else .error .malformed
termination_by 2 * cs.length + place.weight
decreasing_by
  all_goals
    have hb := length_dropBlanks_le cs
    rw [_hd] at hb
    simp only [List.length_cons] at hb
    simp only [Place.weight]
  · omega
  · omega
  · have := length_skipScalar_lt _hs
    simp only [List.length_cons] at this
    omega
  · omega
  · have := length_skipName_le _hn
    simp only [List.length_cons] at this
    omega
  · have := length_skipName_le _hn
    omega
  · omega

theorem length_skipFrom_le {place : Place} {stack : List Bracket} {cs rest : List Char}
    (h : skipFrom place stack cs = .ok rest) : rest.length ≤ cs.length := by
  fun_induction skipFrom place stack cs <;>
    grind [→ length_skipScalar_lt, → length_skipName_le, length_dropBlanks_le]

/-- Skip a value. -/
def skipValue (cs : List Char) : Except Fault (List Char) := skipFrom .value [] cs

theorem length_skipValue_le {cs rest : List Char} (h : skipValue cs = .ok rest) :
    rest.length ≤ cs.length := length_skipFrom_le h

end HostBridge.Json
