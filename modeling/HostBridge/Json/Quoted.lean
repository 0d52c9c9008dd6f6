import HostBridge.Json.Fault
import HostBridge.Text.Hex
import HostBridge.Text.Surrogate

/-!
# Quoted texts

A text in quotes, with escapes. Control characters must be escaped, and any character may be, as
one or two 16-bit units in hexadecimal. Reading a quoted text (`read`) refuses half of a surrogate
pair that stands alone; skipping one (`skip`) lets it pass. Both start after the opening quote.

`encode` writes a text in quotes, escaping only what must be escaped.
-/

namespace HostBridge.Json.Quoted

/-- The unit that four hexadecimal digits denote. -/
def unit? (a b c d : Char) : Option Nat := Hex.readDigits 0 [a, b, c, d]

/-- The character that a one-letter escape stands for. -/
def letter? : Char → Option Char
  | '"' => some '"'
  | '\\' => some '\\'
  | '/' => some '/'
  | 'b' => some '\x08'
  | 'f' => some '\x0c'
  | 'n' => some '\n'
  | 'r' => some '\r'
  | 't' => some '\t'
  | _ => none

/-- A character that must be escaped wherever it stands. -/
def isControl (c : Char) : Bool := c.toNat < 0x20

/-- The fault of a unit escape with fewer than four characters after it: the text ended if fewer
than four bytes are left. -/
def shortUnit (rest : List Char) : Fault :=
  if (String.ofList rest).utf8ByteSize < 4 then .ended else .malformed

/-- The fault of a first half with no second half after it. -/
def unpaired : List Char → Fault
  | [] => .ended
  | ['\\'] => .ended
  | '\\' :: 'u' :: rest => shortUnit rest
  | _ => .malformed

/-- Put a character in front of what is read. -/
def push (c : Char) (r : Except Fault (List Char × List Char)) :
    Except Fault (List Char × List Char) :=
  r.map fun r => (c :: r.1, r.2)

/-- Read a text up to its closing quote. -/
def read : Reader (List Char)
  | [] => .error .ended
  | '"' :: rest => .ok ([], rest)
  | '\\' :: 'u' :: a :: b :: c :: d :: rest =>
    match unit? a b c d with
    | none => .error .malformed
    | some n =>
      if Surrogate.isLow n then .error .malformed
      else if Surrogate.isHigh n then
        match rest with
        | '\\' :: 'u' :: a :: b :: c :: d :: rest =>
          match unit? a b c d with
          | none => .error .malformed
          | some m =>
            if Surrogate.isLow m then push (Surrogate.char n m) (read rest) else .error .malformed
        | rest => .error (unpaired rest)
      else push (Char.ofNat n) (read rest)
  | '\\' :: 'u' :: rest => .error (shortUnit rest)
  | '\\' :: e :: rest =>
    match letter? e with
    | none => .error .malformed
    | some c => push c (read rest)
  | ['\\'] => .error .ended
  | c :: rest => if isControl c then .error .malformed else push c (read rest)

/-- Skip a text up to its closing quote. -/
def skip : List Char → Except Fault (List Char)
  | [] => .error .ended
  | '"' :: rest => .ok rest
  | '\\' :: 'u' :: a :: b :: c :: d :: rest =>
    match unit? a b c d with
    | none => .error .malformed
    | some _ => skip rest
  | '\\' :: 'u' :: rest => .error (shortUnit rest)
  | '\\' :: e :: rest =>
    match letter? e with
    | none => .error .malformed
    | some _ => skip rest
  | ['\\'] => .error .ended
  | c :: rest => if isControl c then .error .malformed else skip rest

/-- A character as it is written between quotes. -/
def encodeChar (c : Char) : List Char :=
  match c with
  | '"' => ['\\', '"']
  | '\\' => ['\\', '\\']
  | '\x08' => ['\\', 'b']
  | '\x0c' => ['\\', 'f']
  | '\n' => ['\\', 'n']
  | '\r' => ['\\', 'r']
  | '\t' => ['\\', 't']
  | c =>
    if isControl c then
      ['\\', 'u', '0', '0', Hex.digitChar (c.toNat / 16), Hex.digitChar (c.toNat % 16)]
    else [c]

/-- A text in quotes. -/
def encode (cs : List Char) : List Char := '"' :: cs.flatMap encodeChar ++ ['"']

theorem push_eq_ok {c : Char} {r : Except Fault (List Char × List Char)} {t rest : List Char}
    (h : push c r = .ok (t, rest)) : ∃ u, t = c :: u ∧ r = .ok (u, rest) := by
  cases r with
  | error f => simp [push, Except.map] at h
  | ok p =>
    obtain ⟨u, rest'⟩ := p
    simp only [push, Except.map, Except.ok.injEq, Prod.mk.injEq] at h
    exact ⟨u, h.1.symm, by simp [h.2]⟩

/-- Reading uses up the closing quote at least. -/
theorem length_read_lt (cs t rest : List Char) (h : read cs = .ok (t, rest)) :
    rest.length < cs.length := by
  fun_induction read cs generalizing t rest <;> simp_all
  all_goals
    obtain ⟨u, _, hu⟩ := push_eq_ok h
    grind

/-- Skipping uses up the closing quote at least. -/
theorem length_skip_lt (cs rest : List Char) (h : skip cs = .ok rest) :
    rest.length < cs.length := by
  fun_induction skip cs generalizing rest <;> simp_all
  all_goals grind

end HostBridge.Json.Quoted
