import HostBridge.Double
import HostBridge.Json.Fault

/-!
# Numerals

A numeral is a whole part without superfluous zeros, and optionally a fraction and an exponent,
each with at least one digit. The sign is not part of it.

A numeral that is taken as a value must not exceed what a double can hold (`Numeral.exceeds`). The
first digits, as long as they fit in 64 bits, are rounded to a double and scaled by a power of ten
that is itself a double.
-/

namespace HostBridge.Json

/-- The digits of a numeral. -/
structure Numeral where
  whole : List Char
  fraction : List Char := []
  negativeExponent : Bool := false
  exponent : List Char := []

namespace Numeral

/-- A decimal digit. -/
def isDigit (c : Char) : Bool := '0' ≤ c && c ≤ '9'

/-- The digits in front, and the rest. -/
def digits (cs : List Char) : List Char × List Char := (cs.takeWhile isDigit, cs.dropWhile isDigit)

/-- Read at least one digit. `atEnd` is the fault when the text ends before it. -/
def someDigits (atEnd : Fault) : Reader (List Char)
  | [] => .error atEnd
  | c :: rest => if isDigit c then .ok (digits (c :: rest)) else .error .malformed

/-- Read an exponent if there is one. -/
def readExponent (atEnd : Fault) (n : Numeral) : Reader Numeral
  | [] => .ok (n, [])
  | c :: rest =>
    if c = 'e' ∨ c = 'E' then
      let (negative, rest) := match rest with
        | '+' :: rest => (false, rest)
        | '-' :: rest => (true, rest)
        | rest => (false, rest)
      (someDigits atEnd rest).map fun r =>
        ({ n with negativeExponent := negative, exponent := r.1 }, r.2)
    else .ok (n, c :: rest)

/-- Read a fraction and an exponent if they are there. -/
def readFraction (atEnd : Fault) (whole : List Char) : Reader Numeral
  | '.' :: rest =>
    match someDigits atEnd rest with
    | .error f => .error f
    | .ok (fraction, rest) => readExponent atEnd { whole, fraction } rest
  | rest => readExponent atEnd { whole } rest

/-- Read a numeral. `atEnd` is the fault when the text ends where a digit is due. -/
def read (atEnd : Fault) : Reader Numeral
  | '0' :: rest =>
    match rest with
    | c :: _ => if isDigit c then .error .malformed else readFraction atEnd ['0'] rest
    | [] => readFraction atEnd ['0'] []
  | cs =>
    match someDigits atEnd cs with
    | .error f => .error f
    | .ok (whole, rest) => readFraction atEnd whole rest

/-! ## The range of doubles -/

/-- The number that a digit denotes. -/
def value (c : Char) : Nat := c.toNat - '0'.toNat

/-- Take digits while they fit in 64 bits. The digits left over are counted. -/
def take64 : Nat → List Char → Nat × Nat
  | acc, [] => (acc, 0)
  | acc, c :: cs =>
    if 10 * acc + value c < Nat.pow 2 64 then take64 (10 * acc + value c) cs
    else (acc, cs.length + 1)

/-- The product of two nonnegative whole doubles is too large for a double. -/
def productExceeds (a b : Double) : Bool :=
  match a.toInt?, b.toInt? with
  | some m, some n => Int.pow 2 1024 - Int.pow 2 970 ≤ m * n
  | _, _ => false

/-- The numeral is too large for a double. -/
def exceeds (n : Numeral) : Bool :=
  let (high, skipped) := take64 0 n.whole
  let (significand, dropped) := take64 high n.fraction
  let written : Int := n.exponent.foldl (fun acc c => 10 * acc + value c) 0
  let exponent : Int := skipped - (n.fraction.length - dropped) +
    if n.negativeExponent then -written else written
  significand != 0 && (308 < exponent || (0 ≤ exponent &&
    productExceeds (Double.ofNat significand) (Double.ofNat (Nat.pow 10 exponent.toNat))))

/-! ## Lengths -/

theorem length_someDigits_lt {atEnd : Fault} {cs ds rest : List Char}
    (h : someDigits atEnd cs = .ok (ds, rest)) : rest.length < cs.length := by
  cases cs with
  | nil => simp [someDigits] at h
  | cons c cs =>
    by_cases hc : isDigit c
    · simp only [someDigits, hc, if_true, digits, Except.ok.injEq, Prod.mk.injEq] at h
      have := (List.dropWhile_sublist isDigit (l := cs)).length_le
      simp [← h.2, hc]
      omega
    · simp [someDigits, hc] at h

theorem length_readExponent_le {atEnd : Fault} {n m : Numeral} {cs rest : List Char}
    (h : readExponent atEnd n cs = .ok (m, rest)) : rest.length ≤ cs.length := by
  cases cs with
  | nil => simp_all [readExponent]
  | cons c cs =>
    simp only [readExponent] at h
    split at h
    · rename_i hc
      cases hd : someDigits atEnd (match cs with
        | '+' :: rest => (false, rest)
        | '-' :: rest => (true, rest)
        | rest => (false, rest)).2 with
      | error f => simp [hd, Except.map] at h
      | ok p =>
        have := length_someDigits_lt hd
        simp only [hd, Except.map, Except.ok.injEq, Prod.mk.injEq] at h
        rw [← h.2]
        split at this <;> simp_all <;> omega
    · simp_all

theorem length_readFraction_le {atEnd : Fault} {whole : List Char} {m : Numeral}
    {cs rest : List Char} (h : readFraction atEnd whole cs = .ok (m, rest)) :
    rest.length ≤ cs.length := by
  unfold readFraction at h
  split at h
  · split at h
    · simp at h
    · rename_i hd
      have h1 := length_someDigits_lt hd
      have h2 := length_readExponent_le h
      simp only [List.length_cons]
      omega
  · exact length_readExponent_le h

/-- A numeral uses up a digit at least. -/
theorem length_read_lt {atEnd : Fault} {n : Numeral} {cs rest : List Char}
    (h : read atEnd cs = .ok (n, rest)) : rest.length < cs.length := by
  unfold read at h
  split at h
  · split at h
    · split at h
      · simp at h
      · have := length_readFraction_le h
        simp only [List.length_cons] at this ⊢
        omega
    · have := length_readFraction_le h
      simp only [List.length_cons, List.length_nil] at this ⊢
      omega
  · split at h
    · simp at h
    · rename_i hd
      have h1 := length_someDigits_lt hd
      have h2 := length_readFraction_le h
      omega

end Numeral

end HostBridge.Json
