import HostBridge.Text.Hex

/-!
# Percent escapes

Texts are carried in addresses with all but some characters written as percent signs and hexadecimal
digits: the bytes of a character's UTF-8 form (`encode`, `decode`), or its 16-bit units (`escape`,
`unescape`). Which characters are spared depends on the part of an address.
-/

namespace HostBridge.Percent

/-- Why a text is not decoded. -/
inductive Fault where
  | noPercent
  | noDigit
  | malformed
deriving DecidableEq

/-- The character has a meaning in addresses. -/
def isReserved (c : Char) : Bool := ";/?:@&=+$,#".toList.contains c

/-- The character is spared in every part of an address. -/
def isPlain (c : Char) : Bool := c.isAlphanum || "-_.!~*'()".toList.contains c

/-- An upper-case hexadecimal digit. -/
def digitChar (n : Nat) : Char := (Hex.digitChar n).toUpper

/-- A byte as two digits. -/
def byte (n : Nat) : List Char := [digitChar (n / 16), digitChar (n % 16)]

/-- Write a text, sparing plain characters and those that `spared` says. -/
def encode (spared : Char → Bool) (cs : List Char) : List Char :=
  cs.flatMap fun c =>
    if isPlain c || spared c then [c]
    else (String.singleton c).toUTF8.toList.flatMap fun b => '%' :: byte b.toNat

/-- The byte that an escape denotes, and the rest. -/
def readByte : List Char → Except Fault (Nat × List Char)
  | '%' :: a :: b :: rest =>
    match Hex.readDigits 0 [a, b] with
    | some n => .ok (n, rest)
    | none => .error .noDigit
  | '%' :: _ => .error .noDigit
  | _ => .error .noPercent

/-- The further bytes of a character on top of the bits already read. A byte that does not belong
there gives nothing. -/
def readTail (bits : Nat) : Nat → List Char → Except Fault (Option Nat × List Char)
  | 0, cs => .ok (some bits, cs)
  | n + 1, cs =>
    match readByte cs with
    | .error f => .error f
    | .ok (b, rest) =>
      if b / 64 = 2 then readTail (bits * 64 + b % 64) n rest else .ok (none, rest)

/-- The number of bytes after a first byte, the least number that needs them, and the bits that the
first byte gives. -/
def lead? (b : Nat) : Option (Nat × Nat × Nat) :=
  if 0xc0 ≤ b ∧ b ≤ 0xdf then some (1, 0x80, b % 32)
  else if 0xe0 ≤ b ∧ b ≤ 0xef then some (2, 0x800, b % 16)
  else if 0xf0 ≤ b ∧ b ≤ 0xf7 then some (3, 0x10000, b % 8)
  else none

/-- The character at the front of a text that starts with an escape, and the rest. -/
def readChar (cs : List Char) : Except Fault (Char × List Char) :=
  match readByte cs with
  | .error f => .error f
  | .ok (b, rest) =>
    if b < 0x80 then .ok (Char.ofNat b, rest)
    else
      match lead? b with
      | none => .error .malformed
      | some (count, least, bits) =>
        match readTail bits count rest with
        | .error f => .error f
        | .ok (none, _) => .error .malformed
        | .ok (some n, rest) =>
          if n < least ∨ ¬ n.isValidChar then .error .malformed else .ok (Char.ofNat n, rest)

/-- Read a text of at most `fuel` characters. Escapes of characters that `kept` says stay as they
are. -/
def decodeWithin (kept : Char → Bool) : Nat → List Char → Except Fault (List Char)
  | 0, _ | _, [] => .ok []
  | fuel + 1, c :: cs =>
    if c ≠ '%' then (decodeWithin kept fuel cs).map (c :: ·)
    else
      match readChar (c :: cs) with
      | .error f => .error f
      | .ok (d, rest) =>
        if kept d then (decodeWithin kept fuel cs).map (c :: ·)
        else (decodeWithin kept fuel rest).map (d :: ·)

/-- Read a text. Escapes of characters that `kept` says stay as they are. -/
def decode (kept : Char → Bool) (cs : List Char) : Except Fault (List Char) :=
  decodeWithin kept cs.length cs

/-- Write 16-bit units, the large ones with four digits. -/
def escape (units : List Nat) : List Char :=
  units.flatMap fun u =>
    let c := Char.ofNat u
    if u < 128 ∧ (c.isAlphanum ∨ c ∈ "@*_+-./".toList) then [c]
    else if u < 256 then '%' :: byte u
    else '%' :: 'u' :: byte (u / 256) ++ byte (u % 256)

/-- Read 16-bit units. What is no escape stays as it is. -/
def unescape : List Nat → List Nat
  | 37 :: 117 :: a :: b :: c :: d :: rest =>
    match Hex.readDigits 0 ([a, b, c, d].map Char.ofNat) with
    | some n => n :: unescape rest
    | none => 37 :: unescape (117 :: a :: b :: c :: d :: rest)
  | 37 :: a :: b :: rest =>
    match Hex.readDigits 0 ([a, b].map Char.ofNat) with
    | some n => n :: unescape rest
    | none => 37 :: unescape (a :: b :: rest)
  | u :: rest => u :: unescape rest
  | [] => []

end HostBridge.Percent
