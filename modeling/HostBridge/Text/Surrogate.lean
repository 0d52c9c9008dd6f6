/-!
# Surrogate pairs

Two 16-bit units, a high half and a low half, stand together for one character above U+FFFF.
-/

namespace HostBridge.Surrogate

/-- A first half of a pair. -/
def isHigh (unit : Nat) : Bool := 0xD800 ≤ unit && unit ≤ 0xDBFF

/-- A second half of a pair. -/
def isLow (unit : Nat) : Bool := 0xDC00 ≤ unit && unit ≤ 0xDFFF

/-- The character of a pair. -/
def char (high low : Nat) : Char := Char.ofNat (0x10000 + (high - 0xD800) * 0x400 + (low - 0xDC00))

/-- The pair of a character above U+FFFF. -/
def halves (c : Char) : List Nat :=
  let n := c.toNat - 0x10000
  [0xD800 + n / 0x400, 0xDC00 + n % 0x400]

end HostBridge.Surrogate
