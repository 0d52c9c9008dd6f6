/-!
# Unsigned numbers in text

An unsigned number is an optional plus sign and at least one decimal digit, leading zeros allowed,
with a value below `2^64`. Nothing else is accepted: no blanks, no underscores, no minus sign.
-/

namespace HostBridge.Unsigned

/-- The value of a decimal digit. -/
def digit? (c : Char) : Option Nat :=
  if '0' ≤ c ∧ c ≤ '9' then some (c.toNat - '0'.toNat) else none

/-- Read digits on top of a value already read. -/
def readDigits (acc : Nat) : List Char → Option Nat
  | [] => some acc
  | c :: cs => (digit? c).bind fun d => readDigits (10 * acc + d) cs

/-- The number without bound that a text of at least one digit denotes. -/
def readNonempty : List Char → Option Nat
  | [] => none
  | cs => readDigits 0 cs

/-- The unsigned number that a text denotes. -/
def read? (cs : List Char) : Option Nat :=
  let digits := match cs with
    | '+' :: rest => rest
    | _ => cs
  (readNonempty digits).filter (· < Nat.pow 2 64)

end HostBridge.Unsigned
