/-!
# Hexadecimal digits

Reading digits of either case, and pairs of them as bytes.
-/

namespace HostBridge.Hex

/-- The value of a hexadecimal digit. -/
def digit? (c : Char) : Option Nat :=
  if '0' ≤ c ∧ c ≤ '9' then some (c.toNat - '0'.toNat)
  else if 'a' ≤ c ∧ c ≤ 'f' then some (c.toNat - 'a'.toNat + 10)
  else if 'A' ≤ c ∧ c ≤ 'F' then some (c.toNat - 'A'.toNat + 10)
  else none

/-- Read hexadecimal digits on top of a value already read. -/
def readDigits (acc : Nat) : List Char → Option Nat
  | [] => some acc
  | c :: cs => (digit? c).bind fun d => readDigits (16 * acc + d) cs

/-- The bytes that pairs of hexadecimal digits denote. -/
def bytes : List Char → List UInt8
  | a :: b :: rest => UInt8.ofNat ((readDigits 0 [a, b]).getD 0) :: bytes rest
  | _ => []

/-- A lower-case hexadecimal digit. -/
def digitChar (n : Nat) : Char :=
  Char.ofNat (if n < 10 then '0'.toNat + n else 'a'.toNat + (n - 10))

end HostBridge.Hex
