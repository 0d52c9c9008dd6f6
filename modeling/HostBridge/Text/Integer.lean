import HostBridge.Text.Unsigned

/-!
# Integers in text

The decimal text of a 64-bit integer, and reading one: an optional sign and at least one digit,
with a value in range.
-/

namespace HostBridge.Integer

/-- The decimal text of a 64-bit integer. -/
def text (i : Int64) : String :=
  let n := i.toInt
  if n < 0 then "-" ++ Nat.repr n.natAbs else Nat.repr n.natAbs

/-- The integer that a text denotes. -/
def read? (cs : List Char) : Option Int64 :=
  let signed : Option Int := match cs with
    | '-' :: rest => (Unsigned.readNonempty rest).map fun n => -Int.ofNat n
    | '+' :: rest => (Unsigned.readNonempty rest).map Int.ofNat
    | _ => (Unsigned.readNonempty cs).map Int.ofNat
  signed.bind fun n =>
    if -Int.pow 2 63 ≤ n ∧ n < Int.pow 2 63 then some (Int64.ofInt n) else none

end HostBridge.Integer
