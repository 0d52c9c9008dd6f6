import HostBridge.Double
import HostBridge.Text.Hex

/-!
# Bit patterns in text

A double as the sixteen hexadecimal digits of its pattern, high end first. Every NaN is written
`nan`.
-/

namespace HostBridge

namespace Double

/-- The text of the pattern. -/
def pattern (d : Double) : String :=
  if d.isNaN then "nan"
  else
    let digits := Nat.toDigits 16 d.bits.toNat
    String.ofList (List.replicate (16 - digits.length) '0' ++ digits)

/-- The double with a pattern. -/
def ofPattern? (s : String) : Option Double :=
  if s == "nan" then some nan else (Hex.readDigits 0 s.toList).map fun n => ⟨UInt64.ofNat n⟩

end Double

end HostBridge
