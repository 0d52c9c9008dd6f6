import HostBridge.Double.Decimal
import HostBridge.Engine.Text
import HostBridge.Text.Blank
import HostBridge.Text.Hex

/-!
# Numbers in texts of the engine

Scripts read numbers from texts in one way throughout: space at the ends is passed over, an empty
text is zero, and a number is decimal, or has a radix of two, eight or sixteen when it starts with
`0b`, `0o` or `0x`. A sign may stand before a decimal number only. A text that is no number reads as
NaN (`number`), and is no big integer (`bigInteger?`). Two functions read only as far as they can
(`leadingInteger`, `leadingNumber`).

A name is numeric when it is how scripts write the number that it reads as (`isNumericName`).
-/

namespace HostBridge

namespace Numeral

/-- The character is white space or ends a line in scripts. -/
def isSpace (c : Char) : Bool := (Blank.isBlank c && c != '\x85') || c == '\ufeff'

/-- The text without white space at its ends. -/
def trim (cs : List Char) : List Char :=
  ((cs.dropWhile isSpace).reverse.dropWhile isSpace).reverse

/-- Read digits of a radix up to sixteen on top of a value already read. -/
def readDigits (radix : Nat) (acc : Nat) : List Char → Option Nat
  | [] => some acc
  | c :: cs =>
    ((Hex.digit? c).filter (· < radix)).bind fun d => readDigits radix (radix * acc + d) cs

/-- The number that at least one digit of a radix denotes. -/
def natural? (radix : Nat) : List Char → Option Nat
  | [] => none
  | cs => readDigits radix 0 cs

/-- The radix that a letter after a zero announces. -/
def radix? (c : Char) : Option Nat :=
  match c with
  | 'b' | 'B' => some 2
  | 'o' | 'O' => some 8
  | 'x' | 'X' => some 16
  | _ => none

/-- The radix of a text without a sign, and its digits. -/
def radixed : List Char → Nat × List Char
  | '0' :: c :: cs =>
    match radix? c with
    | some radix => (radix, cs)
    | none => (10, '0' :: c :: cs)
  | cs => (10, cs)

/-- Take the sign off a text. -/
def signed : List Char → Bool × List Char
  | '-' :: cs => (true, cs)
  | '+' :: cs => (false, cs)
  | cs => (false, cs)

/-- The big integer that a text denotes. -/
def bigInteger? (s : String) : Option Int :=
  let cs := trim s.toList
  if cs.isEmpty then some 0
  else
    match radixed cs with
    | (10, cs) =>
      (natural? 10 (signed cs).2).map fun (n : Nat) => if (signed cs).1 then -(n : Int) else n
    | (radix, cs) => (natural? radix cs).map fun n => (n : Int)

/-- The digits at the front of a text, and what follows them. -/
def digits (cs : List Char) : List Char × List Char :=
  (cs.takeWhile Char.isDigit, cs.dropWhile Char.isDigit)

/-- The power of ten at the end of a decimal number. -/
def exponent? : List Char → Option Int
  | [] => some 0
  | c :: cs =>
    if c = 'e' ∨ c = 'E' then
      (natural? 10 (signed cs).2).map fun (n : Nat) => if (signed cs).1 then -(n : Int) else n
    else none

/-- The double nearest to a decimal. -/
def nearest (m : Nat) (exponent : Int) : Double :=
  if m = 0 then .zero
  else if 400 < exponent then .infinity
  else if exponent + (Nat.log2 m + 1 : Nat) < -400 then .zero
  else ⟨(Float.ofScientific m (decide (exponent < 0)) exponent.natAbs).toBits⟩

/-- A double with the sign that was read before it. -/
def withSign (negative : Bool) (d : Double) : Double := if negative then d.negate else d

/-- The decimal number without a sign that a text denotes. -/
def decimal? (cs : List Char) : Option Double :=
  if cs = "Infinity".toList then some .infinity
  else
    let (whole, rest) := digits cs
    let (fraction, rest) := match rest with
      | '.' :: rest => digits rest
      | rest => ([], rest)
    match natural? 10 (whole ++ fraction), exponent? rest with
    | some m, some e => some (nearest m (e - fraction.length))
    | _, _ => none

/-- The number that a text denotes, NaN if it denotes none. -/
def number (s : String) : Double :=
  let cs := trim s.toList
  if cs.isEmpty then .zero
  else
    match radixed cs with
    | (10, cs) =>
      let (negative, cs) := signed cs
      ((decimal? cs).map (withSign negative)).getD .nan
    | (radix, cs) => ((natural? radix cs).map Double.ofNat).getD .nan

/-! ## Numbers at the front of a text -/

/-- The value of a digit up to radix 36. -/
def digit36? (c : Char) : Option Nat :=
  if c.isDigit then some (c.toNat - '0'.toNat)
  else if c.isLower then some (c.toNat - 'a'.toNat + 10)
  else if c.isUpper then some (c.toNat - 'A'.toNat + 10)
  else none

/-- The digits of a radix at the front of a text, read on top of a value. -/
def leadingDigits (radix : Nat) (acc : Nat) : List Char → Nat
  | [] => acc
  | c :: cs =>
    match (digit36? c).filter (· < radix) with
    | some d => leadingDigits radix (radix * acc + d) cs
    | none => acc

/-- The integer at the front of a text. Radix zero stands for ten, or for sixteen after `0x`. -/
def leadingInteger (radix : Nat) (s : String) : Double :=
  let (negative, cs) := signed (s.toList.dropWhile isSpace)
  let (radix, cs) := match cs with
    | '0' :: c :: rest =>
      if (c = 'x' ∨ c = 'X') ∧ (radix = 0 ∨ radix = 16) then (16, rest) else (radix, cs)
    | cs => (radix, cs)
  let radix := if radix = 0 then 10 else radix
  match cs.head?.bind fun c => (digit36? c).filter (· < radix) with
  | some _ => withSign negative (Double.ofNat (leadingDigits radix 0 cs))
  | none => .nan

/-- The exponent at the front of a text, zero if there is none. -/
def leadingExponent : List Char → Int
  | c :: cs =>
    if c = 'e' ∨ c = 'E' then
      let (negative, cs) := signed cs
      let n : Int := ((natural? 10 (digits cs).1).getD 0 : Nat)
      if negative then -n else n
    else 0
  | [] => 0

/-- The decimal number at the front of a text. -/
def leadingNumber (s : String) : Double :=
  let (negative, cs) := signed (s.toList.dropWhile isSpace)
  if cs.take 8 = "Infinity".toList then withSign negative .infinity
  else
    let (whole, rest) := digits cs
    let (fraction, rest) := match rest with
      | '.' :: rest => digits rest
      | rest => ([], rest)
    match natural? 10 (whole ++ fraction) with
    | some m => withSign negative (nearest m (leadingExponent rest - fraction.length))
    | none => .nan

/-! ## Numeric names -/

/-- The name starts like a number. -/
def startsNumeric (cs : List Char) : Bool :=
  match (signed cs).2 with
  | c :: _ => c.isDigit || (signed cs).2 == "Infinity".toList
  | [] => false

/-- The name is how scripts write the number that it reads as. -/
def isNumericName (name : String) : Bool :=
  startsNumeric name.toList && (name == "-0" || (number name).scriptText == name)

end Numeral

namespace Double

/-- The whole part of a double, zero for NaN and the infinities. -/
def whole (d : Double) : Int :=
  if d.isFinite then
    let n : Int := d.units / Int.pow 2 1074
    if d.isNegative then -n else n
  else 0

/-- The byte that remains of a double's whole part. -/
def toByte (d : Double) : UInt8 := UInt8.ofNat (d.whole % 256).toNat

/-- The 32-bit integer that remains of a double's whole part. -/
def toInt32 (d : Double) : Int32 := Int32.ofInt d.whole

end Double

end HostBridge
