import HostBridge.Engine.Numeral
import HostBridge.Script.Fault
import HostBridge.Text.NameChar

/-!
# Tokens of scripts

A script in text is a sequence of tokens: names and keywords, numbers, texts, regular expressions,
and marks. White space and comments only separate tokens, but it matters whether a token is the
first on its line.

A text between back quotes may have holes. It comes as its pieces with the tokens of the holes
between them. What is no token ends the sequence with a fault, so that what stands before it is
still looked at first (`tokens`).
-/

namespace HostBridge.Script

/-- A token. -/
inductive Token where
  | name (s : String)
  | number (d : Double)
  | bigint (n : Int)
  | text (t : EngineText)
  /-- A piece of a text between back quotes, which ends with it or goes on after a hole. -/
  | piece (t : EngineText) (last : Bool)
  | regexp (source flags : String)
  | mark (s : String)
  | fault (f : SyntaxFault)

/-- A token, and whether it is the first on its line. -/
structure Lexeme where
  token : Token
  first : Bool

/-- The token as it stands in the text, for those that may stand in the wrong place. -/
def Token.source : Token → String
  | name s | mark s => s
  | _ => ""

/-- The character ends a line. -/
def endsLine (c : Char) : Bool := c == '\n' || c == '\r' || c == '\u2028' || c == '\u2029'

/-! ## Numbers -/

/-- The character is a digit of a radix. -/
def isDigitOf (radix : Nat) (c : Char) : Bool := (Hex.digit? c).any (· < radix)

/-- The digits at the front of a text, and what follows them. A low line may stand before a
digit. -/
def takeDigits (radix : Nat) : List Char → List Char × List Char
  | [] => ([], [])
  | c :: cs =>
    if isDigitOf radix c then
      let r := takeDigits radix cs
      (c :: r.1, r.2)
    else if c == '_' && cs.head?.any (isDigitOf radix) then takeDigits radix cs
    else ([], c :: cs)

/-- The number that digits denote. -/
def valueOf (radix : Nat) (digits : List Char) : Nat := (Numeral.natural? radix digits).getD 0

/-- The exponent at the front of a text, and what follows it. -/
def exponent? : List Char → Option (Int × List Char)
  | c :: rest =>
    let (negative, digits) := Numeral.signed rest
    if (c == 'e' || c == 'E') && digits.head?.any Char.isDigit then
      let (read, rest) := takeDigits 10 digits
      let n : Int := valueOf 10 read
      some (if negative then -n else n, rest)
    else none
  | [] => none

/-- A whole number, or a big integer if the letter for that follows. -/
def wholeNumber (n : Nat) : List Char → Token × List Char
  | 'n' :: rest => (.bigint n, rest)
  | rest => (.number (Double.ofNat n), rest)

/-- The decimal number at the front of a text. -/
def decimalNumber (cs : List Char) : Token × List Char :=
  let (whole, rest) := takeDigits 10 cs
  let (fraction, rest) := match rest with
    | '.' :: '_' :: rest => (some [], '_' :: rest)
    | '.' :: rest => ((takeDigits 10 rest).map some id)
    | rest => (none, rest)
  let value (e : Int) : Token :=
    let digits := fraction.getD []
    .number (Numeral.nearest (valueOf 10 (whole ++ digits)) (e - digits.length))
  match exponent? rest, fraction with
  | some (e, rest), _ => (value e, rest)
  | none, some _ => (value 0, rest)
  | none, none => wholeNumber (valueOf 10 whole) rest

/-- The number at the front of a text, and what follows it. No name may follow directly. -/
def readNumber (cs : List Char) : Token × List Char :=
  let apart (r : Token × List Char) : Token × List Char :=
    if r.2.head?.any NameChar.continues then (.fault .badNumber, []) else r
  match cs with
  | '0' :: c :: rest =>
    match Numeral.radix? c with
    | some radix =>
      if rest.head?.any (isDigitOf radix) then
        let (read, rest) := takeDigits radix rest
        apart (wholeNumber (valueOf radix read) rest)
      else (.fault .badNumber, [])
    | none =>
      if c.isDigit then (.fault .octalNumber, [])
      else if c == '_' then (.fault .badNumber, [])
      else apart (decimalNumber cs)
  | cs => apart (decimalNumber cs)

/-! ## Texts -/

/-- The number in braces at the front of a text, on top of a value already read. -/
def readPoint (value : Nat) : List Char → Option (Nat × List Char)
  | [] => none
  | c :: cs =>
    match Hex.digit? c with
    | none => none
    | some d =>
      let value := 16 * value + d
      if 0x10ffff < value then none
      else
        match cs with
        | '\x7d' :: rest => some (value, rest)
        | cs => readPoint value cs

/-- The character that an escape of one letter stands for. -/
def escaped (c : Char) : Char :=
  match c with
  | 'n' => '\n'
  | 't' => '\t'
  | 'r' => '\r'
  | 'b' => '\x08'
  | 'f' => '\x0c'
  | 'v' => '\x0b'
  | c => c

/-- The 16-bit units of a code point, which may be half of a pair. -/
def unitsOf (n : Nat) : List Nat :=
  if n < 0x10000 then [n] else Surrogate.halves (Char.ofNat n)

/-- The units that an escape stands for, and what follows it. The end of a line that is escaped
stands for nothing. -/
def readEscape (quote : Char) : List Char → Except SyntaxFault (List Nat × List Char)
  | [] => .error .openText
  | '\r' :: '\n' :: rest => .ok ([], rest)
  | 'x' :: a :: b :: rest =>
    match Hex.readDigits 0 [a, b] with
    | some n => .ok ([n], rest)
    | none => .error .badEscape
  | 'u' :: '\x7b' :: rest =>
    match readPoint 0 rest with
    | some (n, rest) => .ok (unitsOf n, rest)
    | none => .error .badEscape
  | 'u' :: a :: b :: c :: d :: rest =>
    match Hex.readDigits 0 [a, b, c, d] with
    | some n => .ok ([n], rest)
    | none => .error .badEscape
  | c :: rest =>
    if endsLine c then .ok ([], rest)
    else if c == 'x' || c == 'u' then .error .badEscape
    else if c == '0' && !(rest.head?.any Char.isDigit) then .ok ([0], rest)
    else if c.isDigit then
      .error (if '8' ≤ c ∨ quote == '\x60' then .badEscape else .octalEscape)
    else .ok (EngineText.pointUnits (.char (escaped c)), rest)

/-- How a piece of a text ends. -/
inductive Closing where
  | quote
  | hole

/-- The units of a text up to its quote or a hole, how it ends, and what follows. At most `fuel`
characters are read. -/
def readQuoted (quote : Char) :
    Nat → List Char → Except SyntaxFault (List Nat × Closing × List Char)
  | 0, _ | _, [] => .error .openText
  | fuel + 1, c :: cs =>
    let go (units : List Nat) (rest : List Char) :=
      (readQuoted quote fuel rest).map fun r => (units ++ r.1, r.2)
    if c == quote then .ok ([], .quote, cs)
    else if quote == '\x60' then
      match c, cs with
      | '$', '\x7b' :: rest => .ok ([], .hole, rest)
      | '\r', '\n' :: rest => go [10] rest
      | '\r', rest => go [10] rest
      | '\\', rest =>
        match readEscape quote rest with
        | .ok (units, rest) => go units rest
        | .error f => .error f
      | c, rest => go (EngineText.pointUnits (.char c)) rest
    else if c == '\n' || c == '\r' then .error .openText
    else if c == '\\' then
      match readEscape quote cs with
      | .ok (units, rest) => go units rest
      | .error f => .error f
    else go (EngineText.pointUnits (.char c)) cs

/-- The source of a regular expression up to its slash, and what follows. -/
def readPattern (inClass : Bool) : List Char → Except SyntaxFault (List Char × List Char)
  | [] => .error .openRegexp
  | '\\' :: c :: cs =>
    if endsLine c then .error .openRegexp
    else (readPattern inClass cs).map fun r => ('\\' :: c :: r.1, r.2)
  | c :: cs =>
    if endsLine c then .error .openRegexp
    else if c == '/' && !inClass then .ok ([], cs)
    else
      (readPattern (c == '[' || (inClass && c != ']')) cs).map fun r => (c :: r.1, r.2)

/-- The regular expression after its first slash. -/
def readRegexp (cs : List Char) : Token × List Char :=
  match readPattern false cs with
  | .error f => (.fault f, [])
  | .ok (source, rest) =>
    let flags := rest.takeWhile NameChar.continues
    if flags.all "dgimsuvy".toList.contains ∧ flags.Nodup then
      (.regexp (String.ofList source) (String.ofList flags), rest.drop flags.length)
    else (.fault .badFlags, [])

/-! ## Names -/

/-- The character that an escape in a name stands for, after the backslash, and what follows. -/
def readNameEscape : List Char → Option (Char × List Char)
  | 'u' :: '\x7b' :: rest => (readPoint 0 rest).map fun r => (Char.ofNat r.1, r.2)
  | 'u' :: a :: b :: c :: d :: rest =>
    (Hex.readDigits 0 [a, b, c, d]).map fun n => (Char.ofNat n, rest)
  | _ => none

/-- The characters of a name of at most `fuel` characters, and what follows. -/
def readName : Nat → List Char → List Char × List Char
  | 0, cs => ([], cs)
  | _, [] => ([], [])
  | fuel + 1, c :: cs =>
    let go (c : Char) (rest : List Char) : List Char × List Char :=
      let r := readName fuel rest
      (c :: r.1, r.2)
    if NameChar.continues c then go c cs
    else if c == '\\' then
      match readNameEscape cs with
      | some (d, rest) => if NameChar.continues d then go d rest else ([], c :: cs)
      | none => ([], c :: cs)
    else ([], c :: cs)

/-- A name starts here, perhaps with an escape. -/
def startsName (c : Char) (cs : List Char) : Bool :=
  NameChar.starts c || (c == '\\' && (readNameEscape cs).any fun r => NameChar.starts r.1)

/-! ## Marks -/

/-- The marks of more than one character, the longest first. -/
def longMarks : List String :=
  [ ">>>=", "...", "===", "!==", "**=", "<<=", ">>=", ">>>", "&&=", "||=", "??=", "=>", "==", "!=",
    "<=", ">=", "&&", "||", "??", "?.", "++", "--", "+=", "-=", "*=", "/=", "%=", "&=", "|=", "^=",
    "<<", ">>", "**" ]

/-- The text starts with another. -/
def startsWith (s : String) (cs : List Char) : Bool := cs.take s.length == s.toList

/-- The mark at the front of a text. A question mark before a decimal number stands alone. -/
def readMark (c : Char) (cs : List Char) : Token × List Char :=
  match longMarks.find? fun s => startsWith s (c :: cs) with
  | some "?." =>
    if (cs.drop 1).head?.any Char.isDigit then (.mark "?", cs) else (.mark "?.", cs.drop 1)
  | some s => (.mark s, (c :: cs).drop s.length)
  | none => (.mark (String.singleton c), cs)

/-! ## Sequences of tokens -/

/-- What follows a comment between slashes and stars, and whether a line ended in it. -/
def skipComment (line : Bool) : List Char → Option (Bool × List Char)
  | [] => none
  | '*' :: '/' :: rest => some (line, rest)
  | c :: cs => skipComment (line || endsLine c) cs

/-- The keywords after which a value follows. -/
def beforeValue : List String :=
  [ "return", "throw", "typeof", "void", "delete", "new", "in", "instanceof", "else", "case" ]

/-- A value ends with the token, so a slash after it divides. -/
def endsValue : Token → Bool
  | .name s => !beforeValue.contains s
  | .number _ | .bigint _ | .text _ | .regexp _ _ => true
  | .piece _ last => last
  | .mark s => s == ")" || s == "]" || s == "\x7d" || s == "++" || s == "--"
  | .fault _ => false

/-- The braces that are open in a hole, for each hole that is open, the innermost first. -/
abbrev Holes := List Nat

/-- The holes after a mark. -/
def Holes.after : Holes → String → Holes
  | n :: holes, "\x7b" => (n + 1) :: holes
  | n :: holes, "\x7d" => (n - 1) :: holes
  | holes, _ => holes

/-- The text is a comment up to the end of its line. -/
def startsLineComment (first : Bool) (cs : List Char) : Bool :=
  startsWith "//" cs || startsWith "<!--" cs || (first && startsWith "-->" cs)

/-- The tokens of a text of at most `fuel` characters. It matters whether a value was read just
before and whether the line is new. -/
def tokensWithin : Nat → Holes → Bool → Bool → List Char → List Lexeme
  | 0, _, _, _, _ | _, _, _, _, [] => []
  | fuel + 1, holes, value, first, c :: cs =>
    let emit (holes : Holes) (r : Token × List Char) : List Lexeme :=
      ⟨r.1, first⟩ :: tokensWithin fuel holes (endsValue r.1) false r.2
    let quoted (holes : Holes) (make : EngineText → Closing → Token) (rest : List Char) :
        List Lexeme :=
      match readQuoted (if c == '\x7d' then '\x60' else c) fuel rest with
      | .error f => [⟨.fault f, first⟩]
      | .ok (units, closing, rest) =>
        let holes := match closing with
          | .quote => holes
          | .hole => 0 :: holes
        emit holes (make (EngineText.ofUnits units) closing, rest)
    let piece (t : EngineText) (closing : Closing) : Token :=
      .piece t (match closing with
        | .quote => true
        | .hole => false)
    if endsLine c then tokensWithin fuel holes value true cs
    else if Numeral.isSpace c then tokensWithin fuel holes value first cs
    else if startsLineComment first (c :: cs) then
      tokensWithin fuel holes value first (cs.dropWhile fun c => !endsLine c)
    else if c == '/' && cs.head? == some '*' then
      match skipComment first (cs.drop 1) with
      | some (line, rest) => tokensWithin fuel holes value line rest
      | none => [⟨.fault .openComment, first⟩]
    else if c == '"' || c == '\x27' then quoted holes (fun t _ => .text t) cs
    else if c == '\x60' then quoted holes piece cs
    else if c == '\x7d' && holes.head? == some 0 then quoted (holes.drop 1) piece cs
    else if c == '/' && !value then emit holes (readRegexp cs)
    else if c.isDigit || (c == '.' && cs.head?.any Char.isDigit) then
      emit holes (readNumber (c :: cs))
    else if startsName c cs then
      let (read, rest) := readName (fuel + 1) (c :: cs)
      emit holes (.name (String.ofList read), rest)
    else if c == '#' then
      let (read, rest) := readName fuel cs
      if cs.head?.any NameChar.starts then emit holes (.mark (String.ofList (c :: read)), rest)
      else [⟨.fault .badPrivateName, first⟩]
    else if 128 ≤ c.toNat then [⟨.fault .strayCharacter, first⟩]
    else
      let r := readMark c cs
      emit (holes.after r.1.source) r

/-- The tokens of a text. A first line that names a program to run the script is passed over. -/
def tokens (cs : List Char) : List Lexeme :=
  let cs := match cs with
    | '#' :: '!' :: rest => rest.dropWhile fun c => !endsLine c
    | cs => cs
  tokensWithin cs.length [] false true cs

end HostBridge.Script
