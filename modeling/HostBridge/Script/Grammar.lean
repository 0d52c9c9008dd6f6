import HostBridge.Script.Expression
import HostBridge.Script.Token

/-!
# The grammar of scripts

Reading tokens as expressions and code. Operators bind by their strength (`operator?`), and those of
one strength to the left, powers apart. A piece of code ends at a semicolon, before a closing brace,
at the end of a line where nothing else can follow, or at the end of the text.

The readers that call each other take a bound for how deep they do, which `read` computes from the
number of tokens.
-/

namespace HostBridge.Script

/-- A reader of tokens. -/
abbrev Reader := StateT (List Lexeme) (Except SyntaxFault)

namespace Reader

/-- The next token. What is no token is a fault. -/
def peek : Reader (Option Lexeme) := do
  match (← get).head? with
  | some ⟨.fault f, _⟩ => throw f
  | l => return l

/-- The next token, wherever it stands. -/
def token : Reader (Option Token) := do
  match ← peek with
  | some l => return some l.token
  | none => return none

/-- Pass over the next token. -/
def skip : Reader Unit := modify List.tail

/-- The next token is a mark. -/
def atMark (s : String) : Reader Bool := do
  match ← peek with
  | some ⟨.mark t, _⟩ => return t == s
  | _ => return false

/-- The next token is a name. -/
def atName (s : String) : Reader Bool := do
  match ← peek with
  | some ⟨.name t, _⟩ => return t == s
  | _ => return false

/-- Pass over a mark if it is the next token. -/
def accept (s : String) : Reader Bool := do
  if ← atMark s then
    skip
    return true
  else return false

/-- Pass over a name if it is the next token. -/
def acceptName (s : String) : Reader Bool := do
  if ← atName s then
    skip
    return true
  else return false

/-- Pass over a mark that must be the next token. -/
def expect (s : String) : Reader Unit := do
  unless ← accept s do
    throw (.missing s)

/-- The next token starts no expression. -/
def refuse {α : Type} : Reader α := do
  match ← peek with
  | some l => throw (.unexpected l.token.source)
  | none => throw (.unexpected "")

/-- A piece of code ends here. -/
def endsCode : Reader Bool := do
  match ← peek with
  | none => return true
  | some l => return l.first || (← atMark ";") || (← atMark "\x7d")

/-- The end of a piece of code. -/
def finishCode : Reader Unit := do
  unless ← accept ";" do
    unless ← endsCode do
      throw (.missing ";")

end Reader

open Reader

/-! ## Names and operators -/

/-- The names that mean something of their own. -/
def keywords : List String :=
  [ "break", "case", "catch", "class", "const", "continue", "debugger", "default", "delete", "do",
    "else", "enum", "export", "extends", "false", "finally", "for", "function", "if", "import",
    "in", "instanceof", "new", "null", "return", "super", "switch", "this", "throw", "true", "try",
    "typeof", "var", "void", "while", "with", "let", "static", "yield", "implements", "interface",
    "package", "private", "protected", "public" ]

/-- The name can be declared. -/
def isFree (s : String) : Bool := !keywords.contains s

/-- The expression that an operator makes of two others. -/
def Operation.make : Operation → Expr → Expr → Expr
  | binary op => .binary op
  | logical op => .logical op

/-- An operator between expressions: how strongly it binds, whether to the right, and which one it
is. -/
structure Operator where
  strength : Nat
  toRight : Bool := false
  op : Operation

/-- The operator of arithmetic. -/
def arithmetic (strength : Nat) (op : ArithmeticOp) : Operator :=
  { strength, op := .binary (.arithmetic op) }

/-- The operator that a token is. -/
def operator? : Token → Option Operator
  | .mark s =>
    match s with
    | "??" => some { strength := 1, op := .logical .orElse }
    | "||" => some { strength := 2, op := .logical .or }
    | "&&" => some { strength := 3, op := .logical .and }
    | "|" => some { strength := 4, op := .binary (.bits .or) }
    | "^" => some { strength := 5, op := .binary (.bits .xor) }
    | "&" => some { strength := 6, op := .binary (.bits .and) }
    | "==" => some { strength := 7, op := .binary (.equal true) }
    | "!=" => some { strength := 7, op := .binary (.equal false) }
    | "===" => some { strength := 7, op := .binary (.same true) }
    | "!==" => some { strength := 7, op := .binary (.same false) }
    | "<" => some { strength := 8, op := .binary (.order .lt) }
    | "<=" => some { strength := 8, op := .binary (.order .le) }
    | ">" => some { strength := 8, op := .binary (.order .gt) }
    | ">=" => some { strength := 8, op := .binary (.order .ge) }
    | "<<" => some { strength := 9, op := .binary (.bits .shiftLeft) }
    | ">>" => some { strength := 9, op := .binary (.bits .shiftRight) }
    | ">>>" => some { strength := 9, op := .binary (.bits .shiftRightPlain) }
    | "+" => some { strength := 10, op := .binary .add }
    | "-" => some (arithmetic 10 .sub)
    | "*" => some (arithmetic 11 .mul)
    | "/" => some (arithmetic 11 .div)
    | "%" => some (arithmetic 11 .rem)
    | "**" => some { arithmetic 12 .pow with toRight := true }
    | _ => none
  | .name "in" => some { strength := 8, op := .binary .within }
  | .name "instanceof" => some { strength := 8, op := .binary .instanceOf }
  | _ => none

/-- The operator before an expression that a token is. -/
def unaryOp? : Token → Option UnaryOp
  | .mark "+" => some .plus
  | .mark "-" => some .minus
  | .mark "!" => some .not
  | .mark "~" => some .invert
  | .name "typeof" => some .typeof
  | .name "void" => some .void
  | _ => none

/-- What a mark assigns, given the target and the expression after the mark. -/
def assignment? (s : String) : Option (Expr → Expr → Expr) :=
  if s = "=" then some .assign
  else if s.toList.getLast? = some '=' ∧ s ≠ "<=" ∧ s ≠ ">=" ∧ s ≠ "==" ∧ s ≠ "!=" ∧ s ≠ "===" ∧
      s ≠ "!==" then
    (operator? (.mark (String.ofList s.toList.dropLast))).map fun o target e =>
      .update target o.op e
  else none

/-- The expression can be assigned. -/
def isTarget : Expr → Bool
  | .name x => x != "this"
  | .property _ _ | .item _ _ => true
  | _ => false

/-- The names of parameters up to a closing bracket, and the tokens after it. -/
def parameters? : List Lexeme → Option (List String × List Lexeme)
  | ⟨.mark ")", _⟩ :: rest => some ([], rest)
  | ⟨.name x, _⟩ :: ⟨.mark ")", _⟩ :: rest => if isFree x then some ([x], rest) else none
  | ⟨.name x, _⟩ :: ⟨.mark ",", _⟩ :: rest =>
    if isFree x then (parameters? rest).map fun r => (x :: r.1, r.2) else none
  | _ => none

/-- The parameters of a function that is written with an arrow, and the tokens after the arrow. -/
def arrow? : List Lexeme → Option (List String × List Lexeme)
  | ⟨.name x, _⟩ :: ⟨.mark "=>", false⟩ :: rest => if isFree x then some ([x], rest) else none
  | ⟨.mark "(", _⟩ :: rest =>
    match parameters? rest with
    | some (xs, ⟨.mark "=>", false⟩ :: rest) => some (xs, rest)
    | _ => none
  | _ => none

/-- Where code stands: whether the end of the text ends it, or a brace, and whether it is in a
function or in a loop. -/
structure Place where
  outermost : Bool := false
  inFunction : Bool := false
  inLoop : Bool := false

/-- Declarations of functions come first. -/
def hoist (cs : List Code) : List Code :=
  let isFunction (c : Code) : Bool :=
    match c with
    | .declare .hoisted _ _ => true
    | _ => false
  cs.filter isFunction ++ cs.filter fun c => !isFunction c

/-- Code whose names are declared once. -/
def once (cs : List Code) : Reader (List Code) := do
  let names := (blockNames cs).map (·.1)
  if names.Nodup ∧ names.all (fun x => !(globalsOf cs).contains x) then return hoist cs
  else throw .redefined

/-- Several pieces of code as one. -/
def together : List Code → Code
  | [c] => c
  | cs => .block cs

/-- The name of a property after a point. -/
def field : Reader String := do
  match ← peek with
  | some ⟨.name x, _⟩ =>
    skip
    return x
  | _ => throw .noField

/-- A name that is declared, or the fault that there is none. -/
def declaredName (f : SyntaxFault) : Reader String := do
  match ← peek with
  | some ⟨.name x, _⟩ =>
    if isFree x then
      skip
      return x
    else throw f
  | _ => throw f

/-- A name, if there is one. -/
def optionalName : Reader (Option String) := do
  match ← peek with
  | some ⟨.name x, _⟩ =>
    skip
    return some x
  | _ => return none

/-- A target whose number is changed by one, and which is read after that or before. -/
def stepped (op : BinaryOp) (after : Bool) (e : Expr) : Reader Expr := do
  if isTarget e then return .step e op after else throw .badStep

/-- A function that is known in its own code by a name. -/
def namedFunction (name : String) (f : Expr) : Expr :=
  .call (.function [] [.declare (.block false) name f, .answer (.name name)] false) []

/-! ## Expressions and code -/

mutual

/-- An expression, which may have several parts between commas. -/
def expression : Nat → Reader Expr
  | 0 => refuse
  | fuel + 1 => do
    let e ← single fuel
    expressionTail fuel e

/-- Further parts of an expression. -/
def expressionTail : Nat → Expr → Reader Expr
  | 0, e => return e
  | fuel + 1, e => do
    if ← accept "," then
      let next ← single fuel
      expressionTail fuel (.sequence e next)
    else return e

/-- An expression without commas. -/
def single : Nat → Reader Expr
  | 0 => refuse
  | fuel + 1 => do
    let _ ← peek
    match arrow? (← get) with
    | some (parameters, rest) =>
      set rest
      if ← accept "\x7b" then
        let body ← codes fuel { inFunction := true }
        return .function parameters body false
      else
        let e ← single fuel
        return .function parameters [.answer e] false
    | none =>
      let e ← conditional fuel
      match ← peek with
      | some ⟨.mark s, _⟩ =>
        match assignment? s with
        | some make =>
          unless isTarget e do
            throw .badTarget
          skip
          let value ← single fuel
          return make e value
        | none => return e
      | _ => return e

/-- An expression that may choose between two others. -/
def conditional : Nat → Reader Expr
  | 0 => refuse
  | fuel + 1 => do
    let e ← binary fuel 1
    if ← accept "?" then
      let yes ← single fuel
      expect ":"
      let no ← single fuel
      return .conditional e yes no
    else return e

/-- An expression of operators that bind at least so strongly. -/
def binary : Nat → Nat → Reader Expr
  | 0, _ => refuse
  | fuel + 1, strength => do
    let e ← unary fuel
    binaryTail fuel strength e

/-- Further operators that bind at least so strongly. -/
def binaryTail : Nat → Nat → Expr → Reader Expr
  | 0, _, e => return e
  | fuel + 1, strength, e => do
    match (← token).bind operator? with
    | some op =>
      if strength ≤ op.strength then
        skip
        let next ← binary fuel (if op.toRight then op.strength else op.strength + 1)
        binaryTail fuel strength (op.op.make e next)
      else return e
    | none => return e

/-- An expression with operators before it. -/
def unary : Nat → Reader Expr
  | 0 => refuse
  | fuel + 1 => do
    match ← token with
    | some t =>
      match unaryOp? t, t with
      | some op, _ =>
        skip
        let e ← unary fuel
        if ← atMark "**" then
          throw .badPower
        return .unary op e
      | none, .name "delete" =>
        skip
        match ← unary fuel with
        | .property e key => return .delete e (.literal (.ofString key))
        | .item e key => return .delete e key
        | .name _ => throw .badDelete
        | e => return .sequence e (.literal (.bool true))
      | none, .mark "++" =>
        skip
        stepped .add true (← unary fuel)
      | none, .mark "--" =>
        skip
        stepped (.arithmetic .sub) true (← unary fuel)
      | none, _ => suffixed fuel
    | none => refuse

/-- An expression with marks after it. -/
def suffixed : Nat → Reader Expr
  | 0 => refuse
  | fuel + 1 => do
    let e ← primary fuel
    let e ← suffixes fuel true e
    match ← peek with
    | some ⟨.mark "++", false⟩ =>
      skip
      stepped .add false e
    | some ⟨.mark "--", false⟩ =>
      skip
      stepped (.arithmetic .sub) false e
    | _ => return e

/-- Properties of an expression and calls of it. -/
def suffixes : Nat → Bool → Expr → Reader Expr
  | 0, _, e => return e
  | fuel + 1, calls, e => do
    if ← accept "." then
      suffixes fuel calls (.property e (← field))
    else if ← accept "?." then
      suffixes fuel calls (.optional e (← field))
    else if ← accept "[" then
      let key ← expression fuel
      expect "]"
      suffixes fuel calls (.item e key)
    else if calls then
      if ← accept "(" then
        let args ← items fuel ")"
        suffixes fuel calls (.call e args)
      else return e
    else return e

/-- An expression that operators do not take apart. -/
def primary : Nat → Reader Expr
  | 0 => refuse
  | fuel + 1 => do
    match ← token with
    | some (.number d) =>
      skip
      return .literal (.ofDouble d)
    | some (.bigint n) =>
      skip
      return .literal (.bigint n)
    | some (.text t) =>
      skip
      return .literal (.text t)
    | some (.regexp source flags) =>
      skip
      return .regexp source flags
    | some (.piece t last) =>
      skip
      if last then return .template [t] []
      else
        let (texts, es) ← holes fuel
        return .template (t :: texts) es
    | some (.mark "(") =>
      skip
      let e ← expression fuel
      expect ")"
      return e
    | some (.mark "[") =>
      skip
      return .array (← items fuel "]")
    | some (.mark "\x7b") =>
      skip
      return .object (← entries fuel)
    | some (.name "true") =>
      skip
      return .literal (.bool true)
    | some (.name "false") =>
      skip
      return .literal (.bool false)
    | some (.name "null") =>
      skip
      return .literal .null
    | some (.name "this") =>
      skip
      return .name "this"
    | some (.name "new") =>
      skip
      let f ← primary fuel
      let f ← suffixes fuel false f
      if ← accept "(" then return .construct f (← items fuel ")") else return .construct f []
    | some (.name "function") =>
      skip
      let name? ← optionalName
      let (parameters, body) ← functionRest fuel
      let f := .function parameters body true
      return name?.elim f (namedFunction · f)
    | some (.name x) =>
      if isFree x then
        skip
        return .name x
      else refuse
    | _ => refuse

/-- The parameters and the body of a function. -/
def functionRest : Nat → Reader (List String × List Code)
  | 0 => refuse
  | fuel + 1 => do
    expect "("
    match parameters? (← get) with
    | none => throw .noParameter
    | some (parameters, rest) =>
      set rest
      expect "\x7b"
      let body ← codes fuel { inFunction := true }
      return (parameters, body)

/-- Expressions up to a closing mark. In an array some may be left out. -/
def items : Nat → String → Reader (List Expr)
  | 0, _ => refuse
  | fuel + 1, closing => do
    if ← accept closing then return []
    else if closing == "]" && (← accept ",") then
      let rest ← items fuel closing
      return .hole :: rest
    else
      let e ← single fuel
      if ← accept "," then
        let rest ← items fuel closing
        return e :: rest
      else
        unless ← accept closing do
          throw (.missing (if closing == ")" then "," else closing))
        return [e]

/-- The entries of an object up to its closing brace. -/
def entries : Nat → Reader (List Expr)
  | 0 => refuse
  | fuel + 1 => do
    if ← accept "\x7d" then return []
    else
      let entry ← entry fuel
      if ← accept "," then
        let rest ← entries fuel
        return entry :: rest
      else
        expect "\x7d"
        return [entry]

/-- An entry of an object. -/
def entry : Nat → Reader Expr
  | 0 => refuse
  | fuel + 1 => do
    let valued (key : Expr) : Reader Expr := do
      expect ":"
      let e ← single fuel
      return .entry key e
    match ← token with
    | some (.name x) =>
      skip
      if isFree x && ((← atMark ",") || (← atMark "\x7d")) then
        return .entry (.literal (.ofString x)) (.name x)
      else valued (.literal (.ofString x))
    | some (.text t) =>
      skip
      valued (.literal (.text t))
    | some (.number d) =>
      skip
      valued (.literal (.ofString d.scriptText))
    | some (.mark "[") =>
      skip
      let key ← single fuel
      expect "]"
      valued key
    | _ => throw .noProperty

/-- The holes of a text between back quotes, and the pieces after them. -/
def holes : Nat → Reader (List EngineText × List Expr)
  | 0 => refuse
  | fuel + 1 => do
    let e ← expression fuel
    match ← token with
    | some (.piece t last) =>
      skip
      if last then return ([t], [e])
      else
        let (texts, es) ← holes fuel
        return (t :: texts, e :: es)
    | _ => throw (.missing "\x7d")

/-- Pieces of code up to the end of the text, or else to a closing brace, which is passed over. -/
def codes : Nat → Place → Reader (List Code)
  | 0, _ => refuse
  | fuel + 1, place => do
    let cs ← codesTail fuel place
    once cs

/-- Pieces of code up to their end, as they stand. -/
def codesTail : Nat → Place → Reader (List Code)
  | 0, _ => refuse
  | fuel + 1, place => do
    let finished ← if place.outermost then pure (← peek).isNone else accept "\x7d"
    if finished then return []
    else
      let c ← code fuel place
      let cs ← codesTail fuel place
      return c ++ cs

/-- Code between braces. -/
def block : Nat → Place → Reader (List Code)
  | 0, _ => refuse
  | fuel + 1, place => do
    expect "\x7b"
    codes fuel { place with outermost := false }

/-- A piece of code, as none, one or several. -/
def code : Nat → Place → Reader (List Code)
  | 0, _ => refuse
  | fuel + 1, place => do
    if ← accept ";" then return []
    else if ← atMark "\x7b" then return [.block (← block fuel place)]
    else
      match ← token with
      | some (.name "var") =>
        skip
        declarations fuel .global
      | some (.name "let") =>
        skip
        declarations fuel (.block true)
      | some (.name "const") =>
        skip
        declarations fuel (.block false)
      | some (.name "throw") =>
        skip
        if (← peek).any (·.first) then
          throw .brokenThrow
        let e ← expression fuel
        finishCode
        return [.throw e]
      | some (.name "return") =>
        unless place.inFunction do
          throw .strayReturn
        skip
        if ← endsCode then
          finishCode
          return [.answer (.literal .undefined)]
        else
          let e ← expression fuel
          finishCode
          return [.answer e]
      | some (.name "break") =>
        unless place.inLoop do
          throw .strayBreak
        skip
        finishCode
        return [.leaveLoop]
      | some (.name "continue") =>
        unless place.inLoop do
          throw .strayContinue
        skip
        finishCode
        return [.nextTime]
      | some (.name "while") =>
        skip
        expect "("
        let test ← expression fuel
        expect ")"
        let body ← code fuel { place with inLoop := true }
        return [.loop true [] test (together body) (.literal .undefined)]
      | some (.name "do") =>
        skip
        let body ← code fuel { place with inLoop := true }
        unless ← acceptName "while" do
          throw (.missing "while")
        expect "("
        let test ← expression fuel
        expect ")"
        let _ ← accept ";"
        return [.loop false [] test (together body) (.literal .undefined)]
      | some (.name "for") =>
        skip
        expect "("
        let start ← if ← accept ";" then pure [] else forStart fuel
        let test ← if ← atMark ";" then pure (.literal (.bool true)) else expression fuel
        expect ";"
        let step ← if ← atMark ")" then pure (.literal .undefined) else expression fuel
        expect ")"
        let body ← code fuel { place with inLoop := true }
        let renewed := (blockNames start).map (·.1)
        return [.block (start ++ [.loop true renewed test (together body) step])]
      | some (.name "debugger") =>
        skip
        finishCode
        return []
      | some (.name "if") =>
        skip
        expect "("
        let test ← expression fuel
        expect ")"
        let yes ← code fuel place
        let no ← if ← acceptName "else" then code fuel place else pure []
        return [.branch test (together yes) (together no)]
      | some (.name "try") =>
        skip
        let body ← block fuel place
        let rescued ← if ← acceptName "catch" then do
            let parameter ← if ← atMark "\x7b" then pure none
              else do
                expect "("
                let x ← declaredName .noIdentifier
                expect ")"
                pure (some x)
            let handler ← block fuel place
            pure (some [Code.rescue body parameter handler])
          else pure none
        if ← acceptName "finally" then
          let after ← block fuel place
          return [.ensure (rescued.getD body) after]
        else
          match rescued with
          | some cs => return cs
          | none => throw .noRescue
      | some (.name "function") =>
        skip
        let x ← declaredName .noFunctionName
        let (parameters, body) ← functionRest fuel
        return [.declare .hoisted x (.function parameters body true)]
      | some (.name "with") => throw (.badKeyword "with")
      | some (.name "enum") => throw (.uselessKeyword "enum")
      | some (.name "export") => throw (.uselessKeyword "export")
      | some (.name "extends") => throw (.uselessKeyword "extends")
      | _ =>
        match ← get with
        | ⟨.name x, _⟩ :: ⟨.mark ":", _⟩ :: rest =>
          if isFree x then
            set rest
            code fuel place
          else refuse
        | _ =>
          let e ← expression fuel
          finishCode
          return [.expression e]

/-- What is done before a loop. -/
def forStart : Nat → Reader (List Code)
  | 0 => refuse
  | fuel + 1 => do
    match ← token with
    | some (.name "var") =>
      skip
      declarations fuel .global
    | some (.name "let") =>
      skip
      declarations fuel (.block true)
    | some (.name "const") =>
      skip
      declarations fuel (.block false)
    | _ =>
      let e ← expression fuel
      expect ";"
      return [.expression e]

/-- The declarations after a keyword. -/
def declarations : Nat → Declaration → Reader (List Code)
  | 0, _ => refuse
  | fuel + 1, kind => do
    let x ← declaredName .noVariable
    let c ← if ← accept "=" then do
        let e ← single fuel
        pure [Code.declare kind x e]
      else
        match kind with
        | .block false => throw .noInitialValue
        | .block true => pure [.declare kind x (.literal .undefined)]
        | .global | .hoisted => pure [.declare kind x (.name x)]
    if ← accept "," then
      let cs ← declarations fuel kind
      return c ++ cs
    else
      finishCode
      return c

end

/-- The code of a text. -/
def parse (text : String) : Except SyntaxFault (List Code) :=
  let ls := tokens text.toList
  ((codes (16 * ls.length + 16) { outermost := true }).run ls).map (·.1)

end HostBridge.Script
