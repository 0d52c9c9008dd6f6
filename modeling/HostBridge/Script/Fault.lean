/-!
# Faults of scripts in text

Why a text is no script, and the messages that say so.
-/

namespace HostBridge.Script

/-- Why a text is no script. -/
inductive SyntaxFault where
  | openComment
  /-- A text ends without its quote. -/
  | openText
  | badEscape
  | octalEscape
  | octalNumber
  | badNumber
  /-- A character that stands in no token. -/
  | strayCharacter
  | openRegexp
  | badFlags
  /-- The value to throw is not on the line of the keyword. -/
  | brokenThrow
  /-- Another mark stands where this one is needed. -/
  | missing (mark : String)
  /-- No expression starts with this token; nothing stands for the end of the text. -/
  | unexpected (source : String)
  | badTarget
  | badStep
  | badPower
  | strayReturn
  | strayBreak
  | strayContinue
  | noVariable
  | noInitialValue
  | redefined
  | noRescue
  | noField
  | noProperty
  | noParameter
  | badDelete
  | badPrivateName
  | noFunctionName
  | noIdentifier
  /-- A keyword that has no use. -/
  | uselessKeyword (name : String)
  /-- A keyword that is not allowed. -/
  | badKeyword (name : String)

/-- The message of a fault. -/
def SyntaxFault.message : SyntaxFault → String
  | openComment => "unexpected end of comment"
  | openText => "unexpected end of string"
  | badEscape => "malformed escape sequence in string literal"
  | octalEscape => "octal escape sequences are not allowed in strict mode"
  | octalNumber => "Octal literals are not allowed in strict mode"
  | badNumber => "invalid number literal"
  | strayCharacter => "unexpected character"
  | openRegexp => "unexpected end of regexp"
  | badFlags => "invalid regular expression flags"
  | brokenThrow => "line terminator not allowed after throw"
  | missing mark => "expecting '" ++ mark ++ "'"
  | unexpected source => "unexpected token in expression: '" ++ source ++ "'"
  | badTarget => "invalid assignment left-hand side"
  | badStep => "invalid increment/decrement operand"
  | badPower =>
    "unparenthesized unary expression can't appear on the left-hand side of '**'"
  | strayReturn => "return not in a function"
  | strayBreak => "break must be inside loop or switch"
  | strayContinue => "continue must be inside loop"
  | noVariable => "variable name expected"
  | noInitialValue => "missing initializer for const variable"
  | redefined => "invalid redefinition of lexical identifier"
  | noRescue => "expecting catch or finally"
  | noField => "expecting field name"
  | noProperty => "invalid property name"
  | noParameter => "missing formal parameter"
  | noFunctionName => "function name expected"
  | noIdentifier => "identifier expected"
  | uselessKeyword name => "unsupported keyword: " ++ name
  | badKeyword name => "invalid keyword: " ++ name
  | badPrivateName => "invalid first character of private name"
  | badDelete => "cannot delete a direct reference in strict mode"

end HostBridge.Script
