import HostBridge.Engine.Value

/-!
# Expressions and code

What scripts in text are made of. The code of a function is part of the expression that makes the
function.
-/

namespace HostBridge

/-! ## Operators -/

/-- An operator before a value. -/
inductive UnaryOp where
  | plus
  | minus
  | not
  | invert
  | typeof
  | void

/-- An operator on numbers. -/
inductive ArithmeticOp where
  | sub
  | mul
  | div
  | rem
  | pow

/-- An operator on 32-bit integers. -/
inductive BitOp where
  | and
  | or
  | xor
  | shiftLeft
  | shiftRight
  /-- Moves zeros in from the left. -/
  | shiftRightPlain

/-- An operator that compares by order. -/
inductive OrderOp where
  | lt
  | le
  | gt
  | ge

/-- An operator between two values. -/
inductive BinaryOp where
  | add
  | arithmetic (op : ArithmeticOp)
  | bits (op : BitOp)
  | order (op : OrderOp)
  /-- Loose equality, or its opposite. -/
  | equal (expected : Bool)
  /-- Strict equality, or its opposite. -/
  | same (expected : Bool)
  /-- The second value has a property under the first. -/
  | within
  /-- The first value was made by the second. -/
  | instanceOf

namespace Script

/-- An operator that looks at its second value only if it needs to. -/
inductive LogicalOp where
  | and
  | or
  /-- The second value takes the place of a missing one. -/
  | orElse

/-- An operator between expressions. -/
inductive Operation where
  | binary (op : BinaryOp)
  | logical (op : LogicalOp)

/-! ## Code -/

/-- How a name is declared. -/
inductive Declaration where
  /-- As a property of the global object, or as a variable of the function around it. -/
  | global
  /-- In the same way, but before other code runs. -/
  | hoisted
  /-- In the block, to be assigned or not. -/
  | block (assignable : Bool)

mutual

/-- An expression. -/
inductive Expr where
  | literal (v : EngineValue)
  | name (x : String)
  | property (e : Expr) (key : String)
  | item (e key : Expr)
  /-- A property of a value that may be missing. -/
  | optional (e : Expr) (key : String)
  | unary (op : UnaryOp) (e : Expr)
  /-- Remove a property. -/
  | delete (e key : Expr)
  | binary (op : BinaryOp) (a b : Expr)
  | logical (op : LogicalOp) (a b : Expr)
  | conditional (test yes no : Expr)
  | sequence (a b : Expr)
  /-- Texts with expressions between them. -/
  | template (texts : List EngineText) (es : List Expr)
  | array (items : List Expr)
  /-- A place in an array that is left out. -/
  | hole
  | object (entries : List Expr)
  /-- An entry of an object. -/
  | entry (key value : Expr)
  | regexp (source flags : String)
  | call (f : Expr) (args : List Expr)
  | construct (f : Expr) (args : List Expr)
  | assign (target e : Expr)
  /-- Assign what an operator makes of the target and an expression. -/
  | update (target : Expr) (op : Operation) (e : Expr)
  /-- Assign the target's number changed by one; the value is the number after that, or the one
  before. -/
  | step (target : Expr) (op : BinaryOp) (after : Bool)
  | function (parameters : List String) (body : List Code) (constructible : Bool)

/-- A piece of code. -/
inductive Code where
  | expression (e : Expr)
  | throw (e : Expr)
  | answer (e : Expr)
  | declare (kind : Declaration) (name : String) (e : Expr)
  | branch (test : Expr) (yes no : Code)
  | block (body : List Code)
  /-- Code that is run as long as a test holds, which is looked at first or after the code, with an
  expression after each time. Some names mean new variables each time. -/
  | loop (testFirst : Bool) (renewed : List String) (test : Expr) (body : Code) (step : Expr)
  | leaveLoop
  | nextTime
  /-- Code for an exception of the code before, which may have a name. -/
  | rescue (body : List Code) (parameter : Option String) (handler : List Code)
  /-- Code that runs after other code however that ends. -/
  | ensure (body after : List Code)

end

/-! ## Names that code declares -/

mutual

/-- The names that code declares as globals, wherever it does. -/
def Code.globals : Code → List String
  | .declare .global name _ | .declare .hoisted name _ => [name]
  | .branch _ yes no => yes.globals ++ no.globals
  | .block body => globalsOf body
  | .loop _ _ _ body _ => body.globals
  | .rescue body _ handler => globalsOf body ++ globalsOf handler
  | .ensure body after => globalsOf body ++ globalsOf after
  | _ => []

/-- The names that code declares as globals. -/
def globalsOf : List Code → List String
  | [] => []
  | c :: cs => c.globals ++ globalsOf cs

end

/-- The names that pieces of code declare in their block, and whether they can be assigned. -/
def blockNames (cs : List Code) : List (String × Bool) :=
  cs.filterMap fun
    | .declare (.block assignable) name _ => some (name, assignable)
    | _ => none

end Script

end HostBridge
