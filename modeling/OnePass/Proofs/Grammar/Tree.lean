import OnePass.Parser.Program

/-
  The grammar of the language, as a type of trees.

  A tree holds the tokens it was written with, so that a
  tree and its tokens determine each other's text and
  places. Expressions come in layers: the trees of one layer
  are those of the layer below it, and those of an operator
  of that layer, which takes everything to its left as its
  left side. Layer zero holds the factors.

  Key definitions include:
    * `Grammar.Leaf`, `Grammar.Sign`, `Grammar.Separated`
    * `Grammar.Expr`
    * `Grammar.Jump`
    * `Grammar.Stmt`, `Grammar.Stmts`
    * `Grammar.Function`
    * `Grammar.Program`
    * `tokens`, for each of them
    * `nesting`, for each of them
    * `Grammar.Stmt.ElseNearest`
    * `Grammar.Program.IsTreeOf`
-/

------------------------------------------------------------
-- Leaves
------------------------------------------------------------

namespace OnePass

namespace Grammar

/- A token of the given kind. -/
structure Leaf (kind : Kind) where
  text : String
  span : Span
deriving DecidableEq, Repr

namespace Leaf

/- The token itself. -/
def token
    {kind : Kind}
    (leaf : Leaf kind) : Token :=
  ⟨kind, leaf.text, leaf.span⟩

/- A leaf, where a name is expected. -/
def identifier
    {kind : Kind}
    (leaf : Leaf kind) : Identifier :=
  ⟨leaf.text, leaf.span⟩

end Leaf

/- A token whose kind stands for something. -/
structure Sign
    {ω : Type}
    (meaning? : Kind → Option ω) where
  token : Token
  meaning : ω
  means : meaning? token.kind = some meaning

/- The truth value that a word stands for. -/
def truth? : Kind → Option Bool
| .kwTrue => some true
| .kwFalse => some false
| _ => none

/- What a function may be declared to return. -/
def returnType? : Kind → Option Ty
| .kwVoid => some .void
| kind => kind.valueType?

/- One or more items, separated by commas. -/
inductive Separated (α : Type) where
  | one (item : α)
  | more
      (items : Separated α)
      (comma : Leaf .comma)
      (item : α)

namespace Separated

variable {α : Type}

/- The items, in source order. -/
def toList : Separated α → List α
| one item => [item]
| more items _ item => items.toList ++ [item]

/- The tokens, given those of an item. -/
def tokens
    (itemTokens : α → List Token) :
    Separated α → List Token
| one item => itemTokens item
| more items comma item =>
    items.tokens itemTokens ++
      comma.token :: itemTokens item

end Separated

end Grammar

end OnePass

------------------------------------------------------------
-- Operators
------------------------------------------------------------

namespace OnePass

namespace Grammar

/- An operator between two expressions. -/
inductive BinaryOp where
  | numeric (operator : NumericOp)
  | relational (operator : RelationalOp)
  | logical (operator : LogicalOp)
deriving DecidableEq, Repr

/- The event of a complete binary expression. -/
def BinaryOp.event
    {τ : Type}
    (left : Typed τ)
    (operator : BinaryOp)
    (right : Typed τ)
    (span : Span) : ValueEvent τ :=
  match operator with
  | .numeric operator => .numeric left operator right span
  | .relational operator =>
      .relational left operator right span
  | .logical operator => .logical left operator right span

/-
  The operators whose operands are of the given layer, from
  the tightest to the loosest.
-/
def operator? : Nat → Kind → Option BinaryOp
| 0, kind => kind.productOp?.map .numeric
| 1, kind => kind.sumOp?.map .numeric
| 2, kind => kind.relationalOp?.map .relational
| 3, kind => kind.andOp?.map .logical
| 4, kind => kind.orOp?.map .logical
| _, _ => none

/- The layer of expressions that may stand anywhere. -/
abbrev topLayer : Nat := 5

end Grammar

end OnePass

------------------------------------------------------------
-- Expressions
------------------------------------------------------------

namespace OnePass

namespace Grammar

mutual

/- The expressions of a layer. -/
inductive Expr : Nat → Type where
  | negation
      (word : Leaf .kwNot)
      (operand : Expr 0) : Expr 0
  | cast
      (left : Leaf .leftParen)
      (target : Sign Kind.valueType?)
      (right : Leaf .rightParen)
      (operand : Expr 0) : Expr 0
  | paren
      (left : Leaf .leftParen)
      (inner : Expr topLayer)
      (right : Leaf .rightParen) : Expr 0
  | call (parts : Call) : Expr 0
  | name (leaf : Leaf .identifier) : Expr 0
  | string (leaf : Leaf .string) : Expr 0
  | number (digits : Leaf .number) : Expr 0
  | byte
      (digits : Leaf .number)
      (suffix : Leaf .byteSuffix) : Expr 0
  | bool (word : Sign truth?) : Expr 0
  /- An expression of the layer below. -/
  | lift
      {layer : Nat}
      (operand : Expr layer) : Expr (layer + 1)
  | binary
      {layer : Nat}
      (left : Expr (layer + 1))
      (operator : Sign (operator? layer))
      (right : Expr layer) : Expr (layer + 1)

/- A function applied to arguments. -/
inductive Call : Type where
  | bare
      (callee : Leaf .identifier)
      (left : Leaf .leftParen)
      (right : Leaf .rightParen)
  | applied
      (callee : Leaf .identifier)
      (left : Leaf .leftParen)
      (arguments : Separated (Expr topLayer))
      (right : Leaf .rightParen)

end

/- An expression that may stand anywhere. -/
abbrev Expression : Type := Expr topLayer

/- The name of the function that is applied. -/
def Call.callee : Call → Leaf .identifier
| bare callee _ _ => callee
| applied callee _ _ _ => callee

/- The arguments, in source order. -/
def Call.arguments : Call → List Expression
| bare _ _ _ => []
| applied _ _ arguments _ => arguments.toList

mutual

/- The tokens that an expression is written with. -/
def Expr.tokens {layer : Nat} : Expr layer → List Token
| .negation word operand => word.token :: operand.tokens
| .cast left target right operand =>
    left.token :: target.token :: right.token ::
      operand.tokens
| .paren left inner right =>
    left.token :: (inner.tokens ++ [right.token])
| .call parts => parts.tokens
| .name leaf => [leaf.token]
| .string leaf => [leaf.token]
| .number digits => [digits.token]
| .byte digits suffix => [digits.token, suffix.token]
| .bool word => [word.token]
| .lift operand => operand.tokens
| .binary left operator right =>
    left.tokens ++ operator.token :: right.tokens

/- The tokens that a call is written with. -/
def Call.tokens : Call → List Token
| .bare callee left right =>
    [callee.token, left.token, right.token]
| .applied callee left arguments right =>
    callee.token :: left.token ::
      (argumentTokens arguments ++ [right.token])

/- The tokens that arguments are written with. -/
def argumentTokens : Separated (Expr topLayer) → List Token
| .one item => item.tokens
| .more items comma item =>
    argumentTokens items ++ comma.token :: item.tokens

end

mutual

/- Number of factors that are open at the deepest place. -/
def Expr.nesting {layer : Nat} : Expr layer → Nat
| .negation _ operand => operand.nesting + 1
| .cast _ _ _ operand => operand.nesting + 1
| .paren _ inner _ => inner.nesting + 1
| .call parts => parts.nesting + 1
| .name _ => 1
| .string _ => 1
| .number _ => 1
| .byte _ _ => 1
| .bool _ => 1
| .lift operand => operand.nesting
| .binary left _ right => max left.nesting right.nesting

/- The deepest nesting among the arguments. -/
def Call.nesting : Call → Nat
| .bare _ _ _ => 0
| .applied _ _ arguments _ => argumentNesting arguments

/- The deepest nesting of an argument. -/
def argumentNesting : Separated (Expr topLayer) → Nat
| .one item => item.nesting
| .more items _ item =>
    max (argumentNesting items) item.nesting

end

end Grammar

end OnePass

------------------------------------------------------------
-- Statements
------------------------------------------------------------

namespace OnePass

namespace Grammar

/- A statement that leaves the current round of a loop. -/
inductive Jump where
  | «break»
  | «continue»
deriving DecidableEq, Repr

/- The jump that a word stands for. -/
def jump? : Kind → Option Jump
| .kwBreak => some .break
| .kwContinue => some .continue
| _ => none

/- The event of a complete jump. -/
def Jump.event
    {τ : Type}
    (jump : Jump)
    (span : Span) : EffectEvent τ :=
  match jump with
  | .break => .breakStatement span
  | .continue => .continueStatement span

/- A type and a name, the way they are declared. -/
structure Declarator where
  isConst : Option (Leaf .kwConst)
  ty : Sign Kind.valueType?
  name : Leaf .identifier

/- The tokens of the type and the name. -/
def Declarator.tokens
    (declarator : Declarator) : List Token :=
  declarator.isConst.toList.map Leaf.token ++
    [declarator.ty.token, declarator.name.token]

/- The first value of a variable. -/
structure Initializer where
  sign : Leaf .assign
  value : Expression

/- The tokens of the first value. -/
def Initializer.tokens
    (initializer : Initializer) : List Token :=
  initializer.sign.token :: initializer.value.tokens

/- An expression in parentheses that decides a branch. -/
structure Condition where
  left : Leaf .leftParen
  value : Expression
  right : Leaf .rightParen

/- The tokens of a condition. -/
def Condition.tokens
    (condition : Condition) : List Token :=
  condition.left.token ::
    (condition.value.tokens ++ [condition.right.token])

mutual

inductive Stmt : Type where
  | block
      (left : Leaf .leftBrace)
      (body : Stmts)
      (right : Leaf .rightBrace)
  | declaration
      (declarator : Declarator)
      (initializer : Option Initializer)
      (stop : Leaf .semicolon)
  | assignment
      (name : Leaf .identifier)
      (sign : Leaf .assign)
      (value : Expression)
      (stop : Leaf .semicolon)
  | call (parts : Call) (stop : Leaf .semicolon)
  | returnVoid
      (word : Leaf .kwReturn)
      (stop : Leaf .semicolon)
  | returnValue
      (word : Leaf .kwReturn)
      (value : Expression)
      (stop : Leaf .semicolon)
  | ifThen
      (word : Leaf .kwIf)
      (condition : Condition)
      (branch : Stmt)
  | ifElse
      (word : Leaf .kwIf)
      (condition : Condition)
      (branch : Stmt)
      (other : Leaf .kwElse)
      (otherwise : Stmt)
  | whileLoop
      (word : Leaf .kwWhile)
      (condition : Condition)
      (body : Stmt)
  | jump (word : Sign jump?) (stop : Leaf .semicolon)

/- One or more statements. -/
inductive Stmts : Type where
  | one (statement : Stmt)
  | more (statement : Stmt) (statements : Stmts)

end

mutual

/- The tokens that a statement is written with. -/
def Stmt.tokens : Stmt → List Token
| .block left body right =>
    left.token :: (body.tokens ++ [right.token])
| .declaration declarator initializer stop =>
    declarator.tokens ++
      (initializer.elim [] Initializer.tokens ++
        [stop.token])
| .assignment name sign value stop =>
    name.token :: sign.token ::
      (value.tokens ++ [stop.token])
| .call parts stop => parts.tokens ++ [stop.token]
| .returnVoid word stop => [word.token, stop.token]
| .returnValue word value stop =>
    word.token :: (value.tokens ++ [stop.token])
| .ifThen word condition branch =>
    word.token :: (condition.tokens ++ branch.tokens)
| .ifElse word condition branch other otherwise =>
    word.token ::
      (condition.tokens ++
        (branch.tokens ++ other.token :: otherwise.tokens))
| .whileLoop word condition body =>
    word.token :: (condition.tokens ++ body.tokens)
| .jump word stop => [word.token, stop.token]

/- The tokens that statements are written with. -/
def Stmts.tokens : Stmts → List Token
| .one statement => statement.tokens
| .more statement statements =>
    statement.tokens ++ statements.tokens

end

mutual

/-
  Number of statements and factors that are open at the
  deepest place. The statement itself is one of them.
-/
def Stmt.nesting : Stmt → Nat
| .block _ body _ => body.nesting + 1
| .declaration _ initializer _ =>
    initializer.elim 0 (·.value.nesting) + 1
| .assignment _ _ value _ => value.nesting + 1
| .call parts _ => parts.nesting + 1
| .returnVoid _ _ => 1
| .returnValue _ value _ => value.nesting + 1
| .ifThen _ condition branch =>
    max condition.value.nesting branch.nesting + 1
| .ifElse _ condition branch _ otherwise =>
    max condition.value.nesting
      (max branch.nesting otherwise.nesting) + 1
| .whileLoop _ condition body =>
    max condition.value.nesting body.nesting + 1
| .jump _ _ => 1

/- The deepest nesting of a statement. -/
def Stmts.nesting : Stmts → Nat
| .one statement => statement.nesting
| .more statement statements =>
    max statement.nesting statements.nesting

end

/-
  The statement ends with an `if` that has no `else`, so
  that an `else` after it would be taken for its own.
-/
def Stmt.endsOpen : Stmt → Bool
| .ifThen _ _ _ => true
| .ifElse _ _ _ _ otherwise => otherwise.endsOpen
| .whileLoop _ _ body => body.endsOpen
| .block _ _ _ | .declaration _ _ _ | .assignment _ _ _ _
| .call _ _ | .returnVoid _ _ | .returnValue _ _ _
| .jump _ _ => false

mutual

/- Every `else` belongs to the nearest `if` that has none. -/
def Stmt.ElseNearest : Stmt → Prop
| .block _ body _ => body.ElseNearest
| .ifThen _ _ branch => branch.ElseNearest
| .ifElse _ _ branch _ otherwise =>
    branch.endsOpen = false ∧ branch.ElseNearest ∧
      otherwise.ElseNearest
| .whileLoop _ _ body => body.ElseNearest
| .declaration _ _ _ | .assignment _ _ _ _
| .call _ _ | .returnVoid _ _ | .returnValue _ _ _
| .jump _ _ => True

/- As for one statement, for each of them. -/
def Stmts.ElseNearest : Stmts → Prop
| .one statement => statement.ElseNearest
| .more statement statements =>
    statement.ElseNearest ∧ statements.ElseNearest

end

end Grammar

end OnePass

------------------------------------------------------------
-- Programs
------------------------------------------------------------

namespace OnePass

namespace Grammar

/- A function with its body. -/
structure Function where
  returns : Sign returnType?
  name : Leaf .identifier
  left : Leaf .leftParen
  formals : Option (Separated Declarator)
  right : Leaf .rightParen
  start : Leaf .leftBrace
  body : Stmts
  stop : Leaf .rightBrace

namespace Function

/- The tokens that a function is written with. -/
def tokens (function : Function) : List Token :=
  function.returns.token :: function.name.token ::
    function.left.token ::
      (function.formals.elim []
          (Separated.tokens Declarator.tokens) ++
        (function.right.token :: function.start.token ::
          (function.body.tokens ++ [function.stop.token])))

end Function

/- All functions of a program, in source order. -/
structure Program where
  functions : List Function

namespace Program

/- The tokens that a program is written with. -/
def tokens (program : Program) : List Token :=
  program.functions.flatMap Function.tokens

/-
  No function holds more than this many open statements and
  factors at any place.
-/
def NestingAtMost
    (program : Program)
    (limit : Nat) : Prop :=
  ∀ function ∈ program.functions,
    function.body.nesting ≤ limit

/- Every `else` belongs to the nearest `if` that has none. -/
def ElseNearest (program : Program) : Prop :=
  ∀ function ∈ program.functions,
    function.body.ElseNearest

/-
  The program is written with these tokens, within the
  nesting limit and with every `else` at the nearest `if`.
-/
structure IsTreeOf
    (program : Program)
    (tokens : List Token) : Prop where
  tokens_eq : program.tokens = tokens
  nesting : program.NestingAtMost Parser.maxNesting
  elseNearest : program.ElseNearest

end Program

end Grammar

end OnePass
