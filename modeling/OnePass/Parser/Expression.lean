import OnePass.Parser.Basic

/-
  Expressions.

  From loosest to tightest the operators are `or`, `and`,
  the comparisons, `+ -`, `* /`, and the forms in front of a
  factor, `not` and a cast. Binary operators group to the
  left. Every factor spends one level of the nesting budget
  that it is read with.

  Key definitions include:
    * `Parser.leftChain`
    * `Parser.expressionOf`
    * `Parser.call`
    * `Parser.factorForm`
    * `Parser.factor`
    * `Parser.expression`
-/

------------------------------------------------------------
-- Operators
------------------------------------------------------------

namespace OnePass

namespace Kind

/- The operators that bind like `*`. -/
def productOp? : Kind → Option NumericOp
| star => some .multiply
| slash => some .divide
| _ => none

/- The operators that bind like `+`. -/
def sumOp? : Kind → Option NumericOp
| plus => some .add
| minus => some .subtract
| _ => none

/- The comparisons. -/
def relationalOp? : Kind → Option RelationalOp
| equal => some .equal
| notEqual => some .notEqual
| less => some .less
| lessEqual => some .lessEqual
| greater => some .greater
| greaterEqual => some .greaterEqual
| _ => none

/- Conjunction. -/
def andOp? : Kind → Option LogicalOp
| kwAnd => some .and
| _ => none

/- Disjunction. -/
def orOp? : Kind → Option LogicalOp
| kwOr => some .or
| _ => none

/- The type that a word names. -/
def valueType? : Kind → Option Ty
| kwInt => some .int
| kwByte => some .byte
| kwBool => some .bool
| _ => none

end Kind

end OnePass

------------------------------------------------------------
-- Types
------------------------------------------------------------

namespace OnePass

namespace Parser

variable {σ ε : Type}

/- Read the name of a value type. -/
def valueType : Rule σ ε Ty := do
  match ← peek with
  | some kind =>
      match kind.valueType? with
      | some ty =>
          let _ ← token kind
          return ty
      | none => unexpected
  | none => unexpected

/- Read the name of a value type, or `void`. -/
def returnType : Rule σ ε Ty := do
  if ← accept .kwVoid then
    return .void
  else
    valueType

end Parser

end OnePass

------------------------------------------------------------
-- Binary Operators
------------------------------------------------------------

namespace OnePass

namespace Parser

variable {σ τ ε ω : Type}

/-
  An operator with its right side, if an operator is next.
  It takes everything to its left as its left side.
-/
def chainStep
    (receiver : Receiver σ τ ε)
    (operator? : Kind → Option ω)
    (combine :
      Typed τ → ω → Typed τ → Span → ValueEvent τ)
    (operand : Rule σ ε (Typed τ))
    (left : Typed τ) : Rule σ ε (Option (Typed τ)) := do
  match ← peek with
  | none => return none
  | some kind =>
      match operator? kind with
      | none => return none
      | some operator =>
          let _ ← token kind
          let right ← operand
          let span := left.span.cover right.span
          let event := combine left operator right span
          return some (← value receiver event span)

/- Operands separated by the operators of one level. -/
def leftChain
    (receiver : Receiver σ τ ε)
    (operator? : Kind → Option ω)
    (combine :
      Typed τ → ω → Typed τ → Span → ValueEvent τ)
    (operand : Rule σ ε (Typed τ)) :
    Rule σ ε (Typed τ) := do
  iterate (chainStep receiver operator? combine operand)
    (← operand)

/- An expression over the given factors. -/
def expressionOf
    (receiver : Receiver σ τ ε)
    (factor : Rule σ ε (Typed τ)) : Rule σ ε (Typed τ) :=
  let product :=
    leftChain receiver Kind.productOp? .numeric factor
  let sum :=
    leftChain receiver Kind.sumOp? .numeric product
  let comparison :=
    leftChain receiver Kind.relationalOp? .relational sum
  let conjunction :=
    leftChain receiver Kind.andOp? .logical comparison
  leftChain receiver Kind.orOp? .logical conjunction

end Parser

end OnePass

------------------------------------------------------------
-- Factors
------------------------------------------------------------

namespace OnePass

namespace Parser

variable {σ τ ε : Type}

/- `not` in front of a factor. -/
def negation
    (receiver : Receiver σ τ ε)
    (factor : Rule σ ε (Typed τ)) :
    Rule σ ε (Typed τ) := do
  let start ← expect .kwNot
  let operand ← factor
  let span := start.cover operand.span
  value receiver (.negation operand span) span

/- A type in parentheses in front of a factor. -/
def cast
    (receiver : Receiver σ τ ε)
    (factor : Rule σ ε (Typed τ)) :
    Rule σ ε (Typed τ) := do
  let start ← expect .leftParen
  let target ← valueType
  let _ ← expect .rightParen
  let operand ← factor
  let span := start.cover operand.span
  value receiver (.cast target operand span) span

/-
  An expression in parentheses. It keeps its attribute, and
  its extent takes in the parentheses.
-/
def parenthesized
    (expression : Rule σ ε (Typed τ)) :
    Rule σ ε (Typed τ) := do
  let start ← expect .leftParen
  let inner ← expression
  let stop ← expect .rightParen
  return { inner with span := start.cover stop }

/- What follows the name of a function that is applied. -/
def callAfter
    (receiver : Receiver σ τ ε)
    (expression : Rule σ ε (Typed τ))
    (callee : Identifier) : Rule σ ε (Typed τ) := do
  let _ ← expect .leftParen
  let arguments ← commaList expression
  let stop ← expect .rightParen
  let span := callee.span.cover stop
  value receiver (.call callee arguments span) span

/- A function applied to arguments, in source order. -/
def call
    (receiver : Receiver σ τ ε)
    (expression : Rule σ ε (Typed τ)) :
    Rule σ ε (Typed τ) := do
  callAfter receiver expression (← identifier)

/- A name used as a value. -/
def variableUse
    (receiver : Receiver σ τ ε) : Rule σ ε (Typed τ) := do
  let name ← identifier
  value receiver (.identifier name) name.span

/- A string. -/
def stringLiteral
    (receiver : Receiver σ τ ε) : Rule σ ε (Typed τ) := do
  let span ← expect .string
  value receiver (.stringLiteral span) span

/- A number, which is a byte if the byte suffix follows. -/
def numberLiteral
    (receiver : Receiver σ τ ε) : Rule σ ε (Typed τ) := do
  let number ← token .number
  if (← peek) = some .byteSuffix then
    let stop ← expect .byteSuffix
    let span := number.span.cover stop
    value receiver (.byteLiteral number.text span) span
  else
    value receiver (.numberLiteral number.text number.span)
      number.span

/- A truth value. -/
def boolLiteral
    (receiver : Receiver σ τ ε)
    (kind : Kind)
    (truth : Bool) : Rule σ ε (Typed τ) := do
  let span ← expect kind
  value receiver (.boolLiteral truth span) span

/-
  A factor, given how the factors inside it are read. Two
  tokens decide which form it has: a parenthesis starts a
  cast if a type follows it, and a name starts a call if a
  parenthesis follows it.
-/
def factorForm
    (receiver : Receiver σ τ ε)
    (inner : Rule σ ε (Typed τ)) :
    Rule σ ε (Typed τ) := do
  match ← lookahead with
  | (some .kwNot, _) => negation receiver inner
  | (some .leftParen, second) =>
      if second.any Kind.isTypeName then
        cast receiver inner
      else
        parenthesized (expressionOf receiver inner)
  | (some .identifier, second) =>
      if second = some .leftParen then
        call receiver (expressionOf receiver inner)
      else
        variableUse receiver
  | (some .string, _) => stringLiteral receiver
  | (some .number, _) => numberLiteral receiver
  | (some .kwTrue, _) => boolLiteral receiver .kwTrue true
  | (some .kwFalse, _) => boolLiteral receiver .kwFalse false
  | _ => unexpected

/- A factor, read within a nesting budget. -/
def factor
    (receiver : Receiver σ τ ε) :
    Nat → Rule σ ε (Typed τ)
| 0 => throw (.stuck .tooDeep)
| budget + 1 => factorForm receiver (factor receiver budget)

/- An expression, read within a nesting budget. -/
def expression
    (receiver : Receiver σ τ ε)
    (budget : Nat) : Rule σ ε (Typed τ) :=
  expressionOf receiver (factor receiver budget)

end Parser

end OnePass
