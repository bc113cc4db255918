import OnePass.Source.Span
import OnePass.Ty

/-
  What a parser announces.

  No tree is built. Each time a construct is complete, or a
  point inside one is reached at which a check can be made,
  the parser announces an event with the attributes of the
  parts. Events come bottom-up and in source order.

  An expression has one attribute, written `τ` here, that
  the receiver of the events chooses, and its extent. Value
  events answer the attribute of the new expression; effect
  events answer nothing.

  Key definitions include:
    * `Identifier`, `Formal`, `Typed`
    * `ValueEvent`
    * `EffectEvent`
    * `Event`
-/

------------------------------------------------------------
-- Attributes
------------------------------------------------------------

namespace OnePass

/- A name where it is written. -/
structure Identifier where
  name : String
  span : Span
deriving DecidableEq, Repr

/- A formal parameter. -/
structure Formal where
  isConst : Bool
  ty : Ty
  name : Identifier
deriving DecidableEq, Repr

/- The attribute and the extent of an expression. -/
structure Typed (τ : Type) where
  ty : τ
  span : Span
deriving DecidableEq, Repr

/- The operators of arithmetic. -/
inductive NumericOp where
  | add
  | subtract
  | multiply
  | divide
deriving DecidableEq, Repr

/- The operators of comparison. -/
inductive RelationalOp where
  | equal
  | notEqual
  | less
  | lessEqual
  | greater
  | greaterEqual
deriving DecidableEq, Repr

/- The operators on truth values. -/
inductive LogicalOp where
  | and
  | or
deriving DecidableEq, Repr

end OnePass

------------------------------------------------------------
-- Events
------------------------------------------------------------

namespace OnePass

/- An expression is complete. -/
inductive ValueEvent (τ : Type) where
  | call
      (callee : Identifier)
      (arguments : List (Typed τ))
      (span : Span)
  | identifier (name : Identifier)
  | numberLiteral (digits : String) (span : Span)
  /- A number with the byte suffix. -/
  | byteLiteral (digits : String) (span : Span)
  | stringLiteral (span : Span)
  | boolLiteral (value : Bool) (span : Span)
  | cast (target : Ty) (operand : Typed τ) (span : Span)
  | numeric
      (left : Typed τ)
      (operator : NumericOp)
      (right : Typed τ)
      (span : Span)
  | relational
      (left : Typed τ)
      (operator : RelationalOp)
      (right : Typed τ)
      (span : Span)
  | logical
      (left : Typed τ)
      (operator : LogicalOp)
      (right : Typed τ)
      (span : Span)
  | negation (operand : Typed τ) (span : Span)
deriving DecidableEq, Repr

/- A statement or declaration is complete, or under way. -/
inductive EffectEvent (τ : Type) where
  /- Return type and name are read, the formals are not. -/
  | functionHeader (returns : Ty) (name : Identifier)
  /- The formals are read, the body is not. -/
  | functionSignature
      (returns : Ty)
      (name : Identifier)
      (formals : List Formal)
  /- The closing brace of the body is read. -/
  | functionEnd (span : Span)
  /- A block, a branch or a loop body is about to start. -/
  | openScope
  /- The statements of the innermost scope are complete. -/
  | closeScope
  /- A loop body is about to start. -/
  | openLoop
  /- The innermost loop body is complete. -/
  | closeLoop
  /- The condition of a branch or loop is complete. -/
  | condition (value : Typed τ)
  /- Type and name of a variable are read. -/
  | declarationStart
      (isConst : Bool)
      (ty : Ty)
      (name : Identifier)
  | declaration
      (isConst : Bool)
      (ty : Ty)
      (name : Identifier)
      (initializer : Option (Typed τ))
      (span : Span)
  | assignment
      (name : Identifier)
      (value : Typed τ)
      (span : Span)
  | returnVoid (span : Span)
  | returnValue (value : Typed τ) (span : Span)
  | breakStatement (span : Span)
  | continueStatement (span : Span)
  /- All input is consumed. -/
  | programEnd
deriving DecidableEq, Repr

inductive Event (τ : Type) where
  | value (event : ValueEvent τ)
  | effect (event : EffectEvent τ)
deriving DecidableEq, Repr

end OnePass
