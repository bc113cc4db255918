import OnePass.Proofs.Grammar.Reductions

/-
  What the expressions of a tree are used for.

  Every expression that is reduced stands somewhere in its
  program: as a statement, as an operand, as an argument of
  a call, or where a statement takes a value. Parentheses
  are not reduced, and what stands in them is used for what
  they are used for. The uses are listed in the order of the
  reductions.

  Key definitions include:
    * `Grammar.Role`
    * `Grammar.Use`
    * `Grammar.Expr.uses`
    * `Grammar.Stmt.uses`
    * `Grammar.Program.uses`
-/

------------------------------------------------------------
-- Roles
------------------------------------------------------------

namespace OnePass

namespace Grammar

/- What an expression is used for. -/
inductive Role where
  /- A call that is a statement of its own. -/
  | statement
  /- A part of an operation, a negation or a cast. -/
  | operand
  /- One of so many arguments of the function. -/
  | argument (callee : String) (count : Nat)
  | condition
  | initializer
  | assigned
  | returned
deriving DecidableEq, Repr

/- A reduced expression, and what it is used for. -/
structure Use where
  event : ValueEvent Unit
  role : Role
deriving DecidableEq, Repr

end Grammar

end OnePass

------------------------------------------------------------
-- Uses
------------------------------------------------------------

namespace OnePass

namespace Grammar

mutual

/- The uses in an expression that has a role itself. -/
def Expr.uses
    {layer : Nat}
    (role : Role) :
    Expr layer → List Use
| .negation word operand =>
    operand.uses .operand ++
      [⟨.negation operand.mark
          (word.span.cover operand.span),
        role⟩]
| .cast left target _ operand =>
    operand.uses .operand ++
      [⟨.cast target.meaning operand.mark
          (left.span.cover operand.span),
        role⟩]
| .paren _ inner _ => inner.uses role
| .call parts => parts.uses role
| .name leaf => [⟨.identifier leaf.identifier, role⟩]
| .string leaf => [⟨.stringLiteral leaf.span, role⟩]
| .number digits =>
    [⟨.numberLiteral digits.text digits.span, role⟩]
| .byte digits suffix =>
    [⟨.byteLiteral digits.text
        (digits.span.cover suffix.span),
      role⟩]
| .bool word =>
    [⟨.boolLiteral word.meaning word.token.span, role⟩]
| .lift operand => operand.uses role
| .binary left operator right =>
    left.uses .operand ++ right.uses .operand ++
      [⟨operator.meaning.event left.mark right.mark
          (left.span.cover right.span),
        role⟩]

/- The uses in a call that has a role itself. -/
def Call.uses (role : Role) : Call → List Use
| .bare callee left right =>
    [⟨.call callee.identifier []
        (Call.bare callee left right).span,
      role⟩]
| .applied callee left arguments right =>
    argumentUses
        (.argument callee.text arguments.toList.length)
        arguments ++
      [⟨.call callee.identifier
          (arguments.toList.map Expr.mark)
          (Call.applied callee left arguments right).span,
        role⟩]

/- The uses in arguments that have the role. -/
def argumentUses
    (role : Role) :
    Separated (Expr topLayer) → List Use
| .one item => item.uses role
| .more items _ item =>
    argumentUses role items ++ item.uses role

end

mutual

/- The uses in a statement. -/
def Stmt.uses : Stmt → List Use
| .block _ body _ => body.uses
| .declaration _ initializer _ =>
    initializer.elim [] (·.value.uses .initializer)
| .assignment _ _ value _ => value.uses .assigned
| .call parts _ => parts.uses .statement
| .returnVoid _ _ => []
| .returnValue _ value _ => value.uses .returned
| .ifThen _ condition branch =>
    condition.value.uses .condition ++ branch.uses
| .ifElse _ condition branch _ otherwise =>
    condition.value.uses .condition ++
      (branch.uses ++ otherwise.uses)
| .whileLoop _ condition body =>
    condition.value.uses .condition ++ body.uses
| .jump _ _ => []

/- The uses in statements, one after the other. -/
def Stmts.uses : Stmts → List Use
| .one statement => statement.uses
| .more statement statements =>
    statement.uses ++ statements.uses

end

/- The uses in a program. -/
def Program.uses (program : Program) : List Use :=
  program.functions.flatMap (·.body.uses)

end Grammar

end OnePass
