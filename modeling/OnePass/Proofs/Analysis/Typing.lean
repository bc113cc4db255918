import Mathlib.Data.List.Forall2
import OnePass.Proofs.Analysis.ByteLiteral
import OnePass.Proofs.Grammar.Announcement
import OnePass.Proofs.Symbols.Variables

/-
  The rules of the language, as judgements about trees.

  A judgement depends on the functions that may be called
  and on the variables that are visible, and on nothing that
  is kept while a program is read. A declaration makes its
  variable visible to the statements after it in the same
  list, and to no others.

  Key definitions include:
    * `Grammar.Expr.HasType`
    * `Grammar.Stmt.Valid`
    * `Grammar.Function.Valid`
    * `Grammar.Program.Valid`
    * `Grammar.Program.signatures`
-/

------------------------------------------------------------
-- Expressions
------------------------------------------------------------

namespace OnePass

namespace Grammar

/- The type of an operator between operands of these types. -/
inductive BinaryOp.Yields :
    BinaryOp → Ty → Ty → Ty → Prop where
  | numeric
      {operator : NumericOp}
      {left right : Ty}
      (hLeft : left.isNumeral = true)
      (hRight : right.isNumeral = true) :
      Yields (.numeric operator) left right
        (if left = .int ∨ right = .int then .int else .byte)
  | relational
      {operator : RelationalOp}
      {left right : Ty}
      (hLeft : left.isNumeral = true)
      (hRight : right.isNumeral = true) :
      Yields (.relational operator) left right .bool
  | logical
      {operator : LogicalOp}
      {left right : Ty}
      (hLeft : left.castsTo .bool = true)
      (hRight : right.castsTo .bool = true) :
      Yields (.logical operator) left right .bool

section Expressions

variable (functions : List Signature)
variable (scope : List Binding)

mutual

/-
  The type of an expression, where these functions may be
  called and these variables are visible.
-/
inductive Expr.HasType :
    {layer : Nat} → Expr layer → Ty → Prop where
  | negation
      {word : Leaf .kwNot}
      {operand : Expr 0}
      {ty : Ty}
      (hOperand : Expr.HasType operand ty)
      (hCast : ty.castsTo .bool = true) :
      Expr.HasType (.negation word operand) .bool
  | cast
      {left : Leaf .leftParen}
      {target : Sign Kind.valueType?}
      {right : Leaf .rightParen}
      {operand : Expr 0}
      {ty : Ty}
      (hOperand : Expr.HasType operand ty)
      (hCast : ty.castsExplicitlyTo target.meaning = true) :
      Expr.HasType (.cast left target right operand)
        target.meaning
  | paren
      {left : Leaf .leftParen}
      {inner : Expression}
      {right : Leaf .rightParen}
      {ty : Ty}
      (hInner : Expr.HasType inner ty) :
      Expr.HasType (.paren left inner right) ty
  | call
      {parts : Call}
      {ty : Ty}
      (hParts : Call.HasType parts ty) :
      Expr.HasType (.call parts) ty
  | name
      {leaf : Leaf .identifier}
      {binding : Binding}
      (hVisible : binding ∈ scope)
      (hName : binding.name = leaf.text) :
      Expr.HasType (.name leaf) binding.ty
  | string
      {leaf : Leaf .string} :
      Expr.HasType (.string leaf) .string
  | number
      {digits : Leaf .number} :
      Expr.HasType (.number digits) .int
  | byte
      {digits : Leaf .number}
      {suffix : Leaf .byteSuffix}
      (hRange : Analysis.isByteLiteral digits.text = true) :
      Expr.HasType (.byte digits suffix) .byte
  | bool
      {word : Sign truth?} :
      Expr.HasType (.bool word) .bool
  | lift
      {layer : Nat}
      {operand : Expr layer}
      {ty : Ty}
      (hOperand : Expr.HasType operand ty) :
      Expr.HasType (.lift operand) ty
  | binary
      {layer : Nat}
      {left : Expr (layer + 1)}
      {operator : Sign (operator? layer)}
      {right : Expr layer}
      {before after ty : Ty}
      (hLeft : Expr.HasType left before)
      (hRight : Expr.HasType right after)
      (hYields : operator.meaning.Yields before after ty) :
      Expr.HasType (.binary left operator right) ty

/-
  The type of a call: what the function of this name
  returns, if the arguments are as it expects.
-/
inductive Call.HasType : Call → Ty → Prop where
  | bare
      {callee : Leaf .identifier}
      {left : Leaf .leftParen}
      {right : Leaf .rightParen}
      {signature : Signature}
      (hKnown : signature ∈ functions)
      (hName : signature.name = callee.text)
      (hParameters : signature.parameters = []) :
      Call.HasType (.bare callee left right)
        signature.returns
  | applied
      {callee : Leaf .identifier}
      {left : Leaf .leftParen}
      {arguments : Separated (Expr topLayer)}
      {right : Leaf .rightParen}
      {signature : Signature}
      {types : List Ty}
      (hKnown : signature ∈ functions)
      (hName : signature.name = callee.text)
      (hArguments : HaveTypes arguments types)
      (hParameters :
        List.Forall₂
          (fun argument parameter =>
            argument.castsTo parameter = true)
          types signature.parameters) :
      Call.HasType (.applied callee left arguments right)
        signature.returns

/- The types of arguments, in source order. -/
inductive HaveTypes :
    Separated (Expr topLayer) → List Ty → Prop where
  | one
      {item : Expression}
      {ty : Ty}
      (hItem : Expr.HasType item ty) :
      HaveTypes (.one item) [ty]
  | more
      {items : Separated (Expr topLayer)}
      {comma : Leaf .comma}
      {item : Expression}
      {types : List Ty}
      {ty : Ty}
      (hItems : HaveTypes items types)
      (hItem : Expr.HasType item ty) :
      HaveTypes (.more items comma item) (types ++ [ty])

end

/- The expression may be used where `target` is expected. -/
def Expr.Fits
    {layer : Nat}
    (expr : Expr layer)
    (target : Ty) : Prop :=
  ∃ ty,
    expr.HasType functions scope ty ∧
      ty.castsTo target = true

end Expressions

end Grammar

end OnePass

------------------------------------------------------------
-- Statements
------------------------------------------------------------

namespace OnePass

namespace Grammar

/- What is fixed at a place inside a function. -/
structure Setting where
  /- The functions that may be called. -/
  functions : List Signature
  /- What the function at hand returns. -/
  returns : Ty
  /- Inside the body of a loop. -/
  inLoop : Bool

/- The variable that a declarator declares. -/
def Declarator.binding
    (declarator : Declarator) : Binding :=
  declarator.formal.binding

/- The variables that a statement adds to its own scope. -/
def Stmt.binds : Stmt → List Binding
| .declaration declarator _ _ => [declarator.binding]
| .block _ _ _ | .assignment _ _ _ _ | .call _ _
| .returnVoid _ _ | .returnValue _ _ _ | .ifThen _ _ _
| .ifElse _ _ _ _ _ | .whileLoop _ _ _ | .jump _ _ => []

/- The name belongs to no visible variable. -/
def Unbound
    (scope : List Binding)
    (name : String) : Prop :=
  ∀ binding ∈ scope, binding.name ≠ name

mutual

/- A statement keeps the rules where these are visible. -/
inductive Stmt.Valid :
    Setting → List Binding → Stmt → Prop where
  | block
      {setting : Setting}
      {scope : List Binding}
      {left : Leaf .leftBrace}
      {body : Stmts}
      {right : Leaf .rightBrace}
      (hBody : Stmts.Valid setting scope body) :
      Stmt.Valid setting scope (.block left body right)
  | declaration
      {setting : Setting}
      {scope : List Binding}
      {declarator : Declarator}
      {initializer : Option Initializer}
      {stop : Leaf .semicolon}
      (hNew : Unbound scope declarator.binding.name)
      (hConst :
        declarator.binding.isConst = true →
          initializer.isSome = true)
      (hInitializer :
        ∀ present ∈ initializer,
          present.value.Fits setting.functions scope
            declarator.binding.ty) :
      Stmt.Valid setting scope
        (.declaration declarator initializer stop)
  | assignment
      {setting : Setting}
      {scope : List Binding}
      {name : Leaf .identifier}
      {sign : Leaf .assign}
      {value : Expression}
      {stop : Leaf .semicolon}
      {binding : Binding}
      (hVisible : binding ∈ scope)
      (hName : binding.name = name.text)
      (hConst : binding.isConst = false)
      (hValue :
        value.Fits setting.functions scope binding.ty) :
      Stmt.Valid setting scope
        (.assignment name sign value stop)
  | call
      {setting : Setting}
      {scope : List Binding}
      {parts : Call}
      {stop : Leaf .semicolon}
      {ty : Ty}
      (hParts : parts.HasType setting.functions scope ty) :
      Stmt.Valid setting scope (.call parts stop)
  | returnVoid
      {setting : Setting}
      {scope : List Binding}
      {word : Leaf .kwReturn}
      {stop : Leaf .semicolon}
      (hReturns : setting.returns = .void) :
      Stmt.Valid setting scope (.returnVoid word stop)
  | returnValue
      {setting : Setting}
      {scope : List Binding}
      {word : Leaf .kwReturn}
      {value : Expression}
      {stop : Leaf .semicolon}
      (hReturns : setting.returns ≠ .void)
      (hValue :
        value.Fits setting.functions scope setting.returns) :
      Stmt.Valid setting scope (.returnValue word value stop)
  | ifThen
      {setting : Setting}
      {scope : List Binding}
      {word : Leaf .kwIf}
      {condition : Condition}
      {branch : Stmt}
      (hCondition :
        condition.value.Fits setting.functions scope .bool)
      (hBranch : Stmt.Valid setting scope branch) :
      Stmt.Valid setting scope (.ifThen word condition branch)
  | ifElse
      {setting : Setting}
      {scope : List Binding}
      {word : Leaf .kwIf}
      {condition : Condition}
      {branch : Stmt}
      {other : Leaf .kwElse}
      {otherwise : Stmt}
      (hCondition :
        condition.value.Fits setting.functions scope .bool)
      (hBranch : Stmt.Valid setting scope branch)
      (hOtherwise : Stmt.Valid setting scope otherwise) :
      Stmt.Valid setting scope
        (.ifElse word condition branch other otherwise)
  | whileLoop
      {setting : Setting}
      {scope : List Binding}
      {word : Leaf .kwWhile}
      {condition : Condition}
      {body : Stmt}
      (hCondition :
        condition.value.Fits setting.functions scope .bool)
      (hBody :
        Stmt.Valid { setting with inLoop := true } scope
          body) :
      Stmt.Valid setting scope (.whileLoop word condition body)
  | jump
      {setting : Setting}
      {scope : List Binding}
      {word : Sign jump?}
      {stop : Leaf .semicolon}
      (hLoop : setting.inLoop = true) :
      Stmt.Valid setting scope (.jump word stop)

/- Each statement sees the variables declared before it. -/
inductive Stmts.Valid :
    Setting → List Binding → Stmts → Prop where
  | one
      {setting : Setting}
      {scope : List Binding}
      {statement : Stmt}
      (hStatement : Stmt.Valid setting scope statement) :
      Stmts.Valid setting scope (.one statement)
  | more
      {setting : Setting}
      {scope : List Binding}
      {statement : Stmt}
      {statements : Stmts}
      (hStatement : Stmt.Valid setting scope statement)
      (hStatements :
        Stmts.Valid setting (statement.binds ++ scope)
          statements) :
      Stmts.Valid setting scope (.more statement statements)

end

end Grammar

end OnePass

------------------------------------------------------------
-- Programs
------------------------------------------------------------

namespace OnePass

namespace Grammar

namespace Function

/- The name and the prototype that a function declares. -/
def signature (function : Function) : Signature where
  name := function.name.text
  returns := function.returns.meaning
  parameters := function.formalList.map Formal.ty

/- The formal parameters, as variables. -/
def bindings (function : Function) : List Binding :=
  function.formalList.map Formal.binding

/-
  A function keeps the rules after these functions were
  declared. It may call itself.
-/
structure Valid
    (earlier : List Signature)
    (function : Function) : Prop where
  newName :
    ∀ known ∈ Functions.library ++ earlier,
      known.name ≠ function.name.text
  distinctFormals :
    (function.bindings.map Binding.name).Nodup
  formalNames : Unbound function.bindings function.name.text
  body :
    function.body.Valid
      { functions :=
          Functions.library ++ earlier ++ [function.signature]
        returns := function.returns.meaning
        inLoop := false }
      function.bindings

end Function

namespace Program

/- What the functions declare, in source order. -/
def signatures (program : Program) : List Signature :=
  program.functions.map Function.signature

/-
  Every function keeps the rules after the functions before
  it, and the program has an entry point.
-/
structure Valid (program : Program) : Prop where
  functions :
    ∀ earlier function later,
      program.functions = earlier ++ function :: later →
        function.Valid (earlier.map Function.signature)
  entryPoint : Signature.entryPoint ∈ program.signatures

end Program

end Grammar

end OnePass
