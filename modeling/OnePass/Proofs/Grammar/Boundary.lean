import OnePass.Proofs.Grammar.Tree

/-
  Where trees begin and end.

  The first token tells an expression from a type and from
  the tokens that close an expression. The token after an
  expression must not be one that would belong to it: a
  parenthesis after a name, the suffix after a number, or an
  operator of one of the layers of the expression.

  Main declarations:
    * `Grammar.headKind`
    * `Grammar.Expr.tokens_eq_cons`
    * `Grammar.Expr.Stops`
    * `Grammar.Expr.stops_of_separates`
    * `Grammar.Expr.chain_induction`
-/

------------------------------------------------------------
-- First Tokens
------------------------------------------------------------

namespace OnePass

namespace Grammar

/- The kind of the first token. -/
abbrev headKind (tokens : List Token) : Option Kind :=
  tokens.head?.map Token.kind

theorem headKind_leaf
    {kind : Kind}
    (leaf : Leaf kind)
    (rest : List Token) :
    headKind (leaf.token :: rest) = some kind :=
  rfl

/- A token that stands for something is of no other kind. -/
theorem Sign.kind_ne
    {ω : Type}
    {meaning? : Kind → Option ω}
    (sign : Sign meaning?)
    {kind : Kind}
    (hNone : meaning? kind = none) :
    sign.token.kind ≠ kind := by
  intro hKind
  have hMeans := sign.means
  rw [hKind, hNone] at hMeans
  cases hMeans

/- The kinds that a factor starts with. -/
def startsFactor : Kind → Bool
| .kwNot | .leftParen | .identifier | .string | .number
| .kwTrue | .kwFalse => true
| _ => false

/- The kinds that a statement starts with. -/
def startsStatement : Kind → Bool
| .leftBrace | .kwConst | .kwInt | .kwByte | .kwBool
| .identifier | .kwReturn | .kwIf | .kwWhile | .kwBreak
| .kwContinue => true
| _ => false

/- A word for a truth value starts a factor. -/
theorem startsFactor_of_truth?
    {kind : Kind}
    {truth : Bool}
    (hTruth : truth? kind = some truth) :
    startsFactor kind = true := by
  cases kind <;> simp_all [truth?, startsFactor]

/- A word for a jump starts a statement. -/
theorem startsStatement_of_jump?
    {kind : Kind}
    {jump : Jump}
    (hJump : jump? kind = some jump) :
    startsStatement kind = true := by
  cases kind <;> simp_all [jump?, startsStatement]

/- An expression is written with at least one token. -/
theorem Expr.tokens_eq_cons
    {layer : Nat} :
    (expr : Expr layer) →
      ∃ first rest,
        expr.tokens = first :: rest ∧
          startsFactor first.kind = true
| .negation _ _ => ⟨_, _, rfl, rfl⟩
| .cast _ _ _ _ => ⟨_, _, rfl, rfl⟩
| .paren _ _ _ => ⟨_, _, rfl, rfl⟩
| .call (.bare _ _ _) => ⟨_, _, rfl, rfl⟩
| .call (.applied _ _ _ _) => ⟨_, _, rfl, rfl⟩
| .name _ => ⟨_, _, rfl, rfl⟩
| .string _ => ⟨_, _, rfl, rfl⟩
| .number _ => ⟨_, _, rfl, rfl⟩
| .byte _ _ => ⟨_, _, rfl, rfl⟩
| .bool word =>
    ⟨_, _, rfl, startsFactor_of_truth? word.means⟩
| .lift operand => operand.tokens_eq_cons
| .binary left operator right => by
    rcases left.tokens_eq_cons with
      ⟨first, rest, hTokens, hStarts⟩
    refine
      ⟨first, rest ++ operator.token :: right.tokens,
        ?_, hStarts⟩
    simp [Expr.tokens, hTokens]

/- The first kind of an expression starts a factor. -/
theorem Expr.headKind_tokens_append
    {layer : Nat}
    (expr : Expr layer)
    (rest : List Token) :
    ∃ kind,
      headKind (expr.tokens ++ rest) = some kind ∧
        startsFactor kind = true := by
  rcases expr.tokens_eq_cons with
    ⟨first, more, hTokens, hStarts⟩
  exact ⟨first.kind, by simp [hTokens], hStarts⟩

/- No expression starts with a token of another kind. -/
theorem Expr.headKind_tokens_ne
    {layer : Nat}
    (expr : Expr layer)
    (rest : List Token)
    {kind : Kind}
    (hKind : startsFactor kind = false) :
    headKind (expr.tokens ++ rest) ≠ some kind := by
  rcases expr.headKind_tokens_append rest with
    ⟨first, hFirst, hStarts⟩
  rw [hFirst]
  intro hSame
  cases hSame
  rw [hKind] at hStarts
  cases hStarts

/- A token names a type exactly if it stands for one. -/
theorem isTypeName_eq
    (kind : Kind) :
    kind.isTypeName = kind.valueType?.isSome := by
  cases kind <;> rfl

/- No factor starts with the name of a type. -/
theorem isTypeName_of_startsFactor
    {kind : Kind}
    (hStarts : startsFactor kind = true) :
    kind.isTypeName = false := by
  cases kind <;> first | rfl | cases hStarts

/- A declaration starts with `const` or with a type. -/
theorem Declarator.tokens_eq_cons
    (declarator : Declarator) :
    ∃ first rest,
      declarator.tokens = first :: rest ∧
        startsStatement first.kind = true ∧
        (first.kind = .kwConst ∨
          first.kind.valueType?.isSome = true) := by
  rcases declarator with ⟨_ | word, ty, name⟩
  · refine ⟨ty.token, [name.token], rfl, ?_, ?_⟩
    · have hMeans := ty.means
      cases hKind : ty.token.kind <;>
        simp_all [Kind.valueType?, startsStatement]
    · exact Or.inr (by rw [ty.means]; rfl)
  · exact
      ⟨word.token, [ty.token, name.token], rfl, rfl,
        Or.inl rfl⟩

/- No declaration starts with a token of another kind. -/
theorem Declarator.headKind_tokens_ne
    (declarator : Declarator)
    (rest : List Token)
    {kind : Kind}
    (hKind : startsStatement kind = false) :
    headKind (declarator.tokens ++ rest) ≠ some kind := by
  rcases declarator.tokens_eq_cons with
    ⟨first, more, hTokens, hStarts, -⟩
  rw [hTokens]
  intro hSame
  have hFirst : first.kind = kind := Option.some.inj hSame
  rw [hFirst, hKind] at hStarts
  cases hStarts

/- A statement is written with at least one token. -/
theorem Stmt.tokens_eq_cons
    (statement : Stmt) :
    ∃ first rest,
      statement.tokens = first :: rest ∧
        startsStatement first.kind = true := by
  cases statement with
  | declaration declarator initializer stop =>
      rcases declarator.tokens_eq_cons with
        ⟨first, rest, hTokens, hStarts, -⟩
      rw [Stmt.tokens, hTokens]
      exact ⟨first, _, rfl, hStarts⟩
  | call parts stop =>
      cases parts with
      | bare _ _ _ => exact ⟨_, _, rfl, rfl⟩
      | applied _ _ _ _ => exact ⟨_, _, rfl, rfl⟩
  | jump word stop =>
      exact ⟨_, _, rfl, startsStatement_of_jump? word.means⟩
  | _ => exact ⟨_, _, rfl, rfl⟩

/- No statement starts with a token of another kind. -/
theorem Stmt.headKind_tokens_ne
    (statement : Stmt)
    (rest : List Token)
    {kind : Kind}
    (hKind : startsStatement kind = false) :
    headKind (statement.tokens ++ rest) ≠ some kind := by
  rcases statement.tokens_eq_cons with
    ⟨first, more, hTokens, hStarts⟩
  rw [hTokens]
  intro hSame
  have hFirst : first.kind = kind := Option.some.inj hSame
  rw [hFirst, hKind] at hStarts
  cases hStarts

/- Statements are one of them and what comes after it. -/
theorem Stmts.exists_tokens_eq
    (statements : Stmts) :
    ∃ (first : Stmt) (rest : List Token),
      statements.tokens = first.tokens ++ rest := by
  cases statements with
  | one statement =>
      exact ⟨statement, [], by simp [Stmts.tokens]⟩
  | more statement statements =>
      exact ⟨statement, statements.tokens, rfl⟩

theorem Stmts.headKind_tokens_ne
    (statements : Stmts)
    (rest : List Token)
    {kind : Kind}
    (hKind : startsStatement kind = false) :
    headKind (statements.tokens ++ rest) ≠ some kind := by
  rcases statements.exists_tokens_eq with
    ⟨first, more, hTokens⟩
  rw [hTokens, List.append_assoc]
  exact first.headKind_tokens_ne _ hKind

end Grammar

end OnePass

------------------------------------------------------------
-- Tokens That Follow
------------------------------------------------------------

namespace OnePass

namespace Grammar

/- No operator of the given layer is next. -/
def NoOperator
    (layer : Nat)
    (rest : List Token) : Prop :=
  (headKind rest).bind (operator? layer) = none

/-
  The tokens after an expression do not belong to it, so
  that the expression is complete.
-/
def Expr.Stops
    {layer : Nat} :
    Expr layer → List Token → Prop
| .negation _ operand, rest => operand.Stops rest
| .cast _ _ _ operand, rest => operand.Stops rest
| .paren _ _ _, _ => True
| .call _, _ => True
| .name _, rest => headKind rest ≠ some .leftParen
| .string _, _ => True
| .number _, rest => headKind rest ≠ some .byteSuffix
| .byte _ _, _ => True
| .bool _, _ => True
| @Expr.lift layer operand, rest =>
    operand.Stops rest ∧ NoOperator layer rest
| @Expr.binary layer _ _ right, rest =>
    right.Stops rest ∧ NoOperator layer rest

/-
  The tokens do not belong to any expression of the layer
  that stands before them.
-/
structure Separates
    (layer : Nat)
    (rest : List Token) : Prop where
  notApplied : headKind rest ≠ some .leftParen
  notSuffixed : headKind rest ≠ some .byteSuffix
  noOperator :
    ∀ lower, lower < layer → NoOperator lower rest

namespace Separates

variable {layer : Nat} {rest : List Token}

/- What separates a layer separates the one below it. -/
theorem below
    (hSeparates : Separates (layer + 1) rest) :
    Separates layer rest where
  notApplied := hSeparates.notApplied
  notSuffixed := hSeparates.notSuffixed
  noOperator lower hLower :=
    hSeparates.noOperator lower (by omega)

end Separates

/- An expression is complete before what separates it. -/
theorem Expr.stops_of_separates
    {layer : Nat}
    {rest : List Token} :
    (expr : Expr layer) →
      Separates layer rest → expr.Stops rest
| .negation _ operand, hSeparates =>
    operand.stops_of_separates hSeparates
| .cast _ _ _ operand, hSeparates =>
    operand.stops_of_separates hSeparates
| .paren _ _ _, _ => trivial
| .call _, _ => trivial
| .name _, hSeparates => hSeparates.notApplied
| .string _, _ => trivial
| .number _, hSeparates => hSeparates.notSuffixed
| .byte _ _, _ => trivial
| .bool _, _ => trivial
| .lift operand, hSeparates =>
    ⟨operand.stops_of_separates hSeparates.below,
      hSeparates.noOperator _ (by omega)⟩
| .binary _ _ right, hSeparates =>
    ⟨right.stops_of_separates hSeparates.below,
      hSeparates.noOperator _ (by omega)⟩

/- The layer of the operands of an operator. -/
def operandLayer? : Kind → Option Nat
| .star | .slash => some 0
| .plus | .minus => some 1
| .equal | .notEqual | .less | .lessEqual | .greater
| .greaterEqual => some 2
| .kwAnd => some 3
| .kwOr => some 4
| _ => none

/- A kind is an operator of no layer but its own. -/
theorem operator?_eq_none_of_ne
    {layer : Nat}
    {kind : Kind}
    (hLayer : operandLayer? kind ≠ some layer) :
    operator? layer kind = none := by
  match layer with
  | 0 | 1 | 2 | 3 | 4 =>
      cases kind <;> first | rfl | exact absurd rfl hLayer
  | _ + 5 => rfl

/- An operator separates the expressions it stands between. -/
theorem separates_of_operator?
    {layer : Nat}
    {token : Token}
    {operator : BinaryOp}
    (rest : List Token)
    (hOperator : operator? layer token.kind = some operator) :
    Separates layer (token :: rest) := by
  have hLayer : operandLayer? token.kind = some layer := by
    apply Decidable.byContradiction
    intro hNot
    rw [operator?_eq_none_of_ne hNot] at hOperator
    cases hOperator
  constructor
  · intro hParen
    simp only [headKind, List.head?_cons, Option.map_some,
      Option.some.injEq] at hParen
    simp [hParen, operandLayer?] at hLayer
  · intro hSuffix
    simp only [headKind, List.head?_cons, Option.map_some,
      Option.some.injEq] at hSuffix
    simp [hSuffix, operandLayer?] at hLayer
  · intro lower hLower
    apply operator?_eq_none_of_ne
    rw [hLayer]
    simp
    omega

/- A token that closes an expression separates it. -/
theorem Leaf.separates
    {kind : Kind}
    (leaf : Leaf kind)
    (layer : Nat)
    (rest : List Token)
    (hKind :
      operandLayer? kind = none ∧ kind ≠ .leftParen ∧
        kind ≠ .byteSuffix) :
    Separates layer (leaf.token :: rest) where
  notApplied := by simpa [Leaf.token] using hKind.2.1
  notSuffixed := by simpa [Leaf.token] using hKind.2.2
  noOperator lower _ :=
    operator?_eq_none_of_ne (by simp [Leaf.token, hKind.1])

end Grammar

end OnePass

------------------------------------------------------------
-- Induction Along Chains And Lists
------------------------------------------------------------

namespace OnePass

namespace Grammar

/-
  Induction over the operators of one layer. The operands
  are of the layer below, and are left alone.
-/
@[elab_as_elim] theorem Expr.chain_induction
    {layer : Nat}
    {motive : Expr (layer + 1) → Prop}
    (lift : ∀ operand, motive (.lift operand))
    (binary :
      ∀ left operator right,
        motive left → motive (.binary left operator right)) :
    (expr : Expr (layer + 1)) → motive expr
| .lift operand => lift operand
| .binary left operator right =>
    binary left operator right
      (chain_induction lift binary left)

/-
  Induction over a list of statements. The statements are
  left alone.
-/
@[elab_as_elim] theorem Stmts.list_induction
    {motive : Stmts → Prop}
    (one : ∀ statement, motive (.one statement))
    (more :
      ∀ statement statements,
        motive statements →
          motive (.more statement statements)) :
    (statements : Stmts) → motive statements
| .one statement => one statement
| .more statement statements =>
    more statement statements
      (list_induction one more statements)

end Grammar

end OnePass
