import OnePass.Proofs.Analysis.Composition

/-
  A byte may stand wherever an int may.

  Where the suffix of bytes is added after numbers in the
  range of a byte, every tree keeps its form, and the type of
  every expression stays the same or goes from int to byte.
  All rules ask for types up to that change, so what keeps
  the rules still does, and the functions that are declared
  are the same.

  Main declarations:
    * `Grammar.BinaryOp.Yields.narrow`
    * `Grammar.Narrows`
    * `Grammar.Expr.Refines`, `Grammar.Expr.exists_refines`
    * `Grammar.Stmt.Refines`, `Grammar.Stmt.exists_refines`
    * `Grammar.ValidAfter.narrow`
    * `analyze_eq_ok_of_narrows`
    * `analyze_add_suffix`
-/

------------------------------------------------------------
-- The Order Of Types
------------------------------------------------------------

namespace OnePass

namespace Ty

variable {lower middle upper : Ty}

theorem castsTo_rfl
    (ty : Ty) :
    ty.castsTo ty = true :=
  castsTo_iff.mpr (.inl rfl)

theorem castsTo_trans
    (hFirst : lower.castsTo middle = true)
    (hSecond : middle.castsTo upper = true) :
    lower.castsTo upper = true := by
  rcases castsTo_iff.mp hFirst with hSame | ⟨hByte, hInt⟩
  · rw [hSame]
    exact hSecond
  · rw [hInt] at hSecond
    rw [hByte]
    cases upper <;> first | rfl | cases hSecond

theorem isNumeral_of_castsTo
    (hCast : lower.castsTo upper = true)
    (hUpper : upper.isNumeral = true) :
    lower.isNumeral = true := by
  rcases castsTo_iff.mp hCast with hSame | ⟨hByte, -⟩
  · rw [hSame]
    exact hUpper
  · rw [hByte]
    rfl

theorem castsExplicitlyTo_of_castsTo
    (hCast : lower.castsTo middle = true)
    (hWritten : middle.castsExplicitlyTo upper = true) :
    lower.castsExplicitlyTo upper = true := by
  rcases castsTo_iff.mp hCast with hSame | ⟨hByte, hInt⟩
  · rw [hSame]
    exact hWritten
  · rw [hInt] at hWritten
    rw [hByte]
    cases upper <;> first | rfl | cases hWritten

end Ty

/- Smaller operands make a smaller result. -/
theorem Grammar.BinaryOp.Yields.narrow
    {operator : BinaryOp}
    {left right ty before after : Ty}
    (hYields : operator.Yields left right ty)
    (hLeft : before.castsTo left = true)
    (hRight : after.castsTo right = true) :
    ∃ lower,
      operator.Yields before after lower ∧
        lower.castsTo ty = true := by
  cases hYields with
  | numeric hFirst hSecond =>
      refine
        ⟨_,
          .numeric (Ty.isNumeral_of_castsTo hLeft hFirst)
            (Ty.isNumeral_of_castsTo hRight hSecond),
          ?_⟩
      -- An int stays an int, or becomes a byte on one side.
      rcases Ty.castsTo_iff.mp hLeft with
        rfl | ⟨rfl, rfl⟩ <;>
        rcases Ty.castsTo_iff.mp hRight with
          rfl | ⟨rfl, rfl⟩
      · exact Ty.castsTo_rfl _
      · cases before <;> rfl
      · cases after <;> rfl
      · rfl
  | relational hFirst hSecond =>
      exact
        ⟨.bool,
          .relational (Ty.isNumeral_of_castsTo hLeft hFirst)
            (Ty.isNumeral_of_castsTo hRight hSecond),
          rfl⟩
  | logical hFirst hSecond =>
      exact
        ⟨.bool,
          .logical (Ty.castsTo_trans hLeft hFirst)
            (Ty.castsTo_trans hRight hSecond),
          rfl⟩

/- Smaller arguments fit the same parameters. -/
theorem Ty.forall₂_castsTo_trans
    {arguments types parameters : List Ty}
    (hFirst :
      List.Forall₂
        (fun lower upper => lower.castsTo upper = true)
        arguments types)
    (hSecond :
      List.Forall₂
        (fun lower upper => lower.castsTo upper = true)
        types parameters) :
    List.Forall₂
      (fun lower upper => lower.castsTo upper = true)
      arguments parameters := by
  induction hFirst generalizing parameters with
  | nil => exact hSecond
  | cons hCast hRest ih =>
      cases hSecond with
      | cons hCast' hRest' =>
          exact .cons (castsTo_trans hCast hCast') (ih hRest')

end OnePass

------------------------------------------------------------
-- More Suffixes
------------------------------------------------------------

namespace OnePass

namespace Grammar

/-
  The same tokens, with the suffix of bytes added after
  numbers in range that do not have it.
-/
inductive Narrows : List Token → List Token → Prop where
  | nil : Narrows [] []
  | keep
      (token : Token)
      {tokens others : List Token}
      (hRest : Narrows tokens others) :
      Narrows (token :: tokens) (token :: others)
  | suffix
      {number : Token}
      (suffix : Leaf .byteSuffix)
      {tokens others : List Token}
      (hNumber : number.kind = .number)
      (hRange : Analysis.isByteLiteral number.text = true)
      (hNext : headKind tokens ≠ some .byteSuffix)
      (hRest : Narrows tokens others) :
      Narrows (number :: tokens)
        (number :: suffix.token :: others)

namespace Narrows

variable {tokens others first second : List Token}

protected theorem refl
    (tokens : List Token) :
    Narrows tokens tokens := by
  induction tokens with
  | nil => exact .nil
  | cons token tokens ih => exact .keep token ih

theorem append_left
    (before : List Token)
    (hNarrows : Narrows tokens others) :
    Narrows (before ++ tokens) (before ++ others) := by
  induction before with
  | nil => exact hNarrows
  | cons token before ih => exact .keep token ih

/- Nothing is added after what is not a number. -/
theorem of_cons
    {token : Token}
    (hNarrows : Narrows (token :: tokens) others)
    (hKind : token.kind ≠ .number) :
    ∃ rest, others = token :: rest ∧ Narrows tokens rest := by
  cases hNarrows with
  | keep _ hRest => exact ⟨_, rfl, hRest⟩
  | suffix suffix hNumber => exact absurd hNumber hKind

theorem of_leaf
    {kind : Kind}
    {leaf : Leaf kind}
    (hNarrows : Narrows (leaf.token :: tokens) others)
    (hKind : kind ≠ .number) :
    ∃ rest,
      others = leaf.token :: rest ∧ Narrows tokens rest :=
  hNarrows.of_cons hKind

theorem of_sign
    {ω : Type}
    {meaning? : Kind → Option ω}
    {sign : Sign meaning?}
    (hNarrows : Narrows (sign.token :: tokens) others)
    (hNone : meaning? .number = none) :
    ∃ rest,
      others = sign.token :: rest ∧ Narrows tokens rest :=
  hNarrows.of_cons (sign.kind_ne hNone)

/-
  What is added belongs to one of the parts. A number at the
  end of the first part is followed by nothing there.
-/
theorem of_append
    (hNarrows : Narrows (first ++ second) others) :
    ∃ before after,
      others = before ++ after ∧ Narrows first before ∧
        Narrows second after := by
  induction first generalizing others with
  | nil => exact ⟨[], others, rfl, .nil, hNarrows⟩
  | cons token first ih =>
      cases hNarrows with
      | keep _ hRest =>
          rcases ih hRest with
            ⟨before, after, hOthers, hFirst, hSecond⟩
          exact
            ⟨token :: before, after, by rw [hOthers]; rfl,
              .keep token hFirst, hSecond⟩
      | suffix suffix hNumber hRange hNext hRest =>
          rcases ih hRest with
            ⟨before, after, hOthers, hFirst, hSecond⟩
          have hNone : headKind first ≠ some .byteSuffix := by
            cases first with
            | nil => simp
            | cons next first => exact hNext
          exact
            ⟨token :: suffix.token :: before, after,
              by rw [hOthers]; rfl,
              .suffix suffix hNumber hRange hNone hFirst,
              hSecond⟩

theorem of_concat
    {kind : Kind}
    {leaf : Leaf kind}
    (hNarrows : Narrows (tokens ++ [leaf.token]) others)
    (hKind : kind ≠ .number) :
    ∃ rest,
      others = rest ++ [leaf.token] ∧
        Narrows tokens rest := by
  rcases hNarrows.of_append with
    ⟨before, after, hOthers, hTokens, hLast⟩
  rcases hLast.of_leaf hKind with ⟨rest, hAfter, hNothing⟩
  cases hNothing
  exact ⟨before, by rw [hOthers, hAfter], hTokens⟩

end Narrows

/- Declarations have no numbers. -/
theorem Declarator.eq_of_narrows
    (declarator : Declarator)
    {tokens : List Token}
    (hNarrows : Narrows declarator.tokens tokens) :
    tokens = declarator.tokens := by
  have hPair
      (ty : Sign Kind.valueType?)
      (name : Leaf .identifier)
      {tokens : List Token}
      (hNarrows : Narrows [ty.token, name.token] tokens) :
      tokens = [ty.token, name.token] := by
    rcases hNarrows.of_sign rfl with ⟨_, rfl, hName⟩
    rcases hName.of_leaf (by decide) with ⟨_, rfl, hNothing⟩
    cases hNothing
    rfl
  rcases declarator with ⟨_ | word, ty, name⟩
  · exact hPair ty name hNarrows
  · rcases hNarrows.of_leaf (by decide) with
      ⟨rest, hTokens, hRest⟩
    rw [hTokens, hPair ty name hRest]
    rfl

theorem eq_of_narrows_formals
    {formals : Option (Separated Declarator)}
    {tokens : List Token}
    (hNarrows :
      Narrows
        (formals.elim [] (Separated.tokens Declarator.tokens))
        tokens) :
    tokens =
      formals.elim [] (Separated.tokens Declarator.tokens) := by
  cases formals with
  | none =>
      cases hNarrows
      rfl
  | some items =>
      change Narrows (items.tokens Declarator.tokens) _
        at hNarrows
      change _ = items.tokens Declarator.tokens
      induction items generalizing tokens with
      | one item => exact item.eq_of_narrows hNarrows
      | more items comma item ih =>
          rcases hNarrows.of_append with
            ⟨before, after, rfl, hItems, hMore⟩
          rcases hMore.of_leaf (by decide) with
            ⟨last, rfl, hItem⟩
          rw [ih hItems, item.eq_of_narrows hItem]
          rfl

end Grammar

end OnePass

------------------------------------------------------------
-- Expressions
------------------------------------------------------------

namespace OnePass

namespace Grammar

/- An expression of the same form and with a smaller type. -/
structure Expr.Refines
    {layer : Nat}
    (narrowed expr : Expr layer) : Prop where
  nesting : narrowed.nesting = expr.nesting
  hasType :
    ∀ {functions scope ty},
      expr.HasType functions scope ty →
        ∃ lower,
          narrowed.HasType functions scope lower ∧
            lower.castsTo ty = true

/- A call of the same form and with the same type. -/
structure Call.Refines (narrowed parts : Call) : Prop where
  nesting : narrowed.nesting = parts.nesting
  hasType :
    ∀ {functions scope ty},
      parts.HasType functions scope ty →
        narrowed.HasType functions scope ty

/- Arguments of the same form and with smaller types. -/
structure ArgumentsRefine
    (narrowed arguments : Separated Expression) : Prop where
  nesting :
    argumentNesting narrowed = argumentNesting arguments
  haveTypes :
    ∀ {functions scope types},
      HaveTypes functions scope arguments types →
        ∃ lower,
          HaveTypes functions scope narrowed lower ∧
            List.Forall₂
              (fun lower upper => lower.castsTo upper = true)
              lower types

namespace Expr.Refines

variable {layer : Nat}

protected theorem refl
    (expr : Expr layer) :
    expr.Refines expr where
  nesting := rfl
  hasType hType := ⟨_, hType, Ty.castsTo_rfl _⟩

/- A smaller type may be used in the same places. -/
theorem fits
    {narrowed expr : Expr layer}
    (hRefines : narrowed.Refines expr)
    {functions : List Signature}
    {scope : List Binding}
    {target : Ty}
    (hFits : expr.Fits functions scope target) :
    narrowed.Fits functions scope target := by
  rcases hFits with ⟨ty, hType, hCast⟩
  rcases hRefines.hasType hType with ⟨lower, hLower, hBelow⟩
  exact ⟨lower, hLower, Ty.castsTo_trans hBelow hCast⟩

theorem negation
    {word : Leaf .kwNot}
    {inner operand : Expr 0}
    (hOperand : inner.Refines operand) :
    (Expr.negation word inner).Refines
      (.negation word operand) where
  nesting := congrArg (· + 1) hOperand.nesting
  hasType hType := by
    cases hType with
    | negation hType hCast =>
        rcases hOperand.hasType hType with
          ⟨lower, hLower, hBelow⟩
        exact
          ⟨.bool,
            .negation hLower (Ty.castsTo_trans hBelow hCast),
            rfl⟩

/- A written cast asks for its target whatever is cast. -/
theorem cast
    {left : Leaf .leftParen}
    {target : Sign Kind.valueType?}
    {right : Leaf .rightParen}
    {inner operand : Expr 0}
    (hOperand : inner.Refines operand) :
    (Expr.cast left target right inner).Refines
      (.cast left target right operand) where
  nesting := congrArg (· + 1) hOperand.nesting
  hasType hType := by
    cases hType with
    | cast hType hCast =>
        rcases hOperand.hasType hType with
          ⟨lower, hLower, hBelow⟩
        exact
          ⟨target.meaning,
            .cast hLower
              (Ty.castsExplicitlyTo_of_castsTo hBelow hCast),
            Ty.castsTo_rfl _⟩

theorem paren
    {left : Leaf .leftParen}
    {right : Leaf .rightParen}
    {narrowed inner : Expression}
    (hInner : narrowed.Refines inner) :
    (Expr.paren left narrowed right).Refines
      (.paren left inner right) where
  nesting := congrArg (· + 1) hInner.nesting
  hasType hType := by
    cases hType with
    | paren hType =>
        rcases hInner.hasType hType with
          ⟨lower, hLower, hBelow⟩
        exact ⟨lower, .paren hLower, hBelow⟩

theorem call
    {narrowed parts : Call}
    (hParts : narrowed.Refines parts) :
    (Expr.call narrowed).Refines (.call parts) where
  nesting := congrArg (· + 1) hParts.nesting
  hasType hType := by
    cases hType with
    | call hType =>
        exact
          ⟨_, .call (hParts.hasType hType), Ty.castsTo_rfl _⟩

/- A number in range may be a byte. -/
theorem byte
    {digits : Leaf .number}
    {suffix : Leaf .byteSuffix}
    (hRange : Analysis.isByteLiteral digits.text = true) :
    (Expr.byte digits suffix).Refines (.number digits) where
  nesting := rfl
  hasType hType := by
    cases hType
    exact ⟨.byte, .byte hRange, rfl⟩

theorem lift
    {narrowed operand : Expr layer}
    (hOperand : narrowed.Refines operand) :
    (Expr.lift narrowed).Refines (.lift operand) where
  nesting := hOperand.nesting
  hasType hType := by
    cases hType with
    | lift hType =>
        rcases hOperand.hasType hType with
          ⟨lower, hLower, hBelow⟩
        exact ⟨lower, .lift hLower, hBelow⟩

theorem binary
    {before left : Expr (layer + 1)}
    {operator : Sign (operator? layer)}
    {after right : Expr layer}
    (hLeft : before.Refines left)
    (hRight : after.Refines right) :
    (Expr.binary before operator after).Refines
      (.binary left operator right) where
  nesting := congrArg₂ max hLeft.nesting hRight.nesting
  hasType hType := by
    cases hType with
    | binary hFirst hSecond hYields =>
        rcases hLeft.hasType hFirst with
          ⟨lower, hLower, hBelow⟩
        rcases hRight.hasType hSecond with
          ⟨other, hOther, hBeside⟩
        rcases hYields.narrow hBelow hBeside with
          ⟨result, hResult, hCast⟩
        exact ⟨result, .binary hLower hOther hResult, hCast⟩

end Expr.Refines

/- The parameters fit what is smaller than the arguments. -/
theorem ArgumentsRefine.call
    {callee : Leaf .identifier}
    {left : Leaf .leftParen}
    {right : Leaf .rightParen}
    {narrowed arguments : Separated Expression}
    (hArguments : ArgumentsRefine narrowed arguments) :
    (Call.applied callee left narrowed right).Refines
      (.applied callee left arguments right) where
  nesting := hArguments.nesting
  hasType hType := by
    cases hType with
    | applied hKnown hName hTypes hParameters =>
        rcases hArguments.haveTypes hTypes with
          ⟨lower, hLower, hBelow⟩
        exact
          .applied hKnown hName hLower
            (Ty.forall₂_castsTo_trans hBelow hParameters)

theorem ArgumentsRefine.one
    {narrowed item : Expression}
    (hItem : narrowed.Refines item) :
    ArgumentsRefine (.one narrowed) (.one item) where
  nesting := hItem.nesting
  haveTypes hTypes := by
    cases hTypes with
    | one hType =>
        rcases hItem.hasType hType with
          ⟨lower, hLower, hBelow⟩
        exact ⟨[lower], .one hLower, .cons hBelow .nil⟩

theorem ArgumentsRefine.more
    {before items : Separated Expression}
    {comma : Leaf .comma}
    {narrowed item : Expression}
    (hItems : ArgumentsRefine before items)
    (hItem : narrowed.Refines item) :
    ArgumentsRefine (.more before comma narrowed)
      (.more items comma item) where
  nesting := congrArg₂ max hItems.nesting hItem.nesting
  haveTypes hTypes := by
    cases hTypes with
    | more hFirst hType =>
        rcases hItems.haveTypes hFirst with
          ⟨types, hTypes, hBeneath⟩
        rcases hItem.hasType hType with
          ⟨lower, hLower, hBelow⟩
        exact
          ⟨types ++ [lower], .more hTypes hLower,
            List.rel_append hBeneath (.cons hBelow .nil)⟩

mutual

/-
  An expression with more suffixes is an expression of the
  same form. The recursion is that of the trees.
-/
theorem Expr.exists_refines
    {layer : Nat}
    {tokens : List Token} :
    (expr : Expr layer) →
      Narrows expr.tokens tokens →
        ∃ narrowed : Expr layer,
          narrowed.tokens = tokens ∧ narrowed.Refines expr
| .negation word operand, hNarrows => by
    rcases hNarrows.of_leaf (by decide) with
      ⟨_, rfl, hOperand⟩
    rcases operand.exists_refines hOperand with
      ⟨inner, rfl, hRefines⟩
    exact ⟨.negation word inner, rfl, hRefines.negation⟩
| .cast left target right operand, hNarrows => by
    rcases hNarrows.of_leaf (by decide) with
      ⟨_, rfl, hTarget⟩
    rcases hTarget.of_sign rfl with ⟨_, rfl, hRight⟩
    rcases hRight.of_leaf (by decide) with
      ⟨_, rfl, hOperand⟩
    rcases operand.exists_refines hOperand with
      ⟨inner, rfl, hRefines⟩
    exact ⟨.cast left target right inner, rfl, hRefines.cast⟩
| .paren left inner right, hNarrows => by
    rcases hNarrows.of_leaf (by decide) with ⟨_, rfl, hRest⟩
    rcases hRest.of_concat (by decide) with ⟨_, rfl, hInner⟩
    rcases inner.exists_refines hInner with
      ⟨narrowed, rfl, hRefines⟩
    exact ⟨.paren left narrowed right, rfl, hRefines.paren⟩
| .call parts, hNarrows => by
    rcases parts.exists_refines hNarrows with
      ⟨narrowed, hTokens, hRefines⟩
    exact ⟨.call narrowed, hTokens, .call hRefines⟩
| .name leaf, hNarrows => by
    rcases hNarrows.of_leaf (by decide) with
      ⟨_, rfl, hNothing⟩
    cases hNothing
    exact ⟨.name leaf, rfl, .refl _⟩
| .string leaf, hNarrows => by
    rcases hNarrows.of_leaf (by decide) with
      ⟨_, rfl, hNothing⟩
    cases hNothing
    exact ⟨.string leaf, rfl, .refl _⟩
| .number digits, hNarrows => by
    cases hNarrows with
    | keep _ hNothing =>
        cases hNothing
        exact ⟨.number digits, rfl, .refl _⟩
    | suffix suffix _ hRange _ hNothing =>
        cases hNothing
        exact ⟨.byte digits suffix, rfl, .byte hRange⟩
| .byte digits suffix, hNarrows => by
    cases hNarrows with
    | keep _ hSuffix =>
        rcases hSuffix.of_leaf (by decide) with
          ⟨_, rfl, hNothing⟩
        cases hNothing
        exact ⟨.byte digits suffix, rfl, .refl _⟩
    | suffix _ _ _ hNext => exact absurd rfl hNext
| .bool word, hNarrows => by
    rcases hNarrows.of_sign rfl with ⟨_, rfl, hNothing⟩
    cases hNothing
    exact ⟨.bool word, rfl, .refl _⟩
| .lift operand, hNarrows => by
    rcases operand.exists_refines hNarrows with
      ⟨narrowed, hTokens, hRefines⟩
    exact ⟨.lift narrowed, hTokens, hRefines.lift⟩
| .binary left operator right, hNarrows => by
    rcases hNarrows.of_append with
      ⟨_, _, rfl, hLeft, hMore⟩
    rcases
        hMore.of_sign
          (operator?_eq_none_of_ne (by simp [operandLayer?])) with
      ⟨_, rfl, hRight⟩
    rcases left.exists_refines hLeft with
      ⟨before, rfl, hBefore⟩
    rcases right.exists_refines hRight with
      ⟨after, rfl, hAfter⟩
    exact
      ⟨.binary before operator after, rfl,
        hBefore.binary hAfter⟩

theorem Call.exists_refines
    {tokens : List Token} :
    (parts : Call) →
      Narrows parts.tokens tokens →
        ∃ narrowed : Call,
          narrowed.tokens = tokens ∧ narrowed.Refines parts
| .bare callee left right, hNarrows => by
    rcases hNarrows.of_leaf (by decide) with ⟨_, rfl, hLeft⟩
    rcases hLeft.of_leaf (by decide) with ⟨_, rfl, hRight⟩
    rcases hRight.of_leaf (by decide) with ⟨_, rfl, hNothing⟩
    cases hNothing
    exact ⟨.bare callee left right, rfl, rfl, id⟩
| .applied callee left arguments right, hNarrows => by
    rcases hNarrows.of_leaf (by decide) with ⟨_, rfl, hLeft⟩
    rcases hLeft.of_leaf (by decide) with ⟨_, rfl, hRest⟩
    rcases hRest.of_concat (by decide) with
      ⟨_, rfl, hArguments⟩
    rcases exists_argumentsRefine arguments hArguments with
      ⟨narrowed, rfl, hRefine⟩
    exact
      ⟨.applied callee left narrowed right, rfl, hRefine.call⟩

theorem exists_argumentsRefine
    {tokens : List Token} :
    (arguments : Separated (Expr topLayer)) →
      Narrows (argumentTokens arguments) tokens →
        ∃ narrowed,
          argumentTokens narrowed = tokens ∧
            ArgumentsRefine narrowed arguments
| .one item, hNarrows => by
    rcases item.exists_refines hNarrows with
      ⟨narrowed, hTokens, hRefines⟩
    exact ⟨.one narrowed, hTokens, .one hRefines⟩
| .more items comma item, hNarrows => by
    rcases hNarrows.of_append with
      ⟨_, _, rfl, hItems, hMore⟩
    rcases hMore.of_leaf (by decide) with ⟨_, rfl, hItem⟩
    rcases exists_argumentsRefine items hItems with
      ⟨before, rfl, hRefine⟩
    rcases item.exists_refines hItem with
      ⟨narrowed, rfl, hRefines⟩
    exact
      ⟨.more before comma narrowed, rfl,
        hRefine.more hRefines⟩

end

end Grammar

end OnePass

------------------------------------------------------------
-- Statements
------------------------------------------------------------

namespace OnePass

namespace Grammar

/- A statement of the same form that keeps the same rules. -/
structure Stmt.Refines (narrowed statement : Stmt) : Prop where
  nesting : narrowed.nesting = statement.nesting
  endsOpen : narrowed.endsOpen = statement.endsOpen
  elseNearest : statement.ElseNearest → narrowed.ElseNearest
  binds : narrowed.binds = statement.binds
  valid :
    ∀ {setting scope},
      statement.Valid setting scope →
        narrowed.Valid setting scope

/- Statements of the same form that keep the same rules. -/
structure Stmts.Refines (narrowed statements : Stmts) : Prop where
  nesting : narrowed.nesting = statements.nesting
  elseNearest : statements.ElseNearest → narrowed.ElseNearest
  valid :
    ∀ {setting scope},
      statements.Valid setting scope →
        narrowed.Valid setting scope

namespace Stmt.Refines

protected theorem refl
    (statement : Stmt) :
    statement.Refines statement :=
  ⟨rfl, rfl, id, rfl, id⟩

theorem block
    {left : Leaf .leftBrace}
    {right : Leaf .rightBrace}
    {narrowed body : Stmts}
    (hBody : narrowed.Refines body) :
    (Stmt.block left narrowed right).Refines
      (.block left body right) where
  nesting := congrArg (· + 1) hBody.nesting
  endsOpen := rfl
  elseNearest := hBody.elseNearest
  binds := rfl
  valid hValid := by
    cases hValid with
    | block hValid => exact .block (hBody.valid hValid)

theorem declaration
    {declarator : Declarator}
    {sign : Leaf .assign}
    {stop : Leaf .semicolon}
    {narrowed value : Expression}
    (hValue : narrowed.Refines value) :
    (Stmt.declaration declarator (some ⟨sign, narrowed⟩)
        stop).Refines
      (.declaration declarator (some ⟨sign, value⟩) stop) where
  nesting := congrArg (· + 1) hValue.nesting
  endsOpen := rfl
  elseNearest := id
  binds := rfl
  valid hValid := by
    cases hValid with
    | declaration hNew hConst hInitializer =>
        refine .declaration hNew (fun _ => rfl) ?_
        intro present hPresent
        cases hPresent
        exact hValue.fits (hInitializer _ rfl)

theorem assignment
    {name : Leaf .identifier}
    {sign : Leaf .assign}
    {stop : Leaf .semicolon}
    {narrowed value : Expression}
    (hValue : narrowed.Refines value) :
    (Stmt.assignment name sign narrowed stop).Refines
      (.assignment name sign value stop) where
  nesting := congrArg (· + 1) hValue.nesting
  endsOpen := rfl
  elseNearest := id
  binds := rfl
  valid hValid := by
    cases hValid with
    | assignment hVisible hName hConst hFits =>
        exact
          .assignment hVisible hName hConst
            (hValue.fits hFits)

theorem call
    {stop : Leaf .semicolon}
    {narrowed parts : Call}
    (hParts : narrowed.Refines parts) :
    (Stmt.call narrowed stop).Refines (.call parts stop) where
  nesting := congrArg (· + 1) hParts.nesting
  endsOpen := rfl
  elseNearest := id
  binds := rfl
  valid hValid := by
    cases hValid with
    | call hType => exact .call (hParts.hasType hType)

theorem returnValue
    {word : Leaf .kwReturn}
    {stop : Leaf .semicolon}
    {narrowed value : Expression}
    (hValue : narrowed.Refines value) :
    (Stmt.returnValue word narrowed stop).Refines
      (.returnValue word value stop) where
  nesting := congrArg (· + 1) hValue.nesting
  endsOpen := rfl
  elseNearest := id
  binds := rfl
  valid hValid := by
    cases hValid with
    | returnValue hReturns hFits =>
        exact .returnValue hReturns (hValue.fits hFits)

section Branches

variable {left : Leaf .leftParen} {right : Leaf .rightParen}
variable {narrowed value : Expression}
variable (hCondition : narrowed.Refines value)

include hCondition

theorem ifThen
    {word : Leaf .kwIf}
    {first branch : Stmt}
    (hBranch : first.Refines branch) :
    (Stmt.ifThen word ⟨left, narrowed, right⟩ first).Refines
      (.ifThen word ⟨left, value, right⟩ branch) where
  nesting :=
    congrArg (· + 1)
      (congrArg₂ max hCondition.nesting hBranch.nesting)
  endsOpen := rfl
  elseNearest := hBranch.elseNearest
  binds := rfl
  valid hValid := by
    cases hValid with
    | ifThen hFits hValid =>
        exact
          .ifThen (hCondition.fits hFits)
            (hBranch.valid hValid)

theorem ifElse
    {word : Leaf .kwIf}
    {other : Leaf .kwElse}
    {first branch second otherwise : Stmt}
    (hBranch : first.Refines branch)
    (hOtherwise : second.Refines otherwise) :
    (Stmt.ifElse word ⟨left, narrowed, right⟩ first other
        second).Refines
      (.ifElse word ⟨left, value, right⟩ branch other
        otherwise) where
  nesting :=
    congrArg (· + 1)
      (congrArg₂ max hCondition.nesting
        (congrArg₂ max hBranch.nesting hOtherwise.nesting))
  endsOpen := hOtherwise.endsOpen
  elseNearest := by
    rintro ⟨hClosed, hFirst, hSecond⟩
    exact
      ⟨hBranch.endsOpen.trans hClosed,
        hBranch.elseNearest hFirst,
        hOtherwise.elseNearest hSecond⟩
  binds := rfl
  valid hValid := by
    cases hValid with
    | ifElse hFits hFirst hSecond =>
        exact
          .ifElse (hCondition.fits hFits)
            (hBranch.valid hFirst) (hOtherwise.valid hSecond)

theorem whileLoop
    {word : Leaf .kwWhile}
    {again body : Stmt}
    (hBody : again.Refines body) :
    (Stmt.whileLoop word ⟨left, narrowed, right⟩
        again).Refines
      (.whileLoop word ⟨left, value, right⟩ body) where
  nesting :=
    congrArg (· + 1)
      (congrArg₂ max hCondition.nesting hBody.nesting)
  endsOpen := hBody.endsOpen
  elseNearest := hBody.elseNearest
  binds := rfl
  valid hValid := by
    cases hValid with
    | whileLoop hFits hValid =>
        exact
          .whileLoop (hCondition.fits hFits)
            (hBody.valid hValid)

end Branches

/- Where a statement ends, the same variables are visible. -/
theorem more
    {first statement : Stmt}
    {rest statements : Stmts}
    (hFirst : first.Refines statement)
    (hRest : rest.Refines statements) :
    (Stmts.more first rest).Refines
      (.more statement statements) where
  nesting := congrArg₂ max hFirst.nesting hRest.nesting
  elseNearest := by
    rintro ⟨hStatement, hStatements⟩
    exact
      ⟨hFirst.elseNearest hStatement,
        hRest.elseNearest hStatements⟩
  valid hValid := by
    cases hValid with
    | more hStatement hStatements =>
        refine .more (hFirst.valid hStatement) ?_
        rw [hFirst.binds]
        exact hRest.valid hStatements

theorem one
    {narrowed statement : Stmt}
    (hStatement : narrowed.Refines statement) :
    (Stmts.one narrowed).Refines (.one statement) where
  nesting := hStatement.nesting
  elseNearest := hStatement.elseNearest
  valid hValid := by
    cases hValid with
    | one hValid => exact .one (hStatement.valid hValid)

end Stmt.Refines

/- A condition is in parentheses as it was. -/
theorem Condition.exists_refines
    {condition : Condition}
    {tokens : List Token}
    (hNarrows : Narrows condition.tokens tokens) :
    ∃ narrowed : Expression,
      Condition.tokens
            ⟨condition.left, narrowed, condition.right⟩ =
          tokens ∧
        narrowed.Refines condition.value := by
  rcases hNarrows.of_leaf (by decide) with ⟨_, rfl, hRest⟩
  rcases hRest.of_concat (by decide) with ⟨_, rfl, hValue⟩
  rcases condition.value.exists_refines hValue with
    ⟨narrowed, rfl, hRefines⟩
  exact ⟨narrowed, rfl, hRefines⟩

/- A statement of two tokens has no numbers. -/
theorem eq_of_narrows_two
    {word : Token}
    {stop : Leaf .semicolon}
    {tokens : List Token}
    (hNarrows : Narrows [word, stop.token] tokens)
    (hWord : word.kind ≠ .number) :
    [word, stop.token] = tokens := by
  rcases hNarrows.of_cons hWord with ⟨_, rfl, hStop⟩
  rcases hStop.of_leaf (by decide) with ⟨_, rfl, hNothing⟩
  cases hNothing
  rfl

mutual

/-
  A statement with more suffixes is a statement of the same
  form. The recursion is that of the trees.
-/
theorem Stmt.exists_refines
    {tokens : List Token} :
    (statement : Stmt) →
      Narrows statement.tokens tokens →
        ∃ narrowed : Stmt,
          narrowed.tokens = tokens ∧
            narrowed.Refines statement
| .block left body right, hNarrows => by
    rcases hNarrows.of_leaf (by decide) with ⟨_, rfl, hRest⟩
    rcases hRest.of_concat (by decide) with ⟨_, rfl, hBody⟩
    rcases body.exists_refines hBody with
      ⟨narrowed, rfl, hRefines⟩
    exact ⟨.block left narrowed right, rfl, .block hRefines⟩
| .declaration declarator none stop, hNarrows => by
    rcases hNarrows.of_append with
      ⟨_, _, rfl, hDeclarator, hRest⟩
    rcases hRest.of_leaf (by decide) with ⟨_, rfl, hNothing⟩
    cases hNothing
    rw [declarator.eq_of_narrows hDeclarator]
    exact
      ⟨.declaration declarator none stop, rfl, .refl _⟩
| .declaration declarator (some ⟨sign, value⟩) stop,
    hNarrows => by
    rcases hNarrows.of_append with
      ⟨_, _, rfl, hDeclarator, hRest⟩
    rcases hRest.of_leaf (by decide) with ⟨_, rfl, hMore⟩
    rcases hMore.of_concat (by decide) with ⟨_, rfl, hValue⟩
    rcases value.exists_refines hValue with
      ⟨narrowed, rfl, hRefines⟩
    rw [declarator.eq_of_narrows hDeclarator]
    exact
      ⟨.declaration declarator (some ⟨sign, narrowed⟩) stop,
        rfl, .declaration hRefines⟩
| .assignment name sign value stop, hNarrows => by
    rcases hNarrows.of_leaf (by decide) with ⟨_, rfl, hSign⟩
    rcases hSign.of_leaf (by decide) with ⟨_, rfl, hRest⟩
    rcases hRest.of_concat (by decide) with ⟨_, rfl, hValue⟩
    rcases value.exists_refines hValue with
      ⟨narrowed, rfl, hRefines⟩
    exact
      ⟨.assignment name sign narrowed stop, rfl,
        .assignment hRefines⟩
| .call parts stop, hNarrows => by
    rcases hNarrows.of_concat (by decide) with
      ⟨_, rfl, hParts⟩
    rcases parts.exists_refines hParts with
      ⟨narrowed, rfl, hRefines⟩
    exact ⟨.call narrowed stop, rfl, .call hRefines⟩
| .returnVoid word stop, hNarrows =>
    ⟨.returnVoid word stop,
      eq_of_narrows_two hNarrows Kind.noConfusion, .refl _⟩
| .returnValue word value stop, hNarrows => by
    rcases hNarrows.of_leaf (by decide) with ⟨_, rfl, hRest⟩
    rcases hRest.of_concat (by decide) with ⟨_, rfl, hValue⟩
    rcases value.exists_refines hValue with
      ⟨narrowed, rfl, hRefines⟩
    exact
      ⟨.returnValue word narrowed stop, rfl,
        .returnValue hRefines⟩
| .ifThen word condition branch, hNarrows => by
    rcases hNarrows.of_leaf (by decide) with ⟨_, rfl, hRest⟩
    rcases hRest.of_append with
      ⟨_, _, rfl, hCondition, hBranch⟩
    rcases Condition.exists_refines hCondition with
      ⟨narrowed, rfl, hRefines⟩
    rcases branch.exists_refines hBranch with
      ⟨first, rfl, hFirst⟩
    exact ⟨.ifThen word _ first, rfl, .ifThen hRefines hFirst⟩
| .ifElse word condition branch other otherwise,
    hNarrows => by
    rcases hNarrows.of_leaf (by decide) with ⟨_, rfl, hRest⟩
    rcases hRest.of_append with
      ⟨_, _, rfl, hCondition, hBranches⟩
    rcases hBranches.of_append with
      ⟨_, _, rfl, hBranch, hElse⟩
    rcases hElse.of_leaf (by decide) with
      ⟨_, rfl, hOtherwise⟩
    rcases Condition.exists_refines hCondition with
      ⟨narrowed, rfl, hRefines⟩
    rcases branch.exists_refines hBranch with
      ⟨first, rfl, hFirst⟩
    rcases otherwise.exists_refines hOtherwise with
      ⟨second, rfl, hSecond⟩
    exact
      ⟨.ifElse word _ first other second, rfl,
        .ifElse hRefines hFirst hSecond⟩
| .whileLoop word condition body, hNarrows => by
    rcases hNarrows.of_leaf (by decide) with ⟨_, rfl, hRest⟩
    rcases hRest.of_append with
      ⟨_, _, rfl, hCondition, hBody⟩
    rcases Condition.exists_refines hCondition with
      ⟨narrowed, rfl, hRefines⟩
    rcases body.exists_refines hBody with
      ⟨again, rfl, hAgain⟩
    exact
      ⟨.whileLoop word _ again, rfl,
        .whileLoop hRefines hAgain⟩
| .jump word stop, hNarrows =>
    ⟨.jump word stop,
      eq_of_narrows_two hNarrows (word.kind_ne rfl), .refl _⟩

theorem Stmts.exists_refines
    {tokens : List Token} :
    (statements : Stmts) →
      Narrows statements.tokens tokens →
        ∃ narrowed : Stmts,
          narrowed.tokens = tokens ∧
            narrowed.Refines statements
| .one statement, hNarrows => by
    rcases statement.exists_refines hNarrows with
      ⟨narrowed, hTokens, hRefines⟩
    exact ⟨.one narrowed, hTokens, hRefines.one⟩
| .more statement statements, hNarrows => by
    rcases hNarrows.of_append with
      ⟨_, _, rfl, hStatement, hStatements⟩
    rcases statement.exists_refines hStatement with
      ⟨first, rfl, hFirst⟩
    rcases statements.exists_refines hStatements with
      ⟨rest, rfl, hRest⟩
    exact ⟨.more first rest, rfl, hFirst.more hRest⟩

end

end Grammar

end OnePass

------------------------------------------------------------
-- Programs
------------------------------------------------------------

namespace OnePass

namespace Grammar

/- The same header, and a body that keeps the same rules. -/
def Function.Refines (narrowed function : Function) : Prop :=
  ∃ body : Stmts,
    narrowed = { function with body } ∧
      body.Refines function.body

theorem Function.exists_refines
    {function : Function}
    {tokens : List Token}
    (hNarrows : Narrows function.tokens tokens) :
    ∃ narrowed : Function,
      narrowed.tokens = tokens ∧
        narrowed.Refines function := by
  rcases hNarrows.of_sign rfl with ⟨_, rfl, hName⟩
  rcases hName.of_leaf (by decide) with ⟨_, rfl, hLeft⟩
  rcases hLeft.of_leaf (by decide) with ⟨_, rfl, hRest⟩
  rcases hRest.of_append with
    ⟨_, _, rfl, hFormals, hMore⟩
  rcases hMore.of_leaf (by decide) with ⟨_, rfl, hStart⟩
  rcases hStart.of_leaf (by decide) with ⟨_, rfl, hLast⟩
  rcases hLast.of_concat (by decide) with ⟨_, rfl, hBody⟩
  rcases function.body.exists_refines hBody with
    ⟨body, rfl, hRefines⟩
  rw [eq_of_narrows_formals hFormals]
  exact ⟨{ function with body }, rfl, body, rfl, hRefines⟩

namespace Function.Refines

variable {narrowed function : Function}
variable (hRefines : narrowed.Refines function)

include hRefines

theorem signature_eq :
    narrowed.signature = function.signature := by
  rcases hRefines with ⟨body, rfl, -⟩
  rfl

theorem valid
    {earlier : List Signature}
    (hValid : function.Valid earlier) :
    narrowed.Valid earlier := by
  rcases hRefines with ⟨body, rfl, hBody⟩
  exact
    { newName := hValid.newName
      distinctFormals := hValid.distinctFormals
      formalNames := hValid.formalNames
      body := hBody.valid hValid.body }

theorem nesting_eq :
    narrowed.body.nesting = function.body.nesting := by
  rcases hRefines with ⟨body, rfl, hBody⟩
  exact hBody.nesting

theorem elseNearest
    (hNearest : function.body.ElseNearest) :
    narrowed.body.ElseNearest := by
  rcases hRefines with ⟨body, rfl, hBody⟩
  exact hBody.elseNearest hNearest

end Function.Refines

section Lists

variable {narrowed functions : List Function}

theorem exists_refines_functions
    {tokens : List Token}
    (hNarrows :
      Narrows (functions.flatMap Function.tokens) tokens) :
    ∃ narrowed : List Function,
      narrowed.flatMap Function.tokens = tokens ∧
        List.Forall₂ Function.Refines narrowed functions := by
  induction functions generalizing tokens with
  | nil =>
      cases hNarrows
      exact ⟨[], rfl, .nil⟩
  | cons function functions ih =>
      rcases hNarrows.of_append with
        ⟨_, _, rfl, hFunction, hFunctions⟩
      rcases Function.exists_refines hFunction with
        ⟨first, rfl, hFirst⟩
      rcases ih hFunctions with ⟨rest, rfl, hRest⟩
      exact ⟨first :: rest, rfl, .cons hFirst hRest⟩

theorem map_signature_of_refines
    (hRefines :
      List.Forall₂ Function.Refines narrowed functions) :
    narrowed.map Function.signature =
      functions.map Function.signature := by
  induction hRefines with
  | nil => rfl
  | cons hFirst hRest ih =>
      rw [List.map_cons, List.map_cons, hFirst.signature_eq,
        ih]

/- One function after the other keeps the same rules. -/
theorem ValidAfter.narrow
    {earlier others : List Function}
    (hValid : ValidAfter earlier functions)
    (hRefines :
      List.Forall₂ Function.Refines narrowed functions)
    (hEarlier :
      others.map Function.signature =
        earlier.map Function.signature) :
    ValidAfter others narrowed := by
  induction hRefines generalizing earlier others with
  | nil =>
      intro before function later hSplit
      simp at hSplit
  | cons hFirst hRest ih =>
      rcases validAfter_cons_iff.mp hValid with
        ⟨hFunction, hLater⟩
      rw [validAfter_cons_iff, hEarlier]
      refine ⟨hFirst.valid hFunction, ih hLater ?_⟩
      simp [hEarlier, hFirst.signature_eq]

/- What holds of each function holds of the narrowed ones. -/
theorem forall_of_refines
    {Holds : Function → Prop}
    (hRefines :
      List.Forall₂ Function.Refines narrowed functions)
    (hKept :
      ∀ {narrowed function : Function},
        narrowed.Refines function →
          Holds function → Holds narrowed)
    (hAll : ∀ function ∈ functions, Holds function) :
    ∀ function ∈ narrowed, Holds function := by
  induction hRefines with
  | nil => simp
  | cons hFirst hRest ih =>
      rw [List.forall_mem_cons] at hAll ⊢
      exact ⟨hKept hFirst hAll.1, ih hAll.2⟩

end Lists

end Grammar

/- An accepted text is accepted with more suffixes. -/
theorem analyze_eq_ok_of_narrows
    {tokens narrowed : List Token}
    {signatures : List Signature}
    (hNarrows : Grammar.Narrows tokens narrowed)
    (hOk : analyze tokens = .ok signatures) :
    analyze narrowed = .ok signatures := by
  rcases exists_valid_of_analyze_ok hOk with
    ⟨program, hTree, hValid, hSignatures⟩
  rw [← hTree.tokens_eq] at hNarrows
  rcases Grammar.exists_refines_functions hNarrows with
    ⟨functions, hTokens, hRefines⟩
  have hSame :
      Grammar.Program.signatures ⟨functions⟩ =
        program.signatures :=
    Grammar.map_signature_of_refines hRefines
  have hNarrowed : Grammar.Program.Valid ⟨functions⟩ := by
    constructor
    · have hFunctions :
          Grammar.ValidAfter [] program.functions :=
        hValid.functions
      exact hFunctions.narrow hRefines rfl
    · rw [hSame]
      exact hValid.entryPoint
  have hNarrowedTree :
      Grammar.Program.IsTreeOf ⟨functions⟩ narrowed := by
    refine ⟨hTokens, ?_, ?_⟩
    · apply Grammar.forall_of_refines hRefines ?_ hTree.nesting
      intro narrowed function hFunction hNesting
      rw [hFunction.nesting_eq]
      exact hNesting
    · exact
        Grammar.forall_of_refines hRefines
          (fun hFunction => hFunction.elseNearest)
          hTree.elseNearest
  rw [hNarrowed.analyze_eq_ok hNarrowedTree, hSame,
    hSignatures]

/-
  In an accepted program any number in the range of a byte
  may be given the suffix of bytes.
-/
theorem analyze_add_suffix
    (before after : List Token)
    (number : Grammar.Leaf .number)
    (suffix : Grammar.Leaf .byteSuffix)
    {signatures : List Signature}
    (hRange : Analysis.isByteLiteral number.text = true)
    (hNext : Grammar.headKind after ≠ some .byteSuffix)
    (hOk :
      analyze (before ++ number.token :: after) =
        .ok signatures) :
    analyze (before ++ number.token :: suffix.token :: after) =
      .ok signatures := by
  have hNumber :
      Grammar.Narrows (number.token :: after)
        (number.token :: suffix.token :: after) :=
    .suffix suffix rfl hRange hNext (.refl after)
  exact
    analyze_eq_ok_of_narrows (hNumber.append_left before) hOk

/- The program `void main() { int x = 2b + 300; }`. -/
theorem analyze_add_suffix_sum :
    analyze
        ([⟨.kwVoid, "void", ⟨0, 4, 1⟩⟩,
            ⟨.identifier, "main", ⟨5, 9, 1⟩⟩,
            ⟨.leftParen, "(", ⟨9, 10, 1⟩⟩,
            ⟨.rightParen, ")", ⟨10, 11, 1⟩⟩,
            ⟨.leftBrace, "\x7b", ⟨12, 13, 1⟩⟩,
            ⟨.kwInt, "int", ⟨14, 17, 1⟩⟩,
            ⟨.identifier, "x", ⟨18, 19, 1⟩⟩,
            ⟨.assign, "=", ⟨20, 21, 1⟩⟩] ++
          ⟨.number, "2", ⟨22, 23, 1⟩⟩ ::
            ⟨.byteSuffix, "b", ⟨0, 0, 0⟩⟩ ::
              [⟨.plus, "+", ⟨24, 25, 1⟩⟩,
                ⟨.number, "300", ⟨26, 29, 1⟩⟩,
                ⟨.semicolon, ";", ⟨29, 30, 1⟩⟩,
                ⟨.rightBrace, "\x7d", ⟨31, 32, 1⟩⟩]) =
      .ok [⟨"main", .void, []⟩] :=
  analyze_add_suffix _ _ ⟨"2", ⟨22, 23, 1⟩⟩
    ⟨"b", ⟨0, 0, 0⟩⟩ (by decide) (by decide) rfl

end OnePass
