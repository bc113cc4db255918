import OnePass.Proofs.Parser.Foresight.Basic

/-
  What expressions foretell.

  Main declarations:
    * `Parser.predicts_leftChain`
    * `Parser.foretells_first`, `Parser.foretells_second`
    * `Parser.predicts_factor`, `Parser.predicts_expression`
-/

------------------------------------------------------------
-- Expressions
------------------------------------------------------------

namespace OnePass

namespace Parser

open Grammar
open scoped Computability

variable {σ τ ε α β γ ω : Type}
variable {language later : Language Token}
variable {translate : α → β}

/- Operands separated by the operators of a layer. -/
theorem predicts_leftChain
    {receiver : Receiver σ τ ε}
    (layer : Nat)
    {meaning? : Kind → Option ω}
    (toBinary : ω → BinaryOp)
    (hMeaning :
      ∀ kind,
        operator? layer kind = (meaning? kind).map toBinary)
    {combine :
      Typed τ → ω → Typed τ → Span → ValueEvent τ}
    {combine' :
      Typed Unit → ω → Typed Unit → Span → ValueEvent Unit}
    {operand : Rule σ ε (Typed τ)}
    {operand' : Rule Unit Empty (Typed Unit)}
    (hOperand :
      Predicts (exprWords layer) Typed.erase operand
        operand') :
    Predicts (exprWords (layer + 1)) Typed.erase
      (leftChain receiver meaning? combine operand)
      (leftChain heedless meaning? combine' operand') := by
  have hStep :
      PredictsStep
        (signWords (operator? layer) * exprWords layer)
        Typed.erase
        (chainStep receiver meaning? combine operand)
        (chainStep heedless meaning? combine' operand') := by
    intro left
    refine ⟨_, _, rfl, rfl, ?_⟩
    intro head
    cases head with
    | none => exact .inl ⟨rfl, rfl⟩
    | some kind =>
        cases hOperator : meaning? kind with
        | none =>
            simp only [hOperator, and_self, true_or]
        | some operator =>
            have hBinary :
                operator? layer kind =
                  some (toBinary operator) := by
              rw [hMeaning, hOperator, Option.map_some]
            simp only [hOperator]
            refine
              .inr
                (((predicts_token kind).mono
                  (leaf_le_sign hBinary)).bind fun _ => ?_)
            apply hOperand.before
            intro right
            apply (predicts_value receiver _ _ _).before
            intro answer
            exact
              predicts_pure (Option.map Typed.erase)
                (some answer)
  have hReads :
      [] ∉ signWords (operator? layer) * exprWords layer := by
    rintro ⟨_, ⟨operator, rfl⟩, _, _, hNil⟩
    cases hNil
  apply Predicts.mono _ (chain_le layer)
  apply hOperand.bind
  intro first
  exact predicts_iterate hStep hReads first

/- The layers of operators, on top of the factors. -/
theorem predicts_expressionOf
    {receiver : Receiver σ τ ε}
    {factor : Rule σ ε (Typed τ)}
    {factor' : Rule Unit Empty (Typed Unit)}
    (hFactor :
      Predicts (exprWords 0) Typed.erase factor factor') :
    Predicts (exprWords topLayer) Typed.erase
      (expressionOf receiver factor)
      (expressionOf heedless factor') := by
  apply predicts_leftChain 4 .logical fun _ => rfl
  apply predicts_leftChain 3 .logical fun _ => rfl
  apply predicts_leftChain 2 .relational fun _ => rfl
  apply predicts_leftChain 1 .numeric fun _ => rfl
  apply predicts_leftChain 0 .numeric fun _ => rfl
  exact hFactor

/- The next token alone decides what comes. -/
theorem foretells_first
    {next : Option Kind × Option Kind → Rule σ ε α}
    {next' :
      Option Kind × Option Kind → Rule Unit Empty β}
    {cursor : Cursor σ}
    (hNext :
      ∀ second,
        next' (headKind cursor.rest, second) =
          next' (headKind cursor.rest, none))
    (hPredicts :
      Predicts language translate
        (next
          (headKind cursor.rest, headKind cursor.rest.tail))
        (next' (headKind cursor.rest, none))) :
    Foretells language
      (fun tokens => (lookahead >>= next') ⟨tokens, ()⟩)
      translate cursor.rest ((lookahead >>= next) cursor) := by
  rw [lookahead_bind]
  apply (hPredicts cursor).congr
  intro read rest token hRest hToken more
  have hHead := headKind_append_cons read hToken more
  rw [← hRest] at hHead
  rw [lookahead_bind, hHead, hNext]

/-
  The token after the next one decides what comes, but the
  next one is read whatever comes.
-/
theorem foretells_second
    {next : Option Kind × Option Kind → Rule σ ε α}
    {next' :
      Option Kind × Option Kind → Rule Unit Empty β}
    {first : Token}
    {rest : List Token}
    {state : σ}
    {opening : Rule σ ε γ}
    {opening' : Rule Unit Empty γ}
    {body : γ → Rule σ ε α}
    {body' : γ → Rule Unit Empty β}
    {answer : γ}
    (hNext :
      next (some first.kind, headKind rest) =
        opening >>= body)
    (hNext' :
      next' (some first.kind, headKind rest) =
        opening' >>= body')
    (hOpening :
      opening ⟨first :: rest, state⟩ =
        .ok answer ⟨rest, state⟩)
    (hOpening' :
      ∀ tokens,
        opening' ⟨first :: tokens, ()⟩ =
          .ok answer ⟨tokens, ()⟩)
    (hBody :
      Predicts later translate (body answer) (body' answer))
    (hLanguage : leafWords first.kind * later ≤ language) :
    Foretells language
      (fun tokens => (lookahead >>= next') ⟨tokens, ()⟩)
      translate (first :: rest)
      ((lookahead >>= next) ⟨first :: rest, state⟩) := by
  have hRead : [first] ∈ leafWords first.kind :=
    ⟨⟨first.text, first.span⟩, rfl⟩
  have hAnswers :
      ∀ following ∈ rest.head?,
        AnswersBefore (fun tokens => opening' ⟨tokens, ()⟩)
          answer [first] following :=
    fun _ _ _ => hOpening' _
  have hRun :
      (lookahead >>= next) ⟨first :: rest, state⟩ =
        body answer ⟨rest, state⟩ := by
    rw [lookahead_bind]
    change next (some first.kind, headKind rest) _ = _
    rw [hNext, bind_of_ok hOpening]
  rw [hRun]
  refine
    ((hBody ⟨rest, state⟩).prepend hRead rfl hAnswers
      ?_).mono hLanguage
  intro tokens hHead hOther
  rw [lookahead_bind]
  change next' (some first.kind, headKind tokens) _ = _
  rw [hHead, hNext', bind_of_ok hOther]

section Factors

variable {receiver : Receiver σ τ ε}
variable {expression : Rule σ ε (Typed τ)}
variable {expression' : Rule Unit Empty (Typed Unit)}

theorem predicts_callAfter
    (hExpression :
      Predicts (exprWords topLayer) Typed.erase expression
        expression')
    (callee : Identifier) :
    Predicts
      (leafWords .leftParen *
        (listedWords (fun expr : Expression => expr.tokens) *
          leafWords .rightParen))
      Typed.erase (callAfter receiver expression callee)
      (callAfter heedless expression' callee) := by
  apply (predicts_expect .leftParen).bind
  intro _
  apply (predicts_commaList hExpression).bind
  intro arguments
  apply (predicts_expect .rightParen).before
  intro stop
  exact predicts_value receiver _ _ _

theorem predicts_negation
    {inner : Rule σ ε (Typed τ)}
    {inner' : Rule Unit Empty (Typed Unit)}
    (hInner :
      Predicts (exprWords 0) Typed.erase inner inner') :
    Predicts (exprWords 0) Typed.erase
      (negation receiver inner) (negation heedless inner') := by
  apply Predicts.mono _ negation_le
  apply (predicts_expect .kwNot).bind
  intro start
  apply hInner.before
  intro operand
  exact predicts_value receiver _ _ _

theorem predicts_numberLiteral :
    Predicts (exprWords 0) Typed.erase
      (numberLiteral receiver) (numberLiteral heedless) := by
  apply Predicts.mono _ number_le
  apply (predicts_token .number).bind
  intro number
  apply predicts_peek.after
  intro head
  by_cases hHead : head = some .byteSuffix
  · simp only [id_eq, if_pos hHead]
    apply Predicts.mono _ le_self_add
    apply (predicts_expect .byteSuffix).before
    intro stop
    exact predicts_value receiver _ _ _
  · simp only [id_eq, if_neg hHead]
    exact (predicts_value receiver _ _ _).mono le_add_self

/- A factor of one token. -/
theorem predicts_word
    {kind : Kind}
    (hWord : leafWords kind ≤ exprWords 0)
    (event : Span → ValueEvent τ)
    (event' : Span → ValueEvent Unit) :
    Predicts (exprWords 0) Typed.erase
      (do
        let span ← expect kind
        value receiver (event span) span)
      (do
        let span ← expect kind
        value heedless (event' span) span) := by
  apply ((predicts_expect kind).mono hWord).before
  intro span
  exact predicts_value receiver _ _ _

theorem predicts_stringLiteral :
    Predicts (exprWords 0) Typed.erase
      (stringLiteral receiver) (stringLiteral heedless) := by
  apply predicts_word _ .stringLiteral .stringLiteral
  rintro _ ⟨leaf, rfl⟩
  exact ⟨.string leaf, rfl⟩

theorem predicts_boolLiteral
    {kind : Kind}
    {truth : Bool}
    (hTruth : truth? kind = some truth) :
    Predicts (exprWords 0) Typed.erase
      (boolLiteral receiver kind truth)
      (boolLiteral heedless kind truth) := by
  apply
    predicts_word _ (.boolLiteral truth) (.boolLiteral truth)
  rintro _ ⟨leaf, rfl⟩
  exact ⟨.bool ⟨leaf.token, truth, hTruth⟩, rfl⟩

/- A factor foretells if the factors inside it do. -/
theorem predicts_factorForm
    {inner : Rule σ ε (Typed τ)}
    {inner' : Rule Unit Empty (Typed Unit)}
    (hInner :
      Predicts (exprWords 0) Typed.erase inner inner') :
    Predicts (exprWords 0) Typed.erase
      (factorForm receiver inner)
      (factorForm heedless inner') := by
  have hExpression :
      Predicts (exprWords topLayer) Typed.erase
        (expressionOf receiver inner)
        (expressionOf heedless inner') :=
    predicts_expressionOf hInner
  rintro ⟨_ | ⟨⟨kind, text, span⟩, rest⟩, state⟩
  · exact foretells_first (fun _ => rfl) predicts_unexpected
  · cases kind with
    | kwNot =>
        exact
          foretells_first (fun _ => rfl)
            (predicts_negation hInner)
    | string =>
        exact
          foretells_first (fun _ => rfl) predicts_stringLiteral
    | number =>
        exact
          foretells_first (fun _ => rfl) predicts_numberLiteral
    | kwTrue =>
        exact
          foretells_first (fun _ => rfl)
            (predicts_boolLiteral rfl)
    | kwFalse =>
        exact
          foretells_first (fun _ => rfl)
            (predicts_boolLiteral rfl)
    | leftParen =>
        by_cases hType : (headKind rest).any Kind.isTypeName
        · refine
            foretells_second (if_pos hType) (if_pos hType) rfl
              (fun _ => rfl) ?_ cast_le
          apply predicts_valueType.bind
          intro target
          apply (predicts_expect .rightParen).bind
          intro _
          apply hInner.before
          intro operand
          exact predicts_value receiver _ _ _
        · refine
            foretells_second (if_neg hType) (if_neg hType) rfl
              (fun _ => rfl) ?_ paren_le
          apply hExpression.bind
          intro inside
          apply (predicts_expect .rightParen).before
          intro stop
          exact predicts_pure Typed.erase _
    | identifier =>
        by_cases hCall : headKind rest = some .leftParen
        · have hLanguage :
              written Call.tokens ≤ exprWords 0 := by
            rintro _ ⟨parts, rfl⟩
            exact ⟨.call parts, rfl⟩
          exact
            foretells_second (if_pos hCall) (if_pos hCall) rfl
              (fun _ => rfl)
              (predicts_callAfter hExpression _)
              (call_le.trans hLanguage)
        · have hLanguage :
              leafWords .identifier * 1 ≤ exprWords 0 := by
            rw [mul_one]
            rintro _ ⟨leaf, rfl⟩
            exact ⟨.name leaf, rfl⟩
          exact
            foretells_second (if_neg hCall) (if_neg hCall) rfl
              (fun _ => rfl) (predicts_value receiver _ _ _)
              hLanguage
    | _ =>
        exact
          foretells_first (fun _ => rfl) predicts_unexpected

/- A factor foretells one with a larger budget. -/
theorem predicts_factor
    {budget budget' : Nat}
    (hBudget : budget ≤ budget') :
    Predicts (exprWords 0) Typed.erase
      (factor receiver budget) (factor heedless budget') := by
  induction budget generalizing budget' with
  | zero => exact predicts_tooDeep
  | succ budget ih =>
      cases budget' with
      | zero => exact absurd hBudget (Nat.not_succ_le_zero _)
      | succ budget' =>
          rw [factor, factor]
          exact
            predicts_factorForm
              (ih (Nat.le_of_succ_le_succ hBudget))

theorem predicts_expression
    {budget budget' : Nat}
    (hBudget : budget ≤ budget') :
    Predicts (exprWords topLayer) Typed.erase
      (Parser.expression receiver budget)
      (Parser.expression heedless budget') :=
  predicts_expressionOf (predicts_factor hBudget)

end Factors

end Parser

end OnePass
