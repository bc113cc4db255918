import OnePass.Proofs.Grammar.Reductions
import OnePass.Proofs.Parser.Reading.Operators
import OnePass.Proofs.Parser.Scripted.Basic

/-
  Expressions follow their scripts.

  Every rule for an expression plays the trees of its layer,
  given that the rules it calls do. The extents that a rule
  puts together from those of its parts are the extents of
  the tokens, because the tokens are in order.

  Main declarations:
    * `Parser.Outlines`
    * `Parser.plays_leftChain`
    * `Parser.plays_call`
    * `Parser.plays_factor`
    * `Parser.plays_expression`
-/

------------------------------------------------------------
-- Extents Of Answers
------------------------------------------------------------

namespace OnePass

namespace Parser

open Grammar

variable {σ τ ε : Type}
variable {layer : Nat}

/- The answer has the extent of the expression. -/
def Outlines
    (expr : Expr layer)
    (answer : Typed τ) : Prop :=
  answer.erase = expr.outline

theorem Outlines.span_eq
    {expr : Expr layer}
    {answer : Typed τ}
    (hOutlines : Outlines expr answer) :
    answer.span = extent expr.tokens :=
  congrArg Typed.span hOutlines

/-
  The last event of an expression completes it. The trees
  may be parts of which expressions are built.
-/
theorem enacts_value_last
    {χ : Type}
    {receiver : Receiver σ τ ε}
    {done before : Script}
    (build : χ → Expr layer)
    (hOpening :
      ∀ tree, Script.IsOpening (done ++ (build tree).script))
    (tree : χ)
    {event : ValueEvent τ}
    {span : Span}
    (hSpan : span = extent (build tree).tokens)
    (hScript :
      before ++ [.announce (.value event.erase)] =
        done ++ (build tree).script) :
    Enacts before (value receiver.recorded event span)
      fun answer after =>
        ∃ tree,
          after = done ++ (build tree).script ∧
            Outlines (build tree) answer := by
  apply enacts_value
  · intro ty
    refine ⟨tree, hScript, ?_⟩
    rw [hSpan]
    rfl
  · rw [hScript]
    exact hOpening tree

end Parser

end OnePass

------------------------------------------------------------
-- Operators
------------------------------------------------------------

namespace OnePass

namespace Parser

open Grammar

variable {σ τ ε ω : Type}
variable {receiver : Receiver σ τ ε}

section Chain

variable {layer : Nat}
variable {meaning? : Kind → Option ω}
variable
  {combine : Typed τ → ω → Typed τ → Span → ValueEvent τ}
variable {toBinary : ω → BinaryOp}
variable {operand : Rule (Recording σ τ) ε (Typed τ)}
variable
  (hOperators : OperatorsOf τ layer meaning? combine toBinary)
variable
  (hOperand :
    Plays (@Expr.script layer) Outlines operand)

include hOperators hOperand

/- One more operand makes the chain so far its left side. -/
theorem enacts_chainStep
    {done : Script}
    (hOpening :
      ∀ expr : Expr (layer + 1),
        Script.IsOpening (done ++ expr.script))
    (left : Expr (layer + 1))
    {current : Typed τ}
    (hLeft : Outlines left current) :
    Enacts (done ++ left.script)
      (chainStep receiver.recorded meaning? combine operand
        current)
      fun next after =>
        ∃ expr : Expr (layer + 1),
          after = done ++ expr.script ∧
            Outlines expr (next.getD current) := by
  have hNone :
      Enacts (done ++ left.script)
        (pure none :
          Rule (Recording σ τ) ε (Option (Typed τ)))
        fun next after =>
          ∃ expr : Expr (layer + 1),
            after = done ++ expr.script ∧
              Outlines expr (next.getD current) :=
    enacts_pure ⟨left, rfl, hLeft⟩
  unfold chainStep
  apply enacts_peek
  intro next
  split
  · exact hNone
  · next kind =>
      split
      · exact hNone
      · next operator hOperator =>
          have hMeans :
              operator? layer kind =
                some (toBinary operator) := by
            rw [hOperators.meaning, hOperator]
            rfl
          apply (plays_token kind).bind
          · intro word
            apply
              (hOpening
                (.binary left ⟨word.token, _, hMeans⟩
                  (Classical.arbitrary _))).cut
            simp [Expr.script]
          intro word _ _
          apply hOperand.bind
          · intro right
            apply
              (hOpening
                (.binary left ⟨word.token, _, hMeans⟩
                  right)).cut
            simp [Expr.script]
          intro right answer hRight
          apply enacts_of_ordered
          intro hOrdered
          have hSpan :
              current.span.cover answer.span =
                extent
                  (left.tokens ++
                    ([word.token] ++ right.tokens)) := by
            rw [hLeft.span_eq, hRight.span_eq]
            apply
              cover_extent [word.token] left.tokens_ne_nil
                right.tokens_ne_nil
            simpa [Expr.tokens_script] using hOrdered
          apply
            (enacts_value_last id hOpening
              (.binary left ⟨word.token, _, hMeans⟩ right)
              hSpan ?_).bind
          · rintro last _ ⟨expr, rfl, hExpr⟩
            exact enacts_pure ⟨expr, rfl, hExpr⟩
          · rw [← hOperators.event, BinaryOp.erase_event,
              hLeft, hRight, hSpan]
            simp [Expr.script, Expr.tokens]

/- The operands and operators of one level. -/
theorem plays_leftChain :
    Plays (@Expr.script (layer + 1)) Outlines
      (leftChain receiver.recorded meaning? combine
        operand) := by
  intro done hOpening
  apply hOperand.bind
  · intro first
    exact hOpening (.lift first)
  intro first answer hFirst
  apply enacts_iterate
  · rintro current _ ⟨left, rfl, hLeft⟩
    exact
      enacts_chainStep hOperators hOperand hOpening left hLeft
  · exact ⟨.lift first, rfl, hFirst⟩

end Chain

/- An expression over factors that follow their scripts. -/
theorem plays_expressionOf
    (receiver : Receiver σ τ ε)
    {factor : Rule (Recording σ τ) ε (Typed τ)}
    (hFactor : Plays (@Expr.script 0) Outlines factor) :
    Plays (@Expr.script topLayer) Outlines
      (expressionOf receiver.recorded factor) := by
  exact
    plays_leftChain operatorsOf_disjunction
      (plays_leftChain operatorsOf_conjunction
        (plays_leftChain operatorsOf_comparison
          (plays_leftChain operatorsOf_sum
            (plays_leftChain operatorsOf_product hFactor))))

end Parser

end OnePass

------------------------------------------------------------
-- Factors
------------------------------------------------------------

namespace OnePass

namespace Parser

open Grammar

variable {σ τ ε : Type}
variable {receiver : Receiver σ τ ε}

section Prefixes

variable {factor : Rule (Recording σ τ) ε (Typed τ)}
variable (hFactor : Plays (@Expr.script 0) Outlines factor)

include hFactor

theorem plays_negation :
    Plays (@Expr.script 0) Outlines
      (negation receiver.recorded factor) := by
  intro done hOpening
  apply (plays_expect .kwNot).bind
  · intro word
    apply
      (hOpening (.negation word (Classical.arbitrary _))).cut
    simp [Expr.script]
  rintro word _ rfl
  apply hFactor.bind
  · intro operand
    apply (hOpening (.negation word operand)).cut
    simp [Expr.script]
  intro operand inner hInner
  apply enacts_of_ordered
  intro hOrdered
  have hSpan :
      word.span.cover inner.span =
        extent (Expr.negation word operand).tokens := by
    rw [hInner.span_eq]
    apply cover_token word.token [] operand.tokens_ne_nil
    simpa [Expr.tokens_script] using hOrdered
  apply enacts_value_last id hOpening _ hSpan
  rw [ValueEvent.erase_negation, hInner, hSpan]
  simp [Expr.script]

theorem plays_cast :
    Plays (@Expr.script 0) Outlines
      (cast receiver.recorded factor) := by
  intro done hOpening
  apply (plays_expect .leftParen).bind
  · intro left
    apply
      (hOpening
        (.cast left (Classical.arbitrary _)
          (Classical.arbitrary _)
          (Classical.arbitrary _))).cut
    simp [Expr.script]
  rintro left _ rfl
  apply plays_valueType.bind
  · intro target
    apply
      (hOpening
        (.cast left target (Classical.arbitrary _)
          (Classical.arbitrary _))).cut
    simp [Expr.script]
  rintro target _ rfl
  apply (plays_expect .rightParen).bind
  · intro right
    apply
      (hOpening
        (.cast left target right
          (Classical.arbitrary _))).cut
    simp [Expr.script]
  rintro right _ rfl
  apply hFactor.bind
  · intro operand
    apply (hOpening (.cast left target right operand)).cut
    simp [Expr.script]
  intro operand inner hInner
  apply enacts_of_ordered
  intro hOrdered
  have hSpan :
      left.span.cover inner.span =
        extent
          (Expr.cast left target right operand).tokens := by
    rw [hInner.span_eq]
    apply
      cover_token left.token [target.token, right.token]
        operand.tokens_ne_nil
    simpa [Expr.tokens_script] using hOrdered
  apply enacts_value_last id hOpening _ hSpan
  rw [ValueEvent.erase_cast, hInner, hSpan]
  simp [Expr.script]

end Prefixes

/- The arguments of a call have the extents of expressions. -/
theorem erase_of_outlines
    {arguments : List (Expr topLayer)}
    {answers : List (Typed τ)}
    (hAnswers : List.Forall₂ Outlines arguments answers) :
    answers.map Typed.erase = arguments.map Expr.outline := by
  induction hAnswers with
  | nil => rfl
  | cons hAnswer _ ih =>
      rw [List.map_cons, List.map_cons, hAnswer, ih]

section Expressions

variable {expression : Rule (Recording σ τ) ε (Typed τ)}
variable
  (hExpression :
    Plays (@Expr.script topLayer) Outlines expression)

include hExpression

/- The parentheses belong to the extent. -/
theorem plays_parenthesized :
    Plays (@Expr.script 0) Outlines
      (parenthesized expression) := by
  intro done hOpening
  apply (plays_expect .leftParen).bind
  · intro left
    apply
      (hOpening
        (.paren left (Classical.arbitrary _)
          (Classical.arbitrary _))).cut
    simp [Expr.script]
  rintro left _ rfl
  apply hExpression.bind
  · intro inner
    apply
      (hOpening
        (.paren left inner (Classical.arbitrary _))).cut
    simp [Expr.script]
  intro inner answer _
  apply (plays_expect .rightParen).bind
  · intro right
    apply (hOpening (.paren left inner right)).cut
    simp [Expr.script]
  rintro right _ rfl
  apply enacts_of_ordered
  intro hOrdered
  refine
    enacts_pure
      ⟨.paren left inner right, by simp [Expr.script], ?_⟩
  have hSpan :
      left.span.cover right.span =
        extent (Expr.paren left inner right).tokens := by
    apply cover_tokens left.token right.token inner.tokens
    simpa [Expr.tokens_script] using hOrdered
  rw [Outlines, hSpan]
  rfl

/- From the callee to the closing parenthesis. -/
theorem plays_call :
    Plays (fun parts => (Expr.call parts).script)
      (fun parts => Outlines (.call parts))
      (call receiver.recorded expression) := by
  intro done hOpening
  have hCall :
      ∀ callee left arguments right,
        Script.IsOpening
          (done ++
            (callOf callee left arguments right).script) :=
    fun callee left arguments right =>
      hOpening (callOf callee left arguments right)
  simp only [script_callOf] at hCall
  apply plays_identifier.bind
  · intro callee
    apply
      (hCall callee (Classical.arbitrary _) none
        (Classical.arbitrary _)).cut
    simp
  rintro callee _ rfl
  apply (plays_expect .leftParen).bind
  · intro left
    apply
      (hCall callee left none (Classical.arbitrary _)).cut
    simp
  rintro left _ rfl
  apply (plays_commaList hExpression).bind
  · intro arguments
    apply
      (hCall callee left arguments
        (Classical.arbitrary _)).cut
    simp
  intro arguments answers hAnswers
  apply (plays_expect .rightParen).bind
  · intro right
    apply (hCall callee left arguments right).cut
    simp
  rintro right _ rfl
  apply enacts_of_ordered
  intro hOrdered
  have hSpan :
      callee.identifier.span.cover right.span =
        extent
          (callOf callee left arguments right).tokens := by
    rw [tokens_callOf]
    apply
      cover_tokens callee.token right.token
        (left.token ::
          arguments.elim [] (Separated.tokens Expr.tokens))
    simpa [tokens_listedScript] using hOrdered
  apply
    enacts_value_last Expr.call hOpening
      (callOf callee left arguments right) hSpan
  rw [ValueEvent.erase_call, erase_of_outlines hAnswers,
    hSpan, Expr.script, script_callOf]
  simp

end Expressions

theorem plays_variableUse :
    Plays (@Expr.script 0) Outlines
      (variableUse receiver.recorded) := by
  intro done hOpening
  apply plays_identifier.bind
  · intro name
    apply (hOpening (.name name)).cut
    simp [Expr.script]
  rintro name _ rfl
  apply enacts_value_last id hOpening (.name name) rfl
  exact List.append_assoc _ _ _

theorem plays_stringLiteral :
    Plays (@Expr.script 0) Outlines
      (stringLiteral receiver.recorded) := by
  intro done hOpening
  apply (plays_expect .string).bind
  · intro text
    apply (hOpening (.string text)).cut
    simp [Expr.script]
  rintro text _ rfl
  apply enacts_value_last id hOpening (.string text) rfl
  exact List.append_assoc _ _ _

/- The byte suffix belongs to the extent. -/
theorem plays_numberLiteral :
    Plays (@Expr.script 0) Outlines
      (numberLiteral receiver.recorded) := by
  intro done hOpening
  apply (plays_token .number).bind
  · intro digits
    apply (hOpening (.number digits)).cut
    simp [Expr.script]
  rintro digits _ rfl
  apply enacts_peek
  intro next
  split
  · apply (plays_expect .byteSuffix).bind
    · intro suffix
      apply (hOpening (.byte digits suffix)).cut
      simp [Expr.script]
    rintro suffix _ rfl
    apply enacts_of_ordered
    intro hOrdered
    have hSpan :
        digits.token.span.cover suffix.span =
          extent (Expr.byte digits suffix).tokens := by
      apply cover_tokens digits.token suffix.token []
      simpa using hOrdered
    apply
      enacts_value_last id hOpening (.byte digits suffix)
        hSpan
    rw [hSpan, List.append_assoc, List.append_assoc]
    rfl
  · apply enacts_value_last id hOpening (.number digits) rfl
    exact List.append_assoc _ _ _

theorem plays_boolLiteral
    {kind : Kind}
    {truth : Bool}
    (hTruth : truth? kind = some truth) :
    Plays (@Expr.script 0) Outlines
      (boolLiteral receiver.recorded kind truth) := by
  intro done hOpening
  apply (plays_expect kind).bind
  · intro word
    apply (hOpening (.bool ⟨word.token, truth, hTruth⟩)).cut
    simp [Expr.script]
  rintro word _ rfl
  apply
    enacts_value_last id hOpening
      (.bool ⟨word.token, truth, hTruth⟩) rfl
  exact List.append_assoc _ _ _

/- Two tokens tell which form a factor has. -/
theorem plays_factorForm
    {inner : Rule (Recording σ τ) ε (Typed τ)}
    (hInner : Plays (@Expr.script 0) Outlines inner) :
    Plays (@Expr.script 0) Outlines
      (factorForm receiver.recorded inner) := by
  have hExpression := plays_expressionOf receiver hInner
  intro done hOpening
  unfold factorForm
  apply enacts_lookahead
  intro kinds
  split
  · exact plays_negation hInner done hOpening
  · split
    · exact plays_cast hInner done hOpening
    · exact plays_parenthesized hExpression done hOpening
  · split
    · apply (plays_call hExpression).last
      · intro parts
        exact hOpening (.call parts)
      · intro parts answer hParts
        exact ⟨.call parts, rfl, hParts⟩
    · exact plays_variableUse done hOpening
  · exact plays_stringLiteral done hOpening
  · exact plays_numberLiteral done hOpening
  · exact plays_boolLiteral rfl done hOpening
  · exact plays_boolLiteral rfl done hOpening
  · exact enacts_throw (isOpening_of_script hOpening) _

/- The induction is over the nesting budget. -/
theorem plays_factor
    (receiver : Receiver σ τ ε)
    (budget : Nat) :
    Plays (@Expr.script 0) Outlines
      (factor receiver.recorded budget) := by
  induction budget with
  | zero => exact plays_throw (.stuck .tooDeep)
  | succ budget ih =>
      rw [factor]
      exact plays_factorForm ih

theorem plays_expression
    (receiver : Receiver σ τ ε)
    (budget : Nat) :
    Plays (@Expr.script topLayer) Outlines
      (expression receiver.recorded budget) :=
  plays_expressionOf receiver (plays_factor receiver budget)

end Parser

end OnePass
