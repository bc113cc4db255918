import OnePass.Proofs.Parser.Reading.Operators

/-
  Which expressions the rules read.

  The proof follows the nesting budget: every form of a
  factor hands on a smaller budget to the expressions inside
  it.

  Main declarations:
    * `Parser.reads_call`
    * `Parser.reads_factor`
    * `Parser.reads_expression`
-/

------------------------------------------------------------
-- Announcing Factors
------------------------------------------------------------

namespace OnePass

namespace Grammar

variable {σ τ ε : Type}
variable {receiver : Receiver σ τ ε}
variable {before after : σ}
variable {answer : Typed τ}

/- An operand comes before the form it stands in. -/
private theorem operand_first_iff
    {layer : Nat}
    {operand : Expr layer}
    (event : Typed τ → ValueEvent τ)
    (extent : Span → Span) :
    (do
          let inner ← operand.announce receiver
          receiver.value (event ⟨inner, operand.span⟩) :
            EStateM ε σ τ) before =
        .ok answer.ty after ∧
      answer.span = extent operand.span ↔
      ∃ inner between,
        operand.value receiver before = .ok inner between ∧
          receiver.value (event inner) between =
            .ok answer.ty after ∧
          answer.span = extent inner.span := by
  simp only [bind_eq_ok_iff, Expr.value_eq_ok_iff]
  constructor
  · rintro ⟨⟨inner, between, hInner, hEvent⟩, hSpan⟩
    exact
      ⟨⟨inner, operand.span⟩, between, ⟨hInner, rfl⟩, hEvent,
        hSpan⟩
  · rintro ⟨⟨inner, _⟩, between, ⟨hInner, rfl⟩, hEvent, hSpan⟩
    exact ⟨⟨inner, between, hInner, hEvent⟩, hSpan⟩

theorem Expr.value_negation_eq_ok_iff
    {word : Leaf .kwNot}
    {operand : Expr 0} :
    (Expr.negation word operand).value receiver before =
        .ok answer after ↔
      ∃ inner between,
        operand.value receiver before = .ok inner between ∧
          receiver.value
              (.negation inner (word.span.cover inner.span))
              between =
            .ok answer.ty after ∧
          answer.span = word.span.cover inner.span := by
  rw [Expr.value_eq_ok_iff, Expr.announce, Expr.span]
  exact
    operand_first_iff
      (fun inner =>
        .negation inner (word.span.cover inner.span))
      word.span.cover

theorem Expr.value_cast_eq_ok_iff
    {left : Leaf .leftParen}
    {target : Sign Kind.valueType?}
    {right : Leaf .rightParen}
    {operand : Expr 0} :
    (Expr.cast left target right operand).value receiver
          before =
        .ok answer after ↔
      ∃ inner between,
        operand.value receiver before = .ok inner between ∧
          receiver.value
              (.cast target.meaning inner
                (left.span.cover inner.span))
              between =
            .ok answer.ty after ∧
          answer.span = left.span.cover inner.span := by
  rw [Expr.value_eq_ok_iff, Expr.announce, Expr.span]
  exact
    operand_first_iff
      (fun inner =>
        .cast target.meaning inner
          (left.span.cover inner.span))
      left.span.cover

/- Announce a call, for its attribute and extent. -/
def Call.value
    (receiver : Receiver σ τ ε)
    (call : Call) : EStateM ε σ (Typed τ) := do
  return ⟨← call.announce receiver, call.span⟩

/- A call answers its attribute and its own extent. -/
theorem Call.value_eq_ok_iff
    {call : Call} :
    call.value receiver before = .ok answer after ↔
      call.announce receiver before =
          .ok answer.ty after ∧
        answer.span = call.span := by
  change (Expr.call call).value receiver before = _ ↔ _
  exact Expr.value_eq_ok_iff

/- Arguments are announced like any list of items. -/
theorem announceArguments_eq
    (arguments : Separated Expression) :
    announceArguments receiver arguments =
      arguments.announce (Expr.value receiver) := by
  induction arguments with
  | one item =>
      rw [announceArguments, Separated.announce, Expr.value]
      simp
  | more items comma item ih =>
      rw [announceArguments, Separated.announce, ih,
        Expr.value]
      simp

end Grammar

end OnePass

------------------------------------------------------------
-- Factors
------------------------------------------------------------

namespace OnePass

namespace Parser

open Grammar

variable {σ τ ε α χ ψ : Type}

/- The trees that are built in one way. -/
def Phrase.via
    (phrase : Phrase σ ε α χ)
    (build : ψ → χ) : Phrase σ ε α ψ where
  toShape := phrase.toShape.via build
  announce parts := phrase.announce (build parts)

section Factors

variable {receiver : Receiver σ τ ε}
variable {budget : Nat}
variable {factor expression : Rule σ ε (Typed τ)}

theorem reads_negation
    (hFactor :
      Reads factor (exprPhrase receiver 0 budget)) :
    Reads (negation receiver factor)
      ((exprPhrase receiver 0 (budget + 1)).via
        fun parts : Leaf .kwNot × Expr 0 =>
          .negation parts.1 parts.2) := by
  intro before after answer
  unfold negation
  simp only [bind_eq_ok_iff, expect_eq_ok_iff,
    value_eq_ok_iff, hFactor _ _ _]
  constructor
  · rintro ⟨_, between, ⟨word, hWord, hState, rfl⟩, inner,
      final, ⟨operand, hOperand, hFit, hStop, hInner⟩,
      hEvent, hRest, hSpan⟩
    refine ⟨(word, operand), ?_, ?_, ?_, ?_⟩
    · rw [hWord, hOperand, hRest]
      rfl
    · exact Nat.succ_le_succ hFit
    · rw [hRest]
      exact hStop
    · rw [hState] at hInner
      exact
        Expr.value_negation_eq_ok_iff.mpr
          ⟨inner, _, hInner, hEvent, hSpan⟩
  · rintro ⟨⟨word, operand⟩, hTokens, hFit, hStop, hValue⟩
    rcases Expr.value_negation_eq_ok_iff.mp hValue with
      ⟨inner, final, hInner, hEvent, hSpan⟩
    exact
      ⟨_, ⟨operand.tokens ++ after.rest, before.state⟩,
        ⟨word, hTokens, rfl, rfl⟩, inner,
        ⟨after.rest, final⟩,
        ⟨operand, rfl, Nat.le_of_succ_le_succ hFit, hStop,
          hInner⟩,
        hEvent, rfl, hSpan⟩

theorem reads_cast
    (hFactor :
      Reads factor (exprPhrase receiver 0 budget)) :
    Reads (cast receiver factor)
      ((exprPhrase receiver 0 (budget + 1)).via
        fun parts :
            Leaf .leftParen × Sign Kind.valueType? ×
              Leaf .rightParen × Expr 0 =>
          .cast parts.1 parts.2.1 parts.2.2.1
            parts.2.2.2) := by
  intro before after answer
  unfold cast
  simp only [bind_eq_ok_iff, expect_eq_ok_iff,
    valueType_eq_ok_iff, value_eq_ok_iff, hFactor _ _ _]
  constructor
  · rintro ⟨_, first, ⟨left, hLeft, hFirst, rfl⟩, _, second,
      ⟨target, hTarget, hSecond, rfl⟩, _, third,
      ⟨right, hRight, hThird, -⟩, inner, final,
      ⟨operand, hOperand, hFit, hStop, hInner⟩,
      hEvent, hRest, hSpan⟩
    refine ⟨(left, target, right, operand), ?_, ?_, ?_, ?_⟩
    · rw [hLeft, hTarget, hRight, hOperand, hRest]
      rfl
    · exact Nat.succ_le_succ hFit
    · rw [hRest]
      exact hStop
    · rw [hThird, hSecond, hFirst] at hInner
      exact
        Expr.value_cast_eq_ok_iff.mpr
          ⟨inner, _, hInner, hEvent, hSpan⟩
  · rintro ⟨⟨left, target, right, operand⟩, hTokens, hFit,
      hStop, hValue⟩
    rcases Expr.value_cast_eq_ok_iff.mp hValue with
      ⟨inner, final, hInner, hEvent, hSpan⟩
    exact
      ⟨_, ⟨_, before.state⟩, ⟨left, hTokens, rfl, rfl⟩,
        _, ⟨_, before.state⟩, ⟨target, rfl, rfl, rfl⟩,
        _, ⟨_, before.state⟩, ⟨right, rfl, rfl, rfl⟩, inner,
        ⟨after.rest, final⟩,
        ⟨operand, rfl, Nat.le_of_succ_le_succ hFit, hStop,
          hInner⟩,
        hEvent, rfl, hSpan⟩

theorem reads_parenthesized
    (hExpression :
      Reads expression
        (exprPhrase receiver topLayer budget)) :
    Reads (parenthesized expression)
      ((exprPhrase receiver 0 (budget + 1)).via
        fun parts :
            Leaf .leftParen × Expression × Leaf .rightParen =>
          .paren parts.1 parts.2.1 parts.2.2) := by
  intro before after answer
  unfold parenthesized
  simp only [bind_eq_ok_iff, expect_eq_ok_iff,
    pure_eq_ok_iff, hExpression _ _ _]
  constructor
  · rintro ⟨_, first, ⟨left, hLeft, hFirst, rfl⟩, value,
      second, ⟨inner, hInner, hFit, -, hValue⟩, _, _,
      ⟨right, hRight, hState, rfl⟩, rfl, rfl⟩
    refine ⟨(left, inner, right), ?_, ?_, trivial, ?_⟩
    · rw [hLeft, hInner, hRight]
      simp [Phrase.via, Shape.via, exprPhrase, exprShape,
        Expr.tokens]
    · exact Nat.succ_le_succ hFit
    · rw [hFirst, ← hState] at hValue
      exact
        Expr.value_eq_ok_iff.mpr
          ⟨(Expr.value_eq_ok_iff.mp hValue).1, rfl⟩
  · rintro ⟨⟨left, inner, right⟩, hTokens, hFit, -, hValue⟩
    rcases Expr.value_eq_ok_iff.mp hValue with
      ⟨hInner, hSpan⟩
    refine
      ⟨left.span,
        ⟨inner.tokens ++ right.token :: after.rest,
          before.state⟩,
        ⟨left, ?_, rfl, rfl⟩, ⟨answer.ty, inner.span⟩,
        ⟨right.token :: after.rest, after.state⟩,
        ⟨inner, rfl, Nat.le_of_succ_le_succ hFit, ?_, ?_⟩,
        right.span, after, ⟨right, rfl, rfl, rfl⟩, ?_, rfl⟩
    · rw [hTokens]
      simp [Phrase.via, Shape.via, exprPhrase, exprShape,
        Expr.tokens]
    · exact
        inner.stops_of_separates
          (right.separates _ _ (by decide))
    · exact Expr.value_eq_ok_iff.mpr ⟨hInner, rfl⟩
    · rcases answer with ⟨ty, span⟩
      cases hSpan
      rfl

/- Calls whose arguments are within a nesting budget. -/
def callPhrase
    (receiver : Receiver σ τ ε)
    (budget : Nat) : Phrase σ ε (Typed τ) Call where
  toShape := callShape budget
  announce := Call.value receiver

section CallOf

variable {callee : Leaf .identifier}
variable {left : Leaf .leftParen}
variable {arguments : Option (Separated Expression)}
variable {right : Leaf .rightParen}

theorem value_callOf_eq_ok_iff
    {before after : σ}
    {answer : Typed τ} :
    (callOf callee left arguments right).value receiver
          before =
        .ok answer after ↔
      ∃ values between,
        (exprPhrase receiver topLayer budget).listed.announce
              arguments before =
            .ok values between ∧
          receiver.value
              (.call callee.identifier values
                (callee.span.cover right.span)) between =
            .ok answer.ty after ∧
          answer.span = callee.span.cover right.span := by
  rw [Call.value_eq_ok_iff]
  cases arguments with
  | none =>
      constructor
      · rintro ⟨hEvent, hSpan⟩
        exact ⟨[], before, rfl, hEvent, hSpan⟩
      · rintro ⟨_, _, hNone, hEvent, hSpan⟩
        cases hNone
        exact ⟨hEvent, hSpan⟩
  | some present =>
      rw [callOf, Call.announce, bind_eq_ok_iff,
        announceArguments_eq]
      constructor
      · rintro ⟨⟨values, between, hValues, hEvent⟩, hSpan⟩
        exact ⟨values, between, hValues, hEvent, hSpan⟩
      · rintro ⟨values, between, hValues, hEvent, hSpan⟩
        exact ⟨⟨values, between, hValues, hEvent⟩, hSpan⟩

end CallOf

theorem reads_call
    (hExpression :
      Reads expression
        (exprPhrase receiver topLayer budget)) :
    Reads (call receiver expression)
      (callPhrase receiver budget) := by
  have hArguments :=
    reads_commaList
      (reads_commaSeparated hExpression
        (fun tree comma rest =>
          tree.stops_of_separates
            (comma.separates _ _ (by decide))))
      (fun tree rest =>
        tree.headKind_tokens_ne rest rfl)
  intro before after answer
  unfold call callAfter
  simp only [bind_eq_ok_iff, identifier_eq_ok_iff,
    expect_eq_ok_iff, value_eq_ok_iff, hArguments _ _ _]
  constructor
  · rintro ⟨_, first, ⟨callee, hCallee, hFirst, rfl⟩, _,
      second, ⟨left, hLeft, hSecond, -⟩, values, third,
      ⟨arguments, hTokens, hFits, -, hValues⟩, _, fourth,
      ⟨right, hRight, hFourth, rfl⟩, hEvent, hRest, hSpan⟩
    refine
      ⟨callOf callee left arguments right, ?_, ?_, trivial,
        ?_⟩
    · rw [hCallee, hLeft, hTokens, hRight, hRest]
      change
        _ = (callOf callee left arguments right).tokens ++ _
      rw [tokens_callOf]
      simp [Phrase.listed, Shape.listed, exprPhrase,
        exprShape]
    · exact nesting_callOf_le_iff.mpr hFits
    · rw [hSecond, hFirst] at hValues
      rw [hFourth] at hEvent
      exact
        value_callOf_eq_ok_iff.mpr
          ⟨values, third.state, hValues, hEvent, hSpan⟩
  · rintro ⟨tree, hTokens, hFits, -, hValue⟩
    rcases exists_eq_callOf tree with
      ⟨callee, left, arguments, right, rfl⟩
    rcases value_callOf_eq_ok_iff.mp hValue with
      ⟨values, between, hValues, hEvent, hSpan⟩
    change
      before.rest =
        (callOf callee left arguments right).tokens ++ _
      at hTokens
    rw [tokens_callOf] at hTokens
    simp only [List.cons_append, List.append_assoc,
      List.nil_append] at hTokens
    refine
      ⟨_, ⟨_, before.state⟩, ⟨callee, hTokens, rfl, rfl⟩,
        _, ⟨_, before.state⟩, ⟨left, rfl, rfl, rfl⟩, values,
        ⟨right.token :: after.rest, between⟩,
        ⟨arguments, rfl, nesting_callOf_le_iff.mp hFits, ?_,
          hValues⟩,
        _, ⟨after.rest, between⟩, ⟨right, rfl, rfl, rfl⟩,
        hEvent, rfl, hSpan⟩
    cases arguments with
    | none => rfl
    | some present =>
        refine ⟨?_, by simp [Leaf.token]⟩
        exact
          present.last.stops_of_separates
            (right.separates _ _ (by decide))

theorem reads_variableUse
    (budget : Nat) :
    Reads (variableUse receiver)
      { (exprPhrase receiver 0 (budget + 1)).via
          (Expr.name : Leaf .identifier → Expr 0) with
        Stops := fun _ _ => True } := by
  intro before after answer
  unfold variableUse
  simp only [bind_eq_ok_iff, identifier_eq_ok_iff,
    value_eq_ok_iff]
  constructor
  · rintro ⟨_, between, ⟨leaf, hLeaf, hState, rfl⟩, hEvent,
      hRest, hSpan⟩
    rw [hState] at hEvent
    rw [← hRest] at hLeaf
    exact
      ⟨leaf, hLeaf, Nat.le_add_left _ _, trivial,
        Expr.value_eq_ok_iff.mpr ⟨hEvent, hSpan⟩⟩
  · rintro ⟨leaf, hTokens, -, -, hValue⟩
    rcases Expr.value_eq_ok_iff.mp hValue with
      ⟨hEvent, hSpan⟩
    exact
      ⟨_, ⟨after.rest, before.state⟩,
        ⟨leaf, hTokens, rfl, rfl⟩, hEvent, rfl, hSpan⟩

/- An expression that is a single word. -/
private theorem reads_word
    {kind : Kind}
    {event : Span → ValueEvent τ}
    {build : Leaf kind → Expr 0}
    (hTokens : ∀ leaf, (build leaf).tokens = [leaf.token])
    (hNesting : ∀ leaf, (build leaf).nesting = 1)
    (hStops : ∀ leaf rest, (build leaf).Stops rest)
    (hSpan : ∀ leaf, (build leaf).span = leaf.span)
    (hAnnounce :
      ∀ leaf,
        (build leaf).announce receiver =
          receiver.value (event leaf.span)) :
    Reads
      (do
        let span ← expect kind
        value receiver (event span) span)
      ((exprPhrase receiver 0 (budget + 1)).via build) := by
  intro before after answer
  simp only [bind_eq_ok_iff, expect_eq_ok_iff,
    value_eq_ok_iff, Phrase.via, Shape.via, exprPhrase,
    exprShape, hTokens, hNesting, hStops,
    Expr.value_eq_ok_iff, hSpan, hAnnounce]
  constructor
  · rintro ⟨_, between, ⟨leaf, hLeaf, hState, rfl⟩, hEvent,
      hRest, hSame⟩
    rw [hState] at hEvent
    rw [← hRest] at hLeaf
    exact
      ⟨leaf, hLeaf, Nat.le_add_left _ _, trivial, hEvent,
        hSame⟩
  · rintro ⟨leaf, hLeaf, -, -, hEvent, hSame⟩
    exact
      ⟨_, ⟨after.rest, before.state⟩,
        ⟨leaf, hLeaf, rfl, rfl⟩, hEvent, rfl, hSame⟩

theorem reads_stringLiteral
    (budget : Nat) :
    Reads (stringLiteral receiver)
      ((exprPhrase receiver 0 (budget + 1)).via
        (Expr.string : Leaf .string → Expr 0)) :=
  reads_word (fun _ => rfl) (fun _ => rfl)
    (fun _ _ => trivial) (fun _ => rfl) (fun _ => rfl)

theorem reads_boolLiteral
    (budget : Nat)
    {kind : Kind}
    {truth : Bool}
    (hTruth : truth? kind = some truth) :
    Reads (boolLiteral receiver kind truth)
      ((exprPhrase receiver 0 (budget + 1)).via
        fun leaf : Leaf kind =>
          .bool ⟨leaf.token, truth, hTruth⟩) :=
  reads_word (fun _ => rfl) (fun _ => rfl)
    (fun _ _ => trivial) (fun _ => rfl) (fun _ => rfl)

/- A number, with or without the suffix of a byte. -/
def numberOf
    (digits : Leaf .number) :
    Option (Leaf .byteSuffix) → Expr 0
| none => .number digits
| some suffix => .byte digits suffix

theorem reads_numberLiteral
    (budget : Nat) :
    Reads (numberLiteral receiver)
      ((exprPhrase receiver 0 (budget + 1)).via
        fun parts : Leaf .number × Option (Leaf .byteSuffix) =>
          numberOf parts.1 parts.2) := by
  intro before after answer
  unfold numberLiteral
  simp only [bind_eq_ok_iff, token_eq_ok_iff, peek_bind]
  constructor
  · rintro ⟨⟨_, text, span⟩, between, ⟨hDigits, rfl, hState⟩,
      hOk⟩
    let digits : Leaf .number := ⟨text, span⟩
    by_cases hSuffix :
        headKind between.rest = some .byteSuffix
    · rw [if_pos hSuffix] at hOk
      simp only [bind_eq_ok_iff, expect_eq_ok_iff,
        value_eq_ok_iff] at hOk
      rcases hOk with
        ⟨_, final, ⟨suffix, hMore, hFinal, rfl⟩, hEvent,
          hRest, hSpan⟩
      refine
        ⟨(digits, some suffix), ?_, Nat.le_add_left _ _,
          trivial, Expr.value_eq_ok_iff.mpr ⟨?_, hSpan⟩⟩
      · rw [hDigits, hMore, hRest]
        rfl
      · rw [hFinal, hState] at hEvent
        exact hEvent
    · rw [if_neg hSuffix, value_eq_ok_iff] at hOk
      rcases hOk with ⟨hEvent, hRest, hSpan⟩
      refine
        ⟨(digits, none), ?_, Nat.le_add_left _ _,
          ?_, Expr.value_eq_ok_iff.mpr ⟨?_, hSpan⟩⟩
      · rw [hDigits, hRest]
        rfl
      · rw [hRest]
        exact hSuffix
      · rw [hState] at hEvent
        exact hEvent
  · rintro ⟨⟨digits, _ | suffix⟩, hTokens, -, hStops, hValue⟩
    · rcases Expr.value_eq_ok_iff.mp hValue with
        ⟨hEvent, hSpan⟩
      refine
        ⟨digits.token, ⟨after.rest, before.state⟩,
          ⟨hTokens, rfl, rfl⟩, ?_⟩
      rw [if_neg hStops, value_eq_ok_iff]
      exact ⟨hEvent, rfl, hSpan⟩
    · rcases Expr.value_eq_ok_iff.mp hValue with
        ⟨hEvent, hSpan⟩
      refine
        ⟨digits.token,
          ⟨suffix.token :: after.rest, before.state⟩,
          ⟨hTokens, rfl, rfl⟩, ?_⟩
      rw [if_pos (headKind_leaf suffix after.rest)]
      simp only [bind_eq_ok_iff, expect_eq_ok_iff,
        value_eq_ok_iff]
      exact
        ⟨_, ⟨after.rest, before.state⟩,
          ⟨suffix, rfl, rfl, rfl⟩, hEvent, rfl, hSpan⟩

end Factors

/- What is read in one form is read. -/
theorem exists_of_reads_via
    {phrase : Phrase σ ε α χ}
    {build : ψ → χ}
    {rule : Rule σ ε α}
    (hRule : Reads rule (phrase.via build))
    {before after : Cursor σ}
    {answer : α}
    (hOk : rule before = .ok answer after) :
    ∃ tree,
      before.rest = phrase.tokens tree ++ after.rest ∧
        phrase.Fits tree ∧
        phrase.Stops tree after.rest ∧
        phrase.announce tree before.state =
          .ok answer after.state := by
  rcases (hRule _ _ _).mp hOk with
    ⟨parts, hTokens, hFits, hStops, hAnnounce⟩
  exact ⟨build parts, hTokens, hFits, hStops, hAnnounce⟩

section FactorForm

variable {receiver : Receiver σ τ ε}
variable {budget : Nat}
variable {inner : Rule σ ε (Typed τ)}
variable
  (hInner : Reads inner (exprPhrase receiver 0 budget))

include hInner

/- Every answer of the rule for factors is a factor. -/
private theorem exists_of_factorForm
    {before after : Cursor σ}
    {answer : Typed τ}
    (hOk :
      factorForm receiver inner before =
        .ok answer after) :
    ∃ tree : Expr 0,
      before.rest = tree.tokens ++ after.rest ∧
        tree.nesting ≤ budget + 1 ∧
        tree.Stops after.rest ∧
        tree.value receiver before.state =
          .ok answer after.state := by
  have hExpression := reads_expressionOf hInner
  unfold factorForm at hOk
  rw [lookahead_bind] at hOk
  cases hFirst : headKind before.rest with
  | none =>
      rw [hFirst] at hOk
      exact absurd hOk unexpected_ne_ok
  | some kind =>
      rw [hFirst] at hOk
      cases kind with
      | kwNot =>
          exact exists_of_reads_via (reads_negation hInner) hOk
      | leftParen =>
          dsimp only at hOk
          split at hOk
          · exact exists_of_reads_via (reads_cast hInner) hOk
          · exact
              exists_of_reads_via
                (reads_parenthesized hExpression) hOk
      | identifier =>
          dsimp only at hOk
          split at hOk
          · next hApplied =>
              rcases (reads_call hExpression _ _ _).mp hOk with
                ⟨call, hTokens, hFits, -, hValue⟩
              exact
                ⟨.call call, hTokens, Nat.succ_le_succ hFits,
                  trivial, hValue⟩
          · next hBare =>
              rcases
                  (reads_variableUse budget _ _ _).mp hOk
                with
                ⟨leaf, hTokens, hFits, -, hValue⟩
              rw [hTokens] at hBare
              exact
                ⟨.name leaf, hTokens, hFits, hBare, hValue⟩
      | string =>
          exact
            exists_of_reads_via (reads_stringLiteral budget)
              hOk
      | number =>
          exact
            exists_of_reads_via (reads_numberLiteral budget)
              hOk
      | kwTrue =>
          exact
            exists_of_reads_via (reads_boolLiteral budget rfl)
              hOk
      | kwFalse =>
          exact
            exists_of_reads_via (reads_boolLiteral budget rfl)
              hOk
      | _ => exact absurd hOk unexpected_ne_ok

/- The rule for factors answers at every factor. -/
private theorem factorForm_of_tree
    {before after : Cursor σ}
    {answer : Typed τ}
    (tree : Expr 0)
    (hTokens : before.rest = tree.tokens ++ after.rest)
    (hFits : tree.nesting ≤ budget + 1)
    (hStops : tree.Stops after.rest)
    (hValue :
      tree.value receiver before.state =
        .ok answer after.state) :
    factorForm receiver inner before = .ok answer after := by
  have hExpression := reads_expressionOf hInner
  unfold factorForm
  rw [lookahead_bind, hTokens]
  cases tree with
  | negation word operand =>
      exact
        (reads_negation hInner _ _ _).mpr
          ⟨(word, operand), hTokens, hFits, hStops, hValue⟩
  | cast left target right operand =>
      have hType : target.token.kind.isTypeName = true := by
        rw [isTypeName_eq, target.means]
        rfl
      change
        (if target.token.kind.isTypeName then _ else _ :
          Rule σ ε (Typed τ)) before = _
      rw [if_pos hType]
      exact
        (reads_cast hInner _ _ _).mpr
          ⟨(left, target, right, operand), hTokens, hFits,
            hStops, hValue⟩
  | paren left inner right =>
      rcases inner.tokens_eq_cons with
        ⟨first, more, hInner, hStarts⟩
      have hType : ¬ first.kind.isTypeName = true := by
        rw [isTypeName_of_startsFactor hStarts]
        exact Bool.false_ne_true
      simp only [Expr.tokens, hInner]
      change
        (if first.kind.isTypeName then _ else _ :
          Rule σ ε (Typed τ)) before = _
      rw [if_neg hType]
      exact
        (reads_parenthesized hExpression _ _ _).mpr
          ⟨(left, inner, right), hTokens, hFits, hStops,
            hValue⟩
  | call call =>
      have hCall :=
        (reads_call hExpression _ _ _).mpr
          ⟨call, hTokens, Nat.le_of_succ_le_succ hFits,
            trivial, hValue⟩
      cases call with
      | bare callee left right => exact hCall
      | applied callee left arguments right => exact hCall
  | name leaf =>
      change
        (if headKind after.rest = some .leftParen then
          _ else _ : Rule σ ε (Typed τ)) before = _
      rw [if_neg hStops]
      exact
        (reads_variableUse budget _ _ _).mpr
          ⟨leaf, hTokens, hFits, trivial, hValue⟩
  | string leaf =>
      exact
        (reads_stringLiteral budget _ _ _).mpr
          ⟨leaf, hTokens, hFits, hStops, hValue⟩
  | number digits =>
      exact
        (reads_numberLiteral budget _ _ _).mpr
          ⟨(digits, none), hTokens, hFits, hStops, hValue⟩
  | byte digits suffix =>
      exact
        (reads_numberLiteral budget _ _ _).mpr
          ⟨(digits, some suffix), hTokens, hFits, hStops,
            hValue⟩
  | bool word =>
      rcases word with ⟨⟨kind, text, span⟩, truth, hTruth⟩
      cases kind with
      | kwTrue =>
          rcases Option.some.inj hTruth with rfl
          exact
            (reads_boolLiteral budget hTruth _ _ _).mpr
              ⟨⟨text, span⟩, hTokens, hFits, hStops, hValue⟩
      | kwFalse =>
          rcases Option.some.inj hTruth with rfl
          exact
            (reads_boolLiteral budget hTruth _ _ _).mpr
              ⟨⟨text, span⟩, hTokens, hFits, hStops, hValue⟩
      | _ => cases hTruth

/- If the factors inside are read, so is the factor. -/
theorem reads_factorForm :
    Reads (factorForm receiver inner)
      (exprPhrase receiver 0 (budget + 1)) := by
  intro before after answer
  constructor
  · exact exists_of_factorForm hInner
  · rintro ⟨tree, hTokens, hFits, hStops, hValue⟩
    exact
      factorForm_of_tree hInner tree hTokens hFits hStops
        hValue

end FactorForm

/- The rule for factors reads the factors. -/
theorem reads_factor
    (receiver : Receiver σ τ ε)
    (budget : Nat) :
    Reads (factor receiver budget)
      (exprPhrase receiver 0 budget) := by
  induction budget with
  | zero =>
      intro before after answer
      constructor
      · intro hOk
        cases hOk
      · rintro ⟨tree, -, hFits, -⟩
        have hPositive := tree.nesting_pos
        change tree.nesting ≤ 0 at hFits
        omega
  | succ budget ih => exact reads_factorForm ih

/- The rule for expressions reads the expressions. -/
theorem reads_expression
    (receiver : Receiver σ τ ε)
    (budget : Nat) :
    Reads (expression receiver budget)
      (exprPhrase receiver topLayer budget) :=
  reads_expressionOf (reads_factor receiver budget)

end Parser

end OnePass
