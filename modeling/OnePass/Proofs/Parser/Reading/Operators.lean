import OnePass.Proofs.Parser.Reading.Basic

/-
  Which binary expressions the rules read.

  For a fixed nesting budget, the rules for the layers of
  operators read the layers of expressions, provided that
  the rule for factors reads the factors.

  Main declarations:
    * `Parser.exprPhrase`
    * `Parser.reads_leftChain`
    * `Parser.reads_expressionOf`
-/

------------------------------------------------------------
-- Chains Of Operators
------------------------------------------------------------

namespace OnePass

namespace Grammar

variable {σ τ ε : Type}

/- An expression answers its attribute and its own extent. -/
theorem Expr.value_eq_ok_iff
    {layer : Nat}
    {receiver : Receiver σ τ ε}
    {expr : Expr layer}
    {before after : σ}
    {answer : Typed τ} :
    expr.value receiver before = .ok answer after ↔
      expr.announce receiver before =
          .ok answer.ty after ∧
        answer.span = expr.span := by
  unfold Expr.value
  simp only [bind_eq_ok_iff, pure_eq_ok_iff]
  constructor
  · rintro ⟨result, _, hResult, rfl, rfl⟩
    exact ⟨hResult, rfl⟩
  · rintro ⟨hResult, hSpan⟩
    refine ⟨answer.ty, after, hResult, ?_, rfl⟩
    rw [← hSpan]

/- Both sides of an operator come before the operator. -/
theorem Expr.value_binary_eq_ok_iff
    {layer : Nat}
    {receiver : Receiver σ τ ε}
    {left : Expr (layer + 1)}
    {operator : Sign (operator? layer)}
    {right : Expr layer}
    {before after : σ}
    {answer : Typed τ} :
    (Expr.binary left operator right).value receiver before =
        .ok answer after ↔
      ∃ first between second final,
        left.value receiver before = .ok first between ∧
          right.value receiver between = .ok second final ∧
          receiver.value
              (operator.meaning.event first second
                (first.span.cover second.span)) final =
            .ok answer.ty after ∧
          answer.span = first.span.cover second.span := by
  simp only [Expr.value_eq_ok_iff, Expr.announce,
    bind_eq_ok_iff]
  constructor
  · rintro
      ⟨⟨first, between, hLeft, second, final, hRight, hEvent⟩,
        hSpan⟩
    exact
      ⟨⟨first, left.span⟩, between, ⟨second, right.span⟩,
        final, ⟨hLeft, rfl⟩, ⟨hRight, rfl⟩, hEvent, hSpan⟩
  · rintro ⟨⟨first, _⟩, between, ⟨second, _⟩, final,
      ⟨hLeft, rfl⟩, ⟨hRight, rfl⟩, hEvent, hSpan⟩
    exact
      ⟨⟨first, between, hLeft, second, final, hRight, hEvent⟩,
        hSpan⟩

/- The last operand of a chain. -/
def Expr.lastOperand
    {layer : Nat} :
    Expr (layer + 1) → Expr layer
| .lift operand => operand
| .binary _ _ right => right

/- A chain is complete with its last operand. -/
theorem Expr.stops_iff
    {layer : Nat}
    (expr : Expr (layer + 1))
    (rest : List Token) :
    expr.Stops rest ↔
      expr.lastOperand.Stops rest ∧
        NoOperator layer rest := by
  cases expr with
  | lift operand => exact Iff.rfl
  | binary left operator right => exact Iff.rfl

/- The next token is an operator of the layer, or it is not. -/
theorem noOperator_or_sign
    (layer : Nat)
    (tokens : List Token) :
    NoOperator layer tokens ∨
      ∃ (operator : Sign (operator? layer))
        (rest : List Token),
        tokens = operator.token :: rest := by
  cases tokens with
  | nil => exact Or.inl rfl
  | cons token rest =>
      cases hOperator : operator? layer token.kind with
      | none => exact Or.inl hOperator
      | some meaning =>
          exact
            Or.inr ⟨⟨token, meaning, hOperator⟩, rest, rfl⟩

end Grammar

namespace Parser

open Grammar

variable {σ τ ε ω : Type}

/- The expressions of a layer, within a nesting budget. -/
def exprPhrase
    (receiver : Receiver σ τ ε)
    (layer budget : Nat) :
    Phrase σ ε (Typed τ) (Expr layer) where
  toShape := exprShape layer budget
  announce := Expr.value receiver

/-
  The operators that a chain is made with are those of the
  given layer, and have the same events.
-/
structure OperatorsOf
    (τ : Type)
    (layer : Nat)
    (meaning? : Kind → Option ω)
    (combine :
      Typed τ → ω → Typed τ → Span → ValueEvent τ)
    (toBinary : ω → BinaryOp) : Prop where
  meaning :
    ∀ kind, operator? layer kind = (meaning? kind).map toBinary
  event :
    ∀ left operator right span,
      (toBinary operator).event left right span =
        combine left operator right span

theorem operatorsOf_product :
    OperatorsOf τ 0 Kind.productOp? .numeric .numeric :=
  ⟨fun _ => rfl, fun _ _ _ _ => rfl⟩

theorem operatorsOf_sum :
    OperatorsOf τ 1 Kind.sumOp? .numeric .numeric :=
  ⟨fun _ => rfl, fun _ _ _ _ => rfl⟩

theorem operatorsOf_comparison :
    OperatorsOf τ 2 Kind.relationalOp? .relational
      .relational :=
  ⟨fun _ => rfl, fun _ _ _ _ => rfl⟩

theorem operatorsOf_conjunction :
    OperatorsOf τ 3 Kind.andOp? .logical .logical :=
  ⟨fun _ => rfl, fun _ _ _ _ => rfl⟩

theorem operatorsOf_disjunction :
    OperatorsOf τ 4 Kind.orOp? .logical .logical :=
  ⟨fun _ => rfl, fun _ _ _ _ => rfl⟩

section Chain

variable {receiver : Receiver σ τ ε}
variable {layer budget : Nat}
variable {meaning? : Kind → Option ω}
variable
  {combine : Typed τ → ω → Typed τ → Span → ValueEvent τ}
variable {toBinary : ω → BinaryOp}
variable {operand : Rule σ ε (Typed τ)}

theorem chainStep_of_noOperator
    (hOperators :
      OperatorsOf τ layer meaning? combine toBinary)
    (left : Typed τ)
    {cursor : Cursor σ}
    (hTokens : NoOperator layer cursor.rest) :
    chainStep receiver meaning? combine operand left cursor =
      .ok none cursor := by
  unfold chainStep
  rw [peek_bind]
  rcases cursor with ⟨_ | ⟨token, rest⟩, state⟩
  · rfl
  · have hNone : meaning? token.kind = none := by
      simpa [NoOperator, hOperators.meaning] using hTokens
    simp only [headKind, List.head?_cons, Option.map_some,
      hNone]
    rfl

theorem chainStep_operator
    (hOperators :
      OperatorsOf τ layer meaning? combine toBinary)
    (left : Typed τ)
    (operator : Sign (operator? layer))
    (rest : List Token)
    (state : σ) :
    chainStep receiver meaning? combine operand left
        ⟨operator.token :: rest, state⟩ =
      (do
        let right ← operand
        let span := left.span.cover right.span
        let event := operator.meaning.event left right span
        return some (← value receiver event span) :
          Rule σ ε (Option (Typed τ))) ⟨rest, state⟩ := by
  have hMeans := operator.means
  rw [hOperators.meaning, Option.map_eq_some_iff] at hMeans
  rcases hMeans with ⟨meaning, hMeaning, hBinary⟩
  unfold chainStep
  rw [peek_bind]
  simp only [headKind, List.head?_cons, Option.map_some,
    hMeaning, ← hBinary, hOperators.event]
  exact bind_of_ok token_of_kind

theorem chainStep_eq_none_iff
    (hOperators :
      OperatorsOf τ layer meaning? combine toBinary)
    {left : Typed τ}
    {before after : Cursor σ} :
    chainStep receiver meaning? combine operand left before =
        .ok none after ↔
      NoOperator layer before.rest ∧ after = before := by
  constructor
  · intro hStep
    rcases noOperator_or_sign layer before.rest with
      hNone | ⟨operator, rest, hRest⟩
    · rw [chainStep_of_noOperator hOperators _ hNone]
        at hStep
      cases hStep
      exact ⟨hNone, rfl⟩
    · rcases before with ⟨_, state⟩
      cases hRest
      rw [chainStep_operator hOperators] at hStep
      simp only [bind_eq_ok_iff, pure_eq_ok_iff] at hStep
      rcases hStep with ⟨_, _, _, _, _, _, hSome, _⟩
      cases hSome
  · rintro ⟨hNone, rfl⟩
    exact chainStep_of_noOperator hOperators _ hNone

theorem chainStep_eq_some_iff
    (hOperators :
      OperatorsOf τ layer meaning? combine toBinary)
    {left answer : Typed τ}
    {before after : Cursor σ} :
    chainStep receiver meaning? combine operand left before =
        .ok (some answer) after ↔
      ∃ (operator : Sign (operator? layer))
        (rest : List Token) (right : Typed τ)
        (between : Cursor σ),
        before.rest = operator.token :: rest ∧
          operand ⟨rest, before.state⟩ =
            .ok right between ∧
          value receiver
              (operator.meaning.event left right
                (left.span.cover right.span))
              (left.span.cover right.span) between =
            .ok answer after := by
  rcases before with ⟨tokens, state⟩
  constructor
  · intro hStep
    rcases noOperator_or_sign layer tokens with
      hNone | ⟨operator, rest, rfl⟩
    · rw [chainStep_of_noOperator hOperators _ hNone]
        at hStep
      cases hStep
    · rw [chainStep_operator hOperators] at hStep
      simp only [bind_eq_ok_iff, pure_eq_ok_iff] at hStep
      rcases hStep with
        ⟨right, between, hRight, _, _, hEvent, hSome, rfl⟩
      cases hSome
      exact
        ⟨operator, rest, right, between, rfl, hRight, hEvent⟩
  · rintro ⟨operator, rest, right, between, rfl, hRight,
      hEvent⟩
    rw [chainStep_operator hOperators]
    simp only [bind_eq_ok_iff, pure_eq_ok_iff]
    exact
      ⟨right, between, hRight, answer, after, hEvent,
        rfl, rfl⟩

/- Every further operand is preceded by an operator. -/
theorem progresses_chainStep
    (hOperators :
      OperatorsOf τ layer meaning? combine toBinary)
    (hOperand :
      Reads operand (exprPhrase receiver layer budget)) :
    Progresses
      (chainStep receiver meaning? combine operand) where
  reads hStep := by
    rw [chainStep_eq_some_iff hOperators] at hStep
    rcases hStep with
      ⟨operator, rest, right, between, hRest, hRight, hEvent⟩
    rw [hOperand] at hRight
    rcases hRight with ⟨tree, hTree, -⟩
    rw [value_eq_ok_iff] at hEvent
    have hUnread := congrArg List.length hTree
    simp only [List.length_append] at hUnread
    rw [hRest, List.length_cons, hEvent.2.1]
    omega
  ends left state := by
    rw [chainStep_eq_none_iff hOperators]
    exact ⟨rfl, rfl⟩

/-
  What a run of the loop keeps: the chain read so far has
  been announced, and its last operand is complete.
-/
private theorem chain_of_steps
    (hOperators :
      OperatorsOf τ layer meaning? combine toBinary)
    (hOperand :
      Reads operand (exprPhrase receiver layer budget))
    {start before after : Cursor σ}
    {left result : Typed τ}
    (hSteps :
      Steps (chainStep receiver meaning? combine operand)
        left before result after)
    (expr : Expr (layer + 1))
    (hTokens : start.rest = expr.tokens ++ before.rest)
    (hFits : expr.nesting ≤ budget)
    (hStops : expr.lastOperand.Stops before.rest)
    (hAnnounce :
      expr.value receiver start.state =
        .ok left before.state) :
    ∃ expr : Expr (layer + 1),
      start.rest = expr.tokens ++ after.rest ∧
        expr.nesting ≤ budget ∧
        expr.Stops after.rest ∧
        expr.value receiver start.state =
          .ok result after.state := by
  induction hSteps generalizing expr with
  | stop hStep =>
      rw [chainStep_eq_none_iff hOperators] at hStep
      rcases hStep with ⟨hNone, rfl⟩
      exact
        ⟨expr, hTokens, hFits,
          (expr.stops_iff _).mpr ⟨hStops, hNone⟩, hAnnounce⟩
  | next hStep _ ih =>
      rw [chainStep_eq_some_iff hOperators] at hStep
      rcases hStep with
        ⟨operator, rest, right, between, hRest, hRight,
          hEvent⟩
      rw [hOperand] at hRight
      rcases hRight with ⟨tree, hMore, hFit, hStop, hTree⟩
      change rest = _ at hMore
      rw [value_eq_ok_iff] at hEvent
      rcases hEvent with ⟨hEvent, hUnread, hSpan⟩
      apply ih (.binary expr operator tree)
      · rw [hTokens, hRest, hMore, hUnread]
        simp [Expr.tokens, exprPhrase, exprShape]
      · exact Nat.max_le.mpr ⟨hFits, hFit⟩
      · rw [hUnread]
        exact hStop
      · rw [Expr.value_binary_eq_ok_iff]
        exact
          ⟨_, _, right, _, hAnnounce, hTree, hEvent, hSpan⟩

/- Reading a chain leads to the steps that follow it. -/
private theorem steps_of_chain
    (hOperators :
      OperatorsOf τ layer meaning? combine toBinary)
    (hOperand :
      Reads operand (exprPhrase receiver layer budget))
    {start : σ}
    {result : Typed τ}
    {after : Cursor σ}
    (expr : Expr (layer + 1))
    {left : Typed τ}
    {rest : List Token}
    {between : σ}
    (hFits : expr.nesting ≤ budget)
    (hStops : expr.lastOperand.Stops rest)
    (hAnnounce :
      expr.value receiver start = .ok left between)
    (hSteps :
      Steps (chainStep receiver meaning? combine operand)
        left ⟨rest, between⟩ result after) :
    ∃ first cursor,
      operand ⟨expr.tokens ++ rest, start⟩ =
          .ok first cursor ∧
        Steps (chainStep receiver meaning? combine operand)
          first cursor result after := by
  induction expr using Expr.chain_induction
    generalizing left rest between with
  | lift tree =>
      refine ⟨left, ⟨rest, between⟩, ?_, hSteps⟩
      rw [hOperand]
      exact ⟨tree, rfl, hFits, hStops, hAnnounce⟩
  | binary before operator tree ih =>
      rw [Expr.value_binary_eq_ok_iff] at hAnnounce
      rcases hAnnounce with
        ⟨first, middle, second, final, hBefore, hTree, hEvent,
          hSpan⟩
      rcases Nat.max_le.mp hFits with ⟨hFitBefore, hFitTree⟩
      have hRead :
          operand ⟨tree.tokens ++ rest, middle⟩ =
            .ok second ⟨rest, final⟩ := by
        rw [hOperand]
        exact ⟨tree, rfl, hFitTree, hStops, hTree⟩
      have hStep :
          chainStep receiver meaning? combine operand first
              ⟨operator.token :: (tree.tokens ++ rest),
                middle⟩ =
            .ok (some left) ⟨rest, between⟩ := by
        rw [chainStep_eq_some_iff hOperators]
        refine
          ⟨operator, _, second, _, rfl, hRead, ?_⟩
        rw [value_eq_ok_iff]
        exact ⟨hEvent, rfl, hSpan⟩
      have hTokens :
          (Expr.binary before operator tree).tokens ++ rest =
            before.tokens ++
              operator.token :: (tree.tokens ++ rest) := by
        simp [Expr.tokens]
      rw [hTokens]
      apply ih hFitBefore _ hBefore (Steps.next hStep hSteps)
      exact
        before.lastOperand.stops_of_separates
          (separates_of_operator? _ operator.means)

/- A chain of operators is read as a whole. -/
theorem reads_leftChain
    (hOperators :
      OperatorsOf τ layer meaning? combine toBinary)
    (hOperand :
      Reads operand (exprPhrase receiver layer budget)) :
    Reads (leftChain receiver meaning? combine operand)
      (exprPhrase receiver (layer + 1) budget) := by
  intro before after answer
  unfold leftChain
  simp only [bind_eq_ok_iff,
    iterate_eq_ok_iff
      (progresses_chainStep hOperators hOperand)]
  constructor
  · rintro ⟨first, between, hFirst, hSteps⟩
    rw [hOperand] at hFirst
    rcases hFirst with ⟨tree, hTokens, hFit, hStop, hTree⟩
    exact
      chain_of_steps hOperators hOperand hSteps (.lift tree)
        hTokens hFit hStop hTree
  · rintro ⟨expr, hTokens, hFits, hStops, hAnnounce⟩
    change before.rest = expr.tokens ++ after.rest at hTokens
    have hStart :
        before =
          ⟨expr.tokens ++ after.rest, before.state⟩ := by
      rw [← hTokens]
    rcases (expr.stops_iff _).mp hStops with ⟨hStop, hNone⟩
    rw [hStart]
    apply
      steps_of_chain hOperators hOperand expr hFits hStop
        hAnnounce
    apply Steps.stop
    rw [chainStep_eq_none_iff hOperators]
    exact ⟨hNone, rfl⟩

end Chain

/- The five layers of operators, on top of the factors. -/
theorem reads_expressionOf
    {receiver : Receiver σ τ ε}
    {budget : Nat}
    {factor : Rule σ ε (Typed τ)}
    (hFactor :
      Reads factor (exprPhrase receiver 0 budget)) :
    Reads (expressionOf receiver factor)
      (exprPhrase receiver topLayer budget) := by
  exact
    reads_leftChain operatorsOf_disjunction
      (reads_leftChain operatorsOf_conjunction
        (reads_leftChain operatorsOf_comparison
          (reads_leftChain operatorsOf_sum
            (reads_leftChain operatorsOf_product hFactor))))

end Parser

end OnePass
