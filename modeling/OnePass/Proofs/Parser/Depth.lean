import OnePass.Proofs.Parser.Outcome

/-
  A parser that counts how deep it is.

  Instead of a budget that is handed down, the counting
  parser keeps its nesting depth in its state. It goes one
  level deeper for each factor and each statement, comes
  back however the level ends, and is stuck once the limit
  is reached. It does what the parser with a budget does,
  and so its depth afterwards is the depth it started with.
  Along the way the unread tokens are always a last part of
  those that were unread before.

  Main declarations:
    * `Parser.Leveled`, `Parser.nested`
    * `Parser.countedFactor`, `Parser.countedExpression`
    * `Parser.countedStatement`
    * `Parser.Drift`, `Parser.Mirrors`
    * `Parser.mirrors_levels`
    * `Parser.mirrors_expression`
    * `Parser.mirrors_statement`
-/

------------------------------------------------------------
-- The Counting Parser
------------------------------------------------------------

namespace OnePass

namespace Parser

variable {σ τ ε α : Type}

/- The state of a receiver, and the depth of the parser. -/
structure Leveled (σ : Type) where
  state : σ
  depth : Nat

/- Act on the state, at whatever depth. -/
def Leveled.act
    (act : EStateM ε σ α) : EStateM ε (Leveled σ) α :=
  fun leveled =>
    match act leveled.state with
    | .ok answer state => .ok answer { leveled with state }
    | .error reason state =>
        .error reason { leveled with state }

/- A receiver that takes no notice of the depth. -/
def leveled
    (receiver : Receiver σ τ ε) :
    Receiver (Leveled σ) τ ε where
  value event := Leveled.act (receiver.value event)
  effect event := Leveled.act (receiver.effect event)

/- The cursor, at another depth. -/
def Cursor.atDepth
    (cursor : Cursor (Leveled σ))
    (depth : Nat) : Cursor (Leveled σ) :=
  ⟨cursor.rest, ⟨cursor.state.state, depth⟩⟩

/- Run a rule one level deeper, and come back. -/
def nested
    (rule : Rule (Leveled σ) ε α) :
    Rule (Leveled σ) ε α := fun cursor =>
  let depth := cursor.state.depth
  if depth < maxNesting then
    match rule (cursor.atDepth (depth + 1)) with
    | .ok answer after =>
        .ok answer (after.atDepth (after.state.depth - 1))
    | .error halt after =>
        .error halt (after.atDepth (after.state.depth - 1))
  else
    .error (.stuck .tooDeep) cursor

/-
  A factor, read by counting. The last argument bounds the
  recursion: no more levels than the limit are ever open.
-/
def countedFactor
    (receiver : Receiver (Leveled σ) τ ε) :
    Nat → Rule (Leveled σ) ε (Typed τ)
| 0 => throw (.stuck .tooDeep)
| bound + 1 =>
    nested (factorForm receiver (countedFactor receiver bound))

/- An expression, read by counting. -/
def countedExpression
    (receiver : Receiver (Leveled σ) τ ε) :
    Rule (Leveled σ) ε (Typed τ) :=
  expressionOf receiver (countedFactor receiver maxNesting)

/- A statement, read by counting, with a bound likewise. -/
def countedStatement
    (receiver : Receiver (Leveled σ) τ ε) :
    Nat → Rule (Leveled σ) ε Unit
| 0 => throw (.stuck .tooDeep)
| bound + 1 =>
    nested
      (statementForm receiver (countedExpression receiver)
        (countedStatement receiver bound))

end Parser

end OnePass

------------------------------------------------------------
-- Mirrored Rules
------------------------------------------------------------

namespace OnePass

namespace Parser

variable {σ τ ε α β : Type}

/- How the state of a receiver may change along a run. -/
structure Drift (σ : Type) where
  Moves : σ → σ → Prop
  refl : ∀ state, Moves state state
  trans :
    ∀ {first second third},
      Moves first second →
        Moves second third → Moves first third

/- However the act ends, the state changes as it may. -/
def Drift.Keeps
    (drift : Drift σ)
    (act : EStateM ε σ α) : Prop :=
  ∀ state,
    match act state with
    | .ok _ after | .error _ after =>
        drift.Moves state after

/- Where a run may end that starts at the cursor. -/
def Drift.Leads
    (drift : Drift σ)
    (before : Cursor σ) :
    EStateM.Result (Halt ε) (Cursor σ) α → Prop
| .ok _ after | .error _ after =>
    after.rest <:+ before.rest ∧
      drift.Moves before.state after.state

/- The cursor, as the counting parser has it at a depth. -/
def Cursor.leveled
    (depth : Nat)
    (cursor : Cursor σ) : Cursor (Leveled σ) :=
  ⟨cursor.rest, ⟨cursor.state, depth⟩⟩

/- The outcome, as the counting parser has it at a depth. -/
def leveledOutcome
    (depth : Nat) :
    EStateM.Result (Halt ε) (Cursor σ) α →
      EStateM.Result (Halt ε) (Cursor (Leveled σ)) α
| .ok answer after => .ok answer (after.leveled depth)
| .error halt after => .error halt (after.leveled depth)

/-
  At the depth, the second rule does what the first one
  does, and keeps the depth. The first one drifts.
-/
structure Mirrors
    (drift : Drift σ)
    (depth : Nat)
    (rule : Rule σ ε α)
    (counted : Rule (Leveled σ) ε α) : Prop where
  same :
    ∀ cursor,
      counted (cursor.leveled depth) =
        leveledOutcome depth (rule cursor)
  leads : ∀ cursor, drift.Leads cursor (rule cursor)

section Combinators

variable {drift : Drift σ}
variable {depth : Nat}

theorem Drift.leads_refl
    (cursor : Cursor σ) :
    cursor.rest <:+ cursor.rest ∧
      drift.Moves cursor.state cursor.state :=
  ⟨List.suffix_rfl, drift.refl _⟩

theorem Mirrors.bind
    {rule : Rule σ ε α}
    {counted : Rule (Leveled σ) ε α}
    {next : α → Rule σ ε β}
    {next' : α → Rule (Leveled σ) ε β}
    (hRule : Mirrors drift depth rule counted)
    (hNext :
      ∀ answer,
        Mirrors drift depth (next answer) (next' answer)) :
    Mirrors drift depth (rule >>= next)
      (counted >>= next') where
  same cursor := by
    have hSame := hRule.same cursor
    cases hOutcome : rule cursor with
    | ok answer between =>
        rw [hOutcome] at hSame
        rw [bind_of_ok hOutcome, bind_of_ok hSame]
        exact (hNext answer).same between
    | error halt between =>
        rw [hOutcome] at hSame
        rw [bind_of_error hOutcome, bind_of_error hSame]
        rfl
  leads cursor := by
    have hLeads := hRule.leads cursor
    cases hOutcome : rule cursor with
    | ok answer between =>
        rw [hOutcome] at hLeads
        rw [bind_of_ok hOutcome]
        have hOn := (hNext answer).leads between
        cases hFinal : next answer between with
        | ok final after =>
            rw [hFinal] at hOn
            exact
              ⟨hOn.1.trans hLeads.1,
                drift.trans hLeads.2 hOn.2⟩
        | error halt after =>
            rw [hFinal] at hOn
            exact
              ⟨hOn.1.trans hLeads.1,
                drift.trans hLeads.2 hOn.2⟩
    | error halt between =>
        rw [hOutcome] at hLeads
        rw [bind_of_error hOutcome]
        exact hLeads

theorem mirrors_pure
    (answer : α) :
    Mirrors drift depth (pure answer : Rule σ ε α)
      (pure answer) where
  same _ := rfl
  leads cursor := drift.leads_refl cursor

theorem mirrors_stuck
    (obstacle : Obstacle) :
    Mirrors drift depth
      (throw (.stuck obstacle) : Rule σ ε α)
      (throw (.stuck obstacle)) where
  same _ := rfl
  leads cursor := drift.leads_refl cursor

theorem mirrors_unexpected :
    Mirrors drift depth (unexpected : Rule σ ε α)
      unexpected :=
  mirrors_stuck .unexpected

theorem mirrors_peek :
    Mirrors drift depth (peek : Rule σ ε _) peek where
  same _ := rfl
  leads cursor := drift.leads_refl cursor

theorem mirrors_lookahead :
    Mirrors drift depth (lookahead : Rule σ ε _)
      lookahead where
  same cursor := by
    rcases cursor with ⟨_ | ⟨_, _ | _⟩, _⟩
    · rfl
    · rfl
    · rfl
  leads cursor := by
    rcases cursor with ⟨_ | ⟨_, _ | _⟩, _⟩
    · exact drift.leads_refl _
    · exact drift.leads_refl _
    · exact drift.leads_refl _

theorem mirrors_nextSpan :
    Mirrors drift depth (nextSpan : Rule σ ε _)
      nextSpan where
  same cursor := by
    rcases cursor with ⟨_ | ⟨_, _⟩, _⟩
    · rfl
    · rfl
  leads cursor := by
    rcases cursor with ⟨_ | ⟨_, _⟩, _⟩
    · exact drift.leads_refl _
    · exact drift.leads_refl _

theorem mirrors_token
    (kind : Kind) :
    Mirrors drift depth (token kind : Rule σ ε Token)
      (token kind) where
  same cursor := by
    rcases cursor with ⟨_ | ⟨next, rest⟩, state⟩
    · rfl
    · by_cases hKind : next.kind = kind
      · rw [← hKind, token_of_kind]
        exact token_of_kind
      · rw [token_of_ne hKind]
        exact token_of_ne hKind
  leads cursor := by
    rcases cursor with ⟨_ | ⟨next, rest⟩, state⟩
    · exact drift.leads_refl _
    · by_cases hKind : next.kind = kind
      · rw [← hKind, token_of_kind]
        exact ⟨List.suffix_cons next rest, drift.refl state⟩
      · rw [token_of_ne hKind]
        exact drift.leads_refl _

theorem mirrors_expect
    (kind : Kind) :
    Mirrors drift depth (expect kind : Rule σ ε Span)
      (expect kind) := by
  apply (mirrors_token kind).bind
  intro next
  exact mirrors_pure _

theorem mirrors_identifier :
    Mirrors drift depth (identifier : Rule σ ε Identifier)
      identifier := by
  apply (mirrors_token .identifier).bind
  intro name
  exact mirrors_pure _

theorem mirrors_accept
    (kind : Kind) :
    Mirrors drift depth (accept kind : Rule σ ε Bool)
      (accept kind) := by
  apply mirrors_peek.bind
  intro next
  split
  · apply (mirrors_token kind).bind
    intro _
    exact mirrors_pure _
  · exact mirrors_pure _

theorem mirrors_valueType :
    Mirrors drift depth (valueType : Rule σ ε Ty)
      valueType := by
  apply mirrors_peek.bind
  intro next
  cases next with
  | none => exact mirrors_unexpected
  | some kind =>
      cases hType : kind.valueType? with
      | none =>
          simp only [hType]
          exact mirrors_unexpected
      | some ty =>
          simp only [hType]
          apply (mirrors_token kind).bind
          intro _
          exact mirrors_pure _

theorem mirrors_declarator :
    Mirrors drift depth (declarator : Rule σ ε Formal)
      declarator := by
  apply (mirrors_accept .kwConst).bind
  intro isConst
  apply mirrors_valueType.bind
  intro ty
  apply mirrors_identifier.bind
  intro name
  exact mirrors_pure _

/- A loop does what its steps do. -/
theorem mirrors_iterate
    {step : α → Rule σ ε (Option α)}
    {step' : α → Rule (Leveled σ) ε (Option α)}
    (hStep :
      ∀ current,
        Mirrors drift depth (step current) (step' current))
    (start : α) :
    Mirrors drift depth (iterate step start)
      (iterate step' start) := by
  have hWithin :
      ∀ (bound : List Token) (current : α),
        Mirrors drift depth
          (iterateWithin step bound current)
          (iterateWithin step' bound current) := by
    intro bound
    induction bound with
    | nil =>
        intro current
        exact mirrors_pure _
    | cons token bound ih =>
        intro current
        apply (hStep current).bind
        intro next
        cases next with
        | none => exact mirrors_pure _
        | some value => exact ih value
  exact
    ⟨fun cursor => (hWithin cursor.rest start).same cursor,
      fun cursor => (hWithin cursor.rest start).leads cursor⟩

theorem mirrors_commaList
    {item : Rule σ ε α}
    {item' : Rule (Leveled σ) ε α}
    (hItem : Mirrors drift depth item item') :
    Mirrors drift depth (commaList item)
      (commaList item') := by
  have hStep :
      ∀ items,
        Mirrors drift depth (itemStep item items)
          (itemStep item' items) := by
    intro items
    apply (mirrors_accept .comma).bind
    intro found
    split
    · apply hItem.bind
      intro answer
      exact mirrors_pure _
    · exact mirrors_pure _
  apply mirrors_peek.bind
  intro next
  split
  · exact mirrors_pure _
  · apply hItem.bind
    intro answer
    exact mirrors_iterate hStep [answer]

/- A receiver acts in the same way at any depth. -/
theorem mirrors_announce
    {act : EStateM ε σ α}
    (hAct : drift.Keeps act) :
    Mirrors drift depth (announce act)
      (announce (Leveled.act act)) where
  same cursor := by
    unfold announce Leveled.act Cursor.leveled
    cases act cursor.state with
    | ok answer state => rfl
    | error reason state => rfl
  leads cursor := by
    have hMoves := hAct cursor.state
    unfold announce
    cases hOutcome : act cursor.state with
    | ok answer state =>
        rw [hOutcome] at hMoves
        exact ⟨List.suffix_rfl, hMoves⟩
    | error reason state =>
        rw [hOutcome] at hMoves
        exact ⟨List.suffix_rfl, hMoves⟩

end Combinators

end Parser

end OnePass

------------------------------------------------------------
-- Expressions
------------------------------------------------------------

namespace OnePass

namespace Parser

variable {σ τ ε ω : Type}
variable {receiver : Receiver σ τ ε}
variable {drift : Drift σ}
variable {depth : Nat}

/- A level deeper, the budget is smaller by one. -/
theorem mirrors_nested
    {α : Type}
    {rule : Rule σ ε α}
    {counted : Rule (Leveled σ) ε α}
    (hDepth : depth < maxNesting)
    (hRule : Mirrors drift (depth + 1) rule counted) :
    Mirrors drift depth rule (nested counted) where
  same cursor := by
    have hSame := hRule.same cursor
    unfold nested
    dsimp only [Cursor.leveled, Cursor.atDepth] at hSame ⊢
    rw [if_pos hDepth, hSame]
    cases rule cursor with
    | ok answer after => rfl
    | error halt after => rfl
  leads := hRule.leads

/- At the limit, both are stuck. -/
theorem mirrors_limit
    {α : Type}
    {counted : Rule (Leveled σ) ε α}
    (hDepth : ¬ depth < maxNesting) :
    Mirrors drift depth
      (throw (.stuck .tooDeep) : Rule σ ε α)
      (nested counted) where
  same cursor := by
    unfold nested
    dsimp only [Cursor.leveled]
    rw [if_neg hDepth]
    rfl
  leads cursor := drift.leads_refl cursor

/-
  Rules that are given by a form for one level are mirrored
  at every depth if that form is. The budget that is left
  says how deep the parser is.
-/
theorem mirrors_levels
    {α : Type}
    {rule : Nat → Rule σ ε α}
    {counted form : Nat → Rule (Leveled σ) ε α}
    (hSpent : rule 0 = throw (.stuck .tooDeep))
    (hBottom : counted 0 = throw (.stuck .tooDeep))
    (hNested :
      ∀ bound, counted (bound + 1) = nested (form bound))
    (hForm :
      ∀ {depth bound},
        Mirrors drift depth (rule (maxNesting - depth))
            (counted bound) →
          Mirrors drift depth (rule (maxNesting - depth + 1))
            (form bound))
    {bound : Nat}
    (hBound : maxNesting - depth ≤ bound) :
    Mirrors drift depth (rule (maxNesting - depth))
      (counted bound) := by
  induction bound generalizing depth with
  | zero =>
      have hBudget : maxNesting - depth = 0 := by omega
      rw [hBudget, hSpent, hBottom]
      exact mirrors_stuck .tooDeep
  | succ bound ih =>
      rw [hNested]
      by_cases hDepth : depth < maxNesting
      · have hBudget :
            maxNesting - depth =
              maxNesting - (depth + 1) + 1 := by
          omega
        rw [hBudget]
        apply mirrors_nested hDepth
        apply hForm
        exact ih (by omega)
      · have hBudget : maxNesting - depth = 0 := by omega
        rw [hBudget, hSpent]
        exact mirrors_limit hDepth

section Expressions

variable
  (hValues : ∀ event, drift.Keeps (receiver.value event))

include hValues

theorem mirrors_value
    (event : ValueEvent τ)
    (span : Span) :
    Mirrors drift depth (value receiver event span)
      (value (leveled receiver) event span) := by
  apply (mirrors_announce (hValues event)).bind
  intro answer
  exact mirrors_pure _

theorem mirrors_leftChain
    {operator? : Kind → Option ω}
    {combine :
      Typed τ → ω → Typed τ → Span → ValueEvent τ}
    {operand : Rule σ ε (Typed τ)}
    {operand' : Rule (Leveled σ) ε (Typed τ)}
    (hOperand : Mirrors drift depth operand operand') :
    Mirrors drift depth
      (leftChain receiver operator? combine operand)
      (leftChain (leveled receiver) operator? combine
        operand') := by
  have hStep :
      ∀ left,
        Mirrors drift depth
          (chainStep receiver operator? combine operand left)
          (chainStep (leveled receiver) operator? combine
            operand' left) := by
    intro left
    apply mirrors_peek.bind
    intro next
    cases next with
    | none => exact mirrors_pure _
    | some kind =>
        cases hOperator : operator? kind with
        | none =>
            simp only [hOperator]
            exact mirrors_pure _
        | some operator =>
            simp only [hOperator]
            apply (mirrors_token kind).bind
            intro _
            apply hOperand.bind
            intro right
            apply (mirrors_value hValues _ _).bind
            intro result
            exact mirrors_pure _
  apply hOperand.bind
  intro first
  exact mirrors_iterate hStep first

theorem mirrors_expressionOf
    {inner : Rule σ ε (Typed τ)}
    {inner' : Rule (Leveled σ) ε (Typed τ)}
    (hInner : Mirrors drift depth inner inner') :
    Mirrors drift depth (expressionOf receiver inner)
      (expressionOf (leveled receiver) inner') := by
  -- One chain for each level of operators.
  apply mirrors_leftChain hValues
  apply mirrors_leftChain hValues
  apply mirrors_leftChain hValues
  apply mirrors_leftChain hValues
  exact mirrors_leftChain hValues hInner

theorem mirrors_call
    {expression : Rule σ ε (Typed τ)}
    {expression' : Rule (Leveled σ) ε (Typed τ)}
    (hExpression :
      Mirrors drift depth expression expression') :
    Mirrors drift depth (call receiver expression)
      (call (leveled receiver) expression') := by
  apply mirrors_identifier.bind
  intro callee
  apply (mirrors_expect .leftParen).bind
  intro _
  apply (mirrors_commaList hExpression).bind
  intro arguments
  apply (mirrors_expect .rightParen).bind
  intro stop
  exact mirrors_value hValues _ _

theorem mirrors_boolLiteral
    (kind : Kind)
    (truth : Bool) :
    Mirrors drift depth (boolLiteral receiver kind truth)
      (boolLiteral (leveled receiver) kind truth) := by
  apply (mirrors_expect kind).bind
  intro span
  exact mirrors_value hValues _ _

/- A factor does what the factors inside it do. -/
theorem mirrors_factorForm
    {inner : Rule σ ε (Typed τ)}
    {inner' : Rule (Leveled σ) ε (Typed τ)}
    (hInner : Mirrors drift depth inner inner') :
    Mirrors drift depth (factorForm receiver inner)
      (factorForm (leveled receiver) inner') := by
  have hExpression := mirrors_expressionOf hValues hInner
  apply mirrors_lookahead.bind
  intro kinds
  split
  · apply (mirrors_expect .kwNot).bind
    intro start
    apply hInner.bind
    intro operand
    exact mirrors_value hValues _ _
  · split
    · apply (mirrors_expect .leftParen).bind
      intro start
      apply mirrors_valueType.bind
      intro target
      apply (mirrors_expect .rightParen).bind
      intro _
      apply hInner.bind
      intro operand
      exact mirrors_value hValues _ _
    · apply (mirrors_expect .leftParen).bind
      intro start
      apply hExpression.bind
      intro inner
      apply (mirrors_expect .rightParen).bind
      intro stop
      exact mirrors_pure _
  · split
    · exact mirrors_call hValues hExpression
    · apply mirrors_identifier.bind
      intro name
      exact mirrors_value hValues _ _
  · apply (mirrors_expect .string).bind
    intro span
    exact mirrors_value hValues _ _
  · apply (mirrors_token .number).bind
    intro number
    apply mirrors_peek.bind
    intro next
    split
    · apply (mirrors_expect .byteSuffix).bind
      intro stop
      exact mirrors_value hValues _ _
    · exact mirrors_value hValues _ _
  · exact mirrors_boolLiteral hValues _ _
  · exact mirrors_boolLiteral hValues _ _
  · exact mirrors_unexpected

theorem mirrors_factor
    {bound : Nat}
    (hBound : maxNesting - depth ≤ bound) :
    Mirrors drift depth
      (factor receiver (maxNesting - depth))
      (countedFactor (leveled receiver) bound) := by
  apply mirrors_levels rfl rfl (fun _ => rfl) _ hBound
  intro depth bound hInner
  rw [factor]
  exact mirrors_factorForm hValues hInner

theorem mirrors_expression
    (depth : Nat) :
    Mirrors drift depth
      (expression receiver (maxNesting - depth))
      (countedExpression (leveled receiver)) :=
  mirrors_expressionOf hValues
    (mirrors_factor hValues (Nat.sub_le _ _))

end Expressions

end Parser

end OnePass

------------------------------------------------------------
-- Statements
------------------------------------------------------------

namespace OnePass

namespace Parser

variable {σ τ ε : Type}
variable {receiver : Receiver σ τ ε}
variable {drift : Drift σ}
variable {depth : Nat}

theorem mirrors_statementList
    {inner : Rule σ ε Unit}
    {inner' : Rule (Leveled σ) ε Unit}
    (hInner : Mirrors drift depth inner inner') :
    Mirrors drift depth (statementList inner)
      (statementList inner') := by
  have hStep :
      ∀ current,
        Mirrors drift depth (statementStep inner current)
          (statementStep inner' current) := by
    intro current
    apply mirrors_peek.bind
    intro next
    split
    · exact mirrors_pure _
    · exact mirrors_pure _
    · apply hInner.bind
      intro _
      exact mirrors_pure _
  apply hInner.bind
  intro _
  exact mirrors_iterate hStep ()

section Statements

variable
  (hValues : ∀ event, drift.Keeps (receiver.value event))
variable
  (hEffects : ∀ event, drift.Keeps (receiver.effect event))

include hEffects

theorem mirrors_effect
    (event : EffectEvent τ) :
    Mirrors drift depth (effect receiver event)
      (effect (leveled receiver) event) :=
  mirrors_announce (hEffects event)

theorem mirrors_branch
    {inner : Rule σ ε Unit}
    {inner' : Rule (Leveled σ) ε Unit}
    (hInner : Mirrors drift depth inner inner') :
    Mirrors drift depth (branch receiver inner)
      (branch (leveled receiver) inner') := by
  apply (mirrors_effect hEffects _).bind
  intro _
  apply hInner.bind
  intro _
  exact mirrors_effect hEffects _

theorem mirrors_jump
    (kind : Kind)
    (event : Span → EffectEvent τ) :
    Mirrors drift depth (jump receiver kind event)
      (jump (leveled receiver) kind event) := by
  apply (mirrors_expect kind).bind
  intro start
  apply (mirrors_expect .semicolon).bind
  intro stop
  exact mirrors_effect hEffects _

section Inside

variable {expression : Rule σ ε (Typed τ)}
variable {expression' : Rule (Leveled σ) ε (Typed τ)}
variable
  (hExpression : Mirrors drift depth expression expression')

include hExpression

theorem mirrors_condition :
    Mirrors drift depth (condition receiver expression)
      (condition (leveled receiver) expression') := by
  apply (mirrors_expect .leftParen).bind
  intro _
  apply hExpression.bind
  intro value
  apply (mirrors_effect hEffects _).bind
  intro _
  apply (mirrors_expect .rightParen).bind
  intro _
  exact mirrors_pure _

theorem mirrors_returnStatement :
    Mirrors drift depth (returnStatement receiver expression)
      (returnStatement (leveled receiver) expression') := by
  apply (mirrors_expect .kwReturn).bind
  intro start
  apply mirrors_peek.bind
  intro next
  split
  · apply mirrors_nextSpan.bind
    intro stop
    apply (mirrors_effect hEffects _).bind
    intro _
    apply (mirrors_expect .semicolon).bind
    intro _
    exact mirrors_pure _
  · apply hExpression.bind
    intro result
    apply (mirrors_effect hEffects _).bind
    intro _
    apply (mirrors_expect .semicolon).bind
    intro _
    exact mirrors_pure _

theorem mirrors_assignment :
    Mirrors drift depth (assignment receiver expression)
      (assignment (leveled receiver) expression') := by
  apply mirrors_identifier.bind
  intro name
  apply (mirrors_expect .assign).bind
  intro _
  apply hExpression.bind
  intro result
  apply (mirrors_expect .semicolon).bind
  intro stop
  exact mirrors_effect hEffects _

theorem mirrors_declaration :
    Mirrors drift depth (declaration receiver expression)
      (declaration (leveled receiver) expression') := by
  have hInitializer :
      Mirrors drift depth (initializer expression)
        (initializer expression') := by
    apply (mirrors_accept .assign).bind
    intro found
    split
    · apply hExpression.bind
      intro value
      exact mirrors_pure _
    · exact mirrors_pure _
  apply mirrors_nextSpan.bind
  intro start
  apply mirrors_declarator.bind
  intro formal
  apply (mirrors_effect hEffects _).bind
  intro _
  apply hInitializer.bind
  intro first
  apply (mirrors_expect .semicolon).bind
  intro stop
  exact mirrors_effect hEffects _

include hValues

/- A statement does what the parts inside it do. -/
theorem mirrors_statementForm
    {inner : Rule σ ε Unit}
    {inner' : Rule (Leveled σ) ε Unit}
    (hInner : Mirrors drift depth inner inner') :
    Mirrors drift depth
      (statementForm receiver expression inner)
      (statementForm (leveled receiver) expression'
        inner') := by
  have hBranch := mirrors_branch hEffects hInner
  have hCondition := mirrors_condition hEffects hExpression
  apply mirrors_lookahead.bind
  intro kinds
  split
  · apply (mirrors_expect .leftBrace).bind
    intro _
    apply (mirrors_effect hEffects _).bind
    intro _
    apply (mirrors_statementList hInner).bind
    intro _
    apply (mirrors_effect hEffects _).bind
    intro _
    apply (mirrors_expect .rightBrace).bind
    intro _
    exact mirrors_pure _
  · apply (mirrors_expect .kwIf).bind
    intro _
    apply hCondition.bind
    intro _
    apply hBranch.bind
    intro _
    apply (mirrors_accept .kwElse).bind
    intro found
    split
    · exact hBranch
    · exact mirrors_pure _
  · apply (mirrors_expect .kwWhile).bind
    intro _
    apply hCondition.bind
    intro _
    apply (mirrors_effect hEffects _).bind
    intro _
    apply hBranch.bind
    intro _
    exact mirrors_effect hEffects _
  · exact mirrors_returnStatement hEffects hExpression
  · exact mirrors_jump hEffects _ _
  · exact mirrors_jump hEffects _ _
  · exact mirrors_assignment hEffects hExpression
  · apply (mirrors_call hValues hExpression).bind
    intro _
    apply (mirrors_expect .semicolon).bind
    intro _
    exact mirrors_pure _
  · split
    · exact mirrors_declaration hEffects hExpression
    · exact mirrors_unexpected
  · exact mirrors_unexpected

end Inside

include hValues

theorem mirrors_statement
    {bound : Nat}
    (hBound : maxNesting - depth ≤ bound) :
    Mirrors drift depth
      (statement receiver (maxNesting - depth))
      (countedStatement (leveled receiver) bound) := by
  apply mirrors_levels rfl rfl (fun _ => rfl) _ hBound
  intro depth bound hInner
  rw [statement]
  exact
    mirrors_statementForm hValues hEffects
      (mirrors_expression hValues depth) hInner

end Statements

end Parser

end OnePass
