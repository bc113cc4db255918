import OnePass.Proofs.Grammar.Boundary
import OnePass.Proofs.Parser.Foresight.Expression

/-
  What statements foretell.

  Main declarations:
    * `Parser.predicts_statementList`
    * `Parser.foretells_statementForm_of_name`
    * `Parser.predicts_statement`
-/

------------------------------------------------------------
-- Statements
------------------------------------------------------------

namespace OnePass

namespace Parser

open Grammar
open scoped Computability

variable {σ τ ε : Type}
variable {receiver : Receiver σ τ ε}
variable {expression : Rule σ ε (Typed τ)}
variable {expression' : Rule Unit Empty (Typed Unit)}
variable {inner : Rule σ ε Unit}
variable {inner' : Rule Unit Empty Unit}

/- Statements, up to a closing brace. -/
theorem predicts_statementList
    (hInner : Predicts stmtWords id inner inner') :
    Predicts stmtsWords id (statementList inner)
      (statementList inner') := by
  have hStep :
      PredictsStep stmtWords id (statementStep inner)
        (statementStep inner') := by
    intro current
    refine ⟨_, _, rfl, rfl, ?_⟩
    intro head
    cases head with
    | none => exact .inl ⟨rfl, rfl⟩
    | some kind =>
        by_cases hKind : kind = .rightBrace
        · subst hKind
          exact .inl ⟨rfl, rfl⟩
        · simp only
          refine .inr (hInner.before fun _ => ?_)
          exact predicts_pure (Option.map id) (some ())
  have hReads : [] ∉ stmtWords := by
    rintro ⟨statement, hNil⟩
    rcases statement.tokens_eq_cons with ⟨first, more, hCons, -⟩
    rw [hCons] at hNil
    cases hNil
  apply Predicts.mono _ stmts_le
  apply hInner.bind
  intro first
  exact predicts_iterate hStep hReads ()

theorem predicts_block
    (hInner : Predicts stmtWords id inner inner') :
    Predicts stmtWords id (block receiver inner)
      (block heedless inner') := by
  apply Predicts.mono _ block_le
  apply (predicts_expect .leftBrace).bind
  intro _
  apply (predicts_effect receiver _ _).after
  intro _
  apply (predicts_statementList hInner).bind
  intro _
  apply (predicts_effect receiver _ _).after
  intro _
  apply (predicts_expect .rightBrace).before
  intro _
  exact predicts_pure id ()

theorem predicts_branch
    (hInner : Predicts stmtWords id inner inner') :
    Predicts stmtWords id (branch receiver inner)
      (branch heedless inner') := by
  apply (predicts_effect receiver _ _).after
  intro _
  apply hInner.before
  intro _
  exact predicts_effect receiver _ _

theorem predicts_condition
    (hExpression :
      Predicts (exprWords topLayer) Typed.erase expression
        expression') :
    Predicts conditionWords id (condition receiver expression)
      (condition heedless expression') := by
  apply (predicts_expect .leftParen).bind
  intro _
  apply hExpression.bind
  intro result
  apply (predicts_effect receiver _ _).after
  intro _
  apply (predicts_expect .rightParen).before
  intro _
  exact predicts_pure id ()

theorem predicts_ifStatement
    (hExpression :
      Predicts (exprWords topLayer) Typed.erase expression
        expression')
    (hInner : Predicts stmtWords id inner inner') :
    Predicts stmtWords id
      (ifStatement receiver expression inner)
      (ifStatement heedless expression' inner') := by
  apply Predicts.mono _ if_le
  apply (predicts_expect .kwIf).bind
  intro _
  apply (predicts_condition hExpression).bind
  intro _
  apply (predicts_branch hInner).bind
  intro _
  apply predicts_accept .kwElse
  · exact predicts_branch hInner
  · exact predicts_pure id ()

theorem predicts_whileStatement
    (hExpression :
      Predicts (exprWords topLayer) Typed.erase expression
        expression')
    (hInner : Predicts stmtWords id inner inner') :
    Predicts stmtWords id
      (whileStatement receiver expression inner)
      (whileStatement heedless expression' inner') := by
  apply Predicts.mono _ while_le
  apply (predicts_expect .kwWhile).bind
  intro _
  apply (predicts_condition hExpression).bind
  intro _
  apply (predicts_effect receiver _ _).after
  intro _
  apply (predicts_branch hInner).before
  intro _
  exact predicts_effect receiver _ _

theorem predicts_returnStatement
    (hExpression :
      Predicts (exprWords topLayer) Typed.erase expression
        expression') :
    Predicts stmtWords id
      (returnStatement receiver expression)
      (returnStatement heedless expression') := by
  have hStop :
      Predicts (leafWords .semicolon) id
        (do let _ ← expect .semicolon : Rule σ ε Unit)
        (do let _ ← expect .semicolon) :=
    (predicts_expect .semicolon).before fun _ =>
      predicts_pure id ()
  apply Predicts.mono _ return_le
  apply (predicts_expect .kwReturn).bind
  intro start
  apply predicts_peek.after
  intro head
  by_cases hHead : head = some .semicolon
  · simp only [id_eq, if_pos hHead]
    apply (predicts_nextSpan.mono le_self_add).bind
    intro stop
    exact (predicts_effect receiver _ _).after fun _ => hStop
  · simp only [id_eq, if_neg hHead]
    apply (hExpression.mono le_add_self).bind
    intro result
    exact (predicts_effect receiver _ _).after fun _ => hStop

theorem predicts_jump
    {kind : Kind}
    (meaning : Jump)
    (hMeans : jump? kind = some meaning) :
    Predicts stmtWords id (jump receiver kind meaning.event)
      (jump heedless kind meaning.event) := by
  have hWord : leafWords kind ≤ signWords jump? :=
    leaf_le_sign hMeans
  apply Predicts.mono _ jump_le
  apply ((predicts_expect kind).mono hWord).bind
  intro start
  apply (predicts_expect .semicolon).before
  intro stop
  exact predicts_effect receiver _ _

theorem predicts_initializer
    (hExpression :
      Predicts (exprWords topLayer) Typed.erase expression
        expression') :
    Predicts initializerWords (Option.map Typed.erase)
      (initializer expression) (initializer expression') := by
  apply predicts_accept .assign
  · apply hExpression.before
    intro result
    exact
      predicts_pure (Option.map Typed.erase) (some result)
  · exact predicts_pure (Option.map Typed.erase) none

theorem predicts_declaration
    (hExpression :
      Predicts (exprWords topLayer) Typed.erase expression
        expression') :
    Predicts stmtWords id (declaration receiver expression)
      (declaration heedless expression') := by
  apply Predicts.mono _ declaration_le
  apply predicts_nextSpan.after
  intro start
  apply predicts_declarator.bind
  intro formal
  apply (predicts_effect receiver _ _).after
  intro _
  apply (predicts_initializer hExpression).bind
  intro first
  apply (predicts_expect .semicolon).before
  intro stop
  exact predicts_effect receiver _ _

/- A name that no statement starts with is given up. -/
theorem statementForm_of_name
    {first : Token}
    {rest : List Token}
    {state : σ}
    (hName : first.kind = .identifier)
    (hAssign : headKind rest ≠ some .assign)
    (hCall : headKind rest ≠ some .leftParen) :
    statementForm receiver expression inner
        ⟨first :: rest, state⟩ =
      .error (.stuck .unexpected) ⟨first :: rest, state⟩ := by
  rcases first with ⟨kind, text, span⟩
  cases hName
  unfold statementForm
  rw [lookahead_bind]
  dsimp only [List.tail_cons]
  cases hHead : headKind rest with
  | none => rfl
  | some second =>
      cases second with
      | assign => exact absurd hHead hAssign
      | leftParen => exact absurd hHead hCall
      | _ => rfl

/-
  A name is given up because of the token after it, so that
  it is this one that no statement goes on with.
-/
theorem foretells_statementForm_of_name
    {first : Token}
    {rest : List Token}
    {state : σ}
    (hName : first.kind = .identifier)
    (hAssign : headKind rest ≠ some .assign)
    (hCall : headKind rest ≠ some .leftParen) :
    Foretells stmtWords
      (fun tokens =>
        statementForm heedless expression' inner'
          ⟨tokens, ()⟩)
      id (first :: rest)
      (statementForm receiver expression inner
        ⟨first :: rest, state⟩) := by
  have hTakes : TakesStatement stmtWords [] := by
    intro statement
    exact ⟨[], statement, (List.append_nil _).symm⟩
  have hSpoken : Spoken stmtWords := inferInstance
  rcases hSpoken.exists_mem with ⟨words, hWords⟩
  rw [statementForm_of_name hName hAssign hCall]
  refine
    ⟨[], words, hWords, rfl,
      fun _ => .inr ⟨hName, hTakes, ?_⟩⟩
  intro second hSecond more
  have hHead :
      headKind (second :: more) = headKind rest :=
    headKind_append_cons [] hSecond more
  rw [← hHead] at hAssign hCall
  exact statementForm_of_name hName hAssign hCall

/- A statement foretells if what is inside it does. -/
theorem predicts_statementForm
    (hExpression :
      Predicts (exprWords topLayer) Typed.erase expression
        expression')
    (hInner : Predicts stmtWords id inner inner') :
    Predicts stmtWords id
      (statementForm receiver expression inner)
      (statementForm heedless expression' inner') := by
  have hDeclaration :
      Predicts stmtWords id (declaration receiver expression)
        (declaration heedless expression') :=
    predicts_declaration hExpression
  rintro ⟨_ | ⟨⟨kind, text, span⟩, rest⟩, state⟩
  · exact foretells_first (fun _ => rfl) predicts_unexpected
  · cases kind with
    | leftBrace =>
        exact
          foretells_first (fun _ => rfl)
            (predicts_block hInner)
    | kwIf =>
        exact
          foretells_first (fun _ => rfl)
            (predicts_ifStatement hExpression hInner)
    | kwWhile =>
        exact
          foretells_first (fun _ => rfl)
            (predicts_whileStatement hExpression hInner)
    | kwReturn =>
        exact
          foretells_first (fun _ => rfl)
            (predicts_returnStatement hExpression)
    | kwBreak =>
        exact
          foretells_first (fun _ => rfl)
            (predicts_jump .break rfl)
    | kwContinue =>
        exact
          foretells_first (fun _ => rfl)
            (predicts_jump .continue rfl)
    | kwConst | kwInt | kwByte | kwBool =>
        exact foretells_first (fun _ => rfl) hDeclaration
    | identifier =>
        by_cases hAssign : headKind rest = some .assign
        · refine
            foretells_second (by rw [hAssign]; rfl)
              (by rw [hAssign]; rfl) rfl (fun _ => rfl) ?_
              assignment_le
          apply (predicts_expect .assign).bind
          intro _
          apply hExpression.bind
          intro result
          apply (predicts_expect .semicolon).before
          intro stop
          exact predicts_effect receiver _ _
        · by_cases hCall : headKind rest = some .leftParen
          · have hLanguage :=
              (mul_le_mul' call_le le_rfl).trans
                callStatement_le
            rw [mul_assoc] at hLanguage
            refine
              foretells_second
                (by rw [hCall]; exact bind_assoc _ _ _)
                (by rw [hCall]; exact bind_assoc _ _ _) rfl
                (fun _ => rfl) ?_ hLanguage
            apply (predicts_callAfter hExpression _).bind
            intro _
            apply (predicts_expect .semicolon).before
            intro _
            exact predicts_pure id ()
          · exact
              foretells_statementForm_of_name rfl hAssign hCall
    | _ =>
        exact
          foretells_first (fun _ => rfl) predicts_unexpected

/- A statement foretells one with a larger budget. -/
theorem predicts_statement
    {budget budget' : Nat}
    (hBudget : budget ≤ budget') :
    Predicts stmtWords id (statement receiver budget)
      (statement heedless budget') := by
  induction budget generalizing budget' with
  | zero => exact predicts_tooDeep
  | succ budget ih =>
      cases budget' with
      | zero => exact absurd hBudget (Nat.not_succ_le_zero _)
      | succ budget' =>
          have hLess := Nat.le_of_succ_le_succ hBudget
          rw [statement, statement]
          exact
            predicts_statementForm (predicts_expression hLess)
              (ih hLess)

end Parser

end OnePass
