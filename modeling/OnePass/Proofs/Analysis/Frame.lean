import OnePass.Proofs.Analysis.Adequacy
import OnePass.Proofs.Analysis.Movement
import OnePass.Proofs.Parser.Depth

/-
  What expressions and statements leave behind.

  An expression changes nothing, whether it is read to its
  end or not. A complete statement closes every scope and
  every loop that it opens, and so it changes nothing
  either, except that a declaration adds its variable to the
  innermost scope. This holds in every state, and at every
  depth of the parser, which is the same afterwards.

  Main declarations:
    * `Analysis.Adds`
    * `Grammar.Expr.adds_nothing`, `Grammar.Stmt.adds_binds`
    * `Parser.ExpressionFrame`, `Parser.StatementFrame`
    * `frame_of_expression_and_statement`
-/

------------------------------------------------------------
-- Acts That Add Variables
------------------------------------------------------------

namespace OnePass

namespace Analysis

variable {α β : Type}

/- If the act answers, it has added exactly these variables. -/
def Adds
    (act : EStateM Stop State α)
    (bindings : List Binding) : Prop :=
  ∀ before answer after,
    act before = .ok answer after →
      after = before.bindAll bindings

theorem Adds.bind
    {first : EStateM Stop State α}
    {next : α → EStateM Stop State β}
    {early late : List Binding}
    (hFirst : Adds first early)
    (hNext : ∀ answer, Adds (next answer) late) :
    Adds (first >>= next) (early ++ late) := by
  intro before final after hOk
  rcases bind_eq_ok_iff.mp hOk with
    ⟨answer, between, hAnswer, hFinal⟩
  rw [hNext answer _ _ _ hFinal, hFirst _ _ _ hAnswer,
    State.bindAll_append]

theorem adds_pure
    (answer : α) :
    Adds (pure answer) [] := by
  intro before final after hOk
  exact (pure_eq_ok_iff.mp hOk).2.symm

theorem adds_value
    (event : ValueEvent Ty) :
    Adds (receiver.value event) [] := by
  intro before ty after hOk
  exact (receiver_value_eq_ok_iff.mp hOk).2.symm

theorem adds_check
    {event : EffectEvent Ty}
    (hCheck : event.IsCheck) :
    Adds (receiver.effect event) [] := by
  intro before answer after hOk
  have hMoves :=
    moves_of_step (receiver_effect_eq_ok_iff.mp hOk)
  cases hMoves with
  | check _ => rfl
  | _ => cases hCheck

theorem adds_declaration
    (isConst : Bool)
    (ty : Ty)
    (name : Identifier)
    (initializer : Option (Typed Ty))
    (span : Span) :
    Adds
      (receiver.effect
        (.declaration isConst ty name initializer span))
      [⟨name.name, ty, isConst⟩] := by
  intro before answer after hOk
  have hMoves :=
    moves_of_step (receiver_effect_eq_ok_iff.mp hOk)
  cases hMoves with
  | check hCheck => cases hCheck
  | declaration hFree => rfl

/- A scope takes its variables with it. -/
theorem adds_inScope
    {inside : EStateM Stop State Unit}
    {bindings : List Binding}
    (hInside : Adds inside bindings) :
    Adds (Grammar.inScope receiver inside) [] := by
  intro before answer after hOk
  rw [Grammar.inScope] at hOk
  rcases bind_eq_ok_iff.mp hOk with
    ⟨_, opened, hOpen, hRest⟩
  rcases bind_eq_ok_iff.mp hRest with
    ⟨_, filled, hFill, hClose⟩
  have hOpened : before.openScope = opened :=
    Except.ok.inj (receiver_effect_eq_ok_iff.mp hOpen)
  rw [receiver_effect_eq_ok_iff,
    hInside _ _ _ hFill, ← hOpened,
    step_closeScope_bindAll] at hClose
  exact (Except.ok.inj hClose).symm

/- A loop is left as it was entered. -/
theorem adds_inLoop
    {inside : EStateM Stop State Unit}
    (hInside : Adds inside []) :
    Adds
      (do
        receiver.effect .openLoop
        inside
        receiver.effect .closeLoop)
      [] := by
  intro before answer after hOk
  rcases bind_eq_ok_iff.mp hOk with
    ⟨_, opened, hOpen, hRest⟩
  rcases bind_eq_ok_iff.mp hRest with
    ⟨_, between, hBetween, hClose⟩
  have hOpened : before.openLoop = opened :=
    Except.ok.inj (receiver_effect_eq_ok_iff.mp hOpen)
  rw [receiver_effect_eq_ok_iff,
    hInside _ _ _ hBetween, ← hOpened] at hClose
  exact (Except.ok.inj hClose).symm

end Analysis

namespace Grammar

open Analysis

mutual

/- An expression that is announced changes nothing. -/
theorem Expr.adds_nothing
    {layer : Nat} :
    (expr : Expr layer) →
      Adds (expr.announce Analysis.receiver) []
| .negation word operand => by
    rw [Expr.announce]
    apply (Expr.adds_nothing operand).bind
    intro inner
    exact adds_value _
| .cast left target right operand => by
    rw [Expr.announce]
    apply (Expr.adds_nothing operand).bind
    intro inner
    exact adds_value _
| .paren left inner right => by
    rw [Expr.announce]
    exact Expr.adds_nothing inner
| .call parts => by
    rw [Expr.announce]
    exact Call.adds_nothing parts
| .name leaf => by
    rw [Expr.announce]
    exact adds_value _
| .string leaf => by
    rw [Expr.announce]
    exact adds_value _
| .number digits => by
    rw [Expr.announce]
    exact adds_value _
| .byte digits suffix => by
    rw [Expr.announce]
    exact adds_value _
| .bool word => by
    rw [Expr.announce]
    exact adds_value _
| .lift operand => by
    rw [Expr.announce]
    exact Expr.adds_nothing operand
| .binary left operator right => by
    rw [Expr.announce]
    apply (Expr.adds_nothing left).bind
    intro before
    apply (Expr.adds_nothing right).bind
    intro after
    exact adds_value _

theorem Call.adds_nothing :
    (call : Call) →
      Adds (call.announce Analysis.receiver) []
| .bare callee left right => by
    rw [Call.announce]
    exact adds_value _
| .applied callee left arguments right => by
    rw [Call.announce]
    apply (announceArguments_adds_nothing arguments).bind
    intro values
    exact adds_value _

theorem announceArguments_adds_nothing :
    (arguments : Separated (Expr topLayer)) →
      Adds (announceArguments Analysis.receiver arguments) []
| .one item => by
    rw [announceArguments]
    apply (Expr.adds_nothing item).bind
    intro value
    exact adds_pure _
| .more items comma item => by
    rw [announceArguments]
    apply (announceArguments_adds_nothing items).bind
    intro before
    apply (Expr.adds_nothing item).bind
    intro value
    exact adds_pure _

end

theorem Expr.value_adds_nothing
    {layer : Nat}
    (expr : Expr layer) :
    Adds (expr.value Analysis.receiver) [] := by
  apply expr.adds_nothing.bind
  intro ty
  exact adds_pure _

theorem Condition.adds_nothing
    (condition : Condition) :
    Adds (condition.announce Analysis.receiver) [] := by
  apply condition.value.value_adds_nothing.bind
  intro value
  exact adds_check trivial

theorem announceInitializer_adds_nothing
    (initializer : Option Initializer) :
    Adds (announceInitializer Analysis.receiver initializer)
      [] := by
  cases initializer with
  | none => exact adds_pure _
  | some present =>
      apply present.value.value_adds_nothing.bind
      intro value
      exact adds_pure _

theorem Declarator.adds_nothing
    (declarator : Declarator) :
    Adds
      (Analysis.receiver.effect
        (.declarationStart declarator.formal.isConst
          declarator.formal.ty declarator.formal.name))
      [] :=
  adds_check trivial

/- Neither jump changes anything. -/
theorem Jump.isCheck_event
    (jump : Jump)
    (span : Span) :
    (jump.event span : EffectEvent Ty).IsCheck := by
  cases jump <;> trivial

mutual

/- A statement adds the variable that it declares. -/
theorem Stmt.adds_binds :
    (statement : Stmt) →
      Adds (statement.announce Analysis.receiver)
        statement.binds
| .block left body right => by
    rw [Stmt.announce]
    exact adds_inScope (Stmts.adds_binds body)
| .declaration declarator initializer stop => by
    rw [Stmt.announce]
    apply declarator.adds_nothing.bind
    intro _
    apply (announceInitializer_adds_nothing initializer).bind
    intro value
    exact adds_declaration _ _ _ _ _
| .assignment name sign value stop => by
    rw [Stmt.announce]
    apply value.value_adds_nothing.bind
    intro result
    exact adds_check trivial
| .call parts stop => by
    rw [Stmt.announce]
    apply parts.adds_nothing.bind
    intro _
    exact adds_pure _
| .returnVoid word stop => by
    rw [Stmt.announce]
    exact adds_check trivial
| .returnValue word value stop => by
    rw [Stmt.announce]
    apply value.value_adds_nothing.bind
    intro result
    exact adds_check trivial
| .ifThen word condition branch => by
    rw [Stmt.announce]
    apply condition.adds_nothing.bind
    intro _
    exact adds_inScope (Stmt.adds_binds branch)
| .ifElse word condition branch other otherwise => by
    rw [Stmt.announce]
    apply condition.adds_nothing.bind
    intro _
    apply (adds_inScope (Stmt.adds_binds branch)).bind
    intro _
    exact adds_inScope (Stmt.adds_binds otherwise)
| .whileLoop word condition body => by
    rw [Stmt.announce]
    apply condition.adds_nothing.bind
    intro _
    exact adds_inLoop (adds_inScope (Stmt.adds_binds body))
| .jump word stop => by
    rw [Stmt.announce]
    exact adds_check (word.meaning.isCheck_event _)

/- Statements add the variables that they declare. -/
theorem Stmts.adds_binds :
    (statements : Stmts) →
      Adds (statements.announce Analysis.receiver)
        statements.binds
| .one statement => by
    rw [Stmts.announce]
    exact Stmt.adds_binds statement
| .more statement statements => by
    rw [Stmts.announce]
    apply (Stmt.adds_binds statement).bind
    intro _
    exact Stmts.adds_binds statements

end

end Grammar

end OnePass

------------------------------------------------------------
-- Frames
------------------------------------------------------------

namespace OnePass

namespace Analysis

open OnePass.Parser (Drift)

/- The state stays as it is. -/
def unchanged : Drift State where
  Moves before after := after = before
  refl _ := rfl
  trans hFirst hSecond := hSecond.trans hFirst

/- The state may become any other. -/
def arbitrary : Drift State where
  Moves _ _ := True
  refl _ := trivial
  trans _ _ := trivial

/- An expression is checked without changing the state. -/
theorem keeps_unchanged
    (event : ValueEvent Ty) :
    unchanged.Keeps (receiver.value event) := by
  intro state
  unfold receiver
  cases hType : valueType state.symbols event with
  | ok ty =>
      simp only [hType]
      rfl
  | error stop =>
      simp only [hType]
      rfl

theorem keeps_arbitrary
    {α : Type}
    (act : EStateM Stop State α) :
    arbitrary.Keeps act := by
  intro state
  cases act state with
  | ok answer after => trivial
  | error stop after => trivial

end Analysis

namespace Parser

open Analysis (State Stop)

/-
  Reading an expression leaves the state and the depth as
  they were. A complete one takes up a token or more.
-/
def ExpressionFrame
    (before : Cursor (Leveled State)) :
    EStateM.Result (Halt Stop) (Cursor (Leveled State))
      (Typed Ty) → Prop
| .ok _ after =>
    after.state = before.state ∧
      after.rest <:+ before.rest ∧
        after.rest.length < before.rest.length
| .error _ after =>
    after.state = before.state ∧ after.rest <:+ before.rest

/-
  Reading a statement leaves the depth as it was. A complete
  one takes up its tokens, of which there are some, and adds
  the variable that it declares, if it is a declaration.
-/
def StatementFrame
    (before : Cursor (Leveled State)) :
    EStateM.Result (Halt Stop) (Cursor (Leveled State))
      Unit → Prop
| .ok _ after =>
    after.state.depth = before.state.depth ∧
      ∃ tree : Grammar.Stmt,
        before.rest = tree.tokens ++ after.rest ∧
          after.rest.length < before.rest.length ∧
            after.state.state =
              before.state.state.bindAll tree.binds
| .error _ after =>
    after.state.depth = before.state.depth ∧
      after.rest <:+ before.rest

theorem expression_mirrored
    (depth : Nat) :
    Mirrors Analysis.unchanged depth
      (expression Analysis.receiver (maxNesting - depth))
      (countedExpression (leveled Analysis.receiver)) :=
  mirrors_expression Analysis.keeps_unchanged depth

theorem statement_mirrored
    (depth : Nat) :
    Mirrors Analysis.arbitrary depth
      (statement Analysis.receiver (maxNesting - depth))
      (countedStatement (leveled Analysis.receiver)
        maxNesting) :=
  mirrors_statement
    (fun _ => Analysis.keeps_arbitrary _)
    (fun _ => Analysis.keeps_arbitrary _)
    (Nat.sub_le maxNesting depth)

/- A complete expression is at least one token long. -/
theorem length_lt_of_expression
    {budget : Nat}
    {before after : Cursor State}
    {answer : Typed Ty}
    (hOk :
      expression Analysis.receiver budget before =
        .ok answer after) :
    after.rest.length < before.rest.length := by
  rcases (reads_expression _ _ _ _ _).mp hOk with
    ⟨tree, hTokens, -⟩
  rcases tree.tokens_eq_cons with ⟨first, more, hTree, -⟩
  have hRest : before.rest = tree.tokens ++ after.rest :=
    hTokens
  rw [hRest, hTree, List.length_append, List.length_cons]
  omega

theorem expressionFrame
    (depth : Nat)
    (cursor : Cursor State) :
    ExpressionFrame (cursor.leveled depth)
      (leveledOutcome depth
        (expression Analysis.receiver (maxNesting - depth)
          cursor)) := by
  have hLeads := (expression_mirrored depth).leads cursor
  cases hOutcome :
      expression Analysis.receiver (maxNesting - depth)
        cursor with
  | ok answer after =>
      rw [hOutcome] at hLeads
      have hState : after.state = cursor.state := hLeads.2
      refine
        ⟨?_, hLeads.1, length_lt_of_expression hOutcome⟩
      exact congrArg (Leveled.mk · depth) hState
  | error halt after =>
      rw [hOutcome] at hLeads
      have hState : after.state = cursor.state := hLeads.2
      exact ⟨congrArg (Leveled.mk · depth) hState, hLeads.1⟩

theorem statementFrame
    (depth : Nat)
    (cursor : Cursor State) :
    StatementFrame (cursor.leveled depth)
      (leveledOutcome depth
        (statement Analysis.receiver (maxNesting - depth)
          cursor)) := by
  cases hOutcome :
      statement Analysis.receiver (maxNesting - depth)
        cursor with
  | ok answer after =>
      rcases (reads_statement _ _ _ _ _).mp hOutcome with
        ⟨tree, hTokens, -, -, hAnnounce⟩
      have hRest : cursor.rest = tree.tokens ++ after.rest :=
        hTokens
      rcases tree.tokens_eq_cons with ⟨first, more, hTree, -⟩
      refine ⟨rfl, tree, hRest, ?_, ?_⟩
      · change after.rest.length < cursor.rest.length
        rw [hRest, hTree, List.length_append,
          List.length_cons]
        omega
      · exact tree.adds_binds _ _ _ hAnnounce
  | error halt after =>
      have hLeads := (statement_mirrored depth).leads cursor
      rw [hOutcome] at hLeads
      exact ⟨rfl, hLeads.1⟩

end Parser

end OnePass

------------------------------------------------------------
-- Every Place Of A Run
------------------------------------------------------------

namespace OnePass

open OnePass.Parser

/-
  The frame of expressions and statements, wherever they are
  read: the parser that counts its depth does what the
  parser does with the budget that is left, and leaves depth
  and state as the frames say.
-/
theorem frame_of_expression_and_statement
    (unread : List Token)
    (state : Analysis.State)
    (depth : Nat) :
    let receiver := leveled Analysis.receiver
    let cursor := Cursor.leveled depth ⟨unread, state⟩
    countedExpression receiver cursor =
        leveledOutcome depth
          (expression Analysis.receiver (maxNesting - depth)
            ⟨unread, state⟩) ∧
      ExpressionFrame cursor
        (countedExpression receiver cursor) ∧
      countedStatement receiver maxNesting cursor =
        leveledOutcome depth
          (statement Analysis.receiver (maxNesting - depth)
            ⟨unread, state⟩) ∧
      StatementFrame cursor
        (countedStatement receiver maxNesting cursor) := by
  intro receiver cursor
  have hExpression :=
    (expression_mirrored depth).same ⟨unread, state⟩
  have hStatement :=
    (statement_mirrored depth).same ⟨unread, state⟩
  refine ⟨hExpression, ?_, hStatement, ?_⟩
  · rw [hExpression]
    exact expressionFrame depth ⟨unread, state⟩
  · rw [hStatement]
    exact statementFrame depth ⟨unread, state⟩

end OnePass
