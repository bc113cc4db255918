import OnePass.Proofs.Parser.Scripted.Expression

/-
  Statements follow their scripts.

  Main declarations:
    * `Parser.Performs`
    * `Parser.performs_statementList`
    * `Parser.performs_returnStatement`
    * `Parser.performs_declaration`
    * `Parser.performs_statement`
-/

------------------------------------------------------------
-- Lists And Branches
------------------------------------------------------------

namespace OnePass

namespace Parser

open Grammar

variable {σ τ ε α χ : Type}
variable {receiver : Receiver σ τ ε}
variable {expression : Rule (Recording σ τ) ε (Typed τ)}
variable {inner : Rule (Recording σ τ) ε Unit}

/- The rule follows scripts, and answers nothing. -/
abbrev Performs
    (script : χ → Script)
    (rule : Rule (Recording σ τ) ε Unit) : Prop :=
  Plays script (fun _ _ => True) rule

/- The last event of a construct completes it. -/
theorem enacts_effect_last
    {script : χ → Script}
    {done before : Script}
    (hOpening :
      ∀ tree, Script.IsOpening (done ++ script tree))
    (tree : χ)
    {event : EffectEvent τ}
    (hScript :
      before ++ [.announce (.effect event.erase)] =
        done ++ script tree) :
    Enacts before (effect receiver.recorded event)
      fun _ after =>
        ∃ tree, after = done ++ script tree ∧ True := by
  apply enacts_effect
  · exact ⟨tree, hScript, trivial⟩
  · rw [hScript]
    exact hOpening tree

/- What is done inside a scope, with the scope around it. -/
theorem performs_branch
    {script : χ → Script}
    {body : Rule (Recording σ τ) ε Unit}
    [Nonempty χ]
    (hBody : Performs script body) :
    Performs (fun tree => inOwnScope (script tree))
      (branch receiver.recorded body) := by
  intro done hOpening
  apply enacts_effect_bind
  · apply (hOpening (Classical.arbitrary χ)).cut
    simp [inOwnScope]
  apply hBody.bind
  · intro tree
    apply (hOpening tree).cut
    simp [inOwnScope]
  rintro tree _ -
  apply enacts_effect_last hOpening tree
  simp [inOwnScope]

theorem performs_statementList
    (hInner : Performs Stmt.script inner) :
    Performs Stmts.script (statementList inner) := by
  intro done hOpening
  have hConcat :
      ∀ (statements : Stmts) (last : Stmt),
        ∃ more : Stmts,
          done ++ statements.script ++ last.script =
            done ++ more.script := by
    intro statements last
    rcases statements.exists_concat last with ⟨more, hMore⟩
    exact ⟨more, by rw [hMore, List.append_assoc]⟩
  apply hInner.bind
  · intro first
    exact hOpening (.one first)
  intro first _ _
  apply enacts_iterate
  · rintro _ _ ⟨statements, rfl, -⟩
    unfold statementStep
    apply enacts_peek
    intro next
    split
    · exact enacts_pure ⟨statements, rfl, trivial⟩
    · exact enacts_pure ⟨statements, rfl, trivial⟩
    · apply hInner.bind
      · intro last
        rcases hConcat statements last with ⟨more, hMore⟩
        exact hMore.symm ▸ hOpening more
      · intro last _ _
        rcases hConcat statements last with ⟨more, hMore⟩
        exact enacts_pure ⟨more, hMore, trivial⟩
  · exact ⟨.one first, rfl, trivial⟩

theorem performs_block
    (hInner : Performs Stmt.script inner) :
    Performs Stmt.script (block receiver.recorded inner) := by
  have hBlock :
      block receiver.recorded inner =
        (do
          let _ ← expect .leftBrace
          branch receiver.recorded (statementList inner)
          let _ ← expect .rightBrace) := by
    simp only [block, branch, bind_assoc]
  intro done hOpening
  rw [hBlock]
  apply (plays_expect .leftBrace).bind
  · intro left
    apply
      (hOpening
        (.block left (Classical.arbitrary _)
          (Classical.arbitrary _))).cut
    simp [Stmt.script]
  rintro left _ -
  apply (performs_branch (performs_statementList hInner)).bind
  · intro body
    apply
      (hOpening
        (.block left body (Classical.arbitrary _))).cut
    simp [Stmt.script]
  rintro body _ -
  apply (plays_expect .rightBrace).bind
  · intro right
    apply (hOpening (.block left body right)).cut
    simp [Stmt.script]
  rintro right _ -
  refine enacts_pure ⟨.block left body right, ?_, trivial⟩
  simp [Stmt.script]

end Parser

end OnePass

------------------------------------------------------------
-- Control Flow
------------------------------------------------------------

namespace OnePass

namespace Parser

open Grammar

variable {σ τ ε : Type}
variable {receiver : Receiver σ τ ε}
variable {expression : Rule (Recording σ τ) ε (Typed τ)}
variable {inner : Rule (Recording σ τ) ε Unit}

/- From the word to the semicolon. -/
theorem performs_jump
    {kind : Kind}
    (meaning : Jump)
    (hMeans : jump? kind = some meaning) :
    Performs Stmt.script
      (jump receiver.recorded kind meaning.event) := by
  intro done hOpening
  have hJump :
      ∀ (word : Leaf kind) (stop : Leaf .semicolon),
        Script.IsOpening
          (done ++
            (Stmt.jump ⟨word.token, meaning, hMeans⟩
              stop).script) :=
    fun word stop => hOpening (.jump _ stop)
  apply (plays_expect kind).bind
  · intro word
    apply (hJump word (Classical.arbitrary _)).cut
    simp [Stmt.script]
  rintro word _ rfl
  apply (plays_expect .semicolon).bind
  · intro stop
    apply (hJump word stop).cut
    simp [Stmt.script]
  rintro stop _ rfl
  apply enacts_of_ordered
  intro hOrdered
  have hSpan :
      word.span.cover stop.span =
        extent [word.token, stop.token] := by
    apply cover_tokens word.token stop.token []
    simpa using hOrdered
  rw [hSpan]
  apply
    enacts_effect_last hOpening
      (.jump ⟨word.token, meaning, hMeans⟩ stop)
  simp [Stmt.script, Stmt.tokens, Jump.erase_event]

instance : Nonempty Condition :=
  ⟨⟨Classical.arbitrary _, Classical.arbitrary _,
    Classical.arbitrary _⟩⟩

section Expressions

variable
  (hExpression :
    Plays (@Expr.script topLayer) Outlines expression)

include hExpression

theorem performs_condition :
    Performs Condition.script
      (condition receiver.recorded expression) := by
  intro done hOpening
  apply (plays_expect .leftParen).bind
  · intro left
    apply
      (hOpening
        ⟨left, Classical.arbitrary _,
          Classical.arbitrary _⟩).cut
    simp [Condition.script]
  rintro left _ -
  apply hExpression.bind
  · intro value
    apply
      (hOpening ⟨left, value, Classical.arbitrary _⟩).cut
    simp [Condition.script]
  intro value answer hAnswer
  have hEvent :
      (EffectEvent.condition answer).erase =
        .condition value.outline := by
    rw [EffectEvent.erase_condition, hAnswer]
  apply enacts_effect_bind
  · rw [hEvent]
    apply
      (hOpening ⟨left, value, Classical.arbitrary _⟩).cut
    simp [Condition.script]
  rw [hEvent]
  apply (plays_expect .rightParen).bind
  · intro right
    apply (hOpening ⟨left, value, right⟩).cut
    simp [Condition.script]
  rintro right _ -
  refine enacts_pure ⟨⟨left, value, right⟩, ?_, trivial⟩
  simp [Condition.script]

theorem performs_ifStatement
    (hInner : Performs Stmt.script inner) :
    Performs Stmt.script
      (ifStatement receiver.recorded expression inner) := by
  intro done hOpening
  apply (plays_expect .kwIf).bind
  · intro word
    apply
      (hOpening
        (.ifThen word (Classical.arbitrary _)
          (Classical.arbitrary _))).cut
    simp [Stmt.script]
  rintro word _ -
  apply (performs_condition hExpression).bind
  · intro condition
    apply
      (hOpening
        (.ifThen word condition (Classical.arbitrary _))).cut
    simp [Stmt.script]
  rintro condition _ -
  apply (performs_branch hInner).bind
  · intro branch
    apply (hOpening (.ifThen word condition branch)).cut
    simp [Stmt.script]
  rintro branch _ -
  apply (plays_accept .kwElse).bind
  · intro other?
    cases other? with
    | none =>
        apply (hOpening (.ifThen word condition branch)).cut
        simp [Stmt.script, silent]
    | some other =>
        apply
          (hOpening
            (.ifElse word condition branch other
              (Classical.arbitrary _))).cut
        simp [Stmt.script, silent]
  rintro other? _ rfl
  cases other? with
  | none =>
      refine
        enacts_pure
          ⟨.ifThen word condition branch, ?_, trivial⟩
      simp [Stmt.script, silent]
  | some other =>
      have hElse :
          ∀ otherwise : Stmt,
            done ++ [.read word.token] ++ condition.script ++
                  inOwnScope branch.script ++
                silent [other.token] ++
                inOwnScope otherwise.script =
              done ++
                (Stmt.ifElse word condition branch other
                  otherwise).script := by
        intro otherwise
        simp [Stmt.script, silent]
      apply (performs_branch hInner).last
      · intro otherwise
        exact (hElse otherwise).symm ▸ hOpening _
      · intro otherwise _ _
        exact ⟨_, hElse otherwise, trivial⟩

theorem performs_whileStatement
    (hInner : Performs Stmt.script inner) :
    Performs Stmt.script
      (whileStatement receiver.recorded expression inner) := by
  intro done hOpening
  apply (plays_expect .kwWhile).bind
  · intro word
    apply
      (hOpening
        (.whileLoop word (Classical.arbitrary _)
          (Classical.arbitrary _))).cut
    simp [Stmt.script]
  rintro word _ -
  apply (performs_condition hExpression).bind
  · intro condition
    apply
      (hOpening
        (.whileLoop word condition
          (Classical.arbitrary _))).cut
    simp [Stmt.script]
  rintro condition _ -
  apply enacts_effect_bind
  · apply
      (hOpening
        (.whileLoop word condition
          (Classical.arbitrary _))).cut
    simp [Stmt.script]
  apply (performs_branch hInner).bind
  · intro body
    apply (hOpening (.whileLoop word condition body)).cut
    simp [Stmt.script]
  rintro body _ -
  apply
    enacts_effect_last hOpening
      (.whileLoop word condition body)
  simp [Stmt.script]

/- From the word to the end of the value. -/
theorem enacts_returnValue
    {done : Script}
    (hOpening :
      ∀ tree : Stmt, Script.IsOpening (done ++ tree.script))
    (word : Leaf .kwReturn) :
    Enacts (done ++ [.read word.token])
      (do
        let result ← expression
        effect receiver.recorded
          (.returnValue result
            (word.span.cover result.span))
        let _ ← expect .semicolon)
      fun _ after =>
        ∃ tree : Stmt, after = done ++ tree.script ∧ True := by
  apply hExpression.bind
  · intro value
    apply
      (hOpening
        (.returnValue word value (Classical.arbitrary _))).cut
    simp [Stmt.script]
  intro value answer hAnswer
  apply enacts_of_ordered
  intro hOrdered
  have hSpan :
      word.span.cover answer.span =
        extent (word.token :: value.tokens) := by
    rw [hAnswer.span_eq]
    apply cover_token word.token [] value.tokens_ne_nil
    simpa [Expr.tokens_script] using hOrdered
  have hEvent :
      (EffectEvent.returnValue answer
          (word.span.cover answer.span)).erase =
        .returnValue value.outline
          (extent (word.token :: value.tokens)) := by
    rw [EffectEvent.erase_returnValue, hAnswer, hSpan]
  apply enacts_effect_bind
  · rw [hEvent]
    apply
      (hOpening
        (.returnValue word value (Classical.arbitrary _))).cut
    simp [Stmt.script]
  rw [hEvent]
  apply (plays_expect .semicolon).bind
  · intro stop
    apply (hOpening (.returnValue word value stop)).cut
    simp [Stmt.script]
  rintro stop _ -
  refine
    enacts_pure ⟨.returnValue word value stop, ?_, trivial⟩
  simp [Stmt.script]

/- Without a value, the semicolon is ahead. -/
theorem performs_returnStatement :
    Performs Stmt.script
      (returnStatement receiver.recorded expression) := by
  intro done hOpening
  apply (plays_expect .kwReturn).bind
  · intro word
    apply
      (hOpening
        (.returnVoid word (Classical.arbitrary _))).cut
    simp [Stmt.script]
  rintro word _ rfl
  rintro ⟨rest, state⟩ hOrdered
  rw [peek_bind]
  by_cases hNext : headKind rest = some .semicolon
  · rw [if_pos hNext]
    rcases rest with _ | ⟨⟨kind, text, span⟩, rest⟩
    · cases hNext
    · cases hNext
      have hSpan :
          word.span.cover span =
            extent
              (Stmt.returnVoid word ⟨text, span⟩).tokens := by
        apply
          cover_tokens word.token ⟨.semicolon, text, span⟩ []
        apply Ordered.of_append_left
        simpa using hOrdered
      have hScript :
          done ++ [.read word.token] ++
              [.read ⟨.semicolon, text, span⟩,
                .announce
                  (.effect
                    (.returnVoid (word.span.cover span)))] =
            done ++
              (Stmt.returnVoid word ⟨text, span⟩).script := by
        rw [hSpan]
        simp [Stmt.script, Leaf.token]
      apply ends_ahead
      · exact ⟨_, hScript, trivial⟩
      · exact hScript.symm ▸ hOpening _
  · rw [if_neg hNext]
    exact
      enacts_returnValue hExpression hOpening word
        ⟨rest, state⟩ hOrdered

end Expressions

end Parser

end OnePass

------------------------------------------------------------
-- Variables And Calls
------------------------------------------------------------

namespace OnePass

namespace Parser

open Grammar

variable {σ τ ε : Type}
variable {receiver : Receiver σ τ ε}

theorem plays_declarator :
    Plays
      (fun declarator : Declarator =>
        silent declarator.tokens)
      (fun declarator answer => answer = declarator.formal)
      (declarator : Rule (Recording σ τ) ε Formal) := by
  intro done hOpening
  apply (plays_accept .kwConst).bind
  · intro isConst
    apply
      (hOpening
        ⟨isConst, Classical.arbitrary _,
          Classical.arbitrary _⟩).cut
    simp [Declarator.tokens, silent]
  rintro isConst _ rfl
  apply plays_valueType.bind
  · intro ty
    apply
      (hOpening ⟨isConst, ty, Classical.arbitrary _⟩).cut
    simp [Declarator.tokens, silent]
  rintro ty _ rfl
  apply plays_identifier.bind
  · intro name
    apply (hOpening ⟨isConst, ty, name⟩).cut
    simp [Declarator.tokens, silent]
  rintro name _ rfl
  refine enacts_pure ⟨⟨isConst, ty, name⟩, ?_, rfl⟩
  simp [Declarator.tokens, silent]

section Expressions

variable {expression : Rule (Recording σ τ) ε (Typed τ)}
variable
  (hExpression :
    Plays (@Expr.script topLayer) Outlines expression)

include hExpression

theorem plays_initializer :
    Plays
      (fun initializer? : Option Initializer =>
        initializer?.elim [] Initializer.script)
      (fun initializer? answer =>
        answer.map Typed.erase =
          initializer?.map (·.value.outline))
      (initializer expression) := by
  intro done hOpening
  apply (plays_accept .assign).bind
  · intro sign?
    cases sign? with
    | none => simpa [silent] using hOpening none
    | some sign =>
        apply
          (hOpening
            (some ⟨sign, Classical.arbitrary _⟩)).cut
        simp [Initializer.script, silent]
  rintro sign? _ rfl
  cases sign? with
  | none => exact enacts_pure ⟨none, by simp [silent], rfl⟩
  | some sign =>
      apply hExpression.bind
      · intro value
        apply (hOpening (some ⟨sign, value⟩)).cut
        simp [Initializer.script, silent]
      intro value answer hAnswer
      refine
        enacts_pure
          ⟨some ⟨sign, value⟩,
            by simp [Initializer.script, silent], ?_⟩
      exact congrArg some hAnswer

/- From the name to the semicolon. -/
theorem performs_assignment :
    Performs Stmt.script
      (assignment receiver.recorded expression) := by
  intro done hOpening
  apply plays_identifier.bind
  · intro name
    apply
      (hOpening
        (.assignment name (Classical.arbitrary _)
          (Classical.arbitrary _)
          (Classical.arbitrary _))).cut
    simp [Stmt.script]
  rintro name _ rfl
  apply (plays_expect .assign).bind
  · intro sign
    apply
      (hOpening
        (.assignment name sign (Classical.arbitrary _)
          (Classical.arbitrary _))).cut
    simp [Stmt.script]
  rintro sign _ -
  apply hExpression.bind
  · intro value
    apply
      (hOpening
        (.assignment name sign value
          (Classical.arbitrary _))).cut
    simp [Stmt.script]
  intro value answer hAnswer
  apply (plays_expect .semicolon).bind
  · intro stop
    apply (hOpening (.assignment name sign value stop)).cut
    simp [Stmt.script]
  rintro stop _ rfl
  apply enacts_of_ordered
  intro hOrdered
  have hSpan :
      name.identifier.span.cover stop.span =
        extent
          (Stmt.assignment name sign value stop).tokens := by
    apply
      cover_tokens name.token stop.token
        (sign.token :: value.tokens)
    simpa [Expr.tokens_script] using hOrdered
  apply
    enacts_effect_last hOpening
      (.assignment name sign value stop)
  rw [EffectEvent.erase_assignment, hAnswer, hSpan]
  simp [Stmt.script]

theorem performs_callStatement :
    Performs Stmt.script
      (callStatement receiver.recorded expression) := by
  intro done hOpening
  apply (plays_call hExpression).bind
  · intro parts
    apply
      (hOpening (.call parts (Classical.arbitrary _))).cut
    simp [Stmt.script, Expr.script]
  rintro parts _ -
  apply (plays_expect .semicolon).bind
  · intro stop
    apply (hOpening (.call parts stop)).cut
    simp [Stmt.script, Expr.script]
  rintro stop _ -
  refine enacts_pure ⟨.call parts stop, ?_, trivial⟩
  simp [Stmt.script, Expr.script]

/- From the first word of the declaration to the semicolon. -/
theorem performs_declaration :
    Performs Stmt.script
      (declaration receiver.recorded expression) := by
  intro done hOpening
  apply plays_declarator.bind_nextSpan
  · intro declarator
    rcases declarator.tokens_eq_cons with
      ⟨first, rest, hTokens, -⟩
    rw [tokens_silent, hTokens]
    exact List.cons_ne_nil first rest
  · intro declarator
    apply
      (hOpening
        (.declaration declarator none
          (Classical.arbitrary _))).cut
    simp [Stmt.script]
  rintro declarator _ start more rfl hStart
  apply enacts_effect_bind
  · apply
      (hOpening
        (.declaration declarator none
          (Classical.arbitrary _))).cut
    simp [Stmt.script]
  apply (plays_initializer hExpression).bind
  · intro initializer
    apply
      (hOpening
        (.declaration declarator initializer
          (Classical.arbitrary _))).cut
    simp [Stmt.script]
  intro initializer first hFirst
  apply (plays_expect .semicolon).bind
  · intro stop
    apply
      (hOpening
        (.declaration declarator initializer stop)).cut
    simp [Stmt.script]
  rintro stop _ rfl
  apply enacts_of_ordered
  intro hOrdered
  rw [tokens_silent] at hStart
  have hTokens :
      (Stmt.declaration declarator initializer stop).tokens =
        start ::
          (more ++ initializer.elim [] Initializer.tokens ++
            [stop.token]) := by
    simp [Stmt.tokens, hStart]
  have hSpan :
      start.span.cover stop.span =
        extent
          (Stmt.declaration declarator initializer
            stop).tokens := by
    rw [hTokens]
    apply
      cover_tokens start stop.token
        (more ++ initializer.elim [] Initializer.tokens)
    simpa [tokens_initializerScript, hStart] using hOrdered
  apply
    enacts_effect_last hOpening
      (.declaration declarator initializer stop)
  rw [EffectEvent.erase_declaration, hFirst, hSpan]
  simp [Stmt.script]

end Expressions

end Parser

end OnePass

------------------------------------------------------------
-- Statements
------------------------------------------------------------

namespace OnePass

namespace Parser

open Grammar

variable {σ τ ε : Type}

/- Two tokens tell which form a statement has. -/
theorem performs_statementForm
    {receiver : Receiver σ τ ε}
    {expression : Rule (Recording σ τ) ε (Typed τ)}
    {inner : Rule (Recording σ τ) ε Unit}
    (hExpression :
      Plays (@Expr.script topLayer) Outlines expression)
    (hInner : Performs Stmt.script inner) :
    Performs Stmt.script
      (statementForm receiver.recorded expression inner) := by
  intro done hOpening
  have hHere := isOpening_of_script hOpening
  unfold statementForm
  apply enacts_lookahead
  intro kinds
  split
  · exact performs_block hInner done hOpening
  · exact
      performs_ifStatement hExpression hInner done hOpening
  · exact
      performs_whileStatement hExpression hInner done hOpening
  · exact performs_returnStatement hExpression done hOpening
  · exact performs_jump .break rfl done hOpening
  · exact performs_jump .continue rfl done hOpening
  · exact performs_assignment hExpression done hOpening
  · exact performs_callStatement hExpression done hOpening
  · split
    · exact performs_declaration hExpression done hOpening
    · exact enacts_throw hHere _
  · exact enacts_throw hHere _

/- The induction is over the nesting budget. -/
theorem performs_statement
    (receiver : Receiver σ τ ε)
    (budget : Nat) :
    Performs Stmt.script
      (statement receiver.recorded budget) := by
  induction budget with
  | zero => exact plays_throw (.stuck .tooDeep)
  | succ budget ih =>
      rw [statement]
      exact
        performs_statementForm
          (plays_expression receiver budget) ih

end Parser

end OnePass
