import OnePass.Proofs.Parser.Reading.Expression

/-
  Which statements the rules read.

  As for factors, the proof follows the nesting budget. An
  `if` without an `else` is complete only if no `else`
  follows it, and this is what makes every `else` belong to
  the nearest `if` that has none.

  Main declarations:
    * `Parser.stmtPhrase`, `Parser.stmtsPhrase`
    * `Parser.reads_statementList`
    * `Parser.reads_otherBranch`, `Parser.reads_ifStatement`
    * `Parser.reads_declarator`
    * `Parser.reads_statement`
-/

------------------------------------------------------------
-- Lists Of Statements
------------------------------------------------------------

namespace OnePass

namespace Parser

open Grammar

variable {σ τ ε : Type}

/- The statements within a nesting budget. -/
def stmtPhrase
    (receiver : Receiver σ τ ε)
    (budget : Nat) : Phrase σ ε Unit Stmt where
  toShape := stmtShape budget
  announce := Stmt.announce receiver

/- Lists of statements within a nesting budget. -/
def stmtsPhrase
    (receiver : Receiver σ τ ε)
    (budget : Nat) : Phrase σ ε Unit Stmts where
  toShape := stmtsShape budget
  announce := Stmts.announce receiver

section Lists

variable {receiver : Receiver σ τ ε}
variable {budget : Nat}
variable {statement : Rule σ ε Unit}

theorem statementStep_of_listEnds
    {cursor : Cursor σ}
    (hEnds : ListEnds cursor.rest) :
    statementStep statement () cursor = .ok none cursor := by
  unfold statementStep
  rw [peek_bind]
  cases hFirst : headKind cursor.rest with
  | none => rfl
  | some kind =>
      have hBrace : kind = .rightBrace := hEnds kind hFirst
      subst hBrace
      rfl

theorem statementStep_of_not_listEnds
    {cursor : Cursor σ}
    (hMore : ¬ ListEnds cursor.rest) :
    statementStep statement () cursor =
      (do return some (← statement) :
        Rule σ ε (Option Unit)) cursor := by
  unfold statementStep
  rw [peek_bind]
  cases hFirst : headKind cursor.rest with
  | none =>
      refine absurd ?_ hMore
      intro kind hKind
      rw [hFirst] at hKind
      cases hKind
  | some kind =>
      cases kind with
      | rightBrace =>
          refine absurd ?_ hMore
          intro kind hKind
          rw [hFirst] at hKind
          exact (Option.some.inj hKind).symm
      | _ => rfl

theorem statementStep_eq_none_iff
    {before after : Cursor σ} :
    statementStep statement () before = .ok none after ↔
      ListEnds before.rest ∧ after = before := by
  by_cases hEnds : ListEnds before.rest
  · rw [statementStep_of_listEnds hEnds]
    simp [hEnds, eq_comm]
  · rw [statementStep_of_not_listEnds hEnds]
    simp [hEnds, map_eq_ok_iff]

theorem statementStep_eq_some_iff
    {before after : Cursor σ} :
    statementStep statement () before =
        .ok (some ()) after ↔
      ¬ ListEnds before.rest ∧
        statement before = .ok () after := by
  by_cases hEnds : ListEnds before.rest
  · rw [statementStep_of_listEnds hEnds]
    simp [hEnds]
  · rw [statementStep_of_not_listEnds hEnds, bind_eq_ok_iff]
    constructor
    · rintro ⟨_, _, hStatement, hPure⟩
      rw [pure_eq_ok_iff] at hPure
      rw [← hPure.2]
      exact ⟨hEnds, hStatement⟩
    · intro hStatement
      exact ⟨(), after, hStatement.2, rfl⟩

/- Every statement is written with a token. -/
theorem progresses_statementStep
    (hStatement :
      Reads statement (stmtPhrase receiver budget)) :
    Progresses (statementStep statement) where
  reads hStep := by
    rw [statementStep_eq_some_iff, hStatement] at hStep
    rcases hStep with ⟨-, tree, hTree, -⟩
    rcases tree.tokens_eq_cons with ⟨first, more, hTokens, -⟩
    have hLength := congrArg List.length hTree
    simp only [stmtPhrase, stmtShape, hTokens,
      List.cons_append, List.length_cons,
      List.length_append] at hLength
    omega
  ends _ state := by
    apply statementStep_of_listEnds
    intro kind hKind
    cases hKind

/-
  What a run of the loop keeps: the statement read last, and
  those read after it, are a list of statements.
-/
private theorem stmts_of_steps
    (hStatement :
      Reads statement (stmtPhrase receiver budget))
    {answer final : Unit}
    {between after : Cursor σ}
    (hSteps :
      Steps (statementStep statement) answer between final
        after)
    {start : Cursor σ}
    (first : Stmt)
    (hTokens : start.rest = first.tokens ++ between.rest)
    (hFits : first.nesting ≤ budget ∧ first.ElseNearest)
    (hAnnounce :
      first.announce receiver start.state =
        .ok () between.state) :
    ∃ statements : Stmts,
      start.rest = statements.tokens ++ after.rest ∧
        (statements.nesting ≤ budget ∧
          statements.ElseNearest) ∧
        ListEnds after.rest ∧
        statements.announce receiver start.state =
          .ok () after.state := by
  induction hSteps generalizing start first with
  | stop hStep =>
      rw [statementStep_eq_none_iff] at hStep
      rcases hStep with ⟨hEnds, rfl⟩
      exact ⟨.one first, hTokens, hFits, hEnds, hAnnounce⟩
  | next hStep _ ih =>
      rw [statementStep_eq_some_iff, hStatement] at hStep
      rcases hStep with
        ⟨-, second, hSecond, hSecondFits, -, hSecondDone⟩
      rcases ih second hSecond hSecondFits hSecondDone with
        ⟨statements, hMore, hMoreFits, hEnds, hDone⟩
      refine
        ⟨.more first statements, ?_, ?_, hEnds, ?_⟩
      · rw [hTokens, hMore, Stmts.tokens, List.append_assoc]
      · exact
          ⟨Nat.max_le.mpr ⟨hFits.1, hMoreFits.1⟩, hFits.2,
            hMoreFits.2⟩
      · rw [Stmts.announce, bind_eq_ok_iff]
        exact ⟨(), _, hAnnounce, hDone⟩

/- A list of statements is one of them, and the steps after. -/
private theorem steps_of_stmts
    (hStatement :
      Reads statement (stmtPhrase receiver budget))
    (statements : Stmts)
    {start : σ}
    {after : Cursor σ}
    (hFit : statements.nesting ≤ budget)
    (hElse : statements.ElseNearest)
    (hEnds : ListEnds after.rest)
    (hDone :
      statements.announce receiver start =
        .ok () after.state) :
    ∃ between,
      statement ⟨statements.tokens ++ after.rest, start⟩ =
          .ok () between ∧
        Steps (statementStep statement) () between ()
          after := by
  induction statements using Stmts.list_induction generalizing
      start with
  | one tree =>
      refine ⟨after, ?_, ?_⟩
      · rw [hStatement]
        exact
          ⟨tree, rfl, ⟨hFit, hElse⟩, fun _ => hEnds.not_else,
            hDone⟩
      · apply Steps.stop
        rw [statementStep_eq_none_iff]
        exact ⟨hEnds, rfl⟩
  | more tree trees ih =>
      rw [Stmts.announce, bind_eq_ok_iff] at hDone
      rcases hDone with ⟨_, middle, hTree, hTrees⟩
      rw [Stmts.nesting, Nat.max_le] at hFit
      rcases ih hFit.2 hElse.2 hTrees with
        ⟨between, hNext, hSteps⟩
      refine
        ⟨⟨trees.tokens ++ after.rest, middle⟩, ?_,
          Steps.next ?_ hSteps⟩
      · rw [hStatement]
        refine ⟨tree, ?_, ⟨hFit.1, hElse.1⟩, ?_, hTree⟩
        · simp [stmtPhrase, stmtShape, Stmts.tokens]
        · intro _
          exact trees.headKind_tokens_ne _ rfl
      · rw [statementStep_eq_some_iff]
        exact ⟨trees.not_listEnds_tokens _, hNext⟩

/- A list of statements is read as a whole. -/
theorem reads_statementList
    (hStatement :
      Reads statement (stmtPhrase receiver budget)) :
    Reads (statementList statement)
      (stmtsPhrase receiver budget) := by
  intro before after answer
  unfold statementList
  simp only [bind_eq_ok_iff,
    iterate_eq_ok_iff (progresses_statementStep hStatement)]
  constructor
  · rintro ⟨_, between, hFirst, hSteps⟩
    rw [hStatement] at hFirst
    rcases hFirst with ⟨first, hTokens, hFits, -, hDone⟩
    exact
      stmts_of_steps hStatement hSteps first hTokens hFits
        hDone
  · rintro ⟨statements, hTokens, hFits, hEnds, hDone⟩
    rcases
        steps_of_stmts hStatement statements hFits.1 hFits.2
          hEnds hDone with
      ⟨between, hFirst, hSteps⟩
    have hStart :
        before =
          ⟨statements.tokens ++ after.rest, before.state⟩ := by
      rcases before with ⟨rest, state⟩
      rw [show rest = _ from hTokens]
      rfl
    rw [← hStart] at hFirst
    exact ⟨(), between, hFirst, hSteps⟩

end Lists

end Parser

end OnePass

------------------------------------------------------------
-- Control Flow
------------------------------------------------------------

namespace OnePass

namespace Parser

open Grammar

variable {σ τ ε : Type}

/- The conditions within a nesting budget. -/
def conditionPhrase
    (receiver : Receiver σ τ ε)
    (budget : Nat) : Phrase σ ε Unit Condition where
  toShape := conditionShape budget
  announce := Condition.announce receiver

/- The statements in a scope of their own. -/
def branchPhrase
    (receiver : Receiver σ τ ε)
    (budget : Nat) : Phrase σ ε Unit Stmt where
  toShape := stmtShape budget
  announce statement :=
    inScope receiver (statement.announce receiver)

section ControlFlow

variable {receiver : Receiver σ τ ε}
variable {budget : Nat}
variable {expression : Rule σ ε (Typed τ)}
variable {statement : Rule σ ε Unit}

theorem reads_condition
    (hExpression :
      Reads expression
        (exprPhrase receiver topLayer budget)) :
    Reads (condition receiver expression)
      (conditionPhrase receiver budget) := by
  intro before after answer
  unfold condition
  simp only [bind_eq_ok_iff, expect_eq_ok_iff,
    pure_eq_ok_iff, effect_eq_ok_iff, hExpression _ _ _]
  constructor
  · rintro ⟨_, first, ⟨left, hLeft, hFirst, -⟩, value,
      second, ⟨inner, hInner, hFit, -, hValue⟩, -, third,
      ⟨hEvent, hThird⟩, _, _, ⟨right, hRight, hState, -⟩,
      -, rfl⟩
    refine ⟨⟨left, inner, right⟩, ?_, hFit, trivial, ?_⟩
    · rw [hLeft, hInner, ← hThird, hRight]
      simp [conditionPhrase, conditionShape, exprPhrase,
        exprShape, Condition.tokens]
    · change
        (inner.value receiver >>= fun value =>
          receiver.effect (.condition value)) _ = _
      rw [bind_eq_ok_iff, hState]
      rw [hFirst] at hValue
      exact ⟨value, second.state, hValue, hEvent⟩
  · rintro ⟨⟨left, inner, right⟩, hTokens, hFit, -, hDone⟩
    change
      (inner.value receiver >>= fun value =>
        receiver.effect (.condition value)) _ = _ at hDone
    rw [bind_eq_ok_iff] at hDone
    rcases hDone with ⟨value, between, hValue, hEvent⟩
    simp only [conditionPhrase, conditionShape,
      Condition.tokens, List.cons_append, List.append_assoc,
      List.nil_append] at hTokens
    have hStops :
        inner.Stops (right.token :: after.rest) :=
      inner.stops_of_separates
        (right.separates _ _ (by decide))
    exact
      ⟨_, ⟨_, before.state⟩, ⟨left, hTokens, rfl, rfl⟩,
        value, ⟨right.token :: after.rest, between⟩,
        ⟨inner, rfl, hFit, hStops, hValue⟩, (),
        ⟨right.token :: after.rest, after.state⟩,
        ⟨hEvent, rfl⟩, _, after, ⟨right, rfl, rfl, rfl⟩,
        trivial, rfl⟩

theorem reads_branch
    (hStatement :
      Reads statement (stmtPhrase receiver budget)) :
    Reads (branch receiver statement)
      (branchPhrase receiver budget) := by
  intro before after answer
  unfold branch
  simp only [bind_eq_ok_iff, effect_eq_ok_iff,
    hStatement _ _ _, branchPhrase, stmtShape, inScope]
  constructor
  · rintro ⟨_, first, ⟨hOpen, hFirst⟩, _, second,
      ⟨tree, hTokens, hFits, hStops, hDone⟩, hClose, hRest⟩
    rw [hFirst, ← hRest] at hTokens
    rw [← hRest] at hStops
    exact
      ⟨tree, hTokens, hFits, hStops, (), first.state, hOpen,
        (), second.state, hDone, hClose⟩
  · rintro ⟨tree, hTokens, hFits, hStops, _, first, hOpen, _,
      second, hDone, hClose⟩
    exact
      ⟨(), ⟨before.rest, first⟩, ⟨hOpen, rfl⟩, (),
        ⟨after.rest, second⟩,
        ⟨tree, hTokens, hFits, hStops, hDone⟩, hClose, rfl⟩

theorem reads_block
    (hStatement :
      Reads statement (stmtPhrase receiver budget)) :
    Reads (block receiver statement)
      ((stmtPhrase receiver (budget + 1)).via
        fun parts :
            Leaf .leftBrace × Stmts × Leaf .rightBrace =>
          .block parts.1 parts.2.1 parts.2.2) := by
  have hList := reads_statementList hStatement
  intro before after answer
  unfold block
  simp only [bind_eq_ok_iff, expect_eq_ok_iff,
    pure_eq_ok_iff, effect_eq_ok_iff, hList _ _ _]
  constructor
  · rintro ⟨_, first, ⟨left, hLeft, hFirst, -⟩, _, second,
      ⟨hOpen, hSecond⟩, _, third,
      ⟨body, hBody, hFits, -, hDone⟩, _, fourth,
      ⟨hClose, hFourth⟩, _, _, ⟨right, hRight, hState, -⟩,
      -, rfl⟩
    refine
      ⟨(left, body, right), ?_, ?_, ?_, ?_⟩
    · rw [hLeft, ← hSecond, hBody, ← hFourth, hRight]
      simp [Phrase.via, Shape.via, stmtPhrase, stmtShape,
        stmtsPhrase, stmtsShape, Stmt.tokens]
    · exact ⟨Nat.succ_le_succ hFits.1, hFits.2⟩
    · intro hOpen
      cases hOpen
    · simp only [Phrase.via, Shape.via, stmtPhrase,
        stmtShape, Stmt.announce, inScope, bind_eq_ok_iff]
      rw [hFirst] at hOpen
      rw [hState]
      exact
        ⟨(), second.state, hOpen, (), third.state, hDone,
          hClose⟩
  · rintro ⟨⟨left, body, right⟩, hTokens, hFits, -, hDone⟩
    simp only [Phrase.via, Shape.via, stmtPhrase, stmtShape,
      Stmt.announce, inScope, bind_eq_ok_iff] at hDone
    rcases hDone with
      ⟨_, first, hOpen, _, second, hBody, hClose⟩
    simp only [Phrase.via, Shape.via, stmtPhrase, stmtShape,
      Stmt.tokens, List.cons_append, List.append_assoc,
      List.nil_append] at hTokens
    exact
      ⟨_, ⟨_, before.state⟩, ⟨left, hTokens, rfl, rfl⟩, (),
        ⟨_, first⟩, ⟨hOpen, rfl⟩, (),
        ⟨right.token :: after.rest, second⟩,
        ⟨body, rfl, ⟨Nat.le_of_succ_le_succ hFits.1, hFits.2⟩,
          listEnds_rightBrace right after.rest, hBody⟩,
        (), ⟨right.token :: after.rest, after.state⟩,
        ⟨hClose, rfl⟩, _, after, ⟨right, rfl, rfl, rfl⟩,
        trivial, rfl⟩

/- A conditional with the other branch that is there, if any. -/
def ifOf
    (word : Leaf .kwIf)
    (condition : Condition)
    (branch : Stmt) :
    Option (Leaf .kwElse × Stmt) → Stmt
| none => .ifThen word condition branch
| some (other, otherwise) =>
    .ifElse word condition branch other otherwise

/- Other branches, or none, within a nesting budget. -/
def otherBranchShape
    (budget : Nat) :
    Shape (Option (Leaf .kwElse × Stmt)) where
  tokens
  | none => []
  | some (other, otherwise) =>
      other.token :: otherwise.tokens
  Fits
  | none => True
  | some (_, otherwise) => (stmtShape budget).Fits otherwise
  Stops
  | none, rest => headKind rest ≠ some .kwElse
  | some (_, otherwise), rest =>
      (stmtShape budget).Stops otherwise rest

/- An other branch is in a scope of its own. -/
def otherBranchPhrase
    (receiver : Receiver σ τ ε)
    (budget : Nat) :
    Phrase σ ε Unit (Option (Leaf .kwElse × Stmt)) where
  toShape := otherBranchShape budget
  announce
  | none => pure ()
  | some (_, otherwise) =>
      inScope receiver (otherwise.announce receiver)

theorem reads_otherBranch
    (hStatement :
      Reads statement (stmtPhrase receiver budget)) :
    Reads (otherBranch receiver statement)
      (otherBranchPhrase receiver budget) := by
  intro before after answer
  unfold otherBranch
  simp only [bind_eq_ok_iff, accept_eq_ok_iff]
  constructor
  · rintro ⟨_, first, hElse, hOk⟩
    rcases hElse with
      ⟨other, hElse, hFirst, rfl⟩ | ⟨hNone, rfl, rfl⟩
    · rw [if_pos rfl, reads_branch hStatement] at hOk
      rcases hOk with
        ⟨otherwise, hOther, hFits, hStops, hDone⟩
      rw [hFirst] at hDone
      refine
        ⟨some (other, otherwise), ?_, hFits, hStops, hDone⟩
      rw [hElse, hOther]
      rfl
    · rw [if_neg Bool.false_ne_true, pure_eq_ok_iff] at hOk
      rcases hOk with ⟨rfl, rfl⟩
      exact ⟨none, rfl, trivial, hNone, rfl⟩
  · rintro
      ⟨_ | ⟨other, otherwise⟩, hTokens, hFits, hStops, hDone⟩
    · rcases before with ⟨rest, state⟩
      rcases after with ⟨unread, final⟩
      cases hTokens
      cases (pure_eq_ok_iff.mp hDone).2
      exact ⟨false, _, Or.inr ⟨hStops, rfl, rfl⟩, rfl⟩
    · refine
        ⟨true, ⟨otherwise.tokens ++ after.rest, before.state⟩,
          Or.inl ⟨other, hTokens, rfl, rfl⟩, ?_⟩
      rw [if_pos rfl, reads_branch hStatement]
      exact ⟨otherwise, rfl, hFits, hStops, hDone⟩

section Conditionals

variable {word : Leaf .kwIf}
variable {choice : Condition}
variable {first : Stmt}
variable {other? : Option (Leaf .kwElse × Stmt)}
variable {rest : List Token}

theorem tokens_ifOf
    (budget : Nat) :
    (ifOf word choice first other?).tokens =
      word.token ::
        (choice.tokens ++
          (first.tokens ++
            (otherBranchShape budget).tokens other?)) := by
  cases other? with
  | none => simp [ifOf, otherBranchShape, Stmt.tokens]
  | some other => rfl

/- A branch that is left open has no other branch. -/
theorem fits_ifOf_iff :
    (stmtShape (budget + 1)).Fits
        (ifOf word choice first other?) ↔
      (conditionShape budget).Fits choice ∧
        (stmtShape budget).Fits first ∧
          (other?.isSome → first.endsOpen = false) ∧
            (otherBranchShape budget).Fits other? := by
  cases other? with
  | none =>
      simp only [ifOf, otherBranchShape, stmtShape,
        conditionShape, Stmt.nesting, Stmt.ElseNearest,
        Nat.succ_le_succ_iff, Nat.max_le, and_assoc,
        Option.isSome_none, Bool.false_eq_true,
        false_implies, and_true]
  | some other =>
      simp only [ifOf, otherBranchShape, stmtShape,
        conditionShape, Stmt.nesting, Stmt.ElseNearest,
        Nat.succ_le_succ_iff, Nat.max_le]
      constructor
      · rintro ⟨⟨hFit, hFirst, hOther⟩, hClosed, hNearest⟩
        exact
          ⟨hFit, ⟨hFirst, hNearest.1⟩, fun _ => hClosed,
            hOther, hNearest.2⟩
      · rintro ⟨hFit, hFirst, hClosed, hOther⟩
        exact
          ⟨⟨hFit, hFirst.1, hOther.1⟩, hClosed rfl, hFirst.2,
            hOther.2⟩

/- An open branch would take the `else` itself. -/
theorem stops_before_otherBranch_iff
    (hStops :
      (otherBranchShape budget).Stops other? rest) :
    (stmtShape budget).Stops first
        ((otherBranchShape budget).tokens other? ++ rest) ↔
      (other?.isSome → first.endsOpen = false) := by
  cases other? with
  | none =>
      simp only [Option.isSome_none, Bool.false_eq_true,
        false_implies, iff_true]
      exact fun _ => hStops
  | some other =>
      rw [← Bool.not_eq_true]
      constructor
      · exact fun hBefore _ hOpen => hBefore hOpen rfl
      · exact fun hClosed hOpen => absurd hOpen (hClosed rfl)

theorem stops_ifOf_iff :
    (stmtShape (budget + 1)).Stops
        (ifOf word choice first other?) rest ↔
      (otherBranchShape budget).Stops other? rest := by
  cases other? with
  | none =>
      exact ⟨fun hStops => hStops rfl, fun hNone _ => hNone⟩
  | some other => rfl

theorem announce_ifOf
    (receiver : Receiver σ τ ε)
    (budget : Nat) :
    (ifOf word choice first other?).announce receiver =
      (do
        choice.announce receiver
        inScope receiver (first.announce receiver)
        (otherBranchPhrase receiver budget).announce
          other?) := by
  cases other? with
  | none => simp [ifOf, otherBranchPhrase, Stmt.announce]
  | some other => rfl

end Conditionals

theorem reads_ifStatement
    (hExpression :
      Reads expression
        (exprPhrase receiver topLayer budget))
    (hStatement :
      Reads statement (stmtPhrase receiver budget)) :
    Reads (ifStatement receiver expression statement)
      ((stmtPhrase receiver (budget + 1)).via
        fun parts :
            Leaf .kwIf × Condition × Stmt ×
              Option (Leaf .kwElse × Stmt) =>
          ifOf parts.1 parts.2.1 parts.2.2.1
            parts.2.2.2) := by
  have hCondition := reads_condition hExpression
  have hBranch := reads_branch hStatement
  have hOther := reads_otherBranch hStatement
  intro before after answer
  unfold ifStatement
  simp only [bind_eq_ok_iff, expect_eq_ok_iff,
    hCondition _ _ _, hBranch _ _ _, hOther _ _ _]
  constructor
  · rintro ⟨_, first, ⟨word, hWord, hFirst, -⟩, _, second,
      ⟨choice, hChoice, hFit, -, hChoose⟩, _, third,
      ⟨branch, hBranch, hFits, hStops, hBranchDone⟩, other?,
      hOther, hOtherFits, hOtherStops, hOtherDone⟩
    rw [hFirst] at hChoose
    rw [hOther] at hStops
    refine
      ⟨(word, choice, branch, other?), ?_,
        fits_ifOf_iff.mpr
          ⟨hFit, hFits,
            (stops_before_otherBranch_iff hOtherStops).mp
              hStops,
            hOtherFits⟩,
        stops_ifOf_iff.mpr hOtherStops, ?_⟩
    · rw [hWord, hChoice, hBranch, hOther]
      simp [Phrase.via, Shape.via, stmtPhrase, stmtShape,
        branchPhrase, conditionPhrase, conditionShape,
        otherBranchPhrase, tokens_ifOf budget]
    · simp only [Phrase.via, stmtPhrase,
        announce_ifOf receiver budget, bind_eq_ok_iff]
      exact
        ⟨(), _, hChoose, (), _, hBranchDone, hOtherDone⟩
  · rintro
      ⟨⟨word, choice, branch, other?⟩, hTokens, hFits, hStops,
        hDone⟩
    have hOtherStops :
        (otherBranchShape budget).Stops other? after.rest :=
      stops_ifOf_iff.mp hStops
    rcases fits_ifOf_iff.mp hFits with
      ⟨hFit, hBranchFits, hClosed, hOtherFits⟩
    simp only [Phrase.via, Shape.via, stmtPhrase, stmtShape,
      tokens_ifOf budget, List.cons_append,
      List.append_assoc] at hTokens
    simp only [Phrase.via, stmtPhrase,
      announce_ifOf receiver budget, bind_eq_ok_iff] at hDone
    rcases hDone with
      ⟨_, chosen, hChoose, _, between, hBranchDone,
        hOtherDone⟩
    exact
      ⟨_, ⟨_, before.state⟩, ⟨word, hTokens, rfl, rfl⟩, (),
        ⟨_, chosen⟩, ⟨choice, rfl, hFit, trivial, hChoose⟩,
        (), ⟨_, between⟩,
        ⟨branch, rfl, hBranchFits,
          (stops_before_otherBranch_iff hOtherStops).mpr
            hClosed,
          hBranchDone⟩,
        other?, rfl, hOtherFits, hOtherStops, hOtherDone⟩

theorem reads_whileStatement
    (hExpression :
      Reads expression
        (exprPhrase receiver topLayer budget))
    (hStatement :
      Reads statement (stmtPhrase receiver budget)) :
    Reads (whileStatement receiver expression statement)
      ((stmtPhrase receiver (budget + 1)).via
        fun parts : Leaf .kwWhile × Condition × Stmt =>
          .whileLoop parts.1 parts.2.1 parts.2.2) := by
  have hCondition := reads_condition hExpression
  have hBranch := reads_branch hStatement
  intro before after answer
  unfold whileStatement
  simp only [bind_eq_ok_iff, expect_eq_ok_iff,
    effect_eq_ok_iff, hCondition _ _ _, hBranch _ _ _]
  constructor
  · rintro ⟨_, first, ⟨word, hWord, hFirst, -⟩, _, second,
      ⟨choice, hChoice, hFit, -, hChoose⟩, _, third,
      ⟨hOpen, hThird⟩, _, fourth,
      ⟨body, hBody, hFits, hStops, hDone⟩, hClose, hRest⟩
    refine ⟨(word, choice, body), ?_, ?_, ?_, ?_⟩
    · rw [hWord, hChoice, ← hThird, hBody, hRest]
      simp [Phrase.via, Shape.via, stmtPhrase, stmtShape,
        branchPhrase, conditionPhrase, conditionShape,
        Stmt.tokens]
    · refine ⟨?_, hFits.2⟩
      apply Nat.succ_le_succ
      exact Nat.max_le.mpr ⟨hFit, hFits.1⟩
    · rw [hRest]
      exact hStops
    · simp only [Phrase.via, Shape.via, stmtPhrase,
        stmtShape, Stmt.announce, bind_eq_ok_iff]
      rw [hFirst] at hChoose
      exact
        ⟨(), _, hChoose, (), _, hOpen, (), _, hDone, hClose⟩
  · rintro ⟨⟨word, choice, body⟩, hTokens, hFits, hStops,
      hDone⟩
    simp only [Phrase.via, Shape.via, stmtPhrase, stmtShape,
      Stmt.tokens, List.cons_append, List.append_assoc] at hTokens
    simp only [Phrase.via, Shape.via, stmtPhrase, stmtShape,
      Stmt.announce, bind_eq_ok_iff] at hDone
    rcases hFits with ⟨hFit, hNearest⟩
    have hParts := Nat.max_le.mp (Nat.le_of_succ_le_succ hFit)
    rcases hDone with
      ⟨_, chosen, hChoose, _, opened, hOpen, _, done, hBody,
        hClose⟩
    exact
      ⟨_, ⟨_, before.state⟩, ⟨word, hTokens, rfl, rfl⟩, (),
        ⟨body.tokens ++ after.rest, chosen⟩,
        ⟨choice, rfl, hParts.1, trivial, hChoose⟩, (),
        ⟨body.tokens ++ after.rest, opened⟩, ⟨hOpen, rfl⟩,
        (), ⟨after.rest, done⟩,
        ⟨body, rfl, ⟨hParts.2, hNearest⟩, hStops, hBody⟩,
        hClose, rfl⟩

/- A return with the value that is there, if any. -/
def returnOf
    (word : Leaf .kwReturn)
    (stop : Leaf .semicolon) :
    Option Expression → Stmt
| none => .returnVoid word stop
| some value => .returnValue word value stop

theorem reads_returnStatement
    (hExpression :
      Reads expression
        (exprPhrase receiver topLayer budget)) :
    Reads (returnStatement receiver expression)
      ((stmtPhrase receiver (budget + 1)).via
        fun parts :
            Leaf .kwReturn × Leaf .semicolon ×
              Option Expression =>
          returnOf parts.1 parts.2.1 parts.2.2) := by
  intro before after answer
  unfold returnStatement
  simp only [bind_eq_ok_iff, expect_eq_ok_iff, peek_bind]
  constructor
  · rintro ⟨_, first, ⟨word, hWord, hFirst, rfl⟩, hOk⟩
    by_cases hStop : headKind first.rest = some .semicolon
    · rw [if_pos hStop] at hOk
      simp only [bind_eq_ok_iff, nextSpan_eq_ok_iff,
        effect_eq_ok_iff, expect_eq_ok_iff, pure_eq_ok_iff]
        at hOk
      rcases hOk with
        ⟨_, _, ⟨hSpan, rfl⟩, _, second, ⟨hEvent, hSecond⟩, _,
          _, ⟨stop, hStopRest, hState, -⟩, -, rfl⟩
      rw [← hSecond, hStopRest] at hSpan
      cases hSpan
      refine ⟨(word, stop, none), ?_, ?_, ?_, ?_⟩
      · rw [hWord, ← hSecond, hStopRest]
        rfl
      · exact ⟨Nat.le_add_left _ _, trivial⟩
      · intro hOpen
        cases hOpen
      · rw [hFirst] at hEvent
        rw [hState]
        exact hEvent
    · rw [if_neg hStop] at hOk
      simp only [bind_eq_ok_iff, effect_eq_ok_iff,
        expect_eq_ok_iff, pure_eq_ok_iff, hExpression _ _ _]
        at hOk
      rcases hOk with
        ⟨result, second, ⟨value, hValue, hFit, -, hResult⟩, _,
          third, ⟨hEvent, hThird⟩, _, _,
          ⟨stop, hStopRest, hState, -⟩, -, rfl⟩
      refine ⟨(word, stop, some value), ?_, ?_, ?_, ?_⟩
      · rw [hWord, hValue, ← hThird, hStopRest]
        simp [Phrase.via, Shape.via, stmtPhrase, stmtShape,
          exprPhrase, exprShape, returnOf, Stmt.tokens]
      · exact ⟨Nat.succ_le_succ hFit, trivial⟩
      · intro hOpen
        cases hOpen
      · simp only [Phrase.via, Shape.via, stmtPhrase,
          stmtShape, returnOf, Stmt.announce,
          bind_eq_ok_iff]
        rw [hFirst] at hResult
        rw [hState]
        have hSpan := (Expr.value_eq_ok_iff.mp hResult).2
        rw [hSpan] at hEvent
        exact ⟨result, second.state, hResult, hEvent⟩
  · rintro ⟨⟨word, stop, _ | value⟩, hTokens, hFits, -, hDone⟩
    · refine
        ⟨_, ⟨stop.token :: after.rest, before.state⟩,
          ⟨word, hTokens, rfl, rfl⟩, ?_⟩
      rw [if_pos (headKind_leaf stop after.rest)]
      simp only [bind_eq_ok_iff, nextSpan_eq_ok_iff,
        effect_eq_ok_iff, expect_eq_ok_iff, pure_eq_ok_iff]
      exact
        ⟨stop.span, _, ⟨rfl, rfl⟩, (),
          ⟨stop.token :: after.rest, after.state⟩,
          ⟨hDone, rfl⟩, _, after, ⟨stop, rfl, rfl, rfl⟩,
          trivial, rfl⟩
    · simp only [Phrase.via, Shape.via, stmtPhrase,
        stmtShape, returnOf, Stmt.tokens, List.cons_append,
        List.append_assoc, List.nil_append] at hTokens
      simp only [Phrase.via, Shape.via, stmtPhrase,
        stmtShape, returnOf, Stmt.announce, bind_eq_ok_iff] at hDone
      rcases hDone with ⟨result, between, hResult, hEvent⟩
      have hSpan := (Expr.value_eq_ok_iff.mp hResult).2
      rw [← hSpan] at hEvent
      have hStops : value.Stops (stop.token :: after.rest) :=
        value.stops_of_separates
          (stop.separates _ _ (by decide))
      refine
        ⟨_, ⟨_, before.state⟩, ⟨word, hTokens, rfl, rfl⟩, ?_⟩
      rw [if_neg (value.headKind_tokens_ne _ rfl)]
      simp only [bind_eq_ok_iff, effect_eq_ok_iff,
        expect_eq_ok_iff, pure_eq_ok_iff, hExpression _ _ _]
      exact
        ⟨result, ⟨stop.token :: after.rest, between⟩,
          ⟨value, rfl, Nat.le_of_succ_le_succ hFits.1,
            hStops, hResult⟩,
          (), ⟨stop.token :: after.rest, after.state⟩,
          ⟨hEvent, rfl⟩, _, after, ⟨stop, rfl, rfl, rfl⟩,
          trivial, rfl⟩

/- The rule for jumps reads the word with its meaning. -/
theorem reads_jump
    (budget : Nat)
    {kind : Kind}
    (meaning : Jump)
    (hMeans : jump? kind = some meaning) :
    Reads (jump receiver kind meaning.event)
      ((stmtPhrase receiver (budget + 1)).via
        fun parts : Leaf kind × Leaf .semicolon =>
          .jump ⟨parts.1.token, meaning, hMeans⟩ parts.2) := by
  intro before after answer
  unfold jump
  simp only [bind_eq_ok_iff, expect_eq_ok_iff,
    effect_eq_ok_iff, Phrase.via, Shape.via, stmtPhrase,
    stmtShape, Stmt.tokens, Stmt.announce]
  constructor
  · rintro ⟨_, first, ⟨word, hWord, hFirst, rfl⟩, _, second,
      ⟨stop, hStop, hSecond, rfl⟩, hEvent, hRest⟩
    refine
      ⟨(word, stop), ?_, ⟨Nat.le_add_left _ _, trivial⟩,
        Bool.noConfusion, ?_⟩
    · rw [hWord, hStop, hRest]
      rfl
    · rw [hSecond, hFirst] at hEvent
      exact hEvent
  · rintro ⟨⟨word, stop⟩, hTokens, -, -, hDone⟩
    exact
      ⟨_, ⟨stop.token :: after.rest, before.state⟩,
        ⟨word, hTokens, rfl, rfl⟩, _,
        ⟨after.rest, before.state⟩, ⟨stop, rfl, rfl, rfl⟩,
        hDone, rfl⟩

end ControlFlow

end Parser

end OnePass

------------------------------------------------------------
-- Variables And Calls
------------------------------------------------------------

namespace OnePass

namespace Parser

open Grammar

variable {σ τ ε : Type}

/- Types with names, the way they are declared. -/
def declaratorPhrase : Phrase σ ε Formal Declarator where
  toShape := declaratorShape
  announce declarator := pure declarator.formal

theorem reads_declarator :
    Reads (declarator : Rule σ ε Formal) declaratorPhrase := by
  intro before after answer
  unfold declarator
  simp only [bind_eq_ok_iff, accept_eq_ok_iff,
    valueType_eq_ok_iff, identifier_eq_ok_iff,
    pure_eq_ok_iff]
  constructor
  · rintro ⟨_, first, hConst, _, second,
      ⟨ty, hTy, hSecond, rfl⟩, _, _,
      ⟨name, hName, hState, rfl⟩, rfl, rfl⟩
    rcases hConst with
      ⟨word, hWord, hFirst, rfl⟩ | ⟨-, rfl, rfl⟩
    · refine
        ⟨⟨some word, ty, name⟩, ?_, trivial, trivial, ?_⟩
      · rw [hWord, hTy, hName]
        rfl
      · rw [← hFirst, ← hSecond, ← hState]
        rfl
    · refine ⟨⟨none, ty, name⟩, ?_, trivial, trivial, ?_⟩
      · rw [hTy, hName]
        rfl
      · rw [← hSecond, ← hState]
        rfl
  · rintro ⟨⟨word?, ty, name⟩, hTokens, -, -, hAnswer⟩
    rw [declaratorPhrase, pure_eq_ok_iff] at hAnswer
    rcases hAnswer with ⟨rfl, hState⟩
    refine
      ⟨word?.isSome,
        ⟨ty.token :: name.token :: after.rest, before.state⟩,
        ?_, _, ⟨name.token :: after.rest, before.state⟩,
        ⟨ty, rfl, rfl, rfl⟩, _, after,
        ⟨name, rfl, hState.symm, rfl⟩, rfl, rfl⟩
    cases word? with
    | none =>
        have hKind :
            headKind before.rest ≠ some .kwConst := by
          rw [hTokens]
          intro hConst
          have hMeans := ty.means
          rw [show ty.token.kind = .kwConst from
            Option.some.inj hConst] at hMeans
          cases hMeans
        refine Or.inr ⟨hKind, ?_, rfl⟩
        rcases before with ⟨rest, state⟩
        rw [show rest = _ from hTokens]
        rfl
    | some word => exact Or.inl ⟨word, hTokens, rfl, rfl⟩

/- A declaration starts at its first token. -/
theorem startSpan_eq_iff
    (declarator : Declarator)
    (rest : List Token)
    (span : Span) :
    (declarator.tokens ++ rest).head?.map Token.span =
        some span ↔
      span = declarator.startSpan := by
  rcases declarator with ⟨_ | word, ty, name⟩
  · simp [Declarator.tokens, Declarator.startSpan, eq_comm]
  · simp [Declarator.tokens, Declarator.startSpan,
      Leaf.token, eq_comm]

section Variables

variable {receiver : Receiver σ τ ε}
variable {budget : Nat}
variable {expression : Rule σ ε (Typed τ)}

theorem reads_assignment
    (hExpression :
      Reads expression
        (exprPhrase receiver topLayer budget)) :
    Reads (assignment receiver expression)
      ((stmtPhrase receiver (budget + 1)).via
        fun parts :
            Leaf .identifier × Leaf .assign × Expression ×
              Leaf .semicolon =>
          .assignment parts.1 parts.2.1 parts.2.2.1
            parts.2.2.2) := by
  intro before after answer
  unfold assignment
  simp only [bind_eq_ok_iff, identifier_eq_ok_iff,
    expect_eq_ok_iff, effect_eq_ok_iff, hExpression _ _ _]
  constructor
  · rintro ⟨_, first, ⟨name, hName, hFirst, rfl⟩, _, second,
      ⟨sign, hSign, hSecond, -⟩, result, third,
      ⟨value, hValue, hFit, -, hResult⟩, _, fourth,
      ⟨stop, hStop, hFourth, rfl⟩, hEvent, hRest⟩
    refine ⟨(name, sign, value, stop), ?_, ?_, ?_, ?_⟩
    · rw [hName, hSign, hValue, hStop, hRest]
      simp [Phrase.via, Shape.via, stmtPhrase, stmtShape,
        exprPhrase, exprShape, Stmt.tokens]
    · exact ⟨Nat.succ_le_succ hFit, trivial⟩
    · intro hOpen
      cases hOpen
    · simp only [Phrase.via, Shape.via, stmtPhrase,
        stmtShape, Stmt.announce, bind_eq_ok_iff]
      rw [hSecond, hFirst] at hResult
      rw [hFourth] at hEvent
      exact ⟨result, third.state, hResult, hEvent⟩
  · rintro ⟨⟨name, sign, value, stop⟩, hTokens, hFits, -,
      hDone⟩
    simp only [Phrase.via, Shape.via, stmtPhrase, stmtShape,
      Stmt.tokens, List.cons_append, List.append_assoc,
      List.nil_append] at hTokens
    simp only [Phrase.via, Shape.via, stmtPhrase, stmtShape,
      Stmt.announce, bind_eq_ok_iff] at hDone
    rcases hDone with ⟨result, between, hResult, hEvent⟩
    have hStops : value.Stops (stop.token :: after.rest) :=
      value.stops_of_separates
        (stop.separates _ _ (by decide))
    exact
      ⟨_, ⟨_, before.state⟩, ⟨name, hTokens, rfl, rfl⟩, _,
        ⟨_, before.state⟩, ⟨sign, rfl, rfl, rfl⟩, result,
        ⟨stop.token :: after.rest, between⟩,
        ⟨value, rfl, Nat.le_of_succ_le_succ hFits.1, hStops,
          hResult⟩,
        _, ⟨after.rest, between⟩, ⟨stop, rfl, rfl, rfl⟩,
        hEvent, rfl⟩

theorem reads_callStatement
    (hExpression :
      Reads expression
        (exprPhrase receiver topLayer budget)) :
    Reads (callStatement receiver expression)
      ((stmtPhrase receiver (budget + 1)).via
        fun parts : Call × Leaf .semicolon =>
          .call parts.1 parts.2) := by
  have hCall := reads_call hExpression
  intro before after answer
  unfold callStatement
  simp only [bind_eq_ok_iff, expect_eq_ok_iff,
    pure_eq_ok_iff, hCall _ _ _]
  constructor
  · rintro ⟨result, first, ⟨call, hTokens, hFit, -, hResult⟩,
      _, _, ⟨stop, hStop, hState, -⟩, -, rfl⟩
    refine ⟨(call, stop), ?_, ?_, ?_, ?_⟩
    · rw [hTokens, hStop]
      simp [Phrase.via, Shape.via, stmtPhrase, stmtShape,
        callPhrase, callShape, Stmt.tokens]
    · exact ⟨Nat.succ_le_succ hFit, trivial⟩
    · intro hOpen
      cases hOpen
    · simp only [Phrase.via, Shape.via, stmtPhrase,
        stmtShape, Stmt.announce, bind_eq_ok_iff]
      rw [hState]
      exact
        ⟨result.ty, first.state,
          (Call.value_eq_ok_iff.mp hResult).1, rfl⟩
  · rintro ⟨⟨call, stop⟩, hTokens, hFits, -, hDone⟩
    simp only [Phrase.via, Shape.via, stmtPhrase, stmtShape,
      Stmt.tokens, List.append_assoc, List.cons_append,
      List.nil_append] at hTokens
    simp only [Phrase.via, Shape.via, stmtPhrase, stmtShape,
      Stmt.announce, bind_eq_ok_iff, pure_eq_ok_iff] at hDone
    rcases hDone with ⟨ty, _, hCall, -, rfl⟩
    exact
      ⟨⟨ty, call.span⟩,
        ⟨stop.token :: after.rest, after.state⟩,
        ⟨call, hTokens, Nat.le_of_succ_le_succ hFits.1,
          trivial, Call.value_eq_ok_iff.mpr ⟨hCall, rfl⟩⟩,
        _, after, ⟨stop, rfl, rfl, rfl⟩, trivial, rfl⟩

/- First values, within a nesting budget. -/
def initializerPhrase
    (receiver : Receiver σ τ ε)
    (budget : Nat) :
    Phrase σ ε (Option (Typed τ)) (Option Initializer) where
  toShape := initializerShape budget
  announce := announceInitializer receiver

/- The first value of a variable is read, or that it has none. -/
theorem reads_initializer
    (hExpression :
      Reads expression
        (exprPhrase receiver topLayer budget)) :
    Reads (initializer expression)
      (initializerPhrase receiver budget) := by
  intro before after answer
  unfold initializer
  simp only [bind_eq_ok_iff, accept_eq_ok_iff]
  constructor
  · rintro ⟨_, first, hSign, hOk⟩
    rcases hSign with
      ⟨sign, hSign, hFirst, rfl⟩ | ⟨hNone, rfl, rfl⟩
    · rw [if_pos rfl, bind_eq_ok_iff] at hOk
      rcases hOk with ⟨result, _, hResult, hSome⟩
      rw [pure_eq_ok_iff] at hSome
      rcases hSome with ⟨rfl, rfl⟩
      rw [hExpression] at hResult
      rcases hResult with
        ⟨value, hValue, hFit, hStops, hResult⟩
      refine ⟨some ⟨sign, value⟩, ?_, hFit, hStops, ?_⟩
      · rw [hSign, hValue]
        rfl
      · simp only [initializerPhrase, initializerShape,
          announceInitializer, bind_eq_ok_iff,
          pure_eq_ok_iff]
        rw [hFirst] at hResult
        exact ⟨result, _, hResult, rfl, rfl⟩
    · rw [if_neg Bool.false_ne_true, pure_eq_ok_iff] at hOk
      rcases hOk with ⟨rfl, rfl⟩
      exact ⟨none, rfl, Nat.zero_le _, hNone, rfl⟩
  · rintro ⟨_ | ⟨sign, value⟩, hTokens, hFit, hStops, hDone⟩
    · simp only [initializerPhrase, initializerShape,
        announceInitializer, pure_eq_ok_iff] at hDone
      rcases before with ⟨rest, state⟩
      rcases after with ⟨unread, final⟩
      cases hTokens
      cases hDone.2
      exact
        ⟨false, _, Or.inr ⟨hStops, rfl, rfl⟩,
          pure_eq_ok_iff.mpr ⟨hDone.1, rfl⟩⟩
    · simp only [initializerPhrase, initializerShape,
        announceInitializer, bind_eq_ok_iff, pure_eq_ok_iff] at hDone
      rcases hDone with ⟨result, _, hResult, rfl, rfl⟩
      refine
        ⟨true, ⟨value.tokens ++ after.rest, before.state⟩,
          Or.inl ⟨sign, hTokens, rfl, rfl⟩, ?_⟩
      rw [if_pos rfl, bind_eq_ok_iff]
      refine ⟨result, after, ?_, rfl⟩
      rw [hExpression]
      exact ⟨value, rfl, hFit, hStops, hResult⟩

theorem reads_declaration
    (hExpression :
      Reads expression
        (exprPhrase receiver topLayer budget)) :
    Reads (declaration receiver expression)
      ((stmtPhrase receiver (budget + 1)).via
        fun parts :
            Declarator × Option Initializer ×
              Leaf .semicolon =>
          .declaration parts.1 parts.2.1 parts.2.2) := by
  have hDeclarator :
      Reads (declarator : Rule σ ε Formal)
        declaratorPhrase :=
    reads_declarator
  have hInitializer := reads_initializer hExpression
  intro before after answer
  unfold declaration
  simp only [bind_eq_ok_iff, nextSpan_eq_ok_iff,
    effect_eq_ok_iff, expect_eq_ok_iff, hDeclarator _ _ _,
    hInitializer _ _ _]
  constructor
  · rintro ⟨start, _, ⟨hStart, rfl⟩, formal, first,
      ⟨declared, hDeclared, -, -, hFormal⟩, _, second,
      ⟨hBegin, hSecond⟩, value, third,
      ⟨given, hGiven, hFit, -, hValue⟩, _, fourth,
      ⟨stop, hStop, hFourth, rfl⟩, hEvent, hRest⟩
    simp only [declaratorPhrase, declaratorShape,
      pure_eq_ok_iff] at hFormal
    rcases hFormal with ⟨rfl, hFirst⟩
    rw [hDeclared] at hStart
    have hSpan := (startSpan_eq_iff declared _ _).mp hStart
    refine ⟨(declared, given, stop), ?_, ?_, ?_, ?_⟩
    · rw [hDeclared, ← hSecond, hGiven, hStop, hRest]
      simp [Phrase.via, Shape.via, stmtPhrase, stmtShape,
        declaratorPhrase, declaratorShape,
        initializerPhrase, initializerShape, Stmt.tokens]
    · exact ⟨Nat.succ_le_succ hFit, trivial⟩
    · intro hOpen
      cases hOpen
    · simp only [Phrase.via, Shape.via, stmtPhrase,
        stmtShape, Stmt.announce, bind_eq_ok_iff]
      rw [← hFirst] at hBegin
      rw [hSpan, hFourth] at hEvent
      exact ⟨(), _, hBegin, value, _, hValue, hEvent⟩
  · rintro ⟨⟨declared, given, stop⟩, hTokens, hFits, -,
      hDone⟩
    simp only [Phrase.via, Shape.via, stmtPhrase, stmtShape,
      Stmt.tokens, List.append_assoc, List.cons_append,
      List.nil_append] at hTokens
    simp only [Phrase.via, Shape.via, stmtPhrase, stmtShape,
      Stmt.announce, bind_eq_ok_iff] at hDone
    rcases hDone with
      ⟨_, first, hBegin, value, second, hValue, hEvent⟩
    have hStart :
        before.rest.head?.map Token.span =
          some declared.startSpan := by
      rw [hTokens]
      exact (startSpan_eq_iff declared _ _).mpr rfl
    exact
      ⟨_, before, ⟨hStart, rfl⟩, declared.formal,
        ⟨_, before.state⟩,
        ⟨declared, hTokens, trivial, trivial, rfl⟩, (),
        ⟨_, first⟩, ⟨hBegin, rfl⟩, value,
        ⟨stop.token :: after.rest, second⟩,
        ⟨given, rfl, Nat.le_of_succ_le_succ hFits.1,
          initializer_stops given stop after.rest, hValue⟩,
        _, ⟨after.rest, second⟩, ⟨stop, rfl, rfl, rfl⟩,
        hEvent, rfl⟩

end Variables

end Parser

end OnePass

------------------------------------------------------------
-- Statements
------------------------------------------------------------

namespace OnePass

namespace Parser

open Grammar

variable {σ τ ε : Type}

section StatementForm

variable {receiver : Receiver σ τ ε}
variable {budget : Nat}
variable {expression : Rule σ ε (Typed τ)}
variable {inner : Rule σ ε Unit}
variable
  (hExpression :
    Reads expression (exprPhrase receiver topLayer budget))
variable (hInner : Reads inner (stmtPhrase receiver budget))

include hExpression hInner

/- Every answer of the rule for statements is a statement. -/
private theorem exists_of_statementForm
    {before after : Cursor σ}
    {answer : Unit}
    (hOk :
      statementForm receiver expression inner before =
        .ok answer after) :
    ∃ tree,
      before.rest = tree.tokens ++ after.rest ∧
        (stmtPhrase receiver (budget + 1)).Fits tree ∧
        (stmtPhrase receiver (budget + 1)).Stops tree
          after.rest ∧
        tree.announce receiver before.state =
          .ok answer after.state := by
  unfold statementForm at hOk
  rw [lookahead_bind] at hOk
  cases hFirst : headKind before.rest with
  | none =>
      rw [hFirst] at hOk
      exact absurd hOk unexpected_ne_ok
  | some kind =>
      rw [hFirst] at hOk
      cases kind with
      | leftBrace =>
          exact exists_of_reads_via (reads_block hInner) hOk
      | kwIf =>
          exact
            exists_of_reads_via
              (reads_ifStatement hExpression hInner) hOk
      | kwWhile =>
          exact
            exists_of_reads_via
              (reads_whileStatement hExpression hInner)
              hOk
      | kwReturn =>
          exact
            exists_of_reads_via
              (reads_returnStatement hExpression) hOk
      | kwBreak =>
          exact
            exists_of_reads_via
              (reads_jump budget .break rfl) hOk
      | kwContinue =>
          exact
            exists_of_reads_via
              (reads_jump budget .continue rfl) hOk
      | kwConst | kwInt | kwByte | kwBool =>
          exact
            exists_of_reads_via
              (reads_declaration hExpression) hOk
      | identifier =>
          cases hSecond : headKind before.rest.tail with
          | none =>
              rw [hSecond] at hOk
              exact absurd hOk unexpected_ne_ok
          | some second =>
              rw [hSecond] at hOk
              cases second with
              | assign =>
                  exact
                    exists_of_reads_via
                      (reads_assignment hExpression) hOk
              | leftParen =>
                  exact
                    exists_of_reads_via
                      (reads_callStatement hExpression) hOk
              | _ => exact absurd hOk unexpected_ne_ok
      | _ => exact absurd hOk unexpected_ne_ok

/- The rule for statements answers at every statement. -/
private theorem statementForm_of_tree
    {before after : Cursor σ}
    {answer : Unit}
    (tree : Stmt)
    (hTokens : before.rest = tree.tokens ++ after.rest)
    (hFits : (stmtPhrase receiver (budget + 1)).Fits tree)
    (hStops :
      (stmtPhrase receiver (budget + 1)).Stops tree
        after.rest)
    (hDone :
      tree.announce receiver before.state =
        .ok answer after.state) :
    statementForm receiver expression inner before =
      .ok answer after := by
  unfold statementForm
  rw [lookahead_bind, hTokens]
  cases tree with
  | block left body right =>
      exact
        (reads_block hInner _ _ _).mpr
          ⟨(left, body, right), hTokens, hFits, hStops, hDone⟩
  | declaration declarator initializer stop =>
      have hRead :
          declaration receiver expression before =
            .ok answer after :=
        (reads_declaration hExpression _ _ _).mpr
          ⟨(declarator, initializer, stop), hTokens, hFits,
            hStops, hDone⟩
      rcases declarator.tokens_eq_cons with
        ⟨first, more, hDeclarator, -, hKind⟩
      simp only [Stmt.tokens, hDeclarator, List.cons_append,
        headKind, List.head?_cons, Option.map_some]
      rcases first with ⟨kind, text, span⟩
      cases kind with
      | kwConst | kwInt | kwByte | kwBool => exact hRead
      | _ =>
          rcases hKind with hConst | hType
          · cases hConst
          · cases hType
  | assignment name sign value stop =>
      exact
        (reads_assignment hExpression _ _ _).mpr
          ⟨(name, sign, value, stop), hTokens, hFits, hStops,
            hDone⟩
  | call parts stop =>
      have hRead :=
        (reads_callStatement hExpression _ _ _).mpr
          ⟨(parts, stop), hTokens, hFits, hStops, hDone⟩
      cases parts with
      | bare callee left right => exact hRead
      | applied callee left arguments right => exact hRead
  | returnVoid word stop =>
      exact
        (reads_returnStatement hExpression _ _ _).mpr
          ⟨(word, stop, none), hTokens, hFits, hStops, hDone⟩
  | returnValue word value stop =>
      exact
        (reads_returnStatement hExpression _ _ _).mpr
          ⟨(word, stop, some value), hTokens, hFits, hStops,
            hDone⟩
  | ifThen word condition branch =>
      exact
        (reads_ifStatement hExpression hInner _ _ _).mpr
          ⟨(word, condition, branch, none), hTokens, hFits,
            hStops, hDone⟩
  | ifElse word condition branch other otherwise =>
      exact
        (reads_ifStatement hExpression hInner _ _ _).mpr
          ⟨(word, condition, branch, some (other, otherwise)),
            hTokens, hFits, hStops, hDone⟩
  | whileLoop word condition body =>
      exact
        (reads_whileStatement hExpression hInner _ _ _).mpr
          ⟨(word, condition, body), hTokens, hFits, hStops,
            hDone⟩
  | jump word stop =>
      rcases word with ⟨⟨kind, text, span⟩, meaning, hMeans⟩
      have hRead :=
        (reads_jump budget meaning hMeans _ _ _).mpr
          ⟨(⟨text, span⟩, stop), hTokens, hFits, hStops, hDone⟩
      cases kind with
      | kwBreak | kwContinue =>
          rcases Option.some.inj hMeans with rfl
          exact hRead
      | _ => cases hMeans

/- If what is inside is read, so is the statement. -/
theorem reads_statementForm :
    Reads (statementForm receiver expression inner)
      (stmtPhrase receiver (budget + 1)) := by
  intro before after answer
  constructor
  · exact exists_of_statementForm hExpression hInner
  · rintro ⟨tree, hTokens, hFits, hStops, hDone⟩
    exact
      statementForm_of_tree hExpression hInner tree hTokens
        hFits hStops hDone

end StatementForm

/- The rule for statements reads the statements. -/
theorem reads_statement
    (receiver : Receiver σ τ ε)
    (budget : Nat) :
    Reads (statement receiver budget)
      (stmtPhrase receiver budget) := by
  induction budget with
  | zero =>
      intro before after answer
      constructor
      · intro hOk
        cases hOk
      · rintro ⟨tree, -, hFits, -⟩
        have hPositive := tree.nesting_pos
        have hZero : tree.nesting ≤ 0 := hFits.1
        omega
  | succ budget ih =>
      exact
        reads_statementForm (reads_expression receiver budget)
          ih

end Parser

end OnePass
