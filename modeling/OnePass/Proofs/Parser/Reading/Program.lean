import OnePass.Proofs.Parser.Reading.Statement

/-
  Which programs the parser reads.

  Main declarations:
    * `Parser.reads_function`
    * `Parser.program_eq_ok_iff`
    * `parse_eq_ok_iff`
-/

------------------------------------------------------------
-- Functions
------------------------------------------------------------

namespace OnePass

namespace Parser

open Grammar

variable {σ τ ε : Type}

/- The formal parameters of a function. -/
abbrev formalsPhrase :
    Phrase σ ε (List Formal) (Option (Separated Declarator)) :=
  declaratorPhrase.listed

/- Declared names are not announced one by one. -/
theorem announce_declarators
    (items : Separated Declarator) :
    (items.announce declaratorPhrase.announce :
        EStateM ε σ (List Formal)) =
      pure (items.toList.map Declarator.formal) := by
  induction items with
  | one item => rfl
  | more items comma item ih =>
      rw [Separated.announce, ih]
      simp [declaratorPhrase, declaratorShape,
        Separated.toList]

/- Formals are answered as a list, in source order. -/
theorem announce_formals_eq_ok_iff
    {formals : Option (Separated Declarator)}
    {before after : σ}
    {answer : List Formal} :
    (formalsPhrase (ε := ε)).announce formals before =
        .ok answer after ↔
      (formals.elim [] Separated.toList).map
          Declarator.formal =
        answer ∧ before = after := by
  cases formals with
  | none => exact pure_eq_ok_iff
  | some items =>
      change items.announce _ before = _ ↔ _
      rw [announce_declarators, pure_eq_ok_iff]
      rfl

/- Functions whose bodies are within the nesting limit. -/
def functionPhrase
    (receiver : Receiver σ τ ε)
    (limit : Nat) :
    Phrase σ ε Unit Function where
  toShape := functionShape limit
  announce := Function.announce receiver

/- A list of formals is read, or that there are none. -/
theorem reads_formals :
    Reads (commaList declarator : Rule σ ε (List Formal))
      formalsPhrase := by
  apply reads_commaList
  · apply reads_commaSeparated reads_declarator
    intro _ _ _
    trivial
  · intro declarator rest
    exact declarator.headKind_tokens_ne rest rfl

theorem signature_eq_ok_iff
    {receiver : Receiver σ τ ε}
    {before after : Cursor σ}
    {answer : Unit} :
    signature receiver before = .ok answer after ↔
      ∃ (returns : Sign returnType?)
        (name : Leaf .identifier)
        (left : Leaf .leftParen)
        (formals : Option (Separated Declarator))
        (right : Leaf .rightParen),
        before.rest =
            returns.token :: name.token :: left.token ::
              (formalsPhrase (σ := σ) (ε := ε)).tokens
                  formals ++
                right.token :: after.rest ∧
          (do
            receiver.effect
              (.functionHeader returns.meaning
                name.identifier)
            receiver.effect
              (.functionSignature returns.meaning
                name.identifier
                ((formals.elim [] Separated.toList).map
                  Declarator.formal)) :
            EStateM ε σ Unit) before.state =
            .ok () after.state := by
  have hFormals :
      Reads (commaList declarator : Rule σ ε (List Formal))
        formalsPhrase :=
    reads_formals
  unfold signature
  simp only [bind_eq_ok_iff, returnType_eq_ok_iff,
    identifier_eq_ok_iff, expect_eq_ok_iff,
    effect_eq_ok_iff, pure_eq_ok_iff, hFormals _ _ _,
    announce_formals_eq_ok_iff]
  constructor
  · intro hOk
    rcases hOk with
      ⟨_, first, ⟨returns, hReturns, hFirst, rfl⟩, _,
        second, ⟨name, hName, hSecond, rfl⟩, _, third,
        ⟨hHeader, hThird⟩, hOk⟩
    rcases hOk with
      ⟨_, fourth, ⟨left, hLeft, hFourth, -⟩, _, fifth,
        ⟨formals, hFormals, -, -, rfl, hFifth⟩, hOk⟩
    rcases hOk with
      ⟨_, sixth, ⟨hSignature, hSixth⟩, _, _,
        ⟨right, hRight, hState, -⟩, -, rfl⟩
    refine ⟨returns, name, left, formals, right, ?_, ?_⟩
    · rw [hReturns, hName, ← hThird, hLeft, hFormals,
        ← hSixth, hRight]
      rfl
    · rw [hSecond, hFirst] at hHeader
      rw [← hFifth, hFourth] at hSignature
      rw [hState]
      exact ⟨(), _, hHeader, hSignature⟩
  · rintro ⟨returns, name, left, formals, right, hTokens, _,
      headed, hHeader, hSignature⟩
    exact
      ⟨_, ⟨_, before.state⟩, ⟨returns, hTokens, rfl, rfl⟩, _,
        ⟨_, before.state⟩, ⟨name, rfl, rfl, rfl⟩, (),
        ⟨_, headed⟩, ⟨hHeader, rfl⟩, _, ⟨_, headed⟩,
        ⟨left, rfl, rfl, rfl⟩, _,
        ⟨right.token :: after.rest, headed⟩,
        ⟨formals, rfl, fits_formals formals,
          stops_formals formals right _, rfl, rfl⟩,
        (), ⟨right.token :: after.rest, after.state⟩,
        ⟨hSignature, rfl⟩, _, after,
        ⟨right, rfl, rfl, rfl⟩, trivial, rfl⟩

theorem functionBody_eq_ok_iff
    {receiver : Receiver σ τ ε}
    {limit : Nat}
    {before after : Cursor σ}
    {answer : Unit} :
    functionBody receiver limit before = .ok answer after ↔
      ∃ (start : Leaf .leftBrace) (body : Stmts)
        (stop : Leaf .rightBrace),
        before.rest =
            start.token ::
              (body.tokens ++ stop.token :: after.rest) ∧
          (body.nesting ≤ limit ∧ body.ElseNearest) ∧
          (do
            body.announce receiver
            receiver.effect (.functionEnd stop.span) :
            EStateM ε σ Unit) before.state =
            .ok () after.state := by
  have hBody :=
    reads_statementList (reads_statement receiver limit)
  unfold functionBody
  simp only [bind_eq_ok_iff, expect_eq_ok_iff,
    effect_eq_ok_iff, hBody _ _ _]
  constructor
  · rintro ⟨_, first, ⟨start, hStart, hFirst, -⟩, _, second,
      ⟨body, hBody, hFits, -, hDone⟩, _, third,
      ⟨stop, hStop, hThird, rfl⟩, hEnd, hRest⟩
    refine ⟨start, body, stop, ?_, hFits, ?_⟩
    · rw [hStart, hBody, hStop, hRest]
      rfl
    · rw [hFirst] at hDone
      rw [hThird] at hEnd
      exact ⟨(), second.state, hDone, hEnd⟩
  · rintro ⟨start, body, stop, hTokens, hFits, _, done, hDone,
      hEnd⟩
    exact
      ⟨_, ⟨_, before.state⟩, ⟨start, hTokens, rfl, rfl⟩, (),
        ⟨stop.token :: after.rest, done⟩,
        ⟨body, rfl, hFits,
          listEnds_rightBrace stop after.rest, hDone⟩, _,
        ⟨after.rest, done⟩, ⟨stop, rfl, rfl, rfl⟩, hEnd, rfl⟩

/- The rule for functions reads the functions. -/
theorem reads_function
    (receiver : Receiver σ τ ε)
    (limit : Nat) :
    Reads (function receiver limit)
      (functionPhrase receiver limit) := by
  intro before after answer
  unfold function
  simp only [bind_eq_ok_iff, signature_eq_ok_iff,
    functionBody_eq_ok_iff]
  constructor
  · rintro ⟨_, between,
      ⟨returns, name, left, formals, right, hHead, _, headed,
        hHeader, hSignature⟩,
      start, body, stop, hBody, hFits, _, done, hDone, hEnd⟩
    refine
      ⟨⟨returns, name, left, formals, right, start, body,
        stop⟩, ?_, hFits, trivial, ?_⟩
    · rw [hHead, hBody]
      simp [functionPhrase, functionShape, Function.tokens,
        Phrase.listed, Shape.listed, declaratorPhrase,
        declaratorShape]
    · simp only [functionPhrase, functionShape,
        Function.announce, Function.formalList,
        bind_eq_ok_iff]
      exact
        ⟨(), headed, hHeader, (), between.state, hSignature,
          (), done, hDone, hEnd⟩
  · rintro
      ⟨⟨returns, name, left, formals, right, start, body,
        stop⟩, hTokens, hFits, -, hDone⟩
    simp only [functionPhrase, functionShape,
      Function.announce, Function.formalList,
      bind_eq_ok_iff] at hDone
    rcases hDone with
      ⟨_, headed, hHeader, _, signed, hSignature, _, done,
        hBodyDone, hEnd⟩
    simp only [functionPhrase, functionShape,
      Function.tokens, List.cons_append, List.append_assoc,
      List.nil_append] at hTokens
    exact
      ⟨(), ⟨_, signed⟩,
        ⟨returns, name, left, formals, right, hTokens, (),
          headed, hHeader, hSignature⟩,
        start, body, stop, rfl, hFits, (), done, hBodyDone,
        hEnd⟩

end Parser

end OnePass

------------------------------------------------------------
-- Programs
------------------------------------------------------------

namespace OnePass

namespace Parser

open Grammar

variable {σ τ ε : Type}

section Functions

variable {receiver : Receiver σ τ ε}
variable {limit : Nat}
variable {before after : Cursor σ}

theorem functionStep_eq_none_iff :
    functionStep receiver limit () before = .ok none after ↔
      before.rest = [] ∧ after = before := by
  unfold functionStep
  rw [peek_bind]
  rcases before with ⟨_ | ⟨token, rest⟩, state⟩
  · change (pure none : Rule σ ε (Option Unit)) _ = _ ↔ _
    rw [pure_eq_ok_iff]
    simp [eq_comm]
  · change
      (do return some (← function receiver limit) :
        Rule σ ε (Option Unit)) _ = _ ↔ _
    simp [map_eq_ok_iff]

theorem functionStep_eq_some_iff :
    functionStep receiver limit () before =
        .ok (some ()) after ↔
      before.rest ≠ [] ∧
        function receiver limit before = .ok () after := by
  unfold functionStep
  rw [peek_bind]
  rcases before with ⟨_ | ⟨token, rest⟩, state⟩
  · change (pure none : Rule σ ε (Option Unit)) _ = _ ↔ _
    simp
  · change
      (do return some (← function receiver limit) :
        Rule σ ε (Option Unit)) _ = _ ↔ _
    rw [bind_eq_ok_iff]
    constructor
    · rintro ⟨_, _, hFunction, hPure⟩
      rw [pure_eq_ok_iff] at hPure
      rw [← hPure.2]
      exact ⟨List.cons_ne_nil _ _, hFunction⟩
    · intro hFunction
      exact ⟨(), after, hFunction.2, rfl⟩

theorem progresses_functionStep :
    Progresses (functionStep receiver limit) where
  reads hStep := by
    rw [functionStep_eq_some_iff, reads_function] at hStep
    rcases hStep with ⟨-, tree, hTree, -⟩
    have hLength := congrArg List.length hTree
    simp only [functionPhrase, functionShape,
      Function.tokens, List.cons_append, List.length_cons,
      List.length_append] at hLength
    omega
  ends _ state := by
    rw [functionStep_eq_none_iff]
    exact ⟨rfl, rfl⟩

/- Functions are written with the tokens of each of them. -/
private theorem functions_of_steps
    {answer final : Unit}
    (hSteps :
      Steps (functionStep receiver limit) answer before final
        after) :
    ∃ functions : List Function,
      before.rest = functions.flatMap Function.tokens ∧
        (∀ function ∈ functions,
          (functionPhrase receiver limit).Fits function) ∧
        after.rest = [] ∧
        announceFunctions receiver functions before.state =
          .ok () after.state := by
  induction hSteps with
  | stop hStep =>
      rw [functionStep_eq_none_iff] at hStep
      rcases hStep with ⟨hEmpty, rfl⟩
      refine ⟨[], hEmpty, ?_, hEmpty, rfl⟩
      intro function hFunction
      cases hFunction
  | next hStep _ ih =>
      rw [functionStep_eq_some_iff, reads_function] at hStep
      rcases hStep with ⟨-, function, hTokens, hFit, -, hDone⟩
      rcases ih with
        ⟨functions, hMore, hFits, hEmpty, hMoreDone⟩
      refine ⟨function :: functions, ?_, ?_, hEmpty, ?_⟩
      · rw [hTokens, hMore]
        rfl
      · exact List.forall_mem_cons.mpr ⟨hFit, hFits⟩
      · rw [announceFunctions, bind_eq_ok_iff]
        exact ⟨(), _, hDone, hMoreDone⟩

private theorem steps_of_functions
    (functions : List Function)
    {start final : σ}
    (hFits :
      ∀ function ∈ functions,
        (functionPhrase receiver limit).Fits function)
    (hDone :
      announceFunctions receiver functions start =
        .ok () final) :
    Steps (functionStep receiver limit) ()
      ⟨functions.flatMap Function.tokens, start⟩ ()
      ⟨[], final⟩ := by
  induction functions generalizing start with
  | nil =>
      cases hDone
      apply Steps.stop
      rw [functionStep_eq_none_iff]
      exact ⟨rfl, rfl⟩
  | cons function functions ih =>
      rw [announceFunctions, bind_eq_ok_iff] at hDone
      rcases hDone with ⟨_, middle, hFirst, hMore⟩
      have hFits := List.forall_mem_cons.mp hFits
      refine
        Steps.next (functionStep_eq_some_iff.mpr ⟨?_, ?_⟩)
          (ih hFits.2 hMore)
      · simp [Function.tokens]
      · rw [reads_function]
        exact ⟨function, rfl, hFits.1, trivial, hFirst⟩

/- A program is read to its end. -/
theorem program_eq_ok_iff
    {answer : Unit} :
    program receiver limit before = .ok answer after ↔
      ∃ tree : Program,
        before.rest = tree.tokens ∧
          tree.NestingAtMost limit ∧
          tree.ElseNearest ∧
          after.rest = [] ∧
          tree.announce receiver before.state =
            .ok () after.state := by
  unfold program
  simp only [bind_eq_ok_iff, effect_eq_ok_iff,
    iterate_eq_ok_iff progresses_functionStep,
    Program.announce]
  constructor
  · rintro ⟨_, between, hSteps, hEnd, hRest⟩
    rcases functions_of_steps hSteps with
      ⟨functions, hTokens, hFits, hEmpty, hDone⟩
    exact
      ⟨⟨functions⟩, hTokens,
        fun function hMem => (hFits function hMem).1,
        fun function hMem => (hFits function hMem).2,
        by rw [hRest, hEmpty], (), _, hDone, hEnd⟩
  · rintro ⟨⟨functions⟩, hTokens, hNesting, hNearest, hEmpty,
      _, between, hDone, hEnd⟩
    have hSteps :=
      steps_of_functions functions
        (fun function hMem =>
          ⟨hNesting function hMem, hNearest function hMem⟩)
        hDone
    rcases before with ⟨rest, state⟩
    cases hTokens
    exact ⟨(), ⟨[], between⟩, hSteps, hEnd, hEmpty⟩

end Functions

end Parser

open Grammar in
/-
  A program is accepted exactly if its tokens are those of a
  tree whose announcement the receiver accepts.
-/
theorem parse_eq_ok_iff
    {σ τ ε : Type}
    {receiver : Receiver σ τ ε}
    {tokens : List Token}
    {start final : σ} :
    parse receiver tokens start = (.ok (), final) ↔
      ∃ program : Program,
        program.IsTreeOf tokens ∧
          program.announce receiver start = .ok () final := by
  have hProgram :=
    @Parser.program_eq_ok_iff σ τ ε receiver
      Parser.maxNesting ⟨tokens, start⟩
  unfold parse
  constructor
  · intro hParse
    cases hRun :
        Parser.program receiver Parser.maxNesting
          ⟨tokens, start⟩ with
    | ok answer after =>
        rw [hRun] at hParse
        cases hParse
        rcases hProgram.mp hRun with
          ⟨tree, hTokens, hNesting, hNearest, -, hDone⟩
        exact
          ⟨tree, ⟨hTokens.symm, hNesting, hNearest⟩, hDone⟩
    | error halt after =>
        rw [hRun] at hParse
        cases halt <;> cases hParse
  · rintro ⟨tree, ⟨rfl, hNesting, hNearest⟩, hDone⟩
    have hRun :=
      @hProgram ⟨[], final⟩ () |>.mpr
        ⟨tree, rfl, hNesting, hNearest, rfl, hDone⟩
    rw [hRun]

end OnePass
