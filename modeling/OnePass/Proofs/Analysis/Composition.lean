import OnePass.Proofs.Analysis.Adequacy
import OnePass.Proofs.Analysis.Invariant
import OnePass.Proofs.Parser.Concatenation

/-
  A program is analyzed function by function.

  A function that is accepted leaves its signature in the
  state and nothing else: no variable, no open loop and no
  function at hand. So a text of complete functions may be
  analyzed first and the rest of a program later, from the
  library and the signatures found so far, with the same
  result and the same table of functions.

  Main declarations:
    * `Analysis.Upright.eq_between`
    * `Analysis.Moves.declared_grows`
    * `Analysis.functions_or_failure`
    * `exists_valid_of_analyze_ok`
    * `Grammar.Program.Valid.analyze_eq_ok`
    * `analyze_function_by_function`
-/

------------------------------------------------------------
-- States Between Functions
------------------------------------------------------------

namespace OnePass

namespace Analysis

section Between

variable {state after : State}

/- Between two functions only the signatures are left. -/
theorem Upright.eq_between
    (hState : Upright .outside state) :
    state =
      .between
        (Functions.withLibrary.appendAll state.declared) := by
  have hBlocks : state.symbols.blocks = [] :=
    List.length_eq_zero_iff.mp hState.inStep.depth
  have hLoops : state.loops = 0 := hState.inStep.loops
  have hOuter := hState.tidy.outer
  have hCurrent : state.symbols.current? = none :=
    hState.atHand
  have hFunctions :
      Functions.withLibrary.appendAll state.declared =
        state.symbols.functions :=
    hState.tidy.functions.symm
  rw [hFunctions]
  rcases state with
    ⟨⟨blocks, outer, functions, current?⟩, loops⟩
  simp only at hBlocks hLoops hOuter hCurrent
  rw [hBlocks, hLoops, hOuter, hCurrent]
  rfl

/- The end of a program asks for its entry point. -/
theorem Upright.step_programEnd_iff
    (hState : Upright .outside state) :
    Analysis.step state .programEnd = .ok state ↔
      Signature.entryPoint ∈ state.declared := by
  have hIndexed :
      (Functions.withLibrary.appendAll
        state.declared).Indexed :=
    hState.tidy.functions ▸ hState.tidy.indexed
  have hDecides :=
    Grammar.decides_programEnd hIndexed
      (State.between
        (Functions.withLibrary.appendAll state.declared))
  rw [receiver_effect_eq_ok_iff, and_iff_left rfl]
    at hDecides
  conv_lhs => rw [hState.eq_between]
  exact hDecides

/- No event takes a signature away. -/
theorem Moves.declared_grows
    {event : EffectEvent Ty}
    (hTidy : state.symbols.Tidy)
    (hMoves : Moves state event after) :
    state.declared <+: after.declared := by
  cases hMoves with
  | functionSignature hNew hFit =>
      unfold State.declared
      rw [Symbols.functions_inside,
        hTidy.functions.declared_append]
      exact List.prefix_append _ _
  | declaration hFree =>
      unfold State.declared
      rw [Symbols.functions_bind]
  | check hCheck => exact List.prefix_rfl
  | functionEnd hBlocks => exact List.prefix_rfl
  | openScope => exact List.prefix_rfl
  | closeScope hBlocks => exact List.prefix_rfl
  | openLoop => exact List.prefix_rfl
  | closeLoop hLoops => exact List.prefix_rfl

end Between

end Analysis

end OnePass

------------------------------------------------------------
-- Runs From Upright States
------------------------------------------------------------

namespace OnePass

namespace Analysis

open OnePass.Parser
  (Course iterate functionStep maxNesting)

/-
  An upright state that still has the known signatures. What
  is refused inside a function has a place in it.
-/
def growthCourse
    (known : List Signature) : Course State Stop where
  At stage state :=
    Upright stage state ∧ known <+: state.declared
  Refused stop _ := stop.IsPlaced

theorem keptInside_growthCourse
    (known : List Signature) :
    (growthCourse known).KeptInside receiver where
  value {stage state} event hValues hAt := by
    have hJudged := judged_valueType state.symbols event
    unfold receiver
    cases hType : valueType state.symbols event with
    | ok ty =>
        simp only [hType]
        exact hAt
    | error stop =>
        simp only [hType]
        exact hJudged stop hType
  effect {stage next state event} hNext hAt := by
    rcases hAt with ⟨hState, hKnown⟩
    have hLands := lands_step hNext hState.inStep
    unfold receiver
    cases hStep : step state event with
    | ok after =>
        have hGrows :=
          (moves_of_step hStep).declared_grows hState.tidy
        simp only [hStep]
        exact ⟨hState.step hNext hStep, hKnown.trans hGrows⟩
    | error stop =>
        simp only [hStep]
        exact hLands.1 stop hStep

section Runs

variable {start : State}
variable (hStart : Upright .outside start)

include hStart

/-
  Either all functions of a text are accepted, or the run
  fails inside of one of them.
-/
theorem functions_or_failure
    (tokens : List Token) :
    (∃ between,
      iterate (functionStep receiver maxNesting) ()
            ⟨tokens, start⟩ =
          .ok () ⟨[], between⟩ ∧
        Upright .outside between ∧
          start.declared <+: between.declared) ∨
      ∃ failure final,
        parse receiver tokens start =
            (.error failure, final) ∧
          Stop.ofFailure failure ≠
            .finding .missingMain := by
  have hRun :=
    Course.follows_functions
      (keptInside_growthCourse start.declared)
      ⟨tokens, start⟩ ⟨hStart, List.prefix_rfl⟩
  cases hFunctions :
      iterate (functionStep receiver maxNesting) ()
        ⟨tokens, start⟩ with
  | ok answer after =>
      have hRest : after.rest = [] :=
        rest_eq_nil_of_steps
          ((Parser.iterate_eq_ok_iff
            Parser.progresses_functionStep).mp hFunctions)
      rw [hFunctions] at hRun
      rcases after with ⟨rest, between⟩
      simp only at hRest
      rw [hRest]
      exact .inl ⟨between, rfl, hRun⟩
  | error halt after =>
      rw [hFunctions] at hRun
      have hProgram :
          Parser.program receiver maxNesting
              ⟨tokens, start⟩ =
            .error halt after :=
        bind_of_error hFunctions
      right
      unfold parse
      rw [hProgram]
      cases halt with
      | stuck obstacle =>
          refine ⟨_, _, rfl, ?_⟩
          intro hMissing
          cases hMissing
      | refused stop =>
          refine ⟨_, _, rfl, ?_⟩
          intro hMissing
          change stop = _ at hMissing
          rw [hMissing] at hRun
          exact hRun

omit hStart in
/- The end of a text whose functions are all accepted. -/
theorem parse_of_functions
    {tokens : List Token}
    {between : State}
    (hFunctions :
      iterate (functionStep receiver maxNesting) ()
          ⟨tokens, start⟩ =
        .ok () ⟨[], between⟩)
    (hBetween : Upright .outside between) :
    parse receiver tokens start =
      if Signature.entryPoint ∈ between.declared then
        (.ok (), between)
      else
        (.error (.refused (.finding .missingMain)),
          between) := by
  have hEntry := hBetween.step_programEnd_iff
  rw [parse_of_programEnd (bind_of_ok hFunctions)]
  unfold receiver
  rcases step_programEnd between with hStep | hStep
  · rw [if_pos (hEntry.mp hStep)]
    simp only [hStep]
  · have hNone :
        Signature.entryPoint ∉ between.declared := by
      intro hDeclared
      rw [hEntry.mpr hDeclared] at hStep
      cases hStep
    rw [if_neg hNone]
    simp only [hStep]

/- A run that succeeds keeps the signatures it starts with. -/
theorem declared_prefix_of_parse_ok
    {tokens : List Token}
    {final : State}
    (hRun : parse receiver tokens start = (.ok (), final)) :
    start.declared <+: final.declared := by
  rcases functions_or_failure hStart tokens with
    hFunctions | hFailure
  · rcases hFunctions with
      ⟨between, hFunctions, hBetween, hGrows⟩
    rw [parse_of_functions hFunctions hBetween] at hRun
    split at hRun
    · exact (Prod.mk.inj hRun).2 ▸ hGrows
    · cases hRun
  · rcases hFailure with ⟨failure, after, hFails, -⟩
    rw [hRun] at hFails
    cases hFails

/- Where the entry point is known, it is not missed. -/
theorem ne_missingMain_of_entryPoint
    {tokens : List Token}
    {failure : Parser.Failure Stop}
    {final : State}
    (hEntry : Signature.entryPoint ∈ start.declared)
    (hRun :
      parse receiver tokens start =
        (.error failure, final)) :
    Stop.ofFailure failure ≠ .finding .missingMain := by
  rcases functions_or_failure hStart tokens with
    hFunctions | hFailure
  · rcases hFunctions with
      ⟨between, hFunctions, hBetween, hGrows⟩
    rw [parse_of_functions hFunctions hBetween,
      if_pos (hGrows.subset hEntry)] at hRun
    cases hRun
  · rcases hFailure with ⟨failed, after, hFails, hStop⟩
    rw [hRun] at hFails
    cases hFails
    exact hStop

end Runs

end Analysis

end OnePass

------------------------------------------------------------
-- Programs In Parts
------------------------------------------------------------

namespace OnePass

open OnePass.Analysis

variable {tokens : List Token}

theorem analyze_eq_ok_iff
    {signatures : List Signature} :
    analyze tokens = .ok signatures ↔
      ∃ final,
        parse Analysis.receiver tokens .initial =
            (.ok (), final) ∧
          final.declared = signatures := by
  unfold analyze
  split
  · next final hRun => simp [hRun]
  · next failure final hRun => simp [hRun]

theorem analyze_eq_error_iff
    {stop : Stop} :
    analyze tokens = .error stop ↔
      ∃ failure final,
        parse Analysis.receiver tokens .initial =
            (.error failure, final) ∧
          .ofFailure failure = stop := by
  unfold analyze
  split
  · next final hRun => simp [hRun]
  · next failure final hRun => simp [hRun]

/- An accepted text has a tree that keeps the rules. -/
theorem exists_valid_of_analyze_ok
    {signatures : List Signature}
    (hOk : analyze tokens = .ok signatures) :
    ∃ program : Grammar.Program,
      program.IsTreeOf tokens ∧ program.Valid ∧
        program.signatures = signatures := by
  rcases analyze_eq_ok_iff.mp hOk with
    ⟨final, hRun, hDeclared⟩
  rcases parse_eq_ok_iff.mp hRun with
    ⟨program, hTree, hDone⟩
  rcases (program.decides final).mp hDone with
    ⟨hValid, hFinal⟩
  rw [← hFinal] at hDeclared
  exact
    ⟨program, hTree, hValid,
      (Functions.declared_appendAll _).symm.trans hDeclared⟩

/- The text of a tree that keeps the rules is accepted. -/
theorem Grammar.Program.Valid.analyze_eq_ok
    {program : Grammar.Program}
    (hValid : program.Valid)
    (hTree : program.IsTreeOf tokens) :
    analyze tokens = .ok program.signatures := by
  have hDone := (program.decides _).mpr ⟨hValid, rfl⟩
  exact
    analyze_eq_ok_iff.mpr
      ⟨_, parse_eq_ok_iff.mpr ⟨program, hTree, hDone⟩,
        Functions.declared_appendAll program.signatures⟩

/-
  The functions declared by a run of the analysis on a text,
  whether the text is accepted or not.
-/
def declaredBy (tokens : List Token) : List Signature :=
  (parse Analysis.receiver tokens .initial).2.declared

theorem declaredBy_of_analyze_ok
    {signatures : List Signature}
    (hOk : analyze tokens = .ok signatures) :
    declaredBy tokens = signatures := by
  rcases analyze_eq_ok_iff.mp hOk with
    ⟨final, hRun, hDeclared⟩
  unfold declaredBy
  rw [hRun]
  exact hDeclared

/- All functions of a text are complete and accepted. -/
def AnalyzesToEnd (tokens : List Token) : Prop :=
  (∃ signatures, analyze tokens = .ok signatures) ∨
    analyze tokens = .error (.finding .missingMain)

/- The state in which a text leaves the analysis. -/
def stateAfter (tokens : List Token) : Analysis.State :=
  .between
    (Functions.withLibrary.appendAll (declaredBy tokens))

theorem declared_stateAfter
    (tokens : List Token) :
    (stateAfter tokens).declared = declaredBy tokens :=
  Functions.declared_appendAll (declaredBy tokens)

/-
  A text that is analyzed to its end leaves its signatures
  and nothing else.
-/
theorem AnalyzesToEnd.functions
    (hEnd : AnalyzesToEnd tokens) :
    Parser.iterate
          (Parser.functionStep Analysis.receiver
            Parser.maxNesting) ()
          ⟨tokens, .initial⟩ =
        .ok () ⟨[], stateAfter tokens⟩ ∧
      Upright .outside (stateAfter tokens) := by
  rcases functions_or_failure upright_initial tokens with
    hFunctions | hFailure
  · rcases hFunctions with
      ⟨between, hFunctions, hBetween, -⟩
    have hDeclared : declaredBy tokens = between.declared := by
      unfold declaredBy
      rw [parse_of_functions hFunctions hBetween]
      split
      · rfl
      · rfl
    unfold stateAfter
    rw [hDeclared, ← hBetween.eq_between]
    exact ⟨hFunctions, hBetween⟩
  · rcases hFailure with ⟨failure, final, hRun, hStop⟩
    have hError :
        analyze tokens = .error (.ofFailure failure) :=
      analyze_eq_error_iff.mpr ⟨failure, final, hRun, rfl⟩
    rcases hEnd with ⟨signatures, hOk⟩ | hMissing
    · rw [hError] at hOk
      cases hOk
    · rw [hError] at hMissing
      exact absurd (Except.error.inj hMissing) hStop

/- An accepted text declares the entry point. -/
theorem entryPoint_mem_declaredBy
    {signatures : List Signature}
    (hOk : analyze tokens = .ok signatures) :
    Signature.entryPoint ∈ declaredBy tokens := by
  rcases analyze_eq_ok_iff.mp hOk with ⟨final, hRun, -⟩
  have hEnd : AnalyzesToEnd tokens := .inl ⟨signatures, hOk⟩
  rcases hEnd.functions with ⟨hFunctions, hAfter⟩
  rw [parse_of_functions hFunctions hAfter,
    declared_stateAfter] at hRun
  split at hRun
  · next hEntry => exact hEntry
  · cases hRun

/-
  A text of complete functions leaves nothing behind but
  their signatures: a run that goes on after it is the run on
  the rest alone, from the library and these signatures.
-/
theorem analyze_function_by_function
    (first second : List Token)
    (hFirst : AnalyzesToEnd first) :
    parse Analysis.receiver (first ++ second) .initial =
        parse Analysis.receiver second
          (stateAfter first) ∧
      (∀ stop,
        analyze (first ++ second) = .error stop →
          stop ≠ .finding .missingMain →
            second ≠ [] ∧
              ∃ failure final,
                parse Analysis.receiver second
                      (stateAfter first) =
                    (.error failure, final) ∧
                  stop = .ofFailure failure) ∧
      (∀ signatures,
        analyze (first ++ second) = .ok signatures →
          declaredBy first <+: signatures) ∧
      ∀ signatures,
        analyze first = .ok signatures →
          declaredBy first = signatures ∧
            analyze (first ++ second) ≠
              .error (.finding .missingMain) := by
  rcases hFirst.functions with ⟨hFunctions, hAfter⟩
  have hParse := parse_append hFunctions second
  refine ⟨hParse, ?_, ?_, ?_⟩
  · intro stop hError hStop
    rcases analyze_eq_error_iff.mp hError with
      ⟨failure, final, hRun, hFailure⟩
    rw [hParse] at hRun
    refine ⟨?_, failure, final, hRun, hFailure.symm⟩
    intro hSecond
    rw [hSecond, parse_of_functions rfl hAfter] at hRun
    split at hRun
    · cases hRun
    · cases hRun
      exact hStop hFailure.symm
  · intro signatures hOk
    rcases analyze_eq_ok_iff.mp hOk with
      ⟨final, hRun, hDeclared⟩
    rw [hParse] at hRun
    have hGrows := declared_prefix_of_parse_ok hAfter hRun
    rwa [declared_stateAfter, hDeclared] at hGrows
  · intro signatures hOk
    refine ⟨declaredBy_of_analyze_ok hOk, ?_⟩
    intro hMissing
    rcases analyze_eq_error_iff.mp hMissing with
      ⟨failure, final, hRun, hFailure⟩
    rw [hParse] at hRun
    have hEntry :
        Signature.entryPoint ∈
          (stateAfter first).declared := by
      rw [declared_stateAfter]
      exact entryPoint_mem_declaredBy hOk
    exact
      ne_missingMain_of_entryPoint hAfter hEntry hRun
        hFailure

/- The program `void main() { return; }`. -/
def emptyMain : List Token :=
  [⟨.kwVoid, "void", ⟨0, 4, 1⟩⟩,
    ⟨.identifier, "main", ⟨5, 9, 1⟩⟩,
    ⟨.leftParen, "(", ⟨9, 10, 1⟩⟩,
    ⟨.rightParen, ")", ⟨10, 11, 1⟩⟩,
    ⟨.leftBrace, "\x7b", ⟨12, 13, 1⟩⟩,
    ⟨.kwReturn, "return", ⟨14, 20, 1⟩⟩,
    ⟨.semicolon, ";", ⟨20, 21, 1⟩⟩,
    ⟨.rightBrace, "\x7d", ⟨22, 23, 1⟩⟩]

/- Nothing that follows an entry point makes it missing. -/
theorem emptyMain_append_ne_missingMain :
    declaredBy emptyMain = [⟨"main", .void, []⟩] ∧
      analyze (emptyMain ++ emptyMain) ≠
        .error (.finding .missingMain) := by
  have hOk :
      analyze emptyMain = .ok [⟨"main", .void, []⟩] := rfl
  have hParts :=
    analyze_function_by_function emptyMain emptyMain
      (.inl ⟨_, hOk⟩)
  exact hParts.2.2.2 _ hOk

end OnePass
