import Mathlib.Data.List.Basic
import OnePass.Proofs.Parser.Reading.Program

/-
  Reading one text after another.

  Whether a function is complete is decided by its own
  tokens: nothing after its closing brace is looked at. So a
  text that is read to its end as functions is read in the
  same way in front of any other text, and what follows is
  read as if the run had started there, with the state that
  was reached. This is said of every receiver, and of every
  outcome of the rest.

  Main declarations:
    * `Parser.iterate_of_step`
    * `Parser.function_append`
    * `Parser.functions_append`
    * `parse_append`
-/

------------------------------------------------------------
-- Loops
------------------------------------------------------------

namespace OnePass

namespace Parser

variable {σ ε α : Type}
variable {step : α → Rule σ ε (Option α)}
variable (hProgress : Progresses step)

include hProgress

/- At the end of input a loop is over at once. -/
theorem iterateWithin_nil_rest
    (bound : List Token)
    (current : α)
    (state : σ) :
    iterateWithin step bound current ⟨[], state⟩ =
      .ok current ⟨[], state⟩ := by
  cases bound with
  | nil => rfl
  | cons token bound =>
      rw [iterateWithin, bind_of_ok (hProgress.ends _ _)]
      rfl

/- The bound of a loop does not matter if it is enough. -/
theorem iterateWithin_eq
    {bound bound' : List Token}
    {current : α}
    {cursor : Cursor σ}
    (hBound : cursor.rest.length ≤ bound.length)
    (hBound' : cursor.rest.length ≤ bound'.length) :
    iterateWithin step bound current cursor =
      iterateWithin step bound' current cursor := by
  induction bound generalizing bound' current cursor with
  | nil =>
      rcases cursor with ⟨rest, state⟩
      have hRest : rest = [] := by simpa using hBound
      rw [hRest, iterateWithin_nil_rest hProgress,
        iterateWithin_nil_rest hProgress]
  | cons token bound ih =>
      cases bound' with
      | nil =>
          rcases cursor with ⟨rest, state⟩
          have hRest : rest = [] := by simpa using hBound'
          rw [hRest, iterateWithin_nil_rest hProgress,
            iterateWithin_nil_rest hProgress]
      | cons token' bound' =>
          rw [iterateWithin, iterateWithin]
          cases hStep : step current cursor with
          | error halt after =>
              rw [bind_of_error hStep, bind_of_error hStep]
          | ok value? between =>
              rw [bind_of_ok hStep, bind_of_ok hStep]
              cases value? with
              | none => rfl
              | some value =>
                  have hReads := hProgress.reads hStep
                  rw [List.length_cons] at hBound hBound'
                  exact ih (by omega) (by omega)

/- A loop goes on from where its first step ends. -/
theorem iterate_of_step
    {current value : α}
    {before between : Cursor σ}
    (hStep : step current before = .ok (some value) between) :
    iterate step current before =
      iterate step value between := by
  have hReads := hProgress.reads hStep
  change
    iterateWithin step before.rest current before =
      iterateWithin step between.rest value between
  cases hRest : before.rest with
  | nil =>
      rw [hRest] at hReads
      cases hReads
  | cons token bound =>
      rw [hRest, List.length_cons] at hReads
      rw [iterateWithin, bind_of_ok hStep]
      exact
        iterateWithin_eq hProgress (by omega) (Nat.le_refl _)

end Parser

end OnePass

------------------------------------------------------------
-- Functions
------------------------------------------------------------

namespace OnePass

namespace Parser

variable {σ τ ε : Type}
variable {receiver : Receiver σ τ ε}
variable {limit : Nat}

/- A function is read in the same way in front of any text. -/
theorem function_append
    {before after : Cursor σ}
    (hFunction : function receiver limit before = .ok () after)
    (more : List Token) :
    function receiver limit
        ⟨before.rest ++ more, before.state⟩ =
      .ok () ⟨after.rest ++ more, after.state⟩ := by
  rw [reads_function] at hFunction ⊢
  rcases hFunction with ⟨tree, hTokens, hFits, -, hDone⟩
  refine ⟨tree, ?_, hFits, trivial, hDone⟩
  simp [hTokens]

/-
  Functions that are read to the end of their text are read
  in the same way in front of any text.
-/
theorem functions_append
    {answer final : Unit}
    {before after : Cursor σ}
    (hSteps :
      Steps (functionStep receiver limit) answer before final
        after)
    (more : List Token) :
    iterate (functionStep receiver limit) ()
        ⟨before.rest ++ more, before.state⟩ =
      iterate (functionStep receiver limit) ()
        ⟨more, after.state⟩ := by
  induction hSteps with
  | stop hStep =>
      rcases functionStep_eq_none_iff.mp hStep with
        ⟨hRest, hAfter⟩
      rw [hAfter, hRest]
      rfl
  | next hStep _ ih =>
      rcases functionStep_eq_some_iff.mp hStep with
        ⟨hRest, hFunction⟩
      rw [← ih]
      apply iterate_of_step progresses_functionStep
      apply functionStep_eq_some_iff.mpr
      refine ⟨?_, function_append hFunction more⟩
      simp [hRest]

end Parser

end OnePass

------------------------------------------------------------
-- Programs
------------------------------------------------------------

namespace OnePass

open OnePass.Parser

variable {σ τ ε : Type}
variable {receiver : Receiver σ τ ε}

/- Where more text follows, the end of input is its end. -/
theorem misfitAt_append
    (first : List Token)
    {second : List Token}
    (hSecond : second ≠ [])
    (rest : List Token)
    (obstacle : Obstacle) :
    misfitAt (first ++ second) rest obstacle =
      misfitAt second rest obstacle := by
  cases rest with
  | cons next rest => rfl
  | nil =>
      unfold misfitAt endSpan
      rw [List.getLast?_append_of_ne_nil first hSecond]

/- A text without tokens is a program without functions. -/
theorem program_nil
    (state : σ) :
    program receiver maxNesting ⟨[], state⟩ =
      effect receiver .programEnd ⟨[], state⟩ :=
  rfl

/- The end of a program is accepted or refused. -/
theorem parse_of_programEnd
    {tokens : List Token}
    {start between : σ}
    (hProgram :
      program receiver maxNesting ⟨tokens, start⟩ =
        effect receiver .programEnd ⟨[], between⟩) :
    parse receiver tokens start =
      match receiver.effect .programEnd between with
      | .ok _ final => (.ok (), final)
      | .error reason final =>
          (.error (.refused reason), final) := by
  unfold parse
  rw [hProgram]
  unfold effect announce
  dsimp only
  cases receiver.effect .programEnd between with
  | ok answer final => rfl
  | error reason final => rfl

/-
  If a text is read to its end as functions, the run on that
  text and another one is the run on the other one alone,
  from the state that was reached.
-/
theorem parse_append
    {first : List Token}
    {start between : σ}
    (hFirst :
      iterate (functionStep receiver maxNesting) ()
          ⟨first, start⟩ =
        .ok () ⟨[], between⟩)
    (second : List Token) :
    parse receiver (first ++ second) start =
      parse receiver second between := by
  have hSteps :=
    (iterate_eq_ok_iff progresses_functionStep).mp hFirst
  have hProgram :
      program receiver maxNesting ⟨first ++ second, start⟩ =
        program receiver maxNesting ⟨second, between⟩ := by
    have hFunctions := functions_append hSteps second
    unfold program
    change
      EStateM.bind _ _ _ = EStateM.bind _ _ _
    unfold EStateM.bind
    rw [hFunctions]
  by_cases hSecond : second = []
  · rw [hSecond] at hProgram ⊢
    rw [parse_of_programEnd hProgram,
      parse_of_programEnd (program_nil between)]
  · unfold parse
    rw [hProgram]
    cases program receiver maxNesting ⟨second, between⟩ with
    | ok answer after => rfl
    | error halt after =>
        cases halt with
        | refused reason => rfl
        | stuck obstacle =>
            simp only
            rw [misfitAt_append first hSecond]

end OnePass
