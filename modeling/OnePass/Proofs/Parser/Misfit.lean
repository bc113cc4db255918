import Mathlib.Algebra.Order.BigOperators.Group.List
import Mathlib.Algebra.Order.Ring.Nat
import OnePass.Proofs.Parser.Foresight.Statement
import OnePass.Proofs.Parser.Reading.Program

/-
  Where a program is given up.

  The tokens before the one where the parser is stuck are
  viable: a sentence of the grammar starts with them. With
  the token itself they are not, so that no sentence starts
  with what was looked at. A name where a statement may
  start is the one exception: it is given up although it is
  viable, and it is the token after it that is not.

  Sentences are taken without the nesting limit. To tell
  that tokens are not viable, the parser is run with a limit
  that is enough for the sentence that they would start.

  Main declarations:
    * `Parser.predicts_program`
    * `Parser.exists_program_of_isSentence`
    * `Parser.StopsAt`
    * `viable_before_misfit`
    * `misfit_not_viable_or_name`
-/

------------------------------------------------------------
-- Other Nesting Limits
------------------------------------------------------------

namespace OnePass

namespace Parser

open Grammar
open scoped Computability

variable {σ τ ε : Type}

section Predictions

variable {receiver : Receiver σ τ ε}
variable {limit limit' : Nat}

theorem predicts_signature :
    Predicts signatureWords id (signature receiver)
      (signature heedless) := by
  apply predicts_returnType.bind
  intro returns
  apply predicts_identifier.bind
  intro name
  apply (predicts_effect receiver _ _).after
  intro _
  apply (predicts_expect .leftParen).bind
  intro _
  apply (predicts_commaList predicts_declarator).bind
  intro formals
  apply (predicts_effect receiver _ _).after
  intro _
  apply (predicts_expect .rightParen).before
  intro _
  exact predicts_pure id ()

theorem predicts_function
    (hLimit : limit ≤ limit') :
    Predicts (written Function.tokens) id
      (function receiver limit)
      (function heedless limit') := by
  apply Predicts.mono _ function_le
  apply predicts_signature.bind
  intro _
  apply (predicts_expect .leftBrace).bind
  intro _
  apply
    (predicts_statementList (predicts_statement hLimit)).bind
  intro _
  apply (predicts_expect .rightBrace).before
  intro stop
  exact predicts_effect receiver _ _

/- A program foretells one with a larger limit. -/
theorem predicts_program
    (hLimit : limit ≤ limit') :
    Predicts (written Function.tokens)∗ id
      (program receiver limit)
      (program heedless limit') := by
  have hStep :
      PredictsStep (written Function.tokens) id
        (functionStep receiver limit)
        (functionStep heedless limit') := by
    intro current
    refine ⟨_, _, rfl, rfl, ?_⟩
    intro head
    cases head with
    | none => exact .inl ⟨rfl, rfl⟩
    | some kind =>
        refine .inr ((predicts_function hLimit).before ?_)
        intro _
        exact predicts_pure (Option.map id) (some ())
  have hReads : [] ∉ written Function.tokens := by
    rintro ⟨function, hNil⟩
    cases hNil
  apply (predicts_iterate hStep hReads ()).before
  intro _
  exact predicts_effect receiver _ _

end Predictions

end Parser

end OnePass

------------------------------------------------------------
-- Reading Sentences
------------------------------------------------------------

namespace OnePass

namespace Parser

open Grammar

/- Nothing is refused for want of a reason. -/
theorem act_eq_ok
    (act : EStateM Empty Unit Unit) :
    act () = .ok () () := by
  cases act () with
  | ok answer state => rfl
  | error reason state => exact reason.elim

/- With a limit that is enough, every sentence is read. -/
theorem exists_program_of_isSentence
    {tokens : List Token}
    (hSentence : IsSentence tokens) :
    ∃ limit, maxNesting ≤ limit ∧
      program heedless limit ⟨tokens, ()⟩ =
        .ok () ⟨[], ()⟩ := by
  rcases hSentence with ⟨program, rfl⟩
  rcases program.exists_elseNearest with
    ⟨⟨functions⟩, hNearest, hTokens⟩
  let depths := functions.map (·.body.nesting)
  refine
    ⟨maxNesting + depths.sum, Nat.le_add_right _ _, ?_⟩
  have hNesting :
      ∀ function ∈ functions,
        function.body.nesting ≤ maxNesting + depths.sum := by
    intro function hFunction
    have hDepth : function.body.nesting ≤ depths.sum :=
      List.le_sum_of_mem (List.mem_map_of_mem hFunction)
    omega
  rw [← hTokens, program_eq_ok_iff]
  exact
    ⟨⟨functions⟩, rfl, hNesting, hNearest, rfl, act_eq_ok _⟩

/- Tokens that some sentence starts with are not refused. -/
theorem exists_not_stuckBefore
    {read ahead : List Token}
    (hViable : Viable (read ++ ahead)) :
    ∃ limit, maxNesting ≤ limit ∧
      ¬ StuckBefore
        (fun tokens => program heedless limit ⟨tokens, ()⟩)
        read ahead := by
  rcases hViable with ⟨more, hSentence⟩
  rcases exists_program_of_isSentence hSentence with
    ⟨limit, hLimit, hRun⟩
  refine ⟨limit, hLimit, fun hStuck => ?_⟩
  rw [List.append_assoc] at hRun
  cases hRun.symm.trans (hStuck more)

end Parser

end OnePass

------------------------------------------------------------
-- Misfits
------------------------------------------------------------

namespace OnePass

namespace Parser

open Grammar
open scoped Computability

variable {σ τ ε : Type}

/-
  The parser is stuck before the token with the index, and
  so reports the misfit. At the end of input the index is
  the number of tokens.
-/
structure StopsAt
    (receiver : Receiver σ τ ε)
    (tokens : List Token)
    (start : σ)
    (misfit : Misfit)
    (index : Nat) : Prop where
  index_le : index ≤ tokens.length
  stuck :
    ∃ final,
      program receiver maxNesting ⟨tokens, start⟩ =
        .error (.stuck misfit.obstacle)
          ⟨tokens.drop index, final⟩
  misfit_eq :
    misfit =
      misfitAt tokens (tokens.drop index) misfit.obstacle

variable {receiver : Receiver σ τ ε}
variable {tokens : List Token}
variable {start : σ}

/- The obstacle of a misfit is the one that was met. -/
@[simp] theorem misfitAt_obstacle
    (tokens rest : List Token)
    (obstacle : Obstacle) :
    (misfitAt tokens rest obstacle).obstacle = obstacle := by
  cases rest <;> rfl

/- A misfit is reported where the program rule is stuck. -/
theorem program_of_misfit
    {misfit : Misfit}
    {final : σ}
    (hParse :
      parse receiver tokens start =
        (.error (.misfit misfit), final)) :
    ∃ rest,
      program receiver maxNesting ⟨tokens, start⟩ =
          .error (.stuck misfit.obstacle) ⟨rest, final⟩ ∧
        misfit = misfitAt tokens rest misfit.obstacle := by
  unfold parse at hParse
  cases hRun : program receiver maxNesting ⟨tokens, start⟩ with
  | ok answer after =>
      rw [hRun] at hParse
      cases hParse
  | error halt after =>
      rw [hRun] at hParse
      cases halt with
      | refused reason => cases hParse
      | stuck obstacle =>
          cases hParse
          refine ⟨after.rest, ?_, ?_⟩
          · rw [misfitAt_obstacle]
          · rw [misfitAt_obstacle]

/- The tokens that were read tell the index. -/
theorem stopsAt_of_append
    {read rest : List Token}
    {misfit : Misfit}
    {final : σ}
    (hTokens : tokens = read ++ rest)
    (hRun :
      program receiver maxNesting ⟨tokens, start⟩ =
        .error (.stuck misfit.obstacle) ⟨rest, final⟩)
    (hMisfit :
      misfit = misfitAt tokens rest misfit.obstacle) :
    StopsAt receiver tokens start misfit read.length := by
  have hDrop : tokens.drop read.length = rest := by
    rw [hTokens, List.drop_left]
  refine ⟨?_, ⟨final, ?_⟩, ?_⟩
  · rw [hTokens, List.length_append]
    exact Nat.le_add_right _ _
  · rw [hDrop]
    exact hRun
  · rw [hDrop]
    exact hMisfit

/- The parser is stuck before one token only. -/
theorem StopsAt.index_eq
    {misfit : Misfit}
    {index index' : Nat}
    (hStops : StopsAt receiver tokens start misfit index)
    (hStops' : StopsAt receiver tokens start misfit index') :
    index = index' := by
  rcases hStops.stuck with ⟨final, hRun⟩
  rcases hStops'.stuck with ⟨final', hRun'⟩
  have hSame := hRun.symm.trans hRun'
  simp only [EStateM.Result.error.injEq, Cursor.mk.injEq,
    true_and] at hSame
  have hLength := congrArg List.length hSame.1
  rw [List.length_drop, List.length_drop] at hLength
  have hIndex := hStops.index_le
  have hIndex' := hStops'.index_le
  omega

/- What a stuck program rule has read, and what it blames. -/
theorem foretells_of_stuck
    {obstacle : Obstacle}
    {after : Cursor σ}
    (hRun :
      program receiver maxNesting ⟨tokens, start⟩ =
        .error (.stuck obstacle) after)
    {limit : Nat}
    (hLimit : maxNesting ≤ limit) :
    ∃ read more,
      IsSentence (read ++ more) ∧
        tokens = read ++ after.rest ∧
          (obstacle = .unexpected →
            Blames (written Function.tokens)∗
              (fun tokens =>
                program heedless limit ⟨tokens, ()⟩)
              read after.rest) := by
  have hProgram :
      Predicts (written Function.tokens)∗ id
        (program receiver maxNesting)
        (program heedless limit) :=
    predicts_program hLimit
  have hOutcome := hProgram ⟨tokens, start⟩
  rw [hRun] at hOutcome
  rcases hOutcome with
    ⟨read, more, hMore, hBefore, hBlames⟩
  exact
    ⟨read, more, isSentence_iff.mpr hMore, hBefore, hBlames⟩

/-
  No sentence starts with the tokens up to the one that does
  not fit, or that token is a name where any statement may
  start. In any case none starts with one token more.
-/
theorem not_viable_of_stuck
    {read rest : List Token}
    {next : Token}
    {final : σ}
    (hRun :
      program receiver maxNesting
          ⟨read ++ next :: rest, start⟩ =
        .error (.stuck .unexpected) ⟨next :: rest, final⟩) :
    (¬ Viable (read ++ [next]) ∨
        next.kind = .identifier ∧
          ∀ statement : Stmt,
            Viable (read ++ statement.tokens)) ∧
      ∀ second ∈ rest.head?,
        ¬ Viable (read ++ [next, second]) := by
  have hBlames
      {limit : Nat}
      (hLimit : maxNesting ≤ limit) :
      Blames (written Function.tokens)∗
        (fun tokens => program heedless limit ⟨tokens, ()⟩)
        read (next :: rest) := by
    rcases foretells_of_stuck hRun hLimit with
      ⟨other, more, -, hTokens, hBlames⟩
    cases List.append_cancel_right hTokens
    exact hBlames rfl
  constructor
  · by_cases hViable : Viable (read ++ [next])
    · rcases exists_not_stuckBefore hViable with
        ⟨limit, hLimit, hReads⟩
      rcases hBlames hLimit with
        hStuck | ⟨hName, hTakes, -⟩
      · exact absurd hStuck hReads
      · refine .inr ⟨hName, fun statement => ?_⟩
        rcases hTakes statement with ⟨more, hMore⟩
        rw [← List.append_assoc] at hMore
        exact ⟨more, isSentence_iff.mpr hMore⟩
    · exact .inl hViable
  · intro second hSecond hViable
    rcases exists_not_stuckBefore hViable with
      ⟨limit, hLimit, hReads⟩
    rcases hBlames hLimit with hStuck | ⟨-, -, hStuck⟩
    · exact hReads fun more => hStuck (second :: more)
    · exact hReads (hStuck second hSecond)

end Parser

open Grammar
open OnePass.Parser

variable {σ τ ε : Type}
variable {receiver : Receiver σ τ ε}
variable {tokens : List Token}
variable {start final : σ}
variable {misfit : Misfit}

/-
  A misfit is never reported late: a sentence starts with
  the tokens before the one that is reported.
-/
theorem viable_before_misfit
    (hParse :
      parse receiver tokens start =
        (.error (.misfit misfit), final)) :
    ∃ index,
      StopsAt receiver tokens start misfit index ∧
        Viable (tokens.take index) := by
  rcases program_of_misfit hParse with ⟨rest, hRun, hMisfit⟩
  rcases foretells_of_stuck hRun (Nat.le_refl _) with
    ⟨read, more, hSentence, hTokens, -⟩
  refine
    ⟨read.length, stopsAt_of_append hTokens hRun hMisfit,
      more, ?_⟩
  rw [hTokens, List.take_left]
  exact hSentence

/-
  A token that does not fit is one that no sentence goes on
  with, unless it is a name where any statement may start.
  Then, too, no sentence goes on with it and the next token.
-/
theorem misfit_not_viable_or_name
    (hParse :
      parse receiver tokens start =
        (.error (.misfit misfit), final))
    (hObstacle : misfit.obstacle = .unexpected) :
    ∃ index,
      StopsAt receiver tokens start misfit index ∧
        ∀ next rest,
          tokens.drop index = next :: rest →
            (¬ Viable (tokens.take (index + 1)) ∨
                next.kind = .identifier ∧
                  ∀ statement : Stmt,
                    Viable
                      (tokens.take index ++
                        statement.tokens)) ∧
              (rest ≠ [] →
                ¬ Viable (tokens.take (index + 2))) := by
  rcases program_of_misfit hParse with ⟨rest, hRun, hMisfit⟩
  rcases foretells_of_stuck hRun (Nat.le_refl _) with
    ⟨read, more, -, hTokens, -⟩
  refine
    ⟨read.length, stopsAt_of_append hTokens hRun hMisfit, ?_⟩
  intro next others hDrop
  rw [hTokens, List.drop_left] at hDrop
  subst hDrop
  rw [hObstacle, hTokens] at hRun
  have hNot := not_viable_of_stuck hRun
  rw [hTokens, List.take_left,
    List.take_length_add_append, List.take_length_add_append]
  refine ⟨hNot.1, fun hOthers => ?_⟩
  cases others with
  | nil => exact absurd rfl hOthers
  | cons second others => exact hNot.2 second rfl

/-
  The text `void main() { x ; }`, with `x` on the second
  line and the semicolon on the third.
-/
def strayName : List Token :=
  [⟨.kwVoid, "void", ⟨0, 4, 1⟩⟩,
    ⟨.identifier, "main", ⟨5, 9, 1⟩⟩,
    ⟨.leftParen, "(", ⟨9, 10, 1⟩⟩,
    ⟨.rightParen, ")", ⟨10, 11, 1⟩⟩,
    ⟨.leftBrace, "\x7b", ⟨12, 13, 1⟩⟩,
    ⟨.identifier, "x", ⟨15, 16, 2⟩⟩,
    ⟨.semicolon, ";", ⟨18, 19, 3⟩⟩,
    ⟨.rightBrace, "\x7d", ⟨20, 21, 4⟩⟩]

/- What is reported of it: the name, on the second line. -/
def strayNameMisfit : Misfit :=
  ⟨.unexpected, ⟨15, 16, 2⟩, "x"⟩

theorem parse_strayName :
    parse heedless strayName () =
      (.error (.misfit strayNameMisfit), ()) :=
  rfl

theorem stopsAt_strayName :
    StopsAt heedless strayName () strayNameMisfit 5 :=
  ⟨by decide, ⟨(), rfl⟩, rfl⟩

/- A sentence starts with what stands before the name. -/
theorem strayName_viable_before_misfit :
    parse heedless strayName () =
        (.error (.misfit strayNameMisfit), ()) ∧
      ∃ index,
        StopsAt heedless strayName () strayNameMisfit index ∧
          Viable (strayName.take index) :=
  ⟨parse_strayName, viable_before_misfit parse_strayName⟩

theorem returnType?_kwVoid :
    returnType? .kwVoid = some .void :=
  rfl

/- The function `void main() { x(); }`. -/
def calledName : Function where
  returns :=
    ⟨⟨.kwVoid, "void", ⟨0, 4, 1⟩⟩, .void,
      returnType?_kwVoid⟩
  name := ⟨"main", ⟨5, 9, 1⟩⟩
  left := ⟨"(", ⟨9, 10, 1⟩⟩
  formals := none
  right := ⟨")", ⟨10, 11, 1⟩⟩
  start := ⟨"\x7b", ⟨12, 13, 1⟩⟩
  body :=
    .one
      (.call
        (.bare ⟨"x", ⟨15, 16, 2⟩⟩ ⟨"(", ⟨16, 17, 2⟩⟩
          ⟨")", ⟨17, 18, 2⟩⟩)
        ⟨";", ⟨18, 19, 2⟩⟩)
  stop := ⟨"\x7d", ⟨20, 21, 3⟩⟩

/-
  The name is reported, but `x();` may stand there: it is
  not the name that no sentence goes on with.
-/
theorem strayName_misfit_viable :
    parse heedless strayName () =
        (.error (.misfit strayNameMisfit), ()) ∧
      StopsAt heedless strayName () strayNameMisfit 5 ∧
        5 < strayName.length ∧
          Viable (strayName.take (5 + 1)) := by
  refine ⟨parse_strayName, stopsAt_strayName, by decide, ?_⟩
  exact ⟨calledName.tokens.drop 6, ⟨[calledName]⟩, rfl⟩

/- It is the semicolon that no sentence goes on with. -/
theorem strayName_semicolon_not_viable :
    parse heedless strayName () =
        (.error (.misfit strayNameMisfit), ()) ∧
      strayNameMisfit.obstacle = .unexpected ∧
        ¬ Viable (strayName.take (5 + 2)) := by
  refine ⟨parse_strayName, rfl, ?_⟩
  rcases misfit_not_viable_or_name parse_strayName rfl with
    ⟨index, hStops, hBlamed⟩
  cases hStops.index_eq stopsAt_strayName
  exact (hBlamed _ _ rfl).2 (List.cons_ne_nil _ _)

end OnePass
