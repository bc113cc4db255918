import OnePass.Proofs.Analysis.Judgement

/-
  What an accepted event does to the state of an analysis.

  Most events are checks and leave the state as it is. The
  others change the scopes, the loops, the variables or the
  function at hand, each in one way only. This is said of
  every state, whatever happened before.

  Main declarations:
    * `EffectEvent.IsCheck`
    * `Analysis.Moves`
    * `Analysis.moves_of_step`
-/

------------------------------------------------------------
-- Movements
------------------------------------------------------------

namespace OnePass

/- Accepting the event changes nothing. -/
def EffectEvent.IsCheck
    {τ : Type} : EffectEvent τ → Prop
| .functionHeader _ _ | .condition _
| .declarationStart _ _ _ | .assignment _ _ _
| .returnVoid _ | .returnValue _ _ | .breakStatement _
| .continueStatement _ | .programEnd => True
| _ => False

namespace Analysis

/- The first state, an accepted event and the state after. -/
inductive Moves :
    State → EffectEvent Ty → State → Prop where
  | check
      {state : State}
      {event : EffectEvent Ty}
      (hCheck : event.IsCheck) :
      Moves state event state
  | functionSignature
      {state : State}
      {returns : Ty}
      {name : Identifier}
      {formals : List Formal}
      (hNew : state.symbols.isFunction name.name = false)
      (hFit : FormalsFit state.symbols name formals) :
      Moves state (.functionSignature returns name formals)
        { state with
          symbols :=
            state.symbols.inside
              (signatureOf returns name formals) formals }
  | functionEnd
      {state : State}
      {span : Span}
      {scope : Scope}
      {blocks : List Scope}
      (hBlocks : state.symbols.blocks = scope :: blocks) :
      Moves state (.functionEnd span)
        { state with
          symbols := { state.symbols with blocks }.leave }
  | openScope
      {state : State} :
      Moves state .openScope
        { state with symbols := state.symbols.openScope }
  | closeScope
      {state : State}
      {scope : Scope}
      {blocks : List Scope}
      (hBlocks : state.symbols.blocks = scope :: blocks) :
      Moves state .closeScope
        { state with symbols := { state.symbols with blocks } }
  | openLoop
      {state : State} :
      Moves state .openLoop
        { state with loops := state.loops + 1 }
  | closeLoop
      {state : State}
      {loops : Nat}
      (hLoops : state.loops = loops + 1) :
      Moves state .closeLoop { state with loops }
  | declaration
      {state : State}
      {isConst : Bool}
      {ty : Ty}
      {name : Identifier}
      {initializer : Option (Typed Ty)}
      {span : Span}
      (hFree : state.symbols.isFree name.name = true) :
      Moves state
        (.declaration isConst ty name initializer span)
        { state with
          symbols :=
            state.symbols.bind ⟨name.name, ty, isConst⟩ }

end Analysis

end OnePass

------------------------------------------------------------
-- Accepted Events
------------------------------------------------------------

namespace OnePass

namespace Analysis

variable {state after : State}

/- A check that is passed leaves the state as it is. -/
theorem eq_of_check
    {check : Except Stop Unit}
    (hStep :
      (do
        check
        return state) = Except.ok after) :
    after = state := by
  rcases then_eq_ok_iff.mp hStep with ⟨_, -, hReturn⟩
  cases hReturn
  rfl

/- A scope is closed only if one is open. -/
theorem exists_of_closeScope
    {symbols : Symbols}
    (hClose :
      guarded state.symbols.closeScope = .ok symbols) :
    ∃ scope blocks,
      state.symbols.blocks = scope :: blocks ∧
        symbols = { state.symbols with blocks } := by
  unfold Symbols.closeScope at hClose
  cases hBlocks : state.symbols.blocks with
  | nil =>
      rw [hBlocks] at hClose
      cases hClose
  | cons scope blocks =>
      rw [hBlocks] at hClose
      cases hClose
      exact ⟨scope, blocks, rfl, rfl⟩

theorem moves_of_functionEnd
    {span : Span}
    (hStep : step state (.functionEnd span) = .ok after) :
    Moves state (.functionEnd span) after := by
  rcases then_eq_ok_iff.mp hStep with
    ⟨symbols, hClose, hReturn⟩
  rcases exists_of_closeScope hClose with
    ⟨scope, blocks, hBlocks, hSymbols⟩
  cases hReturn
  rw [hSymbols]
  exact .functionEnd hBlocks

theorem moves_of_closeScope
    (hStep : step state .closeScope = .ok after) :
    Moves state .closeScope after := by
  rcases then_eq_ok_iff.mp hStep with
    ⟨symbols, hClose, hReturn⟩
  rcases exists_of_closeScope hClose with
    ⟨scope, blocks, hBlocks, hSymbols⟩
  cases hReturn
  rw [hSymbols]
  exact .closeScope hBlocks

theorem moves_of_closeLoop
    (hStep : step state .closeLoop = .ok after) :
    Moves state .closeLoop after := by
  rw [step, closeLoop] at hStep
  cases hLoops : state.loops with
  | zero =>
      rw [hLoops] at hStep
      cases hStep
  | succ loops =>
      rw [hLoops] at hStep
      cases hStep
      exact .closeLoop hLoops

/- A function is declared only if its name is new. -/
theorem moves_of_functionSignature
    {returns : Ty}
    {name : Identifier}
    {formals : List Formal}
    (hStep :
      step state (.functionSignature returns name formals) =
        .ok after) :
    Moves state (.functionSignature returns name formals)
      after := by
  rw [step] at hStep
  by_cases hFit : FormalsFit state.symbols name formals
  · cases hNew : state.symbols.isFunction name.name with
    | true =>
        rw [declareFunction_of_isFunction hNew hFit] at hStep
        cases hStep
    | false =>
        rw [declareFunction_of_formalsFit hNew hFit] at hStep
        cases hStep
        exact .functionSignature hNew hFit
  · rcases declareFunction_of_not_formalsFit hFit with
      ⟨formal, hReject⟩
    rw [hReject] at hStep
    cases hStep

/- A variable is declared only if its name is free. -/
theorem moves_of_declaration
    {isConst : Bool}
    {ty : Ty}
    {name : Identifier}
    {initializer : Option (Typed Ty)}
    {span : Span}
    (hStep :
      step state
          (.declaration isConst ty name initializer span) =
        .ok after) :
    Moves state
      (.declaration isConst ty name initializer span)
      after := by
  rcases then_eq_ok_iff.mp hStep with ⟨_, -, hDeclare⟩
  rcases then_eq_ok_iff.mp hDeclare with
    ⟨symbols, hBound, hReturn⟩
  cases hReturn
  unfold Symbols.declareVariable at hBound
  by_cases hFree : state.symbols.isFree name.name = true
  · rw [if_pos hFree] at hBound
    cases hBound
    exact .declaration hFree
  · rw [if_neg hFree] at hBound
    cases hBound

/- Every accepted event moves the state in its own way. -/
theorem moves_of_step
    {event : EffectEvent Ty}
    (hStep : step state event = .ok after) :
    Moves state event after := by
  have hCheck :
      event.IsCheck → after = state →
        Moves state event after := by
    intro hCheck hSame
    rw [hSame]
    exact .check hCheck
  cases event with
  | functionHeader returns name =>
      exact hCheck trivial (eq_of_check hStep)
  | functionSignature returns name formals =>
      exact moves_of_functionSignature hStep
  | functionEnd span => exact moves_of_functionEnd hStep
  | openScope =>
      cases hStep
      exact .openScope
  | closeScope => exact moves_of_closeScope hStep
  | openLoop =>
      cases hStep
      exact .openLoop
  | closeLoop => exact moves_of_closeLoop hStep
  | condition value =>
      exact hCheck trivial (eq_of_check hStep)
  | declarationStart isConst ty name =>
      exact hCheck trivial (eq_of_check hStep)
  | declaration isConst ty name initializer span =>
      exact moves_of_declaration hStep
  | assignment name value span =>
      exact hCheck trivial (eq_of_check hStep)
  | returnVoid span =>
      exact hCheck trivial (eq_of_check hStep)
  | returnValue value span =>
      exact hCheck trivial (eq_of_check hStep)
  | breakStatement span =>
      exact hCheck trivial (eq_of_check hStep)
  | continueStatement span =>
      exact hCheck trivial (eq_of_check hStep)
  | programEnd => exact hCheck trivial (eq_of_check hStep)

end Analysis

end OnePass
