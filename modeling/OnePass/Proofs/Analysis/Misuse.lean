import OnePass.Proofs.Analysis.Movement
import OnePass.Proofs.Analysis.Replay
import OnePass.Proofs.Analysis.Safety
import OnePass.Proofs.Analysis.Situation
import OnePass.Proofs.Symbols.Functions

/-
  When an event is a misuse of the analysis.

  Events may come in any order, not only in one that a
  parser brings about. Five things can then go wrong that
  are not the fault of the program: a scope or a function is
  ended where none is open, a loop is ended where none is
  open, and a variable or a function is declared whose name
  is in use. Nothing else ever leads to a fault.

  Main declarations:
    * `Functions.Addressed`
    * `Analysis.Misuses`
    * `Analysis.step_eq_fault_iff`
    * `Analysis.addressed_of_reachable`
    * `fault_exactly_at_misuse`
-/

------------------------------------------------------------
-- Positions In The Table Of Functions
------------------------------------------------------------

namespace OnePass

namespace Functions

/-
  Every position in the index is inside the table, and so is
  the end of the library.
-/
structure Addressed (table : Functions) : Prop where
  positions :
    ∀ entry ∈ table.index,
      entry.2 < table.signatures.length
  library : table.libraryCount ≤ table.signatures.length

theorem addressed_withLibrary : withLibrary.Addressed where
  positions := by decide
  library := by decide

theorem Addressed.append
    {table : Functions}
    (hAddressed : table.Addressed)
    (signature : Signature) :
    (table.append signature).Addressed where
  positions entry hEntry := by
    change
      entry.2 < (table.signatures ++ [signature]).length
    rw [List.length_append, List.length_singleton]
    rcases List.mem_cons.mp hEntry with rfl | hOld
    · exact Nat.lt_succ_self _
    · exact Nat.lt_succ_of_lt (hAddressed.positions entry hOld)
  library := by
    change
      table.libraryCount ≤
        (table.signatures ++ [signature]).length
    rw [List.length_append, List.length_singleton]
    exact Nat.le_succ_of_le hAddressed.library

end Functions

namespace Analysis

/- What new functions keep is kept by accepted events. -/
theorem functions_of_perform
    {P : Functions → Prop}
    (hAppend :
      ∀ table signature,
        P table → table.contains signature.name = false →
          P (table.append signature))
    {state next : State}
    {event : Event Ty}
    {answer : Option Ty}
    (hTable : P state.symbols.functions)
    (hPerform : perform state event = .ok (answer, next)) :
    P next.symbols.functions := by
  cases event with
  | value event =>
      rcases then_eq_ok_iff.mp hPerform with ⟨_, -, hReturn⟩
      cases hReturn
      exact hTable
  | effect event =>
      rcases then_eq_ok_iff.mp hPerform with
        ⟨after, hStep, hReturn⟩
      cases hReturn
      cases moves_of_step hStep with
      | check hCheck => exact hTable
      | functionSignature hNew hFit =>
          change P (Symbols.inside _ _ _).functions
          rw [Symbols.functions_inside]
          exact hAppend _ _ hTable hNew
      | functionEnd hBlocks => exact hTable
      | openScope => exact hTable
      | closeScope hBlocks => exact hTable
      | openLoop => exact hTable
      | closeLoop hLoops => exact hTable
      | declaration hFree =>
          change P (Symbols.bind _ _).functions
          rw [Symbols.functions_bind]
          exact hTable

/- What new functions keep holds in every state. -/
theorem functions_of_reachable
    {P : Functions → Prop}
    (hAppend :
      ∀ table signature,
        P table → table.contains signature.name = false →
          P (table.append signature))
    (hLibrary : P .withLibrary)
    {state : State}
    (hReachable : Reachable state) :
    P state.symbols.functions := by
  apply
    Reachable.preserves (P := fun state =>
      P state.symbols.functions) ?_ hReachable hLibrary
  intro state event answer next hTable hPerform
  exact functions_of_perform hAppend hTable hPerform

theorem addressed_of_reachable
    {state : State}
    (hReachable : Reachable state) :
    state.symbols.functions.Addressed :=
  functions_of_reachable
    (fun _ signature hTable _ => hTable.append signature)
    Functions.addressed_withLibrary hReachable

theorem indexed_of_reachable
    {state : State}
    (hReachable : Reachable state) :
    state.symbols.functions.Indexed :=
  functions_of_reachable
    (fun _ _ => Functions.indexed_append)
    Functions.indexed_withLibrary hReachable

end Analysis

end OnePass

------------------------------------------------------------
-- Checks Without A Fault
------------------------------------------------------------

namespace OnePass

namespace Analysis

section Faultless

variable {α β : Type}

/- The outcome is an answer or a finding. -/
def Faultless (outcome : Except Stop α) : Prop :=
  ∀ fault, outcome ≠ .error (.fault fault)

theorem Judged.faultless
    {outcome : Except Stop α}
    (hJudged : Judged outcome) :
    Faultless outcome := by
  intro fault hFault
  exact hJudged _ hFault

/- A fault comes from what is done after the checks. -/
theorem Faultless.bind_eq_fault_iff
    {first : Except Stop α}
    {next : α → Except Stop β}
    (hFirst : Faultless first)
    {fault : Fault} :
    (first >>= next) = .error (.fault fault) ↔
      ∃ answer,
        first = .ok answer ∧
          next answer = .error (.fault fault) := by
  cases first with
  | ok answer =>
      constructor
      · intro hNext
        exact ⟨answer, rfl, hNext⟩
      · rintro ⟨_, hAnswer, hNext⟩
        cases hAnswer
        exact hNext
  | error stop =>
      constructor
      · intro hStop
        cases hStop
        exact absurd rfl (hFirst fault)
      · rintro ⟨_, hAnswer, -⟩
        cases hAnswer

/- A check alone never leads to a fault. -/
theorem Faultless.check
    {check : Except Stop Unit}
    (hCheck : Faultless check)
    (state : State) :
    Faultless
      (do
        check
        return state) := by
  intro fault hFault
  rcases hCheck.bind_eq_fault_iff.mp hFault with
    ⟨_, -, hReturn⟩
  cases hReturn

end Faultless

variable (state : State)

/- The end of a program finds its entry point, or not. -/
theorem faultless_requireEntryPoint :
    Faultless (requireEntryPoint state) := by
  intro fault hFault
  unfold requireEntryPoint at hFault
  dsimp only at hFault
  split at hFault
  · cases hFault
  · cases hFault

/- An event that only checks never leads to a fault. -/
theorem faultless_of_isCheck
    {event : EffectEvent Ty}
    (hCheck : event.IsCheck) :
    Faultless (step state event) := by
  cases event with
  | functionHeader returns name =>
      exact
        (judged_requireNewFunction state name).faultless.check
          state
  | condition value =>
      exact (judged_requireCast _ _ _).faultless.check state
  | declarationStart isConst ty name =>
      exact (judged_requireFree state name).faultless.check state
  | assignment name value span =>
      exact
        (judged_assign state name value span).faultless.check
          state
  | returnVoid span =>
      exact (judged_returnVoid state span).faultless.check state
  | returnValue value span =>
      exact
        (judged_returnValue state value span).faultless.check
          state
  | breakStatement span =>
      exact
        (judged_requireLoop state rfl span).faultless.check
          state
  | continueStatement span =>
      exact
        (judged_requireLoop state rfl span).faultless.check
          state
  | programEnd =>
      exact (faultless_requireEntryPoint state).check state
  | _ => cases hCheck

/- The type of an expression is found without a fault. -/
theorem faultless_value
    (event : ValueEvent Ty) :
    Faultless (perform state (.value event)) := by
  intro fault hFault
  have hJudged := judged_valueType state.symbols event
  rcases hJudged.faultless.bind_eq_fault_iff.mp hFault with
    ⟨_, -, hReturn⟩
  cases hReturn

end Analysis

end OnePass

------------------------------------------------------------
-- Misuse
------------------------------------------------------------

namespace OnePass

namespace Analysis

/- An event that must not come now, and the rule it breaks. -/
inductive Misuses
    (state : State) :
    Event Ty → Fault → Prop where
  | closeScope
      (hDepth : state.depth = 0) :
      Misuses state (.effect .closeScope) .outerScopeClosed
  | functionEnd
      {span : Span}
      (hDepth : state.depth = 0) :
      Misuses state (.effect (.functionEnd span))
        .outerScopeClosed
  | closeLoop
      (hLoops : state.loops = 0) :
      Misuses state (.effect .closeLoop) .noOpenLoop
  | declaration
      {isConst : Bool}
      {ty : Ty}
      {name : Identifier}
      {initializer : Option (Typed Ty)}
      {span : Span}
      (hConst : isConst = true → initializer.isSome = true)
      (hFits :
        ∀ value ∈ initializer, value.ty.castsTo ty = true)
      (hVisible : state.symbols.isVisible name.name = true) :
      Misuses state
        (.effect
          (.declaration isConst ty name initializer span))
        (.variableVisible name.name)
  | functionSignature
      {returns : Ty}
      {name : Identifier}
      {formals : List Formal}
      (hFit : FormalsFit state.symbols name formals)
      (hKnown : state.symbols.isFunction name.name = true) :
      Misuses state
        (.effect (.functionSignature returns name formals))
        (.functionRedeclared name.name)

variable {state : State}
variable {fault : Fault}

theorem closeScope_eq_fault_iff
    {β : Type}
    (next : Symbols → β) :
    (guarded state.symbols.closeScope >>= fun symbols =>
        pure (next symbols)) =
        .error (.fault fault) ↔
      state.depth = 0 ∧ fault = .outerScopeClosed := by
  change
    _ ↔ state.symbols.blocks.length = 0 ∧ fault = _
  unfold Symbols.closeScope
  cases state.symbols.blocks with
  | nil =>
      constructor
      · intro hFault
        cases hFault
        exact ⟨rfl, rfl⟩
      · rintro ⟨-, rfl⟩
        rfl
  | cons scope blocks =>
      constructor
      · intro hFault
        cases hFault
      · rintro ⟨hEmpty, -⟩
        cases hEmpty

theorem closeLoop_eq_fault_iff :
    closeLoop state = .error (.fault fault) ↔
      state.loops = 0 ∧ fault = .noOpenLoop := by
  unfold closeLoop
  cases state.loops with
  | zero =>
      constructor
      · intro hFault
        cases hFault
        exact ⟨rfl, rfl⟩
      · rintro ⟨-, rfl⟩
        rfl
  | succ loops =>
      constructor
      · intro hFault
        cases hFault
      · rintro ⟨hZero, -⟩
        cases hZero

theorem declareVariable_eq_fault_iff
    {β : Type}
    {binding : Binding}
    (next : Symbols → β) :
    (guarded (state.symbols.declareVariable binding) >>=
        fun symbols => pure (next symbols)) =
        .error (.fault fault) ↔
      state.symbols.isVisible binding.name = true ∧
        fault = .variableVisible binding.name := by
  unfold Symbols.declareVariable Symbols.isFree
    Symbols.isVisible
  cases state.symbols.lookup binding.name with
  | none =>
      constructor
      · intro hFault
        cases hFault
      · rintro ⟨hSome, -⟩
        cases hSome
  | some visible =>
      constructor
      · intro hFault
        cases hFault
        exact ⟨rfl, rfl⟩
      · rintro ⟨-, rfl⟩
        rfl

/-
  A declaration is checked first, and only then can its name
  turn out to be in use.
-/
theorem declare_eq_fault_iff
    {isConst : Bool}
    {ty : Ty}
    {name : Identifier}
    {initializer : Option (Typed Ty)}
    {span : Span} :
    declare state isConst ty name initializer span =
        .error (.fault fault) ↔
      requireInitializer isConst ty name initializer span =
          .ok () ∧
        state.symbols.isVisible name.name = true ∧
          fault = .variableVisible name.name := by
  have hCheck :=
    (judged_requireInitializer isConst ty name initializer
      span).faultless
  unfold declare
  rw [hCheck.bind_eq_fault_iff]
  simp only [declareVariable_eq_fault_iff]
  constructor
  · rintro ⟨_, hOk, hVisible⟩
    exact ⟨hOk, hVisible⟩
  · rintro ⟨hOk, hVisible⟩
    exact ⟨(), hOk, hVisible⟩

/-
  Formals that fit are declared one after the other without
  a fault, so only the function itself can be known.
-/
theorem declareFunction_eq_fault_iff
    {returns : Ty}
    {name : Identifier}
    {formals : List Formal} :
    declareFunction state returns name formals =
        .error (.fault fault) ↔
      FormalsFit state.symbols name formals ∧
        state.symbols.isFunction name.name = true ∧
          fault = .functionRedeclared name.name := by
  by_cases hFit : FormalsFit state.symbols name formals
  · by_cases hKnown :
        state.symbols.isFunction name.name = true
    · rw [declareFunction_of_isFunction hKnown hFit]
      simp only [Except.error.injEq, Stop.fault.injEq, hFit,
        hKnown, true_and]
      exact eq_comm
    · have hNew :
          state.symbols.isFunction name.name = false := by
        simpa using hKnown
      rw [declareFunction_of_formalsFit hNew hFit]
      simp [hKnown]
  · rcases declareFunction_of_not_formalsFit hFit with
      ⟨formal, hReject⟩
    rw [hReject]
    simp [hFit, reject]

/- An event that only checks is never a misuse. -/
theorem step_eq_fault_iff_of_isCheck
    {event : EffectEvent Ty}
    (hCheck : event.IsCheck) :
    step state event = .error (.fault fault) ↔
      Misuses state (.effect event) fault := by
  constructor
  · intro hFault
    exact
      absurd hFault (faultless_of_isCheck state hCheck fault)
  · intro hMisuse
    cases hMisuse with
    | closeScope | functionEnd | closeLoop | declaration
    | functionSignature => exact False.elim hCheck

/- An event meets a fault exactly if it is a misuse. -/
theorem step_eq_fault_iff
    {event : EffectEvent Ty} :
    step state event = .error (.fault fault) ↔
      Misuses state (.effect event) fault := by
  cases event with
  | functionSignature returns name formals =>
      rw [step, declareFunction_eq_fault_iff]
      constructor
      · rintro ⟨hFit, hKnown, rfl⟩
        exact .functionSignature hFit hKnown
      · intro hMisuse
        cases hMisuse with
        | functionSignature hFit hKnown =>
            exact ⟨hFit, hKnown, rfl⟩
  | functionEnd span =>
      rw [step, closeFunction, closeScope_eq_fault_iff]
      constructor
      · rintro ⟨hDepth, rfl⟩
        exact .functionEnd hDepth
      · intro hMisuse
        cases hMisuse with
        | functionEnd hDepth => exact ⟨hDepth, rfl⟩
  | openScope =>
      constructor
      · intro hFault
        cases hFault
      · intro hMisuse
        cases hMisuse
  | closeScope =>
      rw [step, closeScope, closeScope_eq_fault_iff]
      constructor
      · rintro ⟨hDepth, rfl⟩
        exact .closeScope hDepth
      · intro hMisuse
        cases hMisuse with
        | closeScope hDepth => exact ⟨hDepth, rfl⟩
  | openLoop =>
      constructor
      · intro hFault
        cases hFault
      · intro hMisuse
        cases hMisuse
  | closeLoop =>
      rw [step, closeLoop_eq_fault_iff]
      constructor
      · rintro ⟨hLoops, rfl⟩
        exact .closeLoop hLoops
      · intro hMisuse
        cases hMisuse with
        | closeLoop hLoops => exact ⟨hLoops, rfl⟩
  | declaration isConst ty name initializer span =>
      rw [step, declare_eq_fault_iff,
        requireInitializer_eq_ok_iff]
      constructor
      · rintro ⟨⟨hConst, hFits⟩, hVisible, rfl⟩
        exact .declaration hConst hFits hVisible
      · intro hMisuse
        cases hMisuse with
        | declaration hConst hFits hVisible =>
            exact ⟨⟨hConst, hFits⟩, hVisible, rfl⟩
  | _ => exact step_eq_fault_iff_of_isCheck trivial

/- What is refused of an effect is refused by its step. -/
theorem perform_effect_eq_error_iff
    {event : EffectEvent Ty}
    {stop : Stop} :
    perform state (.effect event) = .error stop ↔
      step state event = .error stop := by
  rw [perform]
  cases step state event with
  | ok next =>
      constructor
      · intro hError
        cases hError
      · intro hError
        cases hError
  | error reason =>
      constructor
      · intro hError
        cases hError
        rfl
      · intro hError
        cases hError
        rfl

theorem perform_eq_fault_iff
    {event : Event Ty} :
    perform state event = .error (.fault fault) ↔
      Misuses state event fault := by
  cases event with
  | value event =>
      constructor
      · intro hFault
        exact absurd hFault (faultless_value state event fault)
      · intro hMisuse
        cases hMisuse
  | effect event =>
      rw [perform_effect_eq_error_iff, step_eq_fault_iff]

/- Formals that fit are bound, whatever is known by then. -/
theorem bindFormals_inside
    {name : Identifier}
    {formals : List Formal}
    (hFit : FormalsFit state.symbols name formals)
    (signature : Signature) :
    bindFormals
        ((state.symbols.withFunction signature).enter
          signature).openScope
        formals =
      .ok (state.symbols.inside signature formals) :=
  bindFormals_eq_ok _ _ hFit.1
    fun formal hFormal => (hFit.2 formal hFormal).2

end Analysis

open Analysis (State Reachable Misuses FormalsFit perform
  bindFormals)

/-
  In every state that events can lead to, in whatever order
  they come, the next event meets a fault exactly if it is a
  misuse. In particular no expression and no header of a
  function does, the formals of a function that fit are
  bound, and no position leads outside the functions.
-/
theorem fault_exactly_at_misuse
    {state : State}
    (hReachable : Reachable state) :
    (∀ event fault,
        perform state event = .error (.fault fault) ↔
          Misuses state event fault) ∧
      (∀ event fault,
        perform state (.value event) ≠
          .error (.fault fault)) ∧
      (∀ returns name fault,
        perform state
            (.effect (.functionHeader returns name)) ≠
          .error (.fault fault)) ∧
      (∀ name formals signature,
        FormalsFit state.symbols name formals →
          bindFormals
              ((state.symbols.withFunction signature).enter
                signature).openScope
              formals =
            .ok (state.symbols.inside signature formals)) ∧
      state.symbols.functions.Addressed := by
  refine
    ⟨fun event fault => Analysis.perform_eq_fault_iff,
      Analysis.faultless_value state, ?_, ?_,
      Analysis.addressed_of_reachable hReachable⟩
  · intro returns name fault hFault
    have hMisuse := Analysis.perform_eq_fault_iff.mp hFault
    cases hMisuse
  · intro name formals signature hFit
    exact Analysis.bindFormals_inside hFit signature

/- A function is declared, and a variable in its body. -/
def declaredOnce : List (Event Ty) :=
  let place : Span := ⟨0, 1, 1⟩
  [.effect (.functionSignature .void ⟨"main", place⟩ []),
    .effect
      (.declaration false .int ⟨"x", place⟩ none place)]

/- There, the variable must not be declared again. -/
theorem fault_exactly_at_misuse_declaredOnce :
    ∃ performed state,
      Analysis.replay .initial declaredOnce =
          (performed, none, state) ∧
        ∀ place,
          perform state
              (.effect
                (.declaration false .int ⟨"x", place⟩ none
                  place)) =
            .error (.fault (.variableVisible "x")) := by
  refine ⟨_, _, rfl, fun place => ?_⟩
  apply
    ((fault_exactly_at_misuse ⟨declaredOnce, _, rfl⟩).1
      _ _).mpr
  exact .declaration (by simp) (by simp) rfl

end OnePass
