import OnePass.Proofs.Analysis.Replay
import OnePass.Proofs.Symbols.Variables

/-
  Events that are carried out in place.

  An analysis can also be kept in one place that every event
  changes step by step. Nothing is undone there: what an
  event changed before it stopped stays changed. It turns
  out that an event changes something only after all its
  checks are passed, so that one with a finding leaves every
  part of the state as it was. Hence the refused events of a
  sequence can be left out of it, and nobody can tell.

  Main declarations:
    * `Analysis.Deed`
    * `Analysis.Deed.event`
    * `Analysis.replayInPlace`
    * `Analysis.Agrees`
    * `Analysis.agrees_perform`
    * `refused_events_change_nothing`
-/

------------------------------------------------------------
-- Deeds
------------------------------------------------------------

namespace OnePass

namespace Analysis

/-
  Something that is done to the state where it is. If it
  stops half-way, the state stays as it is at that point.
-/
abbrev Deed : Type → Type := EStateM Stop State

/-
  The names of the formals are new. The function itself
  counts as known.
-/
def requireFormals
    (state : State)
    (name : Identifier)
    (formals : List Formal) : Except Stop Unit :=
  let taken := fun candidate =>
    candidate = name.name ||
      !state.symbols.isFree candidate
  match firstConflict? taken formals with
  | some formal =>
      reject (.redefinition formal.name) formal.span
  | none => .ok ()

/- How the body of a new function is entered. -/
def entering
    (signature : Signature)
    (formals : List Formal) : List Symbols.Operation :=
  .declareFunction signature :: .enter signature ::
    .openScope :: formals.map (.declareVariable ·.binding)

namespace Deed

/- Look at the state, and stop if something is wrong. -/
def check
    {α : Type}
    (look : State → Except Stop α) : Deed α :=
  fun state =>
    match look state with
    | .ok answer => .ok answer state
    | .error stop => .error stop state

/- Change the symbols by one operation. -/
def alter
    (operation : Symbols.Operation) : Deed Unit :=
  fun state =>
    match state.symbols.apply operation with
    | .ok symbols => .ok () { state with symbols }
    | .error fault => .error (.fault fault) state

/- Change the symbols by one operation after the other. -/
def alterAll : List Symbols.Operation → Deed Unit
| [] => pure ()
| operation :: operations => do
    alter operation
    alterAll operations

/- One more loop body is being read. -/
def enterLoop : Deed Unit :=
  fun state => .ok () { state with loops := state.loops + 1 }

/- The innermost loop body is complete. -/
def leaveLoop : Deed Unit :=
  fun state =>
    match state.loops with
    | 0 => .error (.fault .noOpenLoop) state
    | loops + 1 => .ok () { state with loops }

/- What a statement or declaration does to the state. -/
def effect : EffectEvent Ty → Deed Unit
| .functionHeader _ name =>
    check (requireNewFunction · name)
| .functionSignature returns name formals => do
    check (requireFormals · name formals)
    alterAll
      (entering (signatureOf returns name formals) formals)
| .functionEnd _ => alterAll [.closeScope, .leave]
| .openScope => alter .openScope
| .closeScope => alter .closeScope
| .openLoop => enterLoop
| .closeLoop => leaveLoop
| .condition value =>
    check fun _ => requireCast value.ty .bool value.span
| .declarationStart _ _ name => check (requireFree · name)
| .declaration isConst ty name initializer span => do
    check fun _ =>
      requireInitializer isConst ty name initializer span
    alter (.declareVariable ⟨name.name, ty, isConst⟩)
| .assignment name value span =>
    check (assign · name value span)
| .returnVoid span => check (Analysis.returnVoid · span)
| .returnValue value span =>
    check (Analysis.returnValue · value span)
| .breakStatement span =>
    check (requireLoop · .unexpectedBreak span)
| .continueStatement span =>
    check (requireLoop · .unexpectedContinue span)
| .programEnd => check requireEntryPoint

/- What any event does to the state. -/
def event : Event Ty → Deed (Option Ty)
| .value event => do
    return some
      (← check fun state => valueType state.symbols event)
| .effect event => do
    effect event
    return none

end Deed

/-
  Carry out events one after the other on one state. After a
  finding, the next event meets the state as it was left.
-/
def replayInPlace
    (state : State) :
    List (Event Ty) → List Performed × Option Fault × State
| [] => ([], none, state)
| event :: events =>
    match Deed.event event state with
    | .ok answer after =>
        let (later, final) := replayInPlace after events
        (⟨.ok answer, after⟩ :: later, final)
    | .error (.finding diagnostic) left =>
        let (later, final) := replayInPlace left events
        (⟨.error diagnostic, left⟩ :: later, final)
    | .error (.fault fault) left => ([], some fault, left)

end Analysis

end OnePass

------------------------------------------------------------
-- Agreement
------------------------------------------------------------

namespace OnePass

namespace Analysis

section Agreement

variable {α : Type}

/-
  What is computed from a state, and what is done to it. A
  finding leaves the state as it was; a fault may leave it
  half-changed.
-/
inductive Agrees
    (state : State) :
    Except Stop (α × State) →
      EStateM.Result Stop State α → Prop where
  | ok
      (answer : α)
      (after : State) :
      Agrees state (.ok (answer, after)) (.ok answer after)
  | finding
      (diagnostic : Diagnostic) :
      Agrees state (.error (.finding diagnostic))
        (.error (.finding diagnostic) state)
  | fault
      (fault : Fault)
      (left : State) :
      Agrees state (.error (.fault fault))
        (.error (.fault fault) left)

variable {state : State}

/- A stop that changes nothing, of either kind. -/
theorem agrees_error
    (stop : Stop) :
    Agrees state (.error stop : Except Stop (α × State))
      (.error stop state) := by
  cases stop with
  | finding diagnostic => exact .finding diagnostic
  | fault fault => exact .fault fault state

/- A check that is not passed leaves the state as it was. -/
theorem agrees_check
    (state : State)
    (look : State → Except Stop α) :
    Agrees state
      (look state >>= fun answer => pure (answer, state))
      (Deed.check look state) := by
  unfold Deed.check
  cases look state with
  | ok answer => exact .ok answer state
  | error stop => exact agrees_error stop

/- What follows a check meets the state unchanged. -/
theorem agrees_check_bind
    (look : State → Except Stop Unit)
    {rest : Deed α}
    {outcome : Except Stop (α × State)}
    (hRest : Agrees state outcome (rest state)) :
    Agrees state
      (look state >>= fun _ => outcome)
      ((Deed.check look >>= fun _ => rest) state) := by
  change
    Agrees state _
      (EStateM.bind (Deed.check look) (fun _ => rest) state)
  unfold EStateM.bind Deed.check
  cases look state with
  | ok answer => exact hRest
  | error stop => exact agrees_error stop

/- What an answer is turned into does not matter. -/
theorem Agrees.map
    {β : Type}
    {outcome : Except Stop (α × State)}
    {deed : Deed α}
    (hAgrees : Agrees state outcome (deed state))
    (turn : α → β) :
    Agrees state
      (outcome >>= fun next => pure (turn next.1, next.2))
      ((deed >>= fun answer => pure (turn answer)) state) := by
  change
    Agrees state _
      (EStateM.bind deed (fun answer => pure (turn answer))
        state)
  unfold EStateM.bind
  generalize deed state = result at hAgrees ⊢
  cases hAgrees with
  | ok answer after => exact .ok (turn answer) after
  | finding diagnostic => exact .finding diagnostic
  | fault fault left => exact .fault fault left

end Agreement

section Operations

variable (start state : State)

/- The state with the symbols that an operation leads to. -/
def replacing
    (result : Except Fault Symbols) :
    Except Stop (Unit × State) :=
  guarded result >>= fun symbols =>
    pure ((), { state with symbols })

theorem agrees_alter
    (operation : Symbols.Operation) :
    Agrees start
      (replacing state (state.symbols.apply operation))
      (Deed.alter operation state) := by
  unfold Deed.alter
  cases state.symbols.apply operation with
  | ok symbols => exact .ok () { state with symbols }
  | error fault => exact .fault fault state

/-
  Operations stop only at a fault, and so the state at the
  start does not matter.
-/
theorem agrees_alterAll
    (operations : List Symbols.Operation) :
    Agrees start
      (replacing state (state.symbols.applyAll operations))
      (Deed.alterAll operations state) := by
  induction operations generalizing state with
  | nil => exact .ok () state
  | cons operation operations ih =>
      unfold Symbols.applyAll
      rw [List.foldlM_cons]
      change
        Agrees start _
          (EStateM.bind (Deed.alter operation)
            (fun _ => Deed.alterAll operations) state)
      unfold EStateM.bind Deed.alter
      cases state.symbols.apply operation with
      | ok symbols => exact ih { state with symbols }
      | error fault => exact .fault fault state

end Operations

end Analysis

end OnePass

------------------------------------------------------------
-- Agreement On Events
------------------------------------------------------------

namespace OnePass

namespace Analysis

variable (state : State)

theorem guarded_bind
    {α β : Type}
    (first : Except Fault α)
    (next : α → Except Fault β) :
    guarded (first >>= next) =
      guarded first >>= fun answer =>
        guarded (next answer) := by
  cases first with
  | ok answer => rfl
  | error fault => rfl

/- The body is entered by operations on the symbols. -/
theorem applyAll_entering
    (symbols : Symbols)
    (signature : Signature)
    (formals : List Formal) :
    symbols.applyAll (entering signature formals) =
      symbols.declareFunction signature >>= fun known =>
        bindFormals (known.enter signature).openScope
          formals := by
  unfold entering Symbols.applyAll bindFormals
  rw [List.foldlM_cons]
  cases hKnown :
      symbols.declareFunction signature with
  | ok known =>
      simp only [Symbols.apply, hKnown]
      change
        (formals.map
            (Symbols.Operation.declareVariable
              ·.binding)).foldlM
          Symbols.apply (known.enter signature).openScope = _
      rw [List.foldlM_map]
      rfl
  | error fault =>
      simp only [Symbols.apply, hKnown]
      rfl

/- A function is checked, and then its body is entered. -/
theorem declareFunction_eq_entering
    (returns : Ty)
    (name : Identifier)
    (formals : List Formal) :
    declareFunction state returns name formals =
      (do
        requireFormals state name formals
        let symbols ←
          guarded
            (state.symbols.applyAll
              (entering (signatureOf returns name formals)
                formals))
        return { state with symbols }) := by
  rw [applyAll_entering, guarded_bind]
  unfold declareFunction requireFormals
  dsimp only
  cases firstConflict?
      (fun candidate =>
        candidate = name.name ||
          !state.symbols.isFree candidate)
      formals with
  | some formal => rfl
  | none =>
      cases state.symbols.declareFunction
          (signatureOf returns name formals) with
      | ok known => rfl
      | error fault => rfl

/- A function is left by operations on the symbols. -/
theorem closeFunction_eq_applyAll :
    closeFunction state =
      (do
        let symbols ←
          guarded
            (state.symbols.applyAll [.closeScope, .leave])
        return { state with symbols }) := by
  unfold closeFunction Symbols.applyAll
  rw [List.foldlM_cons, guarded_bind]
  simp only [Symbols.apply]
  cases state.symbols.closeScope with
  | ok symbols => rfl
  | error fault => rfl

/- An effect in place does what its step computes. -/
theorem agrees_effect
    (event : EffectEvent Ty) :
    Agrees state
      (step state event >>= fun after => pure ((), after))
      (Deed.effect event state) := by
  have hCheck :
      ∀ look : State → Except Stop Unit,
        Agrees state
          ((look state >>= fun _ => pure state) >>=
            fun after => pure ((), after))
          (Deed.check look state) := by
    intro look
    rw [bind_assoc]
    exact agrees_check state look
  cases event with
  | functionHeader returns name =>
      exact hCheck (requireNewFunction · name)
  | functionSignature returns name formals =>
      rw [step, declareFunction_eq_entering]
      simp only [bind_assoc, pure_bind]
      exact
        agrees_check_bind (requireFormals · name formals)
          (agrees_alterAll state state _)
  | functionEnd span =>
      rw [step, closeFunction_eq_applyAll]
      simp only [bind_assoc, pure_bind]
      exact agrees_alterAll state state _
  | openScope => exact agrees_alter state state .openScope
  | closeScope =>
      rw [step, closeScope]
      simp only [bind_assoc, pure_bind]
      exact agrees_alter state state .closeScope
  | openLoop => exact .ok () _
  | closeLoop =>
      rw [step, closeLoop, Deed.effect, Deed.leaveLoop]
      cases state.loops with
      | zero => exact .fault _ _
      | succ loops => exact .ok () _
  | condition value =>
      exact
        hCheck fun _ =>
          requireCast value.ty .bool value.span
  | declarationStart isConst ty name =>
      exact hCheck (requireFree · name)
  | declaration isConst ty name initializer span =>
      rw [step, declare]
      simp only [bind_assoc, pure_bind]
      exact
        agrees_check_bind
          (fun _ =>
            requireInitializer isConst ty name initializer span)
          (agrees_alter state state
            (.declareVariable ⟨name.name, ty, isConst⟩))
  | assignment name value span =>
      exact hCheck (assign · name value span)
  | returnVoid span => exact hCheck (returnVoid · span)
  | returnValue value span =>
      exact hCheck (returnValue · value span)
  | breakStatement span =>
      exact hCheck (requireLoop · .unexpectedBreak span)
  | continueStatement span =>
      exact hCheck (requireLoop · .unexpectedContinue span)
  | programEnd => exact hCheck requireEntryPoint

/- An event in place does what performing it computes. -/
theorem agrees_perform
    (event : Event Ty) :
    Agrees state (perform state event)
      (Deed.event event state) := by
  cases event with
  | value event =>
      have hLook :=
        (agrees_check state fun state =>
          valueType state.symbols event).map some
      rw [bind_assoc] at hLook
      exact hLook
  | effect event =>
      have hStep :=
        (agrees_effect state event).map fun _ =>
          (none : Option Ty)
      rw [bind_assoc] at hStep
      exact hStep

end Analysis

end OnePass

------------------------------------------------------------
-- Sequences Of Events
------------------------------------------------------------

namespace OnePass

namespace Analysis

variable {start final : State}
variable {events : List (Event Ty)}
variable {performed : List Performed}

/- A replay in place takes the steps of any other replay. -/
theorem replays_of_replayInPlace
    (hReplay :
      replayInPlace start events =
        (performed, none, final)) :
    Replays start events performed final := by
  induction events generalizing start performed with
  | nil =>
      cases hReplay
      exact .nil
  | cons event events ih =>
      have hAgrees := agrees_perform start event
      rw [replayInPlace] at hReplay
      generalize hPerform : perform start event = outcome at hAgrees
      generalize Deed.event event start = result at hAgrees hReplay
      cases hAgrees with
      | ok answer after =>
          rcases hRest : replayInPlace after events with
            ⟨later, fault, last⟩
          simp only [hRest] at hReplay
          cases hReplay
          exact .accepted hPerform (ih hRest)
      | finding diagnostic =>
          rcases hRest : replayInPlace start events with
            ⟨later, fault, last⟩
          simp only [hRest] at hReplay
          cases hReplay
          exact .refused hPerform (ih hRest)
      | fault fault left => cases hReplay

theorem Replays.replayInPlace_eq
    (hReplays : Replays start events performed final) :
    replayInPlace start events = (performed, none, final) := by
  induction hReplays with
  | nil => rfl
  | @accepted state next _ event _ answer _ hPerform hLater ih =>
      have hAgrees := agrees_perform state event
      rw [hPerform] at hAgrees
      rw [replayInPlace]
      generalize Deed.event event state = result at hAgrees ⊢
      cases hAgrees
      simp only [ih]
  | @refused state _ event _ diagnostic _ hPerform hLater ih =>
      have hAgrees := agrees_perform state event
      rw [hPerform] at hAgrees
      rw [replayInPlace]
      generalize Deed.event event state = result at hAgrees ⊢
      cases hAgrees
      simp only [ih]

end Analysis

open Analysis (State Performed replay replayInPlace
  stateAfter acceptedAmong)

/-
  For every sequence of events without a fault, carried out
  in place from any state: a refused event leaves the whole
  state as it was, and without the refused events the others
  get the same answers, pass through the same states and end
  in the same one.
-/
theorem refused_events_change_nothing
    {start final : State}
    {events : List (Event Ty)}
    {performed : List Performed}
    (hReplay :
      replayInPlace start events =
        (performed, none, final)) :
    replay start events = (performed, none, final) ∧
      performed.length = events.length ∧
      (∀ before record after,
        performed = before ++ record :: after →
          record.isAccepted = false →
            record.state = stateAfter start before) ∧
      replayInPlace start (acceptedAmong events performed) =
        (performed.filter Performed.isAccepted, none,
          final) := by
  have hReplays := Analysis.replays_of_replayInPlace hReplay
  refine
    ⟨Analysis.replay_eq_iff.mpr hReplays,
      hReplays.length_eq, ?_,
      hReplays.accepted_only.replayInPlace_eq⟩
  intro before record after hSplit hRefused
  exact hReplays.kept hSplit hRefused

/-
  A function is declared. In its body, a function with two
  formals of one name and a const without a value are
  refused, and then a variable is declared.
-/
def mixedEvents : List (Event Ty) :=
  let place : Span := ⟨0, 1, 1⟩
  [.effect (.functionSignature .void ⟨"main", place⟩ []),
    .effect
      (.functionSignature .int ⟨"f", place⟩
        [⟨false, .int, ⟨"a", place⟩⟩,
          ⟨true, .bool, ⟨"a", place⟩⟩]),
    .effect
      (.declaration true .int ⟨"x", place⟩ none place),
    .effect
      (.declaration false .int ⟨"x", place⟩ none place),
    .effect (.functionEnd place)]

theorem refused_mixedEvents_change_nothing :
    ∃ performed final,
      replayInPlace .initial mixedEvents =
          (performed, none, final) ∧
        performed.map Performed.isAccepted =
          [true, false, false, true, true] ∧
        replayInPlace .initial
            (acceptedAmong mixedEvents performed) =
          (performed.filter Performed.isAccepted, none,
            final) :=
  ⟨_, _, rfl, rfl,
    (refused_events_change_nothing rfl).2.2.2⟩

end OnePass
