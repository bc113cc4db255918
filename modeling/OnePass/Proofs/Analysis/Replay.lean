import OnePass.Analysis.Run

/-
  Events that are replayed without a fault.

  A replay goes on after a finding and stops at a fault. The
  replays without a fault are described here step by step:
  each event is accepted, and moves the state, or is refused
  and is passed over. Whatever is shown along the steps
  holds of every such replay.

  Main declarations:
    * `Analysis.Replays`
    * `Analysis.replay_eq_iff`
    * `Analysis.Replays.kept`
    * `Analysis.Replays.accepted_only`
    * `Analysis.Reachable`
-/

------------------------------------------------------------
-- Replays Without A Fault
------------------------------------------------------------

namespace OnePass

namespace Analysis

/-
  The first state, the events, what became of them, and the
  state at the end.
-/
inductive Replays :
    State → List (Event Ty) → List Performed → State →
      Prop where
  | nil
      {state : State} :
      Replays state [] [] state
  | accepted
      {state next final : State}
      {event : Event Ty}
      {events : List (Event Ty)}
      {answer : Option Ty}
      {later : List Performed}
      (hPerform : perform state event = .ok (answer, next))
      (hLater : Replays next events later final) :
      Replays state (event :: events)
        (⟨.ok answer, next⟩ :: later) final
  | refused
      {state final : State}
      {event : Event Ty}
      {events : List (Event Ty)}
      {diagnostic : Diagnostic}
      {later : List Performed}
      (hPerform :
        perform state event = .error (.finding diagnostic))
      (hLater : Replays state events later final) :
      Replays state (event :: events)
        (⟨.error diagnostic, state⟩ :: later) final

variable {start final : State}
variable {events : List (Event Ty)}
variable {performed : List Performed}

theorem Replays.replay_eq
    (hReplays : Replays start events performed final) :
    replay start events = (performed, none, final) := by
  induction hReplays with
  | nil => rfl
  | accepted hPerform hLater ih =>
      simp only [replay, hPerform, ih]
  | refused hPerform hLater ih =>
      simp only [replay, hPerform, ih]

theorem replays_of_replay
    (hReplay :
      replay start events = (performed, none, final)) :
    Replays start events performed final := by
  induction events generalizing start performed with
  | nil =>
      cases hReplay
      exact .nil
  | cons event events ih =>
      cases hPerform : perform start event with
      | ok outcome =>
          rcases outcome with ⟨answer, next⟩
          rcases hRest : replay next events with
            ⟨later, fault, last⟩
          simp only [replay, hPerform, hRest] at hReplay
          cases hReplay
          exact .accepted hPerform (ih hRest)
      | error stop =>
          cases stop with
          | finding diagnostic =>
              rcases hRest : replay start events with
                ⟨later, fault, last⟩
              simp only [replay, hPerform, hRest] at hReplay
              cases hReplay
              exact .refused hPerform (ih hRest)
          | fault fault =>
              simp only [replay, hPerform] at hReplay
              cases hReplay

/- The steps describe exactly the replays without a fault. -/
theorem replay_eq_iff :
    replay start events = (performed, none, final) ↔
      Replays start events performed final :=
  ⟨replays_of_replay, Replays.replay_eq⟩

end Analysis

end OnePass

------------------------------------------------------------
-- Refused Events
------------------------------------------------------------

namespace OnePass

namespace Analysis

/- The event was accepted. -/
def Performed.isAccepted (record : Performed) : Bool :=
  record.result.isOk

/- The state in which the last of these events left it. -/
def stateAfter
    (start : State) : List Performed → State
| [] => start
| record :: performed => stateAfter record.state performed

/- The events that were accepted, in order. -/
def acceptedAmong
    (events : List (Event Ty))
    (performed : List Performed) : List (Event Ty) :=
  ((events.zip performed).filter (·.2.isAccepted)).map
    Prod.fst

namespace Replays

variable {start final : State}
variable {events : List (Event Ty)}
variable {performed : List Performed}
variable (hReplays : Replays start events performed final)

include hReplays

/- Every event is answered. -/
theorem length_eq : performed.length = events.length := by
  induction hReplays with
  | nil => rfl
  | accepted hPerform hLater ih =>
      rw [List.length_cons, List.length_cons, ih]
  | refused hPerform hLater ih =>
      rw [List.length_cons, List.length_cons, ih]

/- A refused event leaves the state as it finds it. -/
theorem kept
    {before after : List Performed}
    {record : Performed}
    (hSplit : performed = before ++ record :: after)
    (hRefused : record.isAccepted = false) :
    record.state = stateAfter start before := by
  induction hReplays generalizing before with
  | nil =>
      have hLength := congrArg List.length hSplit
      simp at hLength
  | accepted hPerform hLater ih =>
      cases before with
      | nil =>
          cases hSplit
          cases hRefused
      | cons first before =>
          obtain ⟨hFirst, hRest⟩ := List.cons.inj hSplit
          rw [stateAfter, ← hFirst]
          exact ih hRest
  | refused hPerform hLater ih =>
      cases before with
      | nil =>
          cases hSplit
          rfl
      | cons first before =>
          obtain ⟨hFirst, hRest⟩ := List.cons.inj hSplit
          rw [stateAfter, ← hFirst]
          exact ih hRest

/- The accepted events alone lead to the same answers. -/
theorem accepted_only :
    Replays start
      (acceptedAmong events performed)
      (performed.filter Performed.isAccepted) final := by
  induction hReplays with
  | nil => exact .nil
  | accepted hPerform hLater ih =>
      exact .accepted hPerform ih
  | refused hPerform hLater ih => exact ih

end Replays

end Analysis

end OnePass

------------------------------------------------------------
-- Reachable States
------------------------------------------------------------

namespace OnePass

namespace Analysis

/- The state at the end of some replay without a fault. -/
def Reachable (state : State) : Prop :=
  ∃ events performed,
    replay .initial events = (performed, none, state)

section Preservation

variable {P : State → Prop}
variable
  (hPerform :
    ∀ state event answer next,
      P state →
        perform state event = .ok (answer, next) → P next)

include hPerform

/- What accepted events keep is kept by a whole replay. -/
theorem Replays.preserves
    {start final : State}
    {events : List (Event Ty)}
    {performed : List Performed}
    (hReplays : Replays start events performed final)
    (hStart : P start) :
    P final := by
  induction hReplays with
  | nil => exact hStart
  | accepted hAnswer hLater ih =>
      exact ih (hPerform _ _ _ _ hStart hAnswer)
  | refused hRefused hLater ih => exact ih hStart

theorem Reachable.preserves
    {state : State}
    (hReachable : Reachable state)
    (hInitial : P .initial) :
    P state := by
  rcases hReachable with ⟨events, performed, hReplay⟩
  exact (replay_eq_iff.mp hReplay).preserves hPerform hInitial

end Preservation

end Analysis

end OnePass
