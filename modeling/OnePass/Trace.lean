import OnePass.Parser.Program

/-
  Watching a receiver of events.

  A watched receiver behaves as before and keeps a record of
  every event. An interrupted receiver refuses one chosen
  event. An accepting receiver refuses nothing.

  Key definitions include:
    * `Receiver.watched`
    * `Receiver.interruptedAt`
    * `Receiver.accepting`
    * `Event.canFail`
-/

------------------------------------------------------------
-- Watched Receivers
------------------------------------------------------------

namespace OnePass

/- What is seen of one event. -/
structure Sighting (σ τ : Type) where
  event : Event τ
  before : σ
  after : σ
  accepted : Bool

/- A state together with the records made so far. -/
structure Watched (σ β : Type) where
  state : σ
  records : Array β

namespace Receiver

variable {σ τ ε α β : Type}

/- Act on the watched state, and record what is seen. -/
def watch
    (record : Sighting σ τ → List β)
    (event : Event τ)
    (act : EStateM ε σ α) : EStateM ε (Watched σ β) α :=
  fun watched =>
    let before := watched.state
    match act before with
    | .ok answer after =>
        let seen := record ⟨event, before, after, true⟩
        .ok answer ⟨after, watched.records ++ seen⟩
    | .error reason after =>
        let seen := record ⟨event, before, after, false⟩
        .error reason ⟨after, watched.records ++ seen⟩

/- A receiver that records every event it is given. -/
def watched
    (record : Sighting σ τ → List β)
    (receiver : Receiver σ τ ε) :
    Receiver (Watched σ β) τ ε where
  value event :=
    watch record (.value event) (receiver.value event)
  effect event :=
    watch record (.effect event) (receiver.effect event)

end Receiver

end OnePass

------------------------------------------------------------
-- Interrupted Receivers
------------------------------------------------------------

namespace OnePass

namespace Event

/-
  Some receiver may have a reason to refuse the event. Plain
  literals have a fixed meaning, and scopes and loops can
  always be opened and closed.
-/
def canFail {τ : Type} : Event τ → Bool
| value (.numberLiteral _ _) => false
| value (.stringLiteral _) => false
| value (.boolLiteral _ _) => false
| effect .openScope => false
| effect .closeScope => false
| effect .openLoop => false
| effect .closeLoop => false
| _ => true

end Event

/- A state together with the number of events so far. -/
structure Counted (σ : Type) where
  state : σ
  count : Nat

namespace Receiver

variable {σ τ ε α : Type}

/- Act on the counted state, unless this is the chosen event. -/
def actUnless
    (chosen : Option Nat)
    (reason : ε)
    (event : Event τ)
    (act : EStateM ε σ α) : EStateM ε (Counted σ) α :=
  fun counted =>
    let count := counted.count + 1
    if chosen = some counted.count && event.canFail then
      .error reason { counted with count }
    else
      match act counted.state with
      | .ok answer state => .ok answer ⟨state, count⟩
      | .error reason state => .error reason ⟨state, count⟩

/-
  A receiver that refuses the chosen event, counted from
  zero, without looking at it. An event that cannot fail is
  not refused.
-/
def interruptedAt
    (chosen : Option Nat)
    (reason : ε)
    (receiver : Receiver σ τ ε) :
    Receiver (Counted σ) τ ε where
  value event :=
    actUnless chosen reason (.value event)
      (receiver.value event)
  effect event :=
    actUnless chosen reason (.effect event)
      (receiver.effect event)

end Receiver

end OnePass

------------------------------------------------------------
-- Accepting Receivers
------------------------------------------------------------

namespace OnePass

namespace ValueEvent

/-
  A type that goes by the form of an expression alone, not
  by its parts or by the names in scope.
-/
def formType : ValueEvent Ty → Ty
| call _ _ _ => .void
| identifier _ => .int
| numberLiteral _ _ => .int
| byteLiteral _ _ => .byte
| stringLiteral _ => .string
| boolLiteral _ _ => .bool
| cast target _ _ => target
| numeric _ _ _ _ => .int
| relational _ _ _ _ => .bool
| logical _ _ _ _ => .bool
| negation _ _ => .bool

end ValueEvent

namespace Receiver

/- A receiver that has no state and refuses nothing. -/
def accepting {ε : Type} : Receiver Unit Ty ε where
  value event := fun _ => .ok event.formType ()
  effect _ := fun _ => .ok () ()

end Receiver

end OnePass
