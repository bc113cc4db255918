import OnePass.Trace

/-
  What is seen of a run of the parser.

  A transcript holds the result of a run and every event of
  it, in order, with the states of the receiver around the
  event and whether it was accepted. Events of receivers
  with different attributes are compared without the
  attributes.

  Key definitions include:
    * `Event.erase`
    * `Recorder`
    * `Transcript`
    * `Receiver.transcript`
-/

------------------------------------------------------------
-- Change Of Attributes
------------------------------------------------------------

namespace OnePass

section Attributes

variable {τ υ : Type}

/- Change the attribute, and keep the extent. -/
def Typed.map
    (change : τ → υ)
    (value : Typed τ) : Typed υ :=
  ⟨change value.ty, value.span⟩

/- Change the attributes of the parts. -/
def ValueEvent.map
    (change : τ → υ) :
    ValueEvent τ → ValueEvent υ
| call callee arguments span =>
    .call callee (arguments.map (Typed.map change)) span
| identifier name => .identifier name
| numberLiteral digits span => .numberLiteral digits span
| byteLiteral digits span => .byteLiteral digits span
| stringLiteral span => .stringLiteral span
| boolLiteral value span => .boolLiteral value span
| cast target operand span =>
    .cast target (operand.map change) span
| numeric left operator right span =>
    .numeric (left.map change) operator (right.map change)
      span
| relational left operator right span =>
    .relational (left.map change) operator
      (right.map change) span
| logical left operator right span =>
    .logical (left.map change) operator (right.map change)
      span
| negation operand span =>
    .negation (operand.map change) span

/- Change the attributes of the parts. -/
def EffectEvent.map
    (change : τ → υ) :
    EffectEvent τ → EffectEvent υ
| functionHeader returns name =>
    .functionHeader returns name
| functionSignature returns name formals =>
    .functionSignature returns name formals
| functionEnd span => .functionEnd span
| openScope => .openScope
| closeScope => .closeScope
| openLoop => .openLoop
| closeLoop => .closeLoop
| condition value => .condition (value.map change)
| declarationStart isConst ty name =>
    .declarationStart isConst ty name
| declaration isConst ty name initializer span =>
    .declaration isConst ty name
      (initializer.map (Typed.map change)) span
| assignment name value span =>
    .assignment name (value.map change) span
| returnVoid span => .returnVoid span
| returnValue value span =>
    .returnValue (value.map change) span
| breakStatement span => .breakStatement span
| continueStatement span => .continueStatement span
| programEnd => .programEnd

/- Keep the extent of an expression only. -/
def Typed.erase (value : Typed τ) : Typed Unit :=
  value.map fun _ => ()

/- Forget the attributes of the parts. -/
def ValueEvent.erase
    (event : ValueEvent τ) : ValueEvent Unit :=
  event.map fun _ => ()

/- Forget the attributes of the parts. -/
def EffectEvent.erase
    (event : EffectEvent τ) : EffectEvent Unit :=
  event.map fun _ => ()

/- Forget the attributes of the parts. -/
def Event.erase : Event τ → Event Unit
| value event => .value event.erase
| effect event => .effect event.erase

/- A change that changes nothing. -/
theorem ValueEvent.map_id
    (event : ValueEvent τ) :
    event.map id = event := by
  have hTyped : Typed.map (id : τ → τ) = id := rfl
  cases event with
  | call callee arguments span =>
      rw [map, hTyped, List.map_id]
  | _ => rfl

/- A change that changes nothing. -/
theorem EffectEvent.map_id
    (event : EffectEvent τ) :
    event.map id = event := by
  have hTyped : Typed.map (id : τ → τ) = id := rfl
  cases event with
  | declaration isConst ty name initializer span =>
      rw [map, hTyped, Option.map_id, id_eq]
  | _ => rfl

end Attributes

end OnePass

------------------------------------------------------------
-- Recorders
------------------------------------------------------------

namespace OnePass

/-
  A receiver that refuses nothing: its answers, and how its
  state changes.
-/
structure Recorder (σ τ : Type) where
  value : ValueEvent τ → σ → τ × σ
  effect : EffectEvent τ → σ → σ

/- A recorder, as a receiver. -/
def Recorder.receiver
    {σ τ : Type}
    (ε : Type)
    (recorder : Recorder σ τ) : Receiver σ τ ε where
  value event := fun state =>
    .ok (recorder.value event state).1
      (recorder.value event state).2
  effect event := fun state =>
    .ok () (recorder.effect event state)

end OnePass

------------------------------------------------------------
-- Transcripts
------------------------------------------------------------

namespace OnePass

variable {σ τ ε : Type}

/- The result of a run, and all that is seen of its events. -/
structure Transcript (σ τ ε : Type) where
  result : Except (Parser.Failure ε) Unit
  sightings : List (Sighting σ τ)

/- The events, without the attributes in them. -/
def Transcript.events
    (transcript : Transcript σ τ ε) : List (Event Unit) :=
  transcript.sightings.map (·.event.erase)

namespace Receiver

/- The receiver with a full record of what is seen. -/
def recorded
    (receiver : Receiver σ τ ε) :
    Receiver (Watched σ (Sighting σ τ)) τ ε :=
  receiver.watched fun sighting => [sighting]

/- Run the parser, and write down what is seen. -/
def transcript
    (receiver : Receiver σ τ ε)
    (tokens : List Token)
    (start : σ) : Transcript σ τ ε :=
  let run := parse receiver.recorded tokens ⟨start, #[]⟩
  ⟨run.1, run.2.records.toList⟩

end Receiver

/- The events recorded so far, without their attributes. -/
def Watched.events
    (watched : Watched σ (Sighting σ τ)) :
    List (Event Unit) :=
  watched.records.toList.map (·.event.erase)

end OnePass
