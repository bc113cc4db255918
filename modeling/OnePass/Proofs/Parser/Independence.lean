import OnePass.Proofs.Analysis.Safety
import OnePass.Proofs.Parser.Lockstep
import OnePass.Proofs.Parser.Transcript

/-
  The answers of a receiver do not steer the parser.

  A run with any receiver is compared with a run of a
  recorder on the same tokens. As long as no event is
  refused, the events are the same but for the attributes in
  them, and the runs come to the same end. The first event
  that is refused ends the run, for the reason given.

  Main declarations:
    * `Transcript.FirstRefusal`
    * `Receiver.Refuses`
    * `transcript_result`
    * `transcript_follows_recorder`
    * `transcript_independent_of_answers`
-/

------------------------------------------------------------
-- The Same Events
------------------------------------------------------------

namespace OnePass

section Attributes

variable {τ τ' υ : Type}
variable {Attribute : τ → τ' → Prop}
variable {change : τ → υ}
variable {change' : τ' → υ}
variable
  (hChange :
    ∀ left right,
      Attribute left right → change left = change' right)

include hChange

theorem Typed.Alike.map_eq
    {left : Typed τ}
    {right : Typed τ'}
    (hAlike : Typed.Alike .exact Attribute left right) :
    left.map change = right.map change' := by
  have hSpan : left.span = right.span := hAlike.span
  rw [Typed.map, Typed.map, hSpan, hChange _ _ hAlike.ty]

theorem map_arguments_eq
    {lefts : List (Typed τ)}
    {rights : List (Typed τ')}
    (hAlike :
      List.Forall₂ (Typed.Alike .exact Attribute) lefts
        rights) :
    lefts.map (Typed.map change) =
      rights.map (Typed.map change') := by
  induction hAlike with
  | nil => rfl
  | cons hFirst _ ih =>
      rw [List.map_cons, List.map_cons,
        hFirst.map_eq hChange, ih]

omit hChange in
/- Formals that are alike are the same. -/
theorem formals_eq
    {lefts rights : List Formal}
    (hAlike :
      List.Forall₂ (Formal.Alike .exact) lefts rights) :
    lefts = rights := by
  induction hAlike with
  | nil => rfl
  | @cons left right _ _ hFirst _ ih =>
      rcases left with ⟨isConst, ty, name⟩
      rcases right with ⟨isConst', ty', name'⟩
      obtain ⟨hConst, hTy, hName⟩ := hFirst
      cases hConst
      cases hTy
      cases hName
      rw [ih]

/- Events that are alike differ in their attributes only. -/
theorem ValueEvent.Alike.map_eq
    {event : ValueEvent τ}
    {event' : ValueEvent τ'}
    (hAlike : ValueEvent.Alike .exact Attribute event event') :
    event.map change = event'.map change' := by
  cases hAlike with
  | call hCallee hArguments hSpan =>
      cases hCallee
      cases hSpan
      rw [map, map, map_arguments_eq hChange hArguments]
  | identifier hName =>
      cases hName
      rfl
  | numberLiteral hDigits hSpan =>
      cases hDigits
      cases hSpan
      rfl
  | byteLiteral hSpan =>
      cases hSpan
      rfl
  | stringLiteral hSpan =>
      cases hSpan
      rfl
  | boolLiteral hSpan =>
      cases hSpan
      rfl
  | cast hOperand hSpan =>
      cases hSpan
      rw [map, map, hOperand.map_eq hChange]
  | numeric hLeft hRight hSpan =>
      cases hSpan
      rw [map, map, hLeft.map_eq hChange,
        hRight.map_eq hChange]
  | relational hLeft hRight hSpan =>
      cases hSpan
      rw [map, map, hLeft.map_eq hChange,
        hRight.map_eq hChange]
  | logical hLeft hRight hSpan =>
      cases hSpan
      rw [map, map, hLeft.map_eq hChange,
        hRight.map_eq hChange]
  | negation hOperand hSpan =>
      cases hSpan
      rw [map, map, hOperand.map_eq hChange]

/- Events that are alike differ in their attributes only. -/
theorem EffectEvent.Alike.map_eq
    {event : EffectEvent τ}
    {event' : EffectEvent τ'}
    (hAlike :
      EffectEvent.Alike .exact Attribute event event') :
    event.map change = event'.map change' := by
  cases hAlike with
  | functionHeader hName =>
      cases hName
      rfl
  | functionSignature hName hFormals =>
      cases hName
      rw [map, map, formals_eq hFormals]
  | functionEnd hSpan =>
      cases hSpan
      rfl
  | openScope => rfl
  | closeScope => rfl
  | openLoop => rfl
  | closeLoop => rfl
  | condition hValue => rw [map, map, hValue.map_eq hChange]
  | declarationStart hName =>
      cases hName
      rfl
  | declaration hName hInitializer hSpan =>
      cases hName
      cases hSpan
      cases hInitializer with
      | none => rfl
      | some hValue =>
          rw [map, map, Option.map_some, Option.map_some,
            hValue.map_eq hChange]
  | assignment hName hValue hSpan =>
      cases hName
      cases hSpan
      rw [map, map, hValue.map_eq hChange]
  | returnVoid hSpan =>
      cases hSpan
      rfl
  | returnValue hValue hSpan =>
      cases hSpan
      rw [map, map, hValue.map_eq hChange]
  | breakStatement hSpan =>
      cases hSpan
      rfl
  | continueStatement hSpan =>
      cases hSpan
      rfl
  | programEnd => rfl

end Attributes

section Same

variable {τ : Type}

theorem ValueEvent.Alike.eq
    {event event' : ValueEvent τ}
    (hAlike : ValueEvent.Alike .exact Eq event event') :
    event = event' := by
  have hMap : event.map id = event'.map id :=
    hAlike.map_eq fun _ _ hEq => hEq
  rw [map_id, map_id] at hMap
  exact hMap

theorem EffectEvent.Alike.eq
    {event event' : EffectEvent τ}
    (hAlike : EffectEvent.Alike .exact Eq event event') :
    event = event' := by
  have hMap : event.map id = event'.map id :=
    hAlike.map_eq fun _ _ hEq => hEq
  rw [map_id, map_id] at hMap
  exact hMap

end Same

end OnePass

------------------------------------------------------------
-- Watched Runs
------------------------------------------------------------

namespace OnePass

namespace Receiver

variable {σ τ ε α β : Type}

section Watch

variable {record : Sighting σ τ → List β}
variable {event : Event τ}
variable {act : EStateM ε σ α}
variable {watched : Watched σ β}
variable {after : σ}

theorem watch_of_ok
    {answer : α}
    (hAct : act watched.state = .ok answer after) :
    watch record event act watched =
      .ok answer
        ⟨after,
          watched.records ++
            record ⟨event, watched.state, after, true⟩⟩ := by
  unfold watch
  simp only [hAct]

theorem watch_of_error
    {reason : ε}
    (hAct : act watched.state = .error reason after) :
    watch record event act watched =
      .error reason
        ⟨after,
          watched.records ++
            record ⟨event, watched.state, after, false⟩⟩ := by
  unfold watch
  simp only [hAct]

end Watch

/- A watched receiver beside the receiver itself. -/
def unwatched : Parser.Bond (Watched σ β) τ ε σ τ ε where
  like := .exact
  Attribute := Eq
  Together watched state := watched.state = state
  Parted reason watched reason' state :=
    reason' = some reason ∧ watched.state = state
  total hParted := by cases hParted.1
  exists_attribute hParted := by cases hParted.1

/- Being watched does not change what an act does. -/
theorem meets_watch
    (record : Sighting σ τ → List β)
    (event : Event τ)
    (act : EStateM ε σ α)
    (watched : Watched σ β) :
    (unwatched (τ := τ)).Meets Eq
      (watch record event act watched)
      (act watched.state) := by
  cases hAct : act watched.state with
  | ok answer after =>
      rw [watch_of_ok hAct]
      exact ⟨rfl, rfl⟩
  | error reason after =>
      rw [watch_of_error hAct]
      exact ⟨rfl, rfl⟩

theorem keptBy_unwatched
    (record : Sighting σ τ → List β)
    (receiver : Receiver σ τ ε) :
    unwatched.KeptBy (receiver.watched record) receiver where
  value {event event' watched state} hEvents hState := by
    cases ValueEvent.Alike.eq hEvents
    cases hState
    exact meets_watch record _ (receiver.value event) watched
  effect {event event' watched state} hEvents hState := by
    cases EffectEvent.Alike.eq hEvents
    cases hState
    exact meets_watch record _ (receiver.effect event) watched
  valueAlone event' hParted := by cases hParted.1
  effectAlone event' hParted := by cases hParted.1

end Receiver

/- Being watched does not change the result of a run. -/
theorem transcript_result
    {σ τ ε : Type}
    (receiver : Receiver σ τ ε)
    (tokens : List Token)
    (start : σ) :
    (receiver.transcript tokens start).result =
      (parse receiver tokens start).1 := by
  have hSettles :
      Receiver.unwatched.Settles tokens tokens
        (parse receiver.recorded tokens ⟨start, #[]⟩)
        (parse receiver tokens start) :=
    settles_parse (Receiver.keptBy_unwatched _ receiver) rfl
      rfl
  unfold Receiver.transcript
  generalize parse receiver.recorded tokens ⟨start, #[]⟩ =
    left at hSettles ⊢
  generalize parse receiver tokens start =
    right at hSettles ⊢
  cases hSettles with
  | accepted hTogether => rfl
  | stuck obstacle hRest hTogether =>
      cases hRest
      rfl
  | @refused reason final result' final' hParted =>
      have hRefusal : refusal? result' = some reason :=
        hParted.1
      exact (eq_refused_of_refusal? hRefusal).symm

end OnePass

------------------------------------------------------------
-- Refusals
------------------------------------------------------------

namespace OnePass

variable {σ τ ε : Type}

/- No event was refused. -/
def AllAccepted (sightings : List (Sighting σ τ)) : Prop :=
  ∀ sighting ∈ sightings, sighting.accepted = true

/- The event that was seen was refused for this reason. -/
def Receiver.Refuses
    (receiver : Receiver σ τ ε)
    (sighting : Sighting σ τ)
    (reason : ε) : Prop :=
  match sighting.event with
  | .value event =>
      receiver.value event sighting.before =
        .error reason sighting.after
  | .effect event =>
      receiver.effect event sighting.before =
        .error reason sighting.after

/- The last event was refused for this reason, and no other. -/
def Receiver.EndsRefusing
    (receiver : Receiver σ τ ε)
    (sightings : List (Sighting σ τ))
    (reason : ε) : Prop :=
  ∃ earlier last,
    sightings = earlier ++ [last] ∧
      AllAccepted earlier ∧
        last.accepted = false ∧ receiver.Refuses last reason

/- The event of this number is the first that was refused. -/
structure Transcript.FirstRefusal
    (transcript : Transcript σ τ ε)
    (number : Nat)
    (sighting : Sighting σ τ) : Prop where
  seen : transcript.sightings[number]? = some sighting
  refused : sighting.accepted = false
  earlier : AllAccepted (transcript.sightings.take number)

theorem AllAccepted.append
    {sightings : List (Sighting σ τ)}
    {sighting : Sighting σ τ}
    (hAll : AllAccepted sightings)
    (hAccepted : sighting.accepted = true) :
    AllAccepted (sightings ++ [sighting]) := by
  intro seen hSeen
  rcases List.mem_append.mp hSeen with hEarlier | hLast
  · exact hAll seen hEarlier
  · rw [List.mem_singleton.mp hLast]
    exact hAccepted

/- Where nothing was refused there is no first refusal. -/
theorem AllAccepted.not_firstRefusal
    {transcript : Transcript σ τ ε}
    (hAll : AllAccepted transcript.sightings)
    {number : Nat}
    {sighting : Sighting σ τ} :
    ¬ transcript.FirstRefusal number sighting := by
  intro hFirst
  have hAccepted :=
    hAll sighting (List.mem_of_getElem? hFirst.seen)
  rw [hFirst.refused] at hAccepted
  cases hAccepted

/- A last event that was refused is the first such. -/
theorem Receiver.EndsRefusing.firstRefusal
    {receiver : Receiver σ τ ε}
    {transcript : Transcript σ τ ε}
    {reason : ε}
    (hEnds :
      receiver.EndsRefusing transcript.sightings reason) :
    ∃ sighting,
      transcript.FirstRefusal
          (transcript.sightings.length - 1) sighting ∧
        receiver.Refuses sighting reason := by
  obtain ⟨earlier, last, hSightings, hAll, hLast, hReason⟩ :=
    hEnds
  refine ⟨last, ⟨?_, hLast, ?_⟩, hReason⟩
  · simp [hSightings]
  · simpa [hSightings] using hAll

/- There is at most one first refusal. -/
theorem Transcript.FirstRefusal.unique
    {transcript : Transcript σ τ ε}
    {number number' : Nat}
    {sighting sighting' : Sighting σ τ}
    (hFirst : transcript.FirstRefusal number sighting)
    (hFirst' : transcript.FirstRefusal number' sighting') :
    number = number' ∧ sighting = sighting' := by
  have hNotLess :
      ∀ {low high : Nat} {seen seen' : Sighting σ τ},
        transcript.FirstRefusal low seen →
          transcript.FirstRefusal high seen' →
            ¬ low < high := by
    intro low high seen seen' hLow hHigh hLess
    have hTaken :
        (transcript.sightings.take high)[low]? =
          some seen := by
      rw [List.getElem?_take_of_lt hLess]
      exact hLow.seen
    have hAccepted :=
      hHigh.earlier seen (List.mem_of_getElem? hTaken)
    rw [hLow.refused] at hAccepted
    cases hAccepted
  have hLeft := hNotLess hFirst hFirst'
  have hRight := hNotLess hFirst' hFirst
  have hNumber : number = number' := by omega
  subst hNumber
  have hSome := hFirst.seen
  rw [hFirst'.seen] at hSome
  exact ⟨rfl, (Option.some.inj hSome).symm⟩

end OnePass

------------------------------------------------------------
-- A Receiver Beside A Recorder
------------------------------------------------------------

namespace OnePass

namespace Receiver

variable {σ ρ τ ε α α' : Type}

/- A receiver and a recorder that are given the same events. -/
def besideRecorder
    (receiver : Receiver σ Ty ε) :
    Parser.Bond
      (Watched σ (Sighting σ Ty)) Ty ε
      (Watched ρ (Sighting ρ Ty)) Ty ε where
  like := .exact
  Attribute _ _ := True
  Together left right :=
    AllAccepted left.records.toList ∧
      left.events = right.events
  Parted reason left reason' right :=
    reason' = none ∧
      receiver.EndsRefusing left.records.toList reason ∧
        left.events <+: right.events
  total _ := Parser.Resemblance.total_exact
  exists_attribute _ right := ⟨right, trivial⟩

section Acts

variable {receiver : Receiver σ Ty ε}
variable {event' : Event Ty}
variable {act' : EStateM ε ρ α'}
variable
  (hAccepts :
    ∀ state, ∃ answer after, act' state = .ok answer after)

include hAccepts

theorem remains_besideRecorder
    {reason : ε}
    {final : Watched σ (Sighting σ Ty)}
    {right : Watched ρ (Sighting ρ Ty)}
    (hParted :
      receiver.besideRecorder.Parted reason final none
        right) :
    receiver.besideRecorder.Remains reason final
      (watch (fun seen => [seen]) event' act' right) := by
  obtain ⟨-, hEnds, hPrefix⟩ := hParted
  obtain ⟨answer, after, hAct⟩ := hAccepts right.state
  rw [watch_of_ok hAct]
  refine ⟨rfl, hEnds, ?_⟩
  apply hPrefix.trans
  simp [Watched.events]

theorem meets_besideRecorder
    {Answer : α → α' → Prop}
    (hAnswer : ∀ answer answer', Answer answer answer')
    {event : Event Ty}
    {act : EStateM ε σ α}
    (hRefuses :
      ∀ {before reason after},
        act before = .error reason after →
          receiver.Refuses ⟨event, before, after, false⟩
            reason)
    (hEvents : event.erase = event'.erase)
    {left : Watched σ (Sighting σ Ty)}
    {right : Watched ρ (Sighting ρ Ty)}
    (hTogether :
      receiver.besideRecorder.Together left right) :
    receiver.besideRecorder.Meets Answer
      (watch (fun seen => [seen]) event act left)
      (watch (fun seen => [seen]) event' act' right) := by
  obtain ⟨hAll, hSame⟩ := hTogether
  have hSame' :
      left.records.toList.map (·.event.erase) =
        right.records.toList.map (·.event.erase) :=
    hSame
  obtain ⟨answer', after', hRight⟩ := hAccepts right.state
  rw [watch_of_ok hRight]
  cases hLeft : act left.state with
  | ok answer after =>
      rw [watch_of_ok hLeft]
      refine ⟨hAnswer _ _, ?_, ?_⟩
      · rw [Array.toList_appendList]
        exact hAll.append rfl
      · simp [Watched.events, hSame', hEvents]
  | error reason after =>
      rw [watch_of_error hLeft]
      refine ⟨rfl, ?_, ?_⟩
      · rw [Array.toList_appendList]
        exact
          ⟨left.records.toList, _, rfl, hAll, rfl,
            hRefuses hLeft⟩
      · simp [Watched.events, hSame', hEvents]

end Acts

theorem recorded_value
    (receiver : Receiver σ τ ε)
    (event : ValueEvent τ) :
    receiver.recorded.value event =
      watch (fun seen => [seen]) (.value event)
        (receiver.value event) :=
  rfl

theorem recorded_effect
    (receiver : Receiver σ τ ε)
    (event : EffectEvent τ) :
    receiver.recorded.effect event =
      watch (fun seen => [seen]) (.effect event)
        (receiver.effect event) :=
  rfl

theorem keptBy_besideRecorder
    (receiver : Receiver σ Ty ε)
    (recorder : Recorder ρ Ty) :
    receiver.besideRecorder.KeptBy receiver.recorded
      (recorder.receiver ε).recorded where
  value {event event' left right} hEvents hTogether := by
    have hErase : event.erase = event'.erase :=
      hEvents.map_eq fun _ _ _ => rfl
    rw [recorded_value, recorded_value]
    apply meets_besideRecorder
    · intro state
      exact ⟨_, _, rfl⟩
    · intro answer answer'
      trivial
    · intro before reason after hError
      exact hError
    · rw [Event.erase, Event.erase, hErase]
    · exact hTogether
  effect {event event' left right} hEvents hTogether := by
    have hErase : event.erase = event'.erase :=
      hEvents.map_eq fun _ _ _ => rfl
    rw [recorded_effect, recorded_effect]
    apply meets_besideRecorder
    · intro state
      exact ⟨_, _, rfl⟩
    · intro answer answer'
      rfl
    · intro before reason after hError
      exact hError
    · rw [Event.erase, Event.erase, hErase]
    · exact hTogether
  valueAlone event' hParted := by
    rw [recorded_value]
    apply remains_besideRecorder
    · intro state
      exact ⟨_, _, rfl⟩
    · exact hParted
  effectAlone event' hParted := by
    rw [recorded_effect]
    apply remains_besideRecorder
    · intro state
      exact ⟨_, _, rfl⟩
    · exact hParted

end Receiver

/-
  A run beside the run of a recorder: either nothing is
  refused and nothing is different, or the run ends with the
  first event that is refused.
-/
theorem transcript_follows_recorder
    {σ ρ ε : Type}
    (receiver : Receiver σ Ty ε)
    (recorder : Recorder ρ Ty)
    (tokens : List Token)
    (start : σ)
    (start' : ρ) :
    let run := receiver.transcript tokens start
    let full :=
      (recorder.receiver ε).transcript tokens start'
    AllAccepted run.sightings ∧
        run.events = full.events ∧
          run.result = full.result ∧
            refusal? run.result = none ∨
      ∃ reason,
        receiver.EndsRefusing run.sightings reason ∧
          run.events <+: full.events ∧
            run.result = .error (.refused reason) := by
  have hSettles :
      receiver.besideRecorder.Settles tokens tokens
        (parse receiver.recorded tokens ⟨start, #[]⟩)
        (parse (recorder.receiver ε).recorded tokens
          ⟨start', #[]⟩) := by
    apply
      settles_parse
        (receiver.keptBy_besideRecorder recorder) rfl
    refine ⟨?_, rfl⟩
    intro sighting hSighting
    cases hSighting
  unfold Receiver.transcript Transcript.events
  generalize parse receiver.recorded tokens ⟨start, #[]⟩ =
    left at hSettles ⊢
  generalize
    parse (recorder.receiver ε).recorded tokens
        ⟨start', #[]⟩ =
      right at hSettles ⊢
  cases hSettles with
  | accepted hTogether =>
      exact .inl ⟨hTogether.1, hTogether.2, rfl, rfl⟩
  | stuck obstacle hRest hTogether =>
      cases hRest
      exact .inl ⟨hTogether.1, hTogether.2, rfl, rfl⟩
  | refused hParted =>
      exact .inr ⟨_, hParted.2.1, hParted.2.2, rfl⟩

end OnePass

------------------------------------------------------------
-- Independence Of Answers
------------------------------------------------------------

namespace OnePass

variable {ρ : Type}

/- Why an analysis stops, beside the run of a recorder. -/
theorem analyze_stops
    (recorder : Recorder ρ Ty)
    {tokens : List Token}
    (start' : ρ)
    {stop : Analysis.Stop}
    (hStop : analyze tokens = .error stop) :
    let run := Analysis.receiver.transcript tokens .initial
    let full :=
      (recorder.receiver Analysis.Stop).transcript tokens
        start'
    (∃ misfit,
        full.result = .error (.misfit misfit) ∧
          stop = .ofFailure (.misfit misfit)) ∨
      stop.IsVerdict ∧
        ∃ number sighting,
          run.FirstRefusal number sighting ∧
            Analysis.receiver.Refuses sighting stop := by
  intro run full
  have hResult :
      run.result =
        (parse Analysis.receiver tokens .initial).1 :=
    transcript_result Analysis.receiver tokens .initial
  have hFailed :
      ∃ failure,
        (parse Analysis.receiver tokens .initial).1 =
            .error failure ∧
          stop = .ofFailure failure := by
    unfold analyze at hStop
    split at hStop
    · cases hStop
    · next failure final hParse =>
        cases hStop
        rw [hParse]
        exact ⟨failure, rfl, rfl⟩
  obtain ⟨failure, hParse, rfl⟩ := hFailed
  obtain ⟨-, -, hSame, hNone⟩ |
      ⟨reason, hEnds, -, hRefused⟩ :=
    transcript_follows_recorder Analysis.receiver recorder
      tokens .initial start'
  · cases failure with
    | misfit misfit =>
        have hFull :
            full.result = .error (.misfit misfit) := by
          rw [← hParse, ← hResult, hSame]
        exact .inl ⟨misfit, hFull, rfl⟩
    | refused reason =>
        change refusal? run.result = none at hNone
        rw [hResult, hParse] at hNone
        cases hNone
  · have hReason : failure = .refused reason := by
      rw [hParse, hRefused] at hResult
      cases hResult
      rfl
    subst hReason
    obtain ⟨last, hLast, hRefuses⟩ := hEnds.firstRefusal
    exact
      .inr ⟨isVerdict_of_parse hParse, _, last, hLast, hRefuses⟩

/-
  Whatever a receiver answers, it is given the events that a
  recorder is given, up to the first that it refuses, and
  then the run ends for the reason given. So an analysis
  finds a program malformed only where a recorder is stuck.
-/
theorem transcript_independent_of_answers
    (recorder : Recorder ρ Ty)
    (tokens : List Token)
    (start' : ρ) :
    (∀ {σ ε : Type} (receiver : Receiver σ Ty ε) (start : σ),
      let run := receiver.transcript tokens start
      let full :=
        (recorder.receiver ε).transcript tokens start'
      run.result = (parse receiver tokens start).1 ∧
        (AllAccepted run.sightings →
          run.events = full.events ∧
            run.result = full.result) ∧
        ∀ number sighting,
          run.FirstRefusal number sighting →
            run.events = full.events.take (number + 1) ∧
              ∃ reason,
                receiver.Refuses sighting reason ∧
                  run.result = .error (.refused reason)) ∧
      ∀ stop,
        analyze tokens = .error stop →
          let run :=
            Analysis.receiver.transcript tokens .initial
          let full :=
            (recorder.receiver Analysis.Stop).transcript
              tokens start'
          ((∃ line span,
              stop =
                .finding (.located .malformed line span)) →
            ∃ misfit,
              full.result = .error (.misfit misfit) ∧
                stop = .ofFailure (.misfit misfit)) ∧
          ((¬ ∃ line span,
              stop =
                .finding (.located .malformed line span)) →
            ∃ number sighting,
              run.FirstRefusal number sighting ∧
                Analysis.receiver.Refuses sighting stop) := by
  constructor
  · intro σ ε receiver start run full
    refine ⟨transcript_result receiver tokens start, ?_⟩
    obtain ⟨hAll, hEvents, hResult, -⟩ |
        ⟨reason, hEnds, hPrefix, hResult⟩ :=
      transcript_follows_recorder receiver recorder tokens
        start start'
    · refine ⟨fun _ => ⟨hEvents, hResult⟩, ?_⟩
      intro number sighting hFirst
      exact absurd hFirst hAll.not_firstRefusal
    · obtain ⟨last, hLast, hReason⟩ := hEnds.firstRefusal
      constructor
      · intro hAll
        exact absurd hLast hAll.not_firstRefusal
      · intro number sighting hFirst
        obtain ⟨hNumber, hSighting⟩ := hFirst.unique hLast
        subst hSighting
        refine ⟨?_, reason, hReason, hResult⟩
        have hBound : number < run.sightings.length :=
          (List.getElem?_eq_some_iff.mp hFirst.seen).1
        have hLength : run.events.length = number + 1 := by
          change (run.sightings.map _).length = _
          rw [List.length_map]
          change number = run.sightings.length - 1 at hNumber
          omega
        rw [← hLength]
        exact List.prefix_iff_eq_take.mp hPrefix
  · intro stop hStop run full
    obtain ⟨misfit, hFull, hMisfit⟩ | ⟨hVerdict, hRefusal⟩ :=
      analyze_stops recorder start' hStop
    · refine ⟨fun _ => ⟨misfit, hFull, hMisfit⟩, ?_⟩
      intro hNot
      exact absurd ⟨misfit.span.line, misfit.span, hMisfit⟩ hNot
    · refine ⟨?_, fun _ => hRefusal⟩
      rintro ⟨line, span, rfl⟩
      cases hVerdict

end OnePass
