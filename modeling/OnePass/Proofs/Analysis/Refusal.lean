import OnePass.Proofs.Analysis.Formals
import OnePass.Proofs.Parser.Independence
import OnePass.Proofs.Parser.Protocol

/-
  Why the analysis refuses an event.

  Every finding is about the event at hand. It quotes no
  text but one of that event, and it points at the place
  whose line it names, unless it is about the target of an
  assignment. This is said here once, for all checks of all
  events.

  Main declarations:
    * `Event.texts`, `Cause.quoted?`
    * `Analysis.Refusal`
    * `Analysis.refusals_valueType`
    * `Analysis.refusals_step`
    * `Analysis.exists_refusal_of_refused`
-/

------------------------------------------------------------
-- Texts In Events And Findings
------------------------------------------------------------

namespace OnePass

section Texts

variable {τ : Type}

/- The names and numbers in an event. -/
@[simp] def ValueEvent.texts : ValueEvent τ → List String
| call callee _ _ => [callee.name]
| identifier name => [name.name]
| numberLiteral digits _ => [digits]
| byteLiteral digits _ => [digits]
| stringLiteral _ | boolLiteral _ _ | cast _ _ _
| numeric _ _ _ _ | relational _ _ _ _ | logical _ _ _ _
| negation _ _ => []

/- The names in an event. -/
@[simp] def EffectEvent.texts : EffectEvent τ → List String
| functionHeader _ name => [name.name]
| functionSignature _ name formals =>
    name.name :: formals.map (·.name.name)
| declarationStart _ _ name => [name.name]
| declaration _ _ name _ _ => [name.name]
| assignment name _ _ => [name.name]
| functionEnd _ | openScope | closeScope | openLoop
| closeLoop | condition _ | returnVoid _ | returnValue _ _
| breakStatement _ | continueStatement _ | programEnd => []

/- The names and numbers in an event. -/
@[simp] def Event.texts : Event τ → List String
| value event => event.texts
| effect event => event.texts

end Texts

/- The text that is quoted to say what is wrong. -/
@[simp] def Cause.quoted? : Cause → Option String
| undefinedVariable name => some name
| undefinedFunction name => some name
| redefinition name => some name
| prototypeMismatch name _ => some name
| constReassignment name => some name
| constWithoutInitializer name => some name
| byteOutOfRange literal => some literal
| lexical | malformed | typeMismatch | unexpectedBreak
| unexpectedContinue => none

/- The text that is quoted in a finding. -/
@[simp] def Diagnostic.quoted? : Diagnostic → Option String
| located cause _ _ => cause.quoted?
| missingMain => none

end OnePass

------------------------------------------------------------
-- Checks
------------------------------------------------------------

namespace OnePass

namespace Analysis

/-
  Why an event is refused. A finding points at the place
  whose line it names, and quotes a text of the event. If
  the target of an assignment is at fault, the line is that
  of the assignment.
-/
inductive Refusal (event : Event Ty) : Stop → Prop where
  | pointAt
      {cause : Cause}
      {span : Span}
      (hQuoted :
        ∀ text ∈ cause.quoted?, text ∈ event.texts) :
      Refusal event (.finding (.pointAt cause span))
  | assignment
      {name : Identifier}
      {value : Typed Ty}
      {statement : Span}
      {cause : Cause}
      (hEvent :
        event = .effect (.assignment name value statement))
      (hCause :
        cause = .undefinedVariable name.name ∨
          cause = .constReassignment name.name) :
      Refusal event
        (.finding
          (.located cause statement.line name.span))
  | missingMain : Refusal event (.finding .missingMain)
  | fault
      {fault : Fault} :
      Refusal event (.fault fault)

/- Whatever is refused is refused as said. -/
def Refusals
    {α : Type}
    (event : Event Ty)
    (outcome : Except Stop α) : Prop :=
  ∀ stop, outcome = .error stop → Refusal event stop

section Checks

variable {α β : Type}
variable {event : Event Ty}

theorem refusals_ok
    (answer : α) :
    Refusals event (.ok answer) := by
  intro stop hError
  cases hError

theorem refusals_error
    {stop : Stop}
    (hStop : Refusal event stop) :
    Refusals event (.error stop : Except Stop α) := by
  rintro _ ⟨rfl⟩
  exact hStop

theorem refusals_reject
    {cause : Cause}
    (span : Span)
    (hQuoted :
      ∀ text ∈ cause.quoted?, text ∈ event.texts) :
    Refusals event (reject cause span : Except Stop α) :=
  refusals_error (.pointAt hQuoted)

theorem refusals_guarded
    (outcome : Except Fault α) :
    Refusals event (guarded outcome) := by
  cases outcome with
  | ok answer => exact refusals_ok answer
  | error fault => exact refusals_error .fault

theorem Refusals.bind
    {first : Except Stop α}
    {next : α → Except Stop β}
    (hFirst : Refusals event first)
    (hNext : ∀ answer, Refusals event (next answer)) :
    Refusals event (first >>= next) := by
  cases first with
  | ok answer => exact hNext answer
  | error stop => exact refusals_error (hFirst stop rfl)

/- A check that is passed leaves the state as it is. -/
theorem Refusals.checked
    {check : Except Stop Unit}
    (hCheck : Refusals event check)
    (state : State) :
    Refusals event
      (do
        check
        return state) :=
  hCheck.bind fun _ => refusals_ok state

theorem refusals_check
    {passes : Prop}
    [Decidable passes]
    {answer : α}
    {cause : Cause}
    {span : Span}
    (hQuoted :
      ∀ text ∈ cause.quoted?, text ∈ event.texts) :
    Refusals event
      (if passes then .ok answer
        else reject cause span : Except Stop α) := by
  split
  · exact refusals_ok answer
  · exact refusals_reject span hQuoted

theorem refusals_requireCast
    (source target : Ty)
    (span : Span) :
    Refusals event (requireCast source target span) :=
  refusals_check (by simp)

theorem refusals_requireNumeral
    (ty : Ty)
    (span : Span) :
    Refusals event (requireNumeral ty span) :=
  refusals_check (by simp)

end Checks

/- What is wrong with an expression. -/
theorem refusals_valueType
    (symbols : Symbols)
    (event : ValueEvent Ty) :
    Refusals (.value event) (valueType symbols event) := by
  cases event with
  | call callee arguments span =>
      simp only [valueType, callType]
      cases symbols.signature? callee.name with
      | none => exact refusals_reject span (by simp)
      | some signature => exact refusals_check (by simp)
  | identifier name =>
      simp only [valueType, Symbols.valueType]
      cases symbols.lookup name.name with
      | none => exact refusals_reject name.span (by simp)
      | some binding => exact refusals_ok _
  | numberLiteral digits span => exact refusals_ok _
  | byteLiteral digits span => exact refusals_check (by simp)
  | stringLiteral span => exact refusals_ok _
  | boolLiteral value span => exact refusals_ok _
  | cast target operand span => exact refusals_check (by simp)
  | numeric left operator right span =>
      apply (refusals_requireNumeral _ _).bind
      intro _
      apply (refusals_requireNumeral _ _).bind
      intro _
      exact refusals_guarded _
  | relational left operator right span =>
      apply (refusals_requireNumeral _ _).bind
      intro _
      apply (refusals_requireNumeral _ _).bind
      intro _
      exact refusals_ok _
  | logical left operator right span =>
      apply (refusals_requireCast _ _ _).bind
      intro _
      apply (refusals_requireCast _ _ _).bind
      intro _
      exact refusals_ok _
  | negation operand span =>
      apply (refusals_requireCast _ _ _).bind
      intro _
      exact refusals_ok _

end Analysis

end OnePass

------------------------------------------------------------
-- Statements And Declarations
------------------------------------------------------------

namespace OnePass

namespace Analysis

section Statements

variable (state : State)

/- The name of a formal is quoted, if any. -/
theorem refusals_declareFunction
    (returns : Ty)
    (name : Identifier)
    (formals : List Formal) :
    Refusals
      (.effect (.functionSignature returns name formals))
      (declareFunction state returns name formals) := by
  unfold declareFunction
  dsimp only
  split
  · next clash hClash =>
      rcases firstConflict?_eq_some_iff.mp hClash with
        ⟨before, formal, after, rfl, -, -, rfl⟩
      exact refusals_reject formal.name.span (by simp)
  · apply (refusals_guarded _).bind
    intro known
    apply (refusals_guarded _).bind
    intro inside
    exact refusals_ok _

theorem refusals_declare
    (isConst : Bool)
    (ty : Ty)
    (name : Identifier)
    (initializer : Option (Typed Ty))
    (span : Span) :
    Refusals
      (.effect
        (.declaration isConst ty name initializer span))
      (declare state isConst ty name initializer span) := by
  apply Refusals.bind
  · unfold requireInitializer
    split
    · exact refusals_requireCast _ _ _
    · split
      · exact refusals_reject span (by simp)
      · exact refusals_ok ()
  · intro _
    apply (refusals_guarded _).bind
    intro symbols
    exact refusals_ok _

theorem refusals_assign
    (name : Identifier)
    (value : Typed Ty)
    (span : Span) :
    Refusals (.effect (.assignment name value span))
      (assign state name value span) := by
  unfold assign
  split
  · exact refusals_error (.assignment rfl (.inl rfl))
  · split
    · exact refusals_error (.assignment rfl (.inr rfl))
    · exact refusals_requireCast _ _ _

section Quoteless

variable {event : Event Ty}

theorem refusals_returnType
    (span : Span) :
    Refusals event (returnType state span) := by
  unfold returnType
  split
  · exact refusals_ok _
  · exact refusals_reject span (by simp)

theorem refusals_returnVoid
    (span : Span) :
    Refusals event (returnVoid state span) :=
  (refusals_returnType state span).bind fun _ =>
    refusals_check (by simp)

theorem refusals_returnValue
    (value : Typed Ty)
    (span : Span) :
    Refusals event (returnValue state value span) := by
  apply (refusals_returnType state span).bind
  intro returns
  split
  · exact refusals_reject span (by simp)
  · exact refusals_requireCast _ _ _

theorem refusals_requireLoop
    {cause : Cause}
    (hQuoted : cause.quoted? = none)
    (span : Span) :
    Refusals event (requireLoop state cause span) := by
  unfold requireLoop
  split
  · apply refusals_reject
    rw [hQuoted]
    simp
  · exact refusals_ok ()

end Quoteless

/- What is wrong with a statement or a declaration. -/
theorem refusals_step
    (event : EffectEvent Ty) :
    Refusals (.effect event) (step state event) := by
  cases event with
  | functionHeader returns name =>
      apply Refusals.checked
      unfold requireNewFunction
      split
      · exact refusals_reject name.span (by simp)
      · exact refusals_ok ()
  | functionSignature returns name formals =>
      exact refusals_declareFunction state returns name formals
  | functionEnd span =>
      exact (refusals_guarded _).bind fun _ => refusals_ok _
  | openScope => exact refusals_ok _
  | closeScope =>
      exact (refusals_guarded _).bind fun _ => refusals_ok _
  | openLoop => exact refusals_ok _
  | closeLoop =>
      simp only [step, closeLoop]
      split
      · exact refusals_error .fault
      · exact refusals_ok _
  | condition value =>
      exact (refusals_requireCast _ _ _).checked state
  | declarationStart isConst ty name =>
      have hFree :
          Refusals
            (.effect (.declarationStart isConst ty name))
            (requireFree state name) :=
        refusals_check (by simp)
      exact hFree.checked state
  | declaration isConst ty name initializer span =>
      exact
        refusals_declare state isConst ty name initializer span
  | assignment name value span =>
      exact (refusals_assign state name value span).checked state
  | returnVoid span =>
      exact (refusals_returnVoid state span).checked state
  | returnValue value span =>
      exact
        (refusals_returnValue state value span).checked state
  | breakStatement span =>
      exact (refusals_requireLoop state rfl span).checked state
  | continueStatement span =>
      exact (refusals_requireLoop state rfl span).checked state
  | programEnd =>
      apply Refusals.checked
      unfold requireEntryPoint
      dsimp only
      split
      · exact refusals_ok ()
      · exact refusals_error .missingMain

end Statements

end Analysis

end OnePass

------------------------------------------------------------
-- Runs
------------------------------------------------------------

namespace OnePass

namespace Analysis

open OnePass.Parser (Stage Course)

/- The receiver refuses an expression that has no type. -/
theorem valueType_of_refused
    {event : ValueEvent Ty}
    {state after : State}
    {stop : Stop}
    (hError : receiver.value event state = .error stop after) :
    valueType state.symbols event = .error stop := by
  unfold receiver at hError
  dsimp only at hError
  split at hError
  · cases hError
  · next hType =>
      cases hError
      exact hType

/- The receiver refuses an event that makes no step. -/
theorem step_of_refused
    {event : EffectEvent Ty}
    {state after : State}
    {stop : Stop}
    (hError :
      receiver.effect event state = .error stop after) :
    step state event = .error stop := by
  unfold receiver at hError
  dsimp only at hError
  split at hError
  · cases hError
  · next hStep =>
      cases hError
      exact hStep

/- What is refused is said of the last event that was seen. -/
def refusalCourse :
    Course (Watched State (Sighting State Ty)) Stop where
  At _ _ := True
  Refused stop watched :=
    ∃ sighting,
      watched.records.toList.getLast? = some sighting ∧
        Refusal sighting.event stop

theorem refusalCourse_leads
    {α : Type}
    {stage : Stage}
    {event : Event Ty}
    {act : EStateM Stop State α}
    {watched : Watched State (Sighting State Ty)}
    (hError :
      ∀ {stop after},
        act watched.state = .error stop after →
          Refusal event stop) :
    refusalCourse.Leads stage
      (Receiver.watch (fun seen => [seen]) event act
        watched) := by
  cases hAct : act watched.state with
  | ok answer after =>
      rw [Receiver.watch_of_ok hAct]
      trivial
  | error stop after =>
      rw [Receiver.watch_of_error hAct]
      refine
        ⟨⟨event, watched.state, after, false⟩, ?_,
          hError hAct⟩
      rw [Array.toList_appendList]
      exact List.getLast?_concat

theorem keptBy_refusalCourse :
    refusalCourse.KeptBy receiver.recorded where
  value _ _ _ :=
    refusalCourse_leads fun hError =>
      refusals_valueType _ _ _ (valueType_of_refused hError)
  effect _ _ :=
    refusalCourse_leads fun hError =>
      refusals_step _ _ _ (step_of_refused hError)
  programEnd _ :=
    refusalCourse_leads fun hError =>
      refusals_step _ _ _ (step_of_refused hError)

/- A refusal is about the last event of the transcript. -/
theorem exists_refusal_of_refused
    {tokens : List Token}
    {stop : Stop}
    (hRefused :
      (parse receiver tokens .initial).1 =
        .error (.refused stop)) :
    ∃ sighting,
      (receiver.transcript tokens
          .initial).sightings.getLast? =
          some sighting ∧
        Refusal sighting.event stop := by
  have hStart : refusalCourse.At .outside ⟨.initial, #[]⟩ :=
    trivial
  have hConcludes :=
    concludes_parse keptBy_refusalCourse tokens hStart
  rw [← transcript_result] at hRefused
  unfold Receiver.transcript at hRefused ⊢
  generalize
    parse receiver.recorded tokens ⟨.initial, #[]⟩ = run
    at hConcludes hRefused ⊢
  rcases run with ⟨result, final⟩
  cases hRefused
  exact hConcludes

end Analysis

end OnePass
