import OnePass.Analysis.Run
import OnePass.Proofs.Parser.Protocol
import OnePass.Proofs.Symbols.Variables

/-
  No run of the parser misuses the analysis.

  At every stage of a run, as many scopes and loops are open
  as the stage says, the name of a function whose header was
  accepted is new, and the name of a variable is free until
  it is declared. So no operation is used when it must not
  be, and every event is accepted or leads to a finding
  about what the program means.

  Main declarations:
    * `Analysis.InStep`
    * `Analysis.judged_valueType`
    * `Analysis.lands_step`
    * `Analysis.keptBy_receiver`
    * `parse_refuses_no_fault`
-/

------------------------------------------------------------
-- Outcomes Of Checks
------------------------------------------------------------

namespace OnePass

/- The cause is about the meaning of a program, not its form. -/
def Cause.isSemantic : Cause → Bool
| lexical | malformed => false
| _ => true

namespace Analysis

/- A finding about the meaning of a program. -/
def Stop.IsVerdict : Stop → Prop
| .finding (.located cause _ _) => cause.isSemantic = true
| .finding .missingMain => True
| .fault _ => False

/- A finding about the meaning of a place in a program. -/
def Stop.IsPlaced : Stop → Prop
| .finding (.located cause _ _) => cause.isSemantic = true
| .finding .missingMain => False
| .fault _ => False

theorem Stop.IsPlaced.isVerdict
    {stop : Stop}
    (hPlaced : stop.IsPlaced) :
    stop.IsVerdict := by
  unfold IsPlaced at hPlaced
  split at hPlaced
  · exact hPlaced
  · cases hPlaced
  · cases hPlaced

section Judged

variable {α β : Type}

/- The outcome is an answer or a verdict about a place. -/
def Judged (outcome : Except Stop α) : Prop :=
  ∀ stop, outcome = .error stop → stop.IsPlaced

theorem judged_ok
    (answer : α) :
    Judged (.ok answer) := by
  intro stop hStop
  cases hStop

theorem judged_error
    {stop : Stop}
    (hPlaced : stop.IsPlaced) :
    Judged (.error stop : Except Stop α) := by
  intro other hStop
  cases hStop
  exact hPlaced

theorem judged_reject
    {cause : Cause}
    (hCause : cause.isSemantic = true)
    (span : Span) :
    Judged (reject cause span : Except Stop α) :=
  judged_error hCause

theorem Judged.bind
    {first : Except Stop α}
    {next : α → Except Stop β}
    (hFirst : Judged first)
    (hNext :
      ∀ answer, first = .ok answer →
        Judged (next answer)) :
    Judged (first >>= next) := by
  cases first with
  | ok answer => exact hNext answer rfl
  | error stop => exact judged_error (hFirst stop rfl)

theorem judged_requireCast
    (source target : Ty)
    (span : Span) :
    Judged (requireCast source target span) := by
  unfold requireCast
  split
  · exact judged_ok _
  · exact judged_reject rfl _

theorem judged_requireNumeral
    (ty : Ty)
    (span : Span) :
    Judged (requireNumeral ty span) := by
  unfold requireNumeral
  split
  · exact judged_ok _
  · exact judged_reject rfl _

/- Only numerals are found to be numerals. -/
theorem isNumeral_of_requireNumeral
    {ty : Ty}
    {span : Span}
    {answer : Unit}
    (hOk : requireNumeral ty span = .ok answer) :
    ty.isNumeral = true := by
  unfold requireNumeral at hOk
  split at hOk
  · assumption
  · cases hOk

/- Two numerals have a common wider type. -/
theorem judged_widen
    {left right : Ty}
    (hLeft : left.isNumeral = true)
    (hRight : right.isNumeral = true) :
    Judged (guarded (left.widen right)) := by
  unfold Ty.widen
  rw [hLeft, hRight]
  exact judged_ok _

end Judged

/- The type of an expression is found, or a finding is made. -/
theorem judged_valueType
    (symbols : Symbols)
    (event : ValueEvent Ty) :
    Judged (valueType symbols event) := by
  cases event with
  | call callee arguments span =>
      rw [valueType, callType]
      split
      · exact judged_reject rfl _
      · split
        · exact judged_ok _
        · exact judged_reject rfl _
  | identifier name =>
      rw [valueType, Symbols.valueType]
      split
      · exact judged_ok _
      · exact judged_error rfl
  | numberLiteral digits span => exact judged_ok _
  | byteLiteral digits span =>
      rw [valueType]
      split
      · exact judged_ok _
      · exact judged_reject rfl _
  | stringLiteral span => exact judged_ok _
  | boolLiteral value span => exact judged_ok _
  | cast target operand span =>
      rw [valueType]
      split
      · exact judged_ok _
      · exact judged_reject rfl _
  | numeric left operator right span =>
      rw [valueType]
      apply (judged_requireNumeral _ _).bind
      intro _ hLeft
      apply (judged_requireNumeral _ _).bind
      intro _ hRight
      exact
        judged_widen (isNumeral_of_requireNumeral hLeft)
          (isNumeral_of_requireNumeral hRight)
  | relational left operator right span =>
      rw [valueType]
      apply (judged_requireNumeral _ _).bind
      intro _ _
      apply (judged_requireNumeral _ _).bind
      intro _ _
      exact judged_ok _
  | logical left operator right span =>
      rw [valueType]
      apply (judged_requireCast _ _ _).bind
      intro _ _
      apply (judged_requireCast _ _ _).bind
      intro _ _
      exact judged_ok _
  | negation operand span =>
      rw [valueType]
      apply (judged_requireCast _ _ _).bind
      intro _ _
      exact judged_ok _

section Checks

variable (state : State)

theorem judged_requireNewFunction
    (name : Identifier) :
    Judged (requireNewFunction state name) := by
  unfold requireNewFunction
  split
  · exact judged_reject rfl _
  · exact judged_ok _

theorem judged_requireFree
    (name : Identifier) :
    Judged (requireFree state name) := by
  unfold requireFree
  split
  · exact judged_ok _
  · exact judged_reject rfl _

theorem judged_requireInitializer
    (isConst : Bool)
    (ty : Ty)
    (name : Identifier)
    (initializer : Option (Typed Ty))
    (span : Span) :
    Judged
      (requireInitializer isConst ty name initializer
        span) := by
  unfold requireInitializer
  split
  · exact judged_requireCast _ _ _
  · split
    · exact judged_reject rfl _
    · exact judged_ok _

theorem judged_assign
    (name : Identifier)
    (value : Typed Ty)
    (span : Span) :
    Judged (assign state name value span) := by
  unfold assign
  split
  · exact judged_error rfl
  · split
    · exact judged_error rfl
    · exact judged_requireCast _ _ _

theorem judged_returnType
    (span : Span) :
    Judged (returnType state span) := by
  unfold returnType
  split
  · exact judged_ok _
  · exact judged_reject rfl _

theorem judged_requireLoop
    {cause : Cause}
    (hCause : cause.isSemantic = true)
    (span : Span) :
    Judged (requireLoop state cause span) := by
  unfold requireLoop
  split
  · exact judged_reject hCause _
  · exact judged_ok _

theorem judged_returnVoid
    (span : Span) :
    Judged (returnVoid state span) := by
  apply (judged_returnType state span).bind
  intro returns _
  split
  · exact judged_ok _
  · exact judged_reject rfl _

theorem judged_returnValue
    (value : Typed Ty)
    (span : Span) :
    Judged (returnValue state value span) := by
  apply (judged_returnType state span).bind
  intro returns _
  split
  · exact judged_reject rfl _
  · exact judged_requireCast _ _ _

end Checks

end Analysis

end OnePass

------------------------------------------------------------
-- States In Step With The Parser
------------------------------------------------------------

namespace OnePass

namespace Parser

namespace Stage

/- Number of scopes that are open at a stage. -/
def scopes : Stage → Nat
| body frames | declaring _ _ _ frames | decided frames
| looping frames | looped frames => frames.length + 1
| outside | headed _ _ | finished => 0

/- Number of loops that are open at a stage. -/
def loops : Stage → Nat
| body frames | declaring _ _ _ frames | decided frames =>
    frames.count .loop
| looping frames | looped frames => frames.count .loop + 1
| outside | headed _ _ | finished => 0

end Stage

end Parser

namespace Analysis

open OnePass.Parser (Stage Frame)

/- What was checked and has not been used yet. -/
def Checked : Stage → State → Prop
| .headed _ name, state =>
    state.symbols.isFunction name.name = false
| .declaring _ _ name _, state =>
    state.symbols.isFree name.name = true
| _, _ => True

/- The state is as the stage of the run says. -/
structure InStep
    (stage : Stage)
    (state : State) : Prop where
  depth : state.depth = stage.scopes
  loops : state.loops = stage.loops
  checked : Checked stage state

/- The outcome is a state in step, or a finding. -/
def Lands
    (stage : Stage)
    (outcome : Except Stop State) : Prop :=
  Judged outcome ∧
    ∀ next, outcome = .ok next → InStep stage next

section Landing

variable {stage : Stage}
variable {state : State}

theorem lands_ok
    (hState : InStep stage state) :
    Lands stage (.ok state) := by
  refine ⟨judged_ok _, ?_⟩
  rintro _ ⟨rfl⟩
  exact hState

theorem lands_reject
    {cause : Cause}
    (hCause : cause.isSemantic = true)
    (span : Span) :
    Lands stage (reject cause span) := by
  refine ⟨judged_reject hCause _, ?_⟩
  rintro _ ⟨⟩

/- A check leaves the state as it is. -/
theorem lands_check
    {check : Except Stop Unit}
    (hCheck : Judged check)
    (hState : check = .ok () → InStep stage state) :
    Lands stage
      (do
        check
        return state) := by
  cases check with
  | ok answer => exact lands_ok (hState rfl)
  | error stop =>
      refine ⟨judged_error (hCheck stop rfl), ?_⟩
      rintro _ ⟨⟩

end Landing

section Steps

variable {state : State}
variable {frames : List Frame}

theorem lands_functionHeader
    {returns : Ty}
    {name : Identifier}
    (hState : InStep .outside state) :
    Lands (.headed returns name)
      (step state (.functionHeader returns name)) := by
  apply lands_check (judged_requireNewFunction state name)
  intro hNew
  refine ⟨hState.depth, hState.loops, ?_⟩
  unfold requireNewFunction at hNew
  split at hNew
  · cases hNew
  · next hNot =>
      simp only [Bool.or_eq_true, not_or] at hNot
      exact Bool.not_eq_true _ |>.mp hNot.1

theorem lands_functionSignature
    {returns : Ty}
    {name : Identifier}
    {formals : List Formal}
    (hState : InStep (.headed returns name) state) :
    Lands (.body [])
      (step state
        (.functionSignature returns name formals)) := by
  rw [step]
  by_cases hFormals : FormalsFit state.symbols name formals
  · rw [declareFunction_of_formalsFit hState.checked hFormals]
    apply lands_ok
    refine ⟨?_, ?_, trivial⟩
    · change (state.symbols.inside _ _).depth = _
      rw [Symbols.depth_inside]
      exact congrArg (· + 1) hState.depth
    · exact hState.loops
  · rcases declareFunction_of_not_formalsFit hFormals with
      ⟨formal, hReject⟩
    rw [hReject]
    exact lands_reject rfl _

/- Closing a scope where at least one is open. -/
theorem guarded_closeScope
    {scopes : Nat}
    (hDepth : state.depth = scopes + 1) :
    ∃ symbols : Symbols,
      guarded state.symbols.closeScope = .ok symbols ∧
        symbols.depth = scopes := by
  unfold Symbols.closeScope
  cases hBlocks : state.symbols.blocks with
  | nil =>
      change state.symbols.blocks.length = _ at hDepth
      rw [hBlocks] at hDepth
      cases hDepth
  | cons scope blocks =>
      refine ⟨_, rfl, ?_⟩
      change state.symbols.blocks.length = _ at hDepth
      rw [hBlocks] at hDepth
      exact Nat.succ.inj hDepth

theorem lands_functionEnd
    {span : Span}
    (hState : InStep (.body []) state) :
    Lands .outside (step state (.functionEnd span)) := by
  rcases guarded_closeScope hState.depth with
    ⟨symbols, hClose, hDepth⟩
  rw [step, closeFunction, hClose]
  apply lands_ok
  refine ⟨?_, ?_, trivial⟩
  · exact hDepth
  · exact hState.loops

/- A scope is opened, for a block, a branch or a loop body. -/
theorem lands_openScope
    {frame : Frame}
    (hDepth : state.depth = frames.length + 1)
    (hLoops :
      state.loops = (frame :: frames).count .loop) :
    Lands (.body (frame :: frames))
      (step state .openScope) := by
  rw [step]
  apply lands_ok
  refine ⟨?_, ?_, trivial⟩
  · exact congrArg (· + 1) hDepth
  · exact hLoops

/- The innermost scope is closed. -/
theorem lands_closeScope
    {stage : Stage}
    {frame : Frame}
    (hState : InStep (.body (frame :: frames)) state)
    (hDepth : stage.scopes = frames.length + 1)
    (hLoops : stage.loops = (frame :: frames).count .loop)
    (hChecked : ∀ after, Checked stage after) :
    Lands stage (step state .closeScope) := by
  rcases guarded_closeScope hState.depth with
    ⟨symbols, hClose, hClosed⟩
  rw [step, closeScope, hClose]
  apply lands_ok
  refine ⟨?_, ?_, hChecked _⟩
  · rw [hDepth]
    exact hClosed
  · rw [hLoops]
    exact hState.loops

theorem lands_closeLoop
    (hState : InStep (.looped frames) state) :
    Lands (.body frames) (step state .closeLoop) := by
  rw [step, closeLoop, hState.loops]
  apply lands_ok
  refine ⟨?_, ?_, trivial⟩
  · exact hState.depth
  · rfl

theorem lands_declarationStart
    {isConst : Bool}
    {ty : Ty}
    {name : Identifier}
    (hState : InStep (.body frames) state) :
    Lands (.declaring isConst ty name frames)
      (step state (.declarationStart isConst ty name)) := by
  apply lands_check (judged_requireFree state name)
  intro hFree
  refine ⟨hState.depth, hState.loops, ?_⟩
  unfold requireFree at hFree
  split at hFree
  · assumption
  · cases hFree

theorem lands_declaration
    {isConst : Bool}
    {ty : Ty}
    {name : Identifier}
    {initializer : Option (Typed Ty)}
    {span : Span}
    (hState :
      InStep (.declaring isConst ty name frames) state) :
    Lands (.body frames)
      (step state
        (.declaration isConst ty name initializer
          span)) := by
  have hBind :
      state.symbols.declareVariable ⟨name.name, ty, isConst⟩ =
        .ok (state.symbols.bind ⟨name.name, ty, isConst⟩) :=
    Symbols.declareVariable_of_isFree hState.checked
  rw [step, declare, hBind]
  apply lands_check (judged_requireInitializer _ _ _ _ _)
  intro _
  refine ⟨?_, ?_, trivial⟩
  · change (state.symbols.bind _).depth = _
    rw [Symbols.depth_bind]
    exact hState.depth
  · exact hState.loops

/- A check that is made inside a function body. -/
theorem lands_body_check
    {stage : Stage}
    {check : Except Stop Unit}
    (hCheck : Judged check)
    (hState : InStep (.body frames) state)
    (hStage : stage = .body frames ∨ stage = .decided frames) :
    Lands stage
      (do
        check
        return state) := by
  apply lands_check hCheck
  intro _
  rcases hStage with rfl | rfl
  · exact hState
  · refine ⟨?_, ?_, trivial⟩
    · exact hState.depth
    · exact hState.loops

/- The end of a program finds its entry point, or not. -/
theorem step_programEnd
    (state : State) :
    step state .programEnd = .ok state ∨
      step state .programEnd =
        .error (.finding .missingMain) := by
  unfold step requireEntryPoint
  dsimp only
  split
  · exact .inl rfl
  · exact .inr rfl

theorem InStep.finished
    (hState : InStep .outside state) :
    InStep .finished state where
  depth := hState.depth
  loops := hState.loops
  checked := trivial

/- Every event that may come at a stage lands at the next. -/
theorem lands_step
    {stage next : Stage}
    {event : EffectEvent Ty}
    (hNext : stage.Next event next)
    (hState : InStep stage state) :
    Lands next (step state event) := by
  cases hNext with
  | functionHeader => exact lands_functionHeader hState
  | functionSignature _ _ =>
      exact lands_functionSignature hState
  | functionEnd => exact lands_functionEnd hState
  | openScope hRoom =>
      refine lands_openScope hState.depth ?_
      rw [hState.loops]
      exact (List.count_cons_of_ne (by decide)).symm
  | openBranch hRoom =>
      refine lands_openScope hState.depth ?_
      rw [hState.loops]
      exact (List.count_cons_of_ne (by decide)).symm
  | openBody hRoom =>
      refine lands_openScope hState.depth ?_
      rw [hState.loops]
      exact List.count_cons_self.symm
  | closeScope =>
      refine lands_closeScope hState rfl ?_ fun _ => trivial
      exact (List.count_cons_of_ne (by decide)).symm
  | closeBody =>
      refine lands_closeScope hState rfl ?_ fun _ => trivial
      exact List.count_cons_self.symm
  | openLoop hRoom =>
      apply lands_ok
      refine ⟨?_, ?_, trivial⟩
      · exact hState.depth
      · exact congrArg (· + 1) hState.loops
  | closeLoop => exact lands_closeLoop hState
  | condition =>
      exact
        lands_body_check (judged_requireCast _ _ _) hState
          (Or.inr rfl)
  | declarationStart => exact lands_declarationStart hState
  | declaration hTy => exact lands_declaration hState
  | assignment =>
      exact
        lands_body_check (judged_assign _ _ _ _) hState
          (Or.inl rfl)
  | returnVoid =>
      exact
        lands_body_check (judged_returnVoid _ _) hState
          (Or.inl rfl)
  | returnValue =>
      exact
        lands_body_check (judged_returnValue _ _ _) hState
          (Or.inl rfl)
  | breakStatement =>
      exact
        lands_body_check (judged_requireLoop _ rfl _) hState
          (Or.inl rfl)
  | continueStatement =>
      exact
        lands_body_check (judged_requireLoop _ rfl _) hState
          (Or.inl rfl)

end Steps

/-
  A state in step stays in step, and what is refused is
  refused because of a verdict.
-/
def course : Parser.Course State Stop where
  At := InStep
  Refused stop _ := stop.IsVerdict

/- An event that lands at a stage keeps the course. -/
theorem leads_step
    {stage : Stage}
    {state : State}
    {event : EffectEvent Ty}
    (hLands : Lands stage (step state event)) :
    course.Leads stage (receiver.effect event state) := by
  unfold receiver
  cases hStep : step state event with
  | ok after =>
      simp only [hStep]
      exact hLands.2 after hStep
  | error stop =>
      simp only [hStep]
      exact (hLands.1 stop hStep).isVerdict

theorem leads_programEnd
    {state : State}
    (hState : InStep .outside state) :
    course.Leads .finished
      (receiver.effect .programEnd state) := by
  unfold receiver
  rcases step_programEnd state with hStep | hStep
  · simp only [hStep]
    exact hState.finished
  · simp only [hStep]
    exact trivial

theorem keptBy_receiver : course.KeptBy receiver where
  value {stage state} event _ hState := by
    have hJudged := judged_valueType state.symbols event
    unfold receiver
    cases hType : valueType state.symbols event with
    | ok ty =>
        simp only [hType]
        exact hState
    | error stop =>
        simp only [hType]
        exact (hJudged stop hType).isVerdict
  effect hNext hState := leads_step (lands_step hNext hState)
  programEnd hState := leads_programEnd hState

theorem inStep_initial : InStep .outside .initial := by
  refine ⟨?_, ?_, trivial⟩
  · rfl
  · rfl

end Analysis

/- Whatever is refused in a run is refused by a verdict. -/
theorem isVerdict_of_parse
    {tokens : List Token}
    {stop : Analysis.Stop}
    (hRefused :
      (parse Analysis.receiver tokens .initial).1 =
        .error (.refused stop)) :
    stop.IsVerdict := by
  have hConcludes :=
    concludes_parse Analysis.keptBy_receiver tokens
      Analysis.inStep_initial
  cases hRun : parse Analysis.receiver tokens .initial with
  | mk result final =>
      rw [hRun] at hRefused hConcludes
      cases hRefused
      exact hConcludes

/-
  No fault is ever reached by reading a program, whatever
  its tokens are.
-/
theorem parse_refuses_no_fault
    (tokens : List Token)
    (fault : Fault) :
    (parse Analysis.receiver tokens .initial).1 ≠
      .error (.refused (.fault fault)) := by
  intro hFault
  exact isVerdict_of_parse hFault

end OnePass
