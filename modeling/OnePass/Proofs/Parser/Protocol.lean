import OnePass.Proofs.Parser.Reading.Program

/-
  The order in which the parser announces events.

  A stage says what has been announced so far, as far as it
  decides what may come next: which function is open, which
  scopes are open inside it, and which construct is under
  way. An invariant of a receiver may depend on the stage.
  If every event that may come at a stage keeps it, then it
  holds along every run, also of a run that halts. The end
  of the program is announced by no function, so what the
  functions keep is said apart from what the end keeps.

  Main declarations:
    * `Parser.Stage`, `Parser.Stage.Next`
    * `Parser.Course`, `Parser.Course.KeptInside`
    * `Parser.Course.KeptBy`, `Parser.Course.Follows`
    * `Parser.Course.follows_functions`
    * `Parser.Course.follows_program`
-/

------------------------------------------------------------
-- Types That Are Read
------------------------------------------------------------

namespace OnePass

/- A variable or a parameter may have the type. -/
def Ty.Storable : Ty → Prop
| .int | .byte | .bool => True
| .string | .void => False

namespace Parser

open Grammar (Sign Separated Declarator returnType?)

variable {σ ε α : Type}

/- Some run of the rule answers this. -/
def Answers
    (rule : Rule σ ε α)
    (answer : α) : Prop :=
  ∃ before after, rule before = .ok answer after

theorem storable_of_valueType?
    {kind : Kind}
    {ty : Ty}
    (hKind : kind.valueType? = some ty) :
    ty.Storable := by
  unfold Kind.valueType? at hKind
  split at hKind
  · cases hKind
    trivial
  · cases hKind
    trivial
  · cases hKind
    trivial
  · cases hKind

/- No function is declared to return a string. -/
theorem ne_string_of_returnType
    {ty : Ty}
    (hAnswer : Answers (returnType : Rule σ ε Ty) ty) :
    ty ≠ .string := by
  rcases hAnswer with ⟨before, after, hOk⟩
  rcases returnType_eq_ok_iff.mp hOk with ⟨sign, -, -, hTy⟩
  have hMeans := sign.means
  rw [← hTy] at hMeans
  unfold returnType? at hMeans
  split at hMeans
  · cases hMeans
    simp
  · intro hString
    rw [hString] at hMeans
    exact storable_of_valueType? hMeans

/- Declared names have the types of variables. -/
theorem storable_of_declarator
    {formal : Formal}
    (hAnswer :
      Answers (declarator : Rule σ ε Formal) formal) :
    formal.ty.Storable := by
  rcases hAnswer with ⟨before, after, hOk⟩
  rcases (reads_declarator before after formal).mp hOk with
    ⟨tree, -, -, -, hFormal⟩
  rw [declaratorPhrase, pure_eq_ok_iff] at hFormal
  rw [← hFormal.1]
  exact storable_of_valueType? tree.ty.means

theorem storable_of_formals
    {formals : List Formal}
    (hAnswer :
      Answers (commaList declarator : Rule σ ε _) formals) :
    ∀ formal ∈ formals, formal.ty.Storable := by
  rcases hAnswer with ⟨before, after, hOk⟩
  rcases (reads_formals before after formals).mp hOk with
    ⟨trees, -, -, -, hFormals⟩
  rw [announce_formals_eq_ok_iff] at hFormals
  intro formal hFormal
  rw [← hFormals.1] at hFormal
  rcases List.mem_map.mp hFormal with ⟨tree, -, hTree⟩
  rw [← hTree]
  exact storable_of_valueType? tree.ty.means

end Parser

end OnePass

------------------------------------------------------------
-- Stages
------------------------------------------------------------

namespace OnePass

namespace Parser

/- What an open scope inside a function belongs to. -/
inductive Frame where
  /- A block or a branch. -/
  | block
  /- The body of a loop. -/
  | loop
deriving DecidableEq, Repr

/-
  What has been announced so far. The open scopes inside a
  function are listed from the inside out.
-/
inductive Stage where
  /- No function is open. -/
  | outside
  /- The formals of a function come next. -/
  | headed (returns : Ty) (name : Identifier)
  /- Inside the body of a function. -/
  | body (frames : List Frame)
  /- Before the first value of a variable. -/
  | declaring
      (isConst : Bool)
      (ty : Ty)
      (name : Identifier)
      (frames : List Frame)
  /- A condition is complete. -/
  | decided (frames : List Frame)
  /- The scope of a loop body comes next. -/
  | looping (frames : List Frame)
  /- The scope of a loop body was closed. -/
  | looped (frames : List Frame)
  /- All input is consumed. -/
  | finished
deriving DecidableEq, Repr

namespace Stage

/- Expressions may be announced at this stage. -/
def AllowsValues : Stage → Prop
| body _ | declaring _ _ _ _ => True
| outside | headed _ _ | decided _ | looping _ | looped _
| finished => False

/-
  The event may come at the first stage, and leads on. The
  end of the program is left out.
-/
inductive Next
    {τ : Type} :
    Stage → EffectEvent τ → Stage → Prop where
  | functionHeader
      {returns : Ty}
      {name : Identifier} :
      Next outside (.functionHeader returns name)
        (headed returns name)
  | functionSignature
      {returns : Ty}
      {name : Identifier}
      {formals : List Formal}
      (hReturns : returns ≠ .string)
      (hFormals : ∀ formal ∈ formals, formal.ty.Storable) :
      Next (headed returns name)
        (.functionSignature returns name formals) (body [])
  | functionEnd
      {span : Span} :
      Next (body []) (.functionEnd span) outside
  /- A block, or the other branch of a conditional. -/
  | openScope
      {frames : List Frame}
      (hRoom : frames.length < maxNesting) :
      Next (body frames) .openScope (body (.block :: frames))
  | openBranch
      {frames : List Frame}
      (hRoom : frames.length < maxNesting) :
      Next (decided frames) .openScope
        (body (.block :: frames))
  | openBody
      {frames : List Frame}
      (hRoom : frames.length < maxNesting) :
      Next (looping frames) .openScope
        (body (.loop :: frames))
  | closeScope
      {frames : List Frame} :
      Next (body (.block :: frames)) .closeScope (body frames)
  | closeBody
      {frames : List Frame} :
      Next (body (.loop :: frames)) .closeScope
        (looped frames)
  | openLoop
      {frames : List Frame}
      (hRoom : frames.length < maxNesting) :
      Next (decided frames) .openLoop (looping frames)
  | closeLoop
      {frames : List Frame} :
      Next (looped frames) .closeLoop (body frames)
  | condition
      {frames : List Frame}
      {value : Typed τ} :
      Next (body frames) (.condition value) (decided frames)
  | declarationStart
      {frames : List Frame}
      {isConst : Bool}
      {ty : Ty}
      {name : Identifier} :
      Next (body frames) (.declarationStart isConst ty name)
        (declaring isConst ty name frames)
  | declaration
      {frames : List Frame}
      {isConst : Bool}
      {ty : Ty}
      {name : Identifier}
      {initializer : Option (Typed τ)}
      {span : Span}
      (hTy : ty.Storable) :
      Next (declaring isConst ty name frames)
        (.declaration isConst ty name initializer span)
        (body frames)
  | assignment
      {frames : List Frame}
      {name : Identifier}
      {value : Typed τ}
      {span : Span} :
      Next (body frames) (.assignment name value span)
        (body frames)
  | returnVoid
      {frames : List Frame}
      {span : Span} :
      Next (body frames) (.returnVoid span) (body frames)
  | returnValue
      {frames : List Frame}
      {value : Typed τ}
      {span : Span} :
      Next (body frames) (.returnValue value span)
        (body frames)
  | breakStatement
      {frames : List Frame}
      {span : Span} :
      Next (body frames) (.breakStatement span) (body frames)
  | continueStatement
      {frames : List Frame}
      {span : Span} :
      Next (body frames) (.continueStatement span)
        (body frames)

end Stage

end Parser

end OnePass

------------------------------------------------------------
-- Courses
------------------------------------------------------------

namespace OnePass

namespace Parser

/-
  What holds of the state of a receiver at each stage, and
  what holds once it has refused an event.
-/
structure Course (σ ε : Type) where
  At : Stage → σ → Prop
  Refused : ε → σ → Prop

namespace Course

variable {σ τ ε α β : Type}

/- What an act of a receiver leads to. -/
def Leads
    (course : Course σ ε)
    (stage : Stage) :
    EStateM.Result ε σ α → Prop
| .ok _ state => course.At stage state
| .error reason state => course.Refused reason state

/- Every event that may come at a stage keeps the course. -/
structure KeptInside
    (course : Course σ ε)
    (receiver : Receiver σ τ ε) : Prop where
  value :
    ∀ {stage : Stage} {state : σ} (event : ValueEvent τ),
      stage.AllowsValues →
        course.At stage state →
          course.Leads stage (receiver.value event state)
  effect :
    ∀ {stage next : Stage} {state : σ}
      {event : EffectEvent τ},
      stage.Next event next →
        course.At stage state →
          course.Leads next (receiver.effect event state)

/- The end of the program keeps the course as well. -/
structure KeptBy
    (course : Course σ ε)
    (receiver : Receiver σ τ ε) : Prop
    extends KeptInside course receiver where
  programEnd :
    ∀ {state : σ},
      course.At .outside state →
        course.Leads .finished
          (receiver.effect .programEnd state)

/-
  What a run of a rule leads to. A run may come to a halt at
  any stage.
-/
def Ends
    (course : Course σ ε)
    (last : Stage) :
    EStateM.Result (Halt ε) (Cursor σ) α → Prop
| .ok _ after => course.At last after.state
| .error (.stuck _) after =>
    ∃ stage, course.At stage after.state
| .error (.refused reason) after =>
    course.Refused reason after.state

/- A rule that starts at the first stage ends at the last. -/
def Follows
    (course : Course σ ε)
    (first last : Stage)
    (rule : Rule σ ε α) : Prop :=
  ∀ cursor : Cursor σ,
    course.At first cursor.state →
      course.Ends last (rule cursor)

section Combinators

variable {course : Course σ ε}
variable {first middle last : Stage}

/- What follows may rely on what the rule can answer. -/
theorem Follows.bindAnswer
    {rule : Rule σ ε α}
    {next : α → Rule σ ε β}
    (hRule : course.Follows first middle rule)
    (hNext :
      ∀ answer, Answers rule answer →
        course.Follows middle last (next answer)) :
    course.Follows first last (rule >>= next) := by
  intro cursor hStart
  have hRun := hRule cursor hStart
  cases hOutcome : rule cursor with
  | ok answer between =>
      rw [hOutcome] at hRun
      rw [bind_of_ok hOutcome]
      exact
        hNext answer ⟨cursor, between, hOutcome⟩ between hRun
  | error halt between =>
      rw [hOutcome] at hRun
      rw [bind_of_error hOutcome]
      cases halt with
      | stuck obstacle => exact hRun
      | refused reason => exact hRun

theorem Follows.bind
    {rule : Rule σ ε α}
    {next : α → Rule σ ε β}
    (hRule : course.Follows first middle rule)
    (hNext :
      ∀ answer, course.Follows middle last (next answer)) :
    course.Follows first last (rule >>= next) :=
  hRule.bindAnswer fun answer _ => hNext answer

theorem follows_pure
    (answer : α) :
    course.Follows first first
      (pure answer : Rule σ ε α) := by
  intro cursor hStart
  exact hStart

theorem follows_peek :
    course.Follows first first (peek : Rule σ ε _) := by
  intro cursor hStart
  exact hStart

theorem follows_lookahead :
    course.Follows first first (lookahead : Rule σ ε _) := by
  intro cursor hStart
  rcases cursor with ⟨_ | ⟨_, _ | _⟩, _⟩
  · exact hStart
  · exact hStart
  · exact hStart

theorem follows_unexpected :
    course.Follows first last
      (unexpected : Rule σ ε α) := by
  intro cursor hStart
  exact ⟨first, hStart⟩

theorem follows_token
    (kind : Kind) :
    course.Follows first first
      (token kind : Rule σ ε Token) := by
  intro cursor hStart
  rcases cursor with ⟨_ | ⟨next, rest⟩, state⟩
  · exact ⟨first, hStart⟩
  · by_cases hKind : next.kind = kind
    · subst hKind
      rw [token_of_kind]
      exact hStart
    · rw [token_of_ne hKind]
      exact ⟨first, hStart⟩

theorem follows_expect
    (kind : Kind) :
    course.Follows first first
      (expect kind : Rule σ ε Span) := by
  apply (follows_token kind).bind
  intro next
  exact follows_pure _

theorem follows_identifier :
    course.Follows first first
      (identifier : Rule σ ε Identifier) := by
  apply (follows_token .identifier).bind
  intro name
  exact follows_pure _

theorem follows_accept
    (kind : Kind) :
    course.Follows first first
      (accept kind : Rule σ ε Bool) := by
  apply follows_peek.bind
  intro next
  split
  · apply (follows_token kind).bind
    intro _
    exact follows_pure _
  · exact follows_pure _

theorem follows_nextSpan :
    course.Follows first first
      (nextSpan : Rule σ ε Span) := by
  intro cursor hStart
  rcases cursor with ⟨_ | ⟨next, rest⟩, state⟩
  · exact ⟨first, hStart⟩
  · exact hStart

theorem follows_valueType :
    course.Follows first first
      (valueType : Rule σ ε Ty) := by
  apply follows_peek.bind
  intro next
  cases next with
  | none => exact follows_unexpected
  | some kind =>
      cases hType : kind.valueType? with
      | none =>
          simp only [hType]
          exact follows_unexpected
      | some ty =>
          simp only [hType]
          apply (follows_token kind).bind
          intro _
          exact follows_pure _

theorem follows_returnType :
    course.Follows first first
      (returnType : Rule σ ε Ty) := by
  apply (follows_accept .kwVoid).bind
  intro found
  split
  · exact follows_pure _
  · exact follows_valueType

theorem follows_declarator :
    course.Follows first first
      (declarator : Rule σ ε Formal) := by
  apply (follows_accept .kwConst).bind
  intro isConst
  apply follows_valueType.bind
  intro ty
  apply follows_identifier.bind
  intro name
  exact follows_pure _

/- A loop keeps what each of its steps keeps. -/
theorem follows_iterate
    {step : α → Rule σ ε (Option α)}
    (hStep :
      ∀ current, course.Follows first first (step current))
    (start : α) :
    course.Follows first first (iterate step start) := by
  have hWithin :
      ∀ (bound : List Token) (current : α),
        course.Follows first first
          (iterateWithin step bound current) := by
    intro bound
    induction bound with
    | nil =>
        intro current
        exact follows_pure _
    | cons token bound ih =>
        intro current
        apply (hStep current).bind
        intro next
        cases next with
        | none => exact follows_pure _
        | some value => exact ih value
  intro cursor hStart
  exact hWithin cursor.rest start cursor hStart

theorem follows_commaList
    {item : Rule σ ε α}
    (hItem : course.Follows first first item) :
    course.Follows first first (commaList item) := by
  have hStep :
      ∀ items, course.Follows first first
        (itemStep item items) := by
    intro items
    apply (follows_accept .comma).bind
    intro found
    split
    · apply hItem.bind
      intro answer
      exact follows_pure _
    · exact follows_pure _
  apply follows_peek.bind
  intro next
  split
  · exact follows_pure _
  · apply hItem.bind
    intro answer
    exact follows_iterate hStep [answer]

end Combinators

end Course

end Parser

end OnePass

------------------------------------------------------------
-- Expressions
------------------------------------------------------------

namespace OnePass

namespace Parser

namespace Course

variable {σ τ ε α ω : Type}
variable {course : Course σ ε}
variable {receiver : Receiver σ τ ε}
variable {stage next : Stage}

theorem follows_announce
    {act : EStateM ε σ α}
    (hAct :
      ∀ state,
        course.At stage state → course.Leads next (act state)) :
    course.Follows stage next (announce act) := by
  intro cursor hStart
  have hLeads := hAct cursor.state hStart
  unfold announce
  cases hOutcome : act cursor.state with
  | ok answer state =>
      rw [hOutcome] at hLeads
      exact hLeads
  | error reason state =>
      rw [hOutcome] at hLeads
      exact hLeads

theorem follows_effect
    (hKept : course.KeptInside receiver)
    {event : EffectEvent τ}
    (hNext : stage.Next event next) :
    course.Follows stage next (effect receiver event) :=
  follows_announce fun _ hState => hKept.effect hNext hState

section Expressions

variable (hKept : course.KeptInside receiver)
variable (hValues : stage.AllowsValues)

include hKept hValues

theorem follows_value
    (event : ValueEvent τ)
    (span : Span) :
    course.Follows stage stage
      (value receiver event span) := by
  have hAnnounce :
      course.Follows stage stage
        (announce (receiver.value event)) :=
    follows_announce fun _ hState =>
      hKept.value event hValues hState
  apply hAnnounce.bind
  intro answer
  exact follows_pure _

theorem follows_leftChain
    {operator? : Kind → Option ω}
    {combine :
      Typed τ → ω → Typed τ → Span → ValueEvent τ}
    {operand : Rule σ ε (Typed τ)}
    (hOperand : course.Follows stage stage operand) :
    course.Follows stage stage
      (leftChain receiver operator? combine operand) := by
  have hStep :
      ∀ left,
        course.Follows stage stage
          (chainStep receiver operator? combine operand
            left) := by
    intro left
    apply follows_peek.bind
    intro kind?
    cases kind? with
    | none => exact follows_pure _
    | some kind =>
        cases hOperator : operator? kind with
        | none =>
            simp only [hOperator]
            exact follows_pure _
        | some operator =>
            simp only [hOperator]
            apply (follows_token kind).bind
            intro _
            apply hOperand.bind
            intro right
            apply (follows_value hKept hValues _ _).bind
            intro answer
            exact follows_pure _
  apply hOperand.bind
  intro first
  exact follows_iterate hStep first

theorem follows_expressionOf
    {factor : Rule σ ε (Typed τ)}
    (hFactor : course.Follows stage stage factor) :
    course.Follows stage stage
      (expressionOf receiver factor) := by
  apply follows_leftChain hKept hValues
  apply follows_leftChain hKept hValues
  apply follows_leftChain hKept hValues
  apply follows_leftChain hKept hValues
  apply follows_leftChain hKept hValues
  exact hFactor

theorem follows_call
    {expression : Rule σ ε (Typed τ)}
    (hExpression : course.Follows stage stage expression) :
    course.Follows stage stage
      (call receiver expression) := by
  apply follows_identifier.bind
  intro callee
  apply (follows_expect .leftParen).bind
  intro _
  apply (follows_commaList hExpression).bind
  intro arguments
  apply (follows_expect .rightParen).bind
  intro stop
  exact follows_value hKept hValues _ _

theorem follows_boolLiteral
    (kind : Kind)
    (truth : Bool) :
    course.Follows stage stage
      (boolLiteral receiver kind truth) := by
  apply (follows_expect kind).bind
  intro span
  exact follows_value hKept hValues _ _

theorem follows_factor
    (budget : Nat) :
    course.Follows stage stage (factor receiver budget) := by
  induction budget with
  | zero =>
      intro cursor hStart
      exact ⟨stage, hStart⟩
  | succ budget ih =>
      have hExpression :=
        follows_expressionOf hKept hValues ih
      apply follows_lookahead.bind
      intro kinds
      split
      · apply (follows_expect .kwNot).bind
        intro start
        apply ih.bind
        intro operand
        exact follows_value hKept hValues _ _
      · split
        · apply (follows_expect .leftParen).bind
          intro start
          apply follows_valueType.bind
          intro target
          apply (follows_expect .rightParen).bind
          intro _
          apply ih.bind
          intro operand
          exact follows_value hKept hValues _ _
        · apply (follows_expect .leftParen).bind
          intro start
          apply hExpression.bind
          intro inner
          apply (follows_expect .rightParen).bind
          intro stop
          exact follows_pure _
      · split
        · exact follows_call hKept hValues hExpression
        · apply follows_identifier.bind
          intro name
          exact follows_value hKept hValues _ _
      · apply (follows_expect .string).bind
        intro span
        exact follows_value hKept hValues _ _
      · apply (follows_token .number).bind
        intro number
        apply follows_peek.bind
        intro next
        split
        · apply (follows_expect .byteSuffix).bind
          intro stop
          exact follows_value hKept hValues _ _
        · exact follows_value hKept hValues _ _
      · exact follows_boolLiteral hKept hValues _ _
      · exact follows_boolLiteral hKept hValues _ _
      · exact follows_unexpected

theorem follows_expression
    (budget : Nat) :
    course.Follows stage stage
      (expression receiver budget) :=
  follows_expressionOf hKept hValues
    (follows_factor hKept hValues budget)

end Expressions

end Course

end Parser

end OnePass

------------------------------------------------------------
-- Statements
------------------------------------------------------------

namespace OnePass

namespace Parser

namespace Course

variable {σ τ ε : Type}
variable {course : Course σ ε}
variable {receiver : Receiver σ τ ε}

/- A list of statements stays where each of them stays. -/
theorem follows_statementList
    {stage : Stage}
    {statement : Rule σ ε Unit}
    (hStatement : course.Follows stage stage statement) :
    course.Follows stage stage
      (statementList statement) := by
  have hStep :
      ∀ answer, course.Follows stage stage
        (statementStep statement answer) := by
    intro answer
    apply follows_peek.bind
    intro next
    split
    · exact follows_pure _
    · exact follows_pure _
    · apply hStatement.bind
      intro _
      exact follows_pure _
  apply hStatement.bind
  intro _
  exact follows_iterate hStep ()

section Statements

variable (hKept : course.KeptInside receiver)

include hKept

/- The body of a branch or loop is one scope deeper. -/
theorem follows_branch
    {before after : Stage}
    {frame : Frame}
    {frames : List Frame}
    {statement : Rule σ ε Unit}
    (hOpen :
      before.Next (.openScope : EffectEvent τ)
        (.body (frame :: frames)))
    (hClose :
      Stage.Next (.body (frame :: frames))
        (.closeScope : EffectEvent τ) after)
    (hStatement :
      course.Follows (.body (frame :: frames))
        (.body (frame :: frames)) statement) :
    course.Follows before after
      (branch receiver statement) := by
  apply (follows_effect hKept hOpen).bind
  intro _
  apply hStatement.bind
  intro _
  exact follows_effect hKept hClose

/- A jump is announced once its semicolon is read. -/
theorem follows_jump
    {before after : Stage}
    {kind : Kind}
    {event : Span → EffectEvent τ}
    (hEvent : ∀ span, before.Next (event span) after) :
    course.Follows before after
      (jump receiver kind event) := by
  apply (follows_expect kind).bind
  intro start
  apply (follows_expect .semicolon).bind
  intro stop
  exact follows_effect hKept (hEvent _)

section Inside

variable {frames : List Frame}
variable {expression : Rule σ ε (Typed τ)}
variable
  (hExpression :
    ∀ stage : Stage, stage.AllowsValues →
      course.Follows stage stage expression)

include hExpression

theorem follows_condition :
    course.Follows (.body frames) (.decided frames)
      (condition receiver expression) := by
  apply (follows_expect .leftParen).bind
  intro _
  apply (hExpression (.body frames) trivial).bind
  intro value
  apply (follows_effect hKept .condition).bind
  intro _
  apply (follows_expect .rightParen).bind
  intro _
  exact follows_pure _

theorem follows_returnStatement :
    course.Follows (.body frames) (.body frames)
      (returnStatement receiver expression) := by
  apply (follows_expect .kwReturn).bind
  intro start
  apply follows_peek.bind
  intro next
  split
  · apply follows_nextSpan.bind
    intro stop
    apply (follows_effect hKept .returnVoid).bind
    intro _
    apply (follows_expect .semicolon).bind
    intro _
    exact follows_pure _
  · apply (hExpression (.body frames) trivial).bind
    intro result
    apply (follows_effect hKept .returnValue).bind
    intro _
    apply (follows_expect .semicolon).bind
    intro _
    exact follows_pure _

theorem follows_assignment :
    course.Follows (.body frames) (.body frames)
      (assignment receiver expression) := by
  apply follows_identifier.bind
  intro name
  apply (follows_expect .assign).bind
  intro _
  apply (hExpression (.body frames) trivial).bind
  intro result
  apply (follows_expect .semicolon).bind
  intro stop
  exact follows_effect hKept .assignment

theorem follows_callStatement :
    course.Follows (.body frames) (.body frames)
      (callStatement receiver expression) := by
  have hValues : (Stage.body frames).AllowsValues := trivial
  apply
    (follows_call hKept hValues
      (hExpression (.body frames) hValues)).bind
  intro _
  apply (follows_expect .semicolon).bind
  intro _
  exact follows_pure _

theorem follows_declaration :
    course.Follows (.body frames) (.body frames)
      (declaration receiver expression) := by
  apply follows_nextSpan.bind
  intro start
  apply follows_declarator.bindAnswer
  intro formal hFormal
  have hTy := storable_of_declarator hFormal
  apply (follows_effect hKept .declarationStart).bind
  intro _
  have hInitializer :
      ∀ stage : Stage, stage.AllowsValues →
        course.Follows stage stage
          (initializer expression) := by
    intro stage hValues
    apply (follows_accept .assign).bind
    intro found
    split
    · apply (hExpression stage hValues).bind
      intro value
      exact follows_pure _
    · exact follows_pure _
  have hValues :
      (Stage.declaring formal.isConst formal.ty formal.name
        frames).AllowsValues :=
    trivial
  apply (hInitializer _ hValues).bind
  intro value
  apply (follows_expect .semicolon).bind
  intro stop
  exact follows_effect hKept (.declaration hTy)

end Inside

/-
  A statement leaves the open scopes as they are. With each
  scope that it opens, it has one level less to spend.
-/
theorem follows_statement
    (budget : Nat)
    (frames : List Frame)
    (hRoom : frames.length + budget ≤ maxNesting) :
    course.Follows (.body frames) (.body frames)
      (statement receiver budget) := by
  induction budget generalizing frames with
  | zero =>
      intro cursor hStart
      exact ⟨_, hStart⟩
  | succ budget ih =>
      have hExpression :
          ∀ stage : Stage, stage.AllowsValues →
            course.Follows stage stage
              (expression receiver budget) :=
        fun _ hValues =>
          follows_expression hKept hValues budget
      have hFits : frames.length < maxNesting := by omega
      have hInside :
          ∀ frame : Frame,
            course.Follows (.body (frame :: frames))
              (.body (frame :: frames))
              (statement receiver budget) := by
        intro frame
        apply ih
        rw [List.length_cons]
        omega
      apply follows_lookahead.bind
      intro kinds
      split
      · apply (follows_expect .leftBrace).bind
        intro _
        apply (follows_effect hKept (.openScope hFits)).bind
        intro _
        apply (follows_statementList (hInside .block)).bind
        intro _
        apply (follows_effect hKept .closeScope).bind
        intro _
        apply (follows_expect .rightBrace).bind
        intro _
        exact follows_pure _
      · apply (follows_expect .kwIf).bind
        intro _
        apply (follows_condition hKept hExpression).bind
        intro _
        apply
          (follows_branch hKept (.openBranch hFits)
            .closeScope (hInside .block)).bind
        intro _
        apply (follows_accept .kwElse).bind
        intro found
        split
        · exact
            follows_branch hKept (.openScope hFits)
              .closeScope (hInside .block)
        · exact follows_pure _
      · apply (follows_expect .kwWhile).bind
        intro _
        apply (follows_condition hKept hExpression).bind
        intro _
        apply (follows_effect hKept (.openLoop hFits)).bind
        intro _
        apply
          (follows_branch hKept (.openBody hFits)
            .closeBody (hInside .loop)).bind
        intro _
        exact follows_effect hKept .closeLoop
      · exact follows_returnStatement hKept hExpression
      · exact follows_jump hKept fun _ => .breakStatement
      · exact follows_jump hKept fun _ => .continueStatement
      · exact follows_assignment hKept hExpression
      · exact follows_callStatement hKept hExpression
      · split
        · exact follows_declaration hKept hExpression
        · exact follows_unexpected
      · exact follows_unexpected

end Statements

end Course

end Parser

end OnePass

------------------------------------------------------------
-- Programs
------------------------------------------------------------

namespace OnePass

namespace Parser

namespace Course

variable {σ τ ε : Type}
variable {course : Course σ ε}
variable {receiver : Receiver σ τ ε}

theorem follows_function
    (hKept : course.KeptInside receiver) :
    course.Follows .outside .outside
      (function receiver maxNesting) := by
  have hSignature :
      course.Follows .outside (.body [])
        (signature receiver) := by
    apply follows_returnType.bindAnswer
    intro returns hReturns
    apply follows_identifier.bind
    intro name
    apply (follows_effect hKept .functionHeader).bind
    intro _
    apply (follows_expect .leftParen).bind
    intro _
    apply (follows_commaList follows_declarator).bindAnswer
    intro formals hFormals
    have hSigned :
        Stage.Next (.headed returns name)
          (.functionSignature returns name formals :
            EffectEvent τ)
          (.body []) :=
      .functionSignature (ne_string_of_returnType hReturns)
        (storable_of_formals hFormals)
    apply (follows_effect hKept hSigned).bind
    intro _
    apply (follows_expect .rightParen).bind
    intro _
    exact follows_pure _
  have hBody :
      course.Follows (.body []) .outside
        (functionBody receiver maxNesting) := by
    have hStatement :=
      follows_statement hKept maxNesting [] (by simp)
    apply (follows_expect .leftBrace).bind
    intro _
    apply (follows_statementList hStatement).bind
    intro _
    apply (follows_expect .rightBrace).bind
    intro stop
    exact follows_effect hKept .functionEnd
  apply hSignature.bind
  intro _
  exact hBody

/- The functions of a program, before its end. -/
theorem follows_functions
    (hKept : course.KeptInside receiver) :
    course.Follows .outside .outside
      (iterate (functionStep receiver maxNesting) ()) := by
  have hStep :
      ∀ answer, course.Follows .outside .outside
        (functionStep receiver maxNesting answer) := by
    intro answer
    apply follows_peek.bind
    intro next
    split
    · exact follows_pure _
    · apply (follows_function hKept).bind
      intro _
      exact follows_pure _
  exact follows_iterate hStep ()

/- A run of the parser keeps the course of its receiver. -/
theorem follows_program
    (hKept : course.KeptBy receiver) :
    course.Follows .outside .finished
      (program receiver maxNesting) := by
  apply (follows_functions hKept.toKeptInside).bind
  intro _
  exact follows_announce fun _ hState =>
    hKept.programEnd hState

end Course

end Parser

/- What a run leads to, seen from its result. -/
def Parser.Course.Concludes
    {σ ε : Type}
    (course : Parser.Course σ ε) :
    Except (Parser.Failure ε) Unit × σ → Prop
| (.ok _, final) => course.At .finished final
| (.error (.misfit _), final) =>
    ∃ stage, course.At stage final
| (.error (.refused reason), final) =>
    course.Refused reason final

/- The course of a receiver is kept, however a run ends. -/
theorem concludes_parse
    {σ τ ε : Type}
    {course : Parser.Course σ ε}
    {receiver : Receiver σ τ ε}
    (hKept : course.KeptBy receiver)
    (tokens : List Token)
    {start : σ}
    (hStart : course.At .outside start) :
    course.Concludes (parse receiver tokens start) := by
  have hRun :=
    Parser.Course.follows_program hKept ⟨tokens, start⟩ hStart
  unfold parse
  cases hOutcome :
      Parser.program receiver Parser.maxNesting
        ⟨tokens, start⟩ with
  | ok answer after =>
      rw [hOutcome] at hRun
      exact hRun
  | error halt after =>
      rw [hOutcome] at hRun
      cases halt with
      | stuck obstacle => exact hRun
      | refused reason => exact hRun

end OnePass
