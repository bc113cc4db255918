import OnePass.Proofs.Grammar.Announcement
import OnePass.Proofs.Parser.Outcome
import OnePass.Proofs.Parser.Transcript

/-
  The reductions of a tree.

  The events of a tree are listed bottom-up and from left to
  right, without the attributes of expressions. A recorder
  to which the tree is announced records this list.

  Main declarations:
    * `Grammar.Expr.reductions`
    * `Grammar.Stmt.reductions`
    * `Grammar.Program.reductions`
    * `Grammar.Program.logs_announce`
-/

------------------------------------------------------------
-- Reductions
------------------------------------------------------------

namespace OnePass

namespace Grammar

/- An expression as a part of an event: its extent only. -/
def Expr.mark
    {layer : Nat}
    (expr : Expr layer) : Typed Unit :=
  ⟨(), expr.span⟩

mutual

/- The reductions of an expression. -/
def Expr.reductions
    {layer : Nat} :
    Expr layer → List (Event Unit)
| .negation word operand =>
    operand.reductions ++
      [.value
        (.negation operand.mark
          (word.span.cover operand.span))]
| .cast left target _ operand =>
    operand.reductions ++
      [.value
        (.cast target.meaning operand.mark
          (left.span.cover operand.span))]
| .paren _ inner _ => inner.reductions
| .call parts => parts.reductions
| .name leaf => [.value (.identifier leaf.identifier)]
| .string leaf => [.value (.stringLiteral leaf.span)]
| .number digits =>
    [.value (.numberLiteral digits.text digits.span)]
| .byte digits suffix =>
    [.value
      (.byteLiteral digits.text
        (digits.span.cover suffix.span))]
| .bool word =>
    [.value (.boolLiteral word.meaning word.token.span)]
| .lift operand => operand.reductions
| .binary left operator right =>
    left.reductions ++ right.reductions ++
      [.value
        (operator.meaning.event left.mark right.mark
          (left.span.cover right.span))]

/- The reductions of a call. -/
def Call.reductions : Call → List (Event Unit)
| .bare callee left right =>
    [.value
      (.call callee.identifier []
        (Call.bare callee left right).span)]
| .applied callee left arguments right =>
    argumentReductions arguments ++
      [.value
        (.call callee.identifier
          (arguments.toList.map Expr.mark)
          (Call.applied callee left arguments right).span)]

/- The reductions of arguments. -/
def argumentReductions :
    Separated (Expr topLayer) → List (Event Unit)
| .one item => item.reductions
| .more items _ item =>
    argumentReductions items ++ item.reductions

end

/- The reductions of a condition. -/
def Condition.reductions
    (condition : Condition) : List (Event Unit) :=
  condition.value.reductions ++
    [.effect (.condition condition.value.mark)]

/- What is inside a scope, and the scope around it. -/
def enclosed
    (inside : List (Event Unit)) : List (Event Unit) :=
  .effect .openScope :: (inside ++ [.effect .closeScope])

mutual

/- The reductions of a statement. -/
def Stmt.reductions : Stmt → List (Event Unit)
| .block _ body _ => enclosed body.reductions
| .declaration declarator initializer stop =>
    let formal := declarator.formal
    .effect
        (.declarationStart formal.isConst formal.ty
          formal.name) ::
      (initializer.elim [] (·.value.reductions) ++
        [.effect
          (.declaration formal.isConst formal.ty formal.name
            (initializer.map (·.value.mark))
            (declarator.startSpan.cover stop.span))])
| .assignment name _ value stop =>
    value.reductions ++
      [.effect
        (.assignment name.identifier value.mark
          (name.span.cover stop.span))]
| .call parts _ => parts.reductions
| .returnVoid word stop =>
    [.effect (.returnVoid (word.span.cover stop.span))]
| .returnValue word value _ =>
    value.reductions ++
      [.effect
        (.returnValue value.mark
          (word.span.cover value.span))]
| .ifThen _ condition branch =>
    condition.reductions ++ enclosed branch.reductions
| .ifElse _ condition branch _ otherwise =>
    condition.reductions ++ enclosed branch.reductions ++
      enclosed otherwise.reductions
| .whileLoop _ condition body =>
    condition.reductions ++
      .effect .openLoop ::
        (enclosed body.reductions ++ [.effect .closeLoop])
| .jump word stop =>
    [.effect
      (word.meaning.event (word.token.span.cover stop.span))]

/- The reductions of statements, one after the other. -/
def Stmts.reductions : Stmts → List (Event Unit)
| .one statement => statement.reductions
| .more statement statements =>
    statement.reductions ++ statements.reductions

end

/- The reductions of a function. -/
def Function.reductions
    (function : Function) : List (Event Unit) :=
  let name := function.name.identifier
  .effect (.functionHeader function.returns.meaning name) ::
    .effect
        (.functionSignature function.returns.meaning name
          function.formalList) ::
      (function.body.reductions ++
        [.effect (.functionEnd function.stop.span)])

/- The reductions of a program. -/
def Program.reductions
    (program : Program) : List (Event Unit) :=
  program.functions.flatMap Function.reductions ++
    [.effect .programEnd]

end Grammar

end OnePass

------------------------------------------------------------
-- What A Recorder Records
------------------------------------------------------------

namespace OnePass

section Logs

variable {σ τ ε α β : Type}

/-
  The act answers, as the predicate says, and has recorded
  exactly these events.
-/
def Logs
    (act : EStateM ε (Watched σ (Sighting σ τ)) α)
    (events : List (Event Unit))
    (Answers : α → Prop) : Prop :=
  ∀ before, ∃ answer after,
    act before = .ok answer after ∧
      Answers answer ∧
      after.events = before.events ++ events

/- Records are made one after the other. -/
theorem Logs.bind
    {first : EStateM ε (Watched σ (Sighting σ τ)) α}
    {next : α → EStateM ε (Watched σ (Sighting σ τ)) β}
    {events more : List (Event Unit)}
    {Answers : α → Prop}
    {Final : β → Prop}
    (hFirst : Logs first events Answers)
    (hNext :
      ∀ answer, Answers answer → Logs (next answer) more Final) :
    Logs (first >>= next) (events ++ more) Final := by
  intro before
  rcases hFirst before with
    ⟨answer, between, hAnswer, hHolds, hEvents⟩
  rcases hNext answer hHolds between with
    ⟨final, after, hFinal, hFinalHolds, hMore⟩
  refine
    ⟨final, after,
      bind_eq_ok_iff.mpr ⟨answer, between, hAnswer, hFinal⟩,
      hFinalHolds, ?_⟩
  rw [hMore, hEvents, List.append_assoc]

theorem logs_pure
    (answer : α)
    {Answers : α → Prop}
    (hHolds : Answers answer) :
    Logs
      (pure answer :
        EStateM ε (Watched σ (Sighting σ τ)) α)
      [] Answers := by
  intro before
  exact ⟨answer, before, rfl, hHolds, by simp⟩

/- A recorder records the events that it is given. -/
theorem logs_value
    (recorder : Recorder σ τ)
    (event : ValueEvent τ) :
    Logs ((recorder.receiver ε).recorded.value event)
      [.value event.erase] (fun _ => True) := by
  intro before
  refine ⟨_, _, rfl, trivial, ?_⟩
  simp [Watched.events, Event.erase]

theorem logs_effect
    (recorder : Recorder σ τ)
    (event : EffectEvent τ) :
    Logs ((recorder.receiver ε).recorded.effect event)
      [.effect event.erase] (fun _ => True) := by
  intro before
  refine ⟨_, _, rfl, trivial, ?_⟩
  simp [Watched.events, Event.erase]

end Logs

namespace Grammar

variable {σ τ ε : Type}

/- The event of an operator, without the attributes. -/
theorem BinaryOp.erase_event
    (operator : BinaryOp)
    (left right : Typed τ)
    (span : Span) :
    (operator.event left right span).erase =
      operator.event left.erase right.erase span := by
  cases operator <;> rfl

/- A jump has no attributes. -/
theorem Jump.erase_event
    (jump : Jump)
    (span : Span) :
    (jump.event span : EffectEvent τ).erase =
      jump.event span := by
  cases jump <;> rfl

/- The arguments of a call, without their attributes. -/
def MarksOf
    (arguments : Separated (Expr topLayer))
    (values : List (Typed τ)) : Prop :=
  values.map Typed.erase = arguments.toList.map Expr.mark

section Expressions

variable (recorder : Recorder σ τ)

mutual

/- An expression that is announced is recorded. -/
theorem Expr.logs_announce
    {layer : Nat} :
    (expr : Expr layer) →
      Logs (expr.announce (recorder.receiver ε).recorded)
        expr.reductions (fun _ => True)
| .negation word operand => by
    rw [Expr.announce, Expr.reductions]
    apply (Expr.logs_announce operand).bind
    intro inner _
    exact logs_value recorder _
| .cast left target right operand => by
    rw [Expr.announce, Expr.reductions]
    apply (Expr.logs_announce operand).bind
    intro inner _
    exact logs_value recorder _
| .paren left inner right => by
    rw [Expr.announce, Expr.reductions]
    exact Expr.logs_announce inner
| .call parts => by
    rw [Expr.announce, Expr.reductions]
    exact Call.logs_announce parts
| .name leaf => by
    rw [Expr.announce, Expr.reductions]
    exact logs_value recorder _
| .string leaf => by
    rw [Expr.announce, Expr.reductions]
    exact logs_value recorder _
| .number digits => by
    rw [Expr.announce, Expr.reductions]
    exact logs_value recorder _
| .byte digits suffix => by
    rw [Expr.announce, Expr.reductions]
    exact logs_value recorder _
| .bool word => by
    rw [Expr.announce, Expr.reductions]
    exact logs_value recorder _
| .lift operand => by
    rw [Expr.announce, Expr.reductions]
    exact Expr.logs_announce operand
| .binary left operator right => by
    rw [Expr.announce, Expr.reductions, List.append_assoc]
    apply (Expr.logs_announce left).bind
    intro before _
    apply (Expr.logs_announce right).bind
    intro after _
    have hEvent :=
      logs_value (ε := ε) recorder
        (operator.meaning.event ⟨before, left.span⟩
          ⟨after, right.span⟩ (left.span.cover right.span))
    rw [BinaryOp.erase_event] at hEvent
    exact hEvent

/- A call that is announced is recorded. -/
theorem Call.logs_announce :
    (call : Call) →
      Logs (call.announce (recorder.receiver ε).recorded)
        call.reductions (fun _ => True)
| .bare callee left right => by
    rw [Call.announce, Call.reductions]
    exact logs_value recorder _
| .applied callee left arguments right => by
    rw [Call.announce, Call.reductions]
    apply (logs_announceArguments arguments).bind
    intro values hValues
    rw [← show values.map Typed.erase = _ from hValues]
    exact logs_value recorder _

/- Arguments that are announced are recorded. -/
theorem logs_announceArguments :
    (arguments : Separated (Expr topLayer)) →
      Logs
        (announceArguments (recorder.receiver ε).recorded
          arguments)
        (argumentReductions arguments) (MarksOf arguments)
| .one item => by
    rw [announceArguments, argumentReductions,
      ← List.append_nil (Expr.reductions item)]
    apply (Expr.logs_announce item).bind
    intro value _
    exact logs_pure _ rfl
| .more items comma item => by
    rw [announceArguments, argumentReductions,
      ← List.append_nil (Expr.reductions item)]
    apply (logs_announceArguments items).bind
    intro before hBefore
    apply (Expr.logs_announce item).bind
    intro value _
    apply logs_pure
    have hMarks : before.map Typed.erase = _ := hBefore
    simp [MarksOf, Separated.toList, hMarks, Expr.mark,
      Typed.erase, Typed.map]

end

/- The extent that is announced is that of the expression. -/
theorem Expr.logs_value
    {layer : Nat}
    (expr : Expr layer) :
    Logs (expr.value (recorder.receiver ε).recorded)
      expr.reductions
      (fun value => value.erase = expr.mark) := by
  rw [Expr.value, ← List.append_nil expr.reductions]
  apply (expr.logs_announce recorder).bind
  intro answer _
  exact logs_pure _ rfl

end Expressions

section Statements

variable (recorder : Recorder σ τ)

theorem Condition.logs_announce
    (condition : Condition) :
    Logs
      (condition.announce (recorder.receiver ε).recorded)
      condition.reductions (fun _ => True) := by
  rw [Condition.announce, Condition.reductions]
  apply (condition.value.logs_value recorder).bind
  intro value hValue
  rw [← hValue]
  exact logs_effect recorder _

theorem logs_announceInitializer
    (initializer : Option Initializer) :
    Logs
      (announceInitializer (recorder.receiver ε).recorded
        initializer)
      (initializer.elim [] (·.value.reductions))
      (fun value =>
        value.map Typed.erase =
          initializer.map (·.value.mark)) := by
  cases initializer with
  | none => exact logs_pure _ rfl
  | some present =>
      rw [announceInitializer, Option.elim_some,
        ← List.append_nil (Expr.reductions _)]
      apply (present.value.logs_value recorder).bind
      intro value hValue
      apply logs_pure
      rw [Option.map_some, Option.map_some, hValue]

/- A scope is recorded around what is inside it. -/
theorem logs_inScope
    {inside :
      EStateM ε (Watched σ (Sighting σ τ)) Unit}
    {events : List (Event Unit)}
    (hInside : Logs inside events (fun _ => True)) :
    Logs (inScope (recorder.receiver ε).recorded inside)
      (enclosed events) (fun _ => True) := by
  rw [inScope, enclosed, ← List.singleton_append]
  apply (logs_effect recorder .openScope).bind
  intro _ _
  apply hInside.bind
  intro _ _
  exact logs_effect recorder .closeScope

mutual

/- A statement that is announced is recorded. -/
theorem Stmt.logs_announce :
    (statement : Stmt) →
      Logs
        (statement.announce (recorder.receiver ε).recorded)
        statement.reductions (fun _ => True)
| .block left body right => by
    rw [Stmt.announce, Stmt.reductions]
    exact logs_inScope recorder (Stmts.logs_announce body)
| .declaration declarator initializer stop => by
    rw [Stmt.announce, Stmt.reductions,
      ← List.singleton_append]
    apply (logs_effect recorder _).bind
    intro _ _
    apply (logs_announceInitializer recorder initializer).bind
    intro value hValue
    rw [← hValue]
    exact logs_effect recorder _
| .assignment name sign value stop => by
    rw [Stmt.announce, Stmt.reductions]
    apply (value.logs_value recorder).bind
    intro result hResult
    rw [← hResult]
    exact logs_effect recorder _
| .call parts stop => by
    rw [Stmt.announce, Stmt.reductions,
      ← List.append_nil parts.reductions]
    apply (parts.logs_announce recorder).bind
    intro _ _
    exact logs_pure _ trivial
| .returnVoid word stop => by
    rw [Stmt.announce, Stmt.reductions]
    exact logs_effect recorder _
| .returnValue word value stop => by
    rw [Stmt.announce, Stmt.reductions]
    apply (value.logs_value recorder).bind
    intro result hResult
    rw [← hResult]
    exact logs_effect recorder _
| .ifThen word condition branch => by
    rw [Stmt.announce, Stmt.reductions]
    apply (condition.logs_announce recorder).bind
    intro _ _
    exact logs_inScope recorder (Stmt.logs_announce branch)
| .ifElse word condition branch other otherwise => by
    rw [Stmt.announce, Stmt.reductions, List.append_assoc]
    apply (condition.logs_announce recorder).bind
    intro _ _
    apply
      (logs_inScope recorder (Stmt.logs_announce branch)).bind
    intro _ _
    exact
      logs_inScope recorder (Stmt.logs_announce otherwise)
| .whileLoop word condition body => by
    rw [Stmt.announce, Stmt.reductions,
      ← List.singleton_append]
    apply (condition.logs_announce recorder).bind
    intro _ _
    apply (logs_effect recorder .openLoop).bind
    intro _ _
    apply
      (logs_inScope recorder (Stmt.logs_announce body)).bind
    intro _ _
    exact logs_effect recorder .closeLoop
| .jump word stop => by
    rw [Stmt.announce, Stmt.reductions,
      ← Jump.erase_event (τ := τ)]
    exact logs_effect recorder _

/- Statements that are announced are recorded. -/
theorem Stmts.logs_announce :
    (statements : Stmts) →
      Logs
        (statements.announce (recorder.receiver ε).recorded)
        statements.reductions (fun _ => True)
| .one statement => by
    rw [Stmts.announce, Stmts.reductions]
    exact Stmt.logs_announce statement
| .more statement statements => by
    rw [Stmts.announce, Stmts.reductions]
    apply (Stmt.logs_announce statement).bind
    intro _ _
    exact Stmts.logs_announce statements

end

theorem Function.logs_announce
    (function : Function) :
    Logs (function.announce (recorder.receiver ε).recorded)
      function.reductions (fun _ => True) := by
  rw [Function.announce, Function.reductions,
    ← List.singleton_append, ← List.singleton_append]
  apply (logs_effect recorder _).bind
  intro _ _
  apply (logs_effect recorder _).bind
  intro _ _
  apply (function.body.logs_announce recorder).bind
  intro _ _
  exact logs_effect recorder _

/- A program that is announced is recorded. -/
theorem Program.logs_announce
    (program : Program) :
    Logs (program.announce (recorder.receiver ε).recorded)
      program.reductions (fun _ => True) := by
  have hFunctions :
      ∀ functions,
        Logs
          (announceFunctions (recorder.receiver ε).recorded
            functions)
          (functions.flatMap Function.reductions)
          (fun _ => True) := by
    intro functions
    induction functions with
    | nil => exact logs_pure _ trivial
    | cons function functions ih =>
        rw [announceFunctions, List.flatMap_cons]
        apply (function.logs_announce recorder).bind
        intro _ _
        exact ih
  rw [Program.announce, Program.reductions]
  apply (hFunctions program.functions).bind
  intro _ _
  exact logs_effect recorder .programEnd

end Statements

end Grammar

end OnePass
