import Mathlib.Data.List.Nodup
import OnePass.Proofs.Analysis.Situation
import OnePass.Proofs.Parser.Reading.Program
import OnePass.Proofs.Symbols.Functions

/-
  The analysis accepts exactly the programs that keep the
  rules.

  A statement is accepted exactly if it is valid where it
  stands, and then the state has only gained the variable
  that the statement declares, if any. A function is
  accepted exactly if it is valid after the functions before
  it, and then the state has only gained its signature.

  Main declarations:
    * `Grammar.Stmt.Decided`
    * `Grammar.Stmt.decides`
    * `Grammar.Function.decides`
    * `Grammar.Program.decides`
    * `analyze_ok_iff_valid`
-/

------------------------------------------------------------
-- Parts Of Statements
------------------------------------------------------------

namespace OnePass

namespace Grammar

open Analysis

/- The variables that statements add to their scope. -/
def Stmts.binds : Stmts → List Binding
| .one statement => statement.binds
| .more statement statements =>
    statement.binds ++ statements.binds

section Statements

variable {setting : Setting}
variable {scope : List Binding}
variable {before : State}

theorem Condition.decides
    (hSituated : Situated before setting scope)
    (condition : Condition) :
    Decides (condition.announce receiver) before
      (condition.value.Fits setting.functions scope .bool)
      before :=
  decides_value hSituated.reflects condition.value
    decides_condition

theorem Call.decides
    (hSituated : Situated before setting scope)
    (parts : Call) :
    Decides
      (do
        let _ ← parts.announce receiver)
      before
      (∃ ty, parts.HasType setting.functions scope ty)
      before := by
  intro after
  simp only [bind_eq_ok_iff, pure_eq_ok_iff,
    parts.announce_eq_ok_iff hSituated.reflects, true_and]
  constructor
  · rintro ⟨ty, _, ⟨hParts, rfl⟩, rfl⟩
    exact ⟨⟨ty, hParts⟩, rfl⟩
  · rintro ⟨⟨ty, hParts⟩, rfl⟩
    exact ⟨ty, before, ⟨hParts, rfl⟩, rfl⟩

/- The first value of a variable, and the variable itself. -/
theorem decides_initialized
    (hSituated : Situated before setting scope)
    {declarator : Declarator}
    (hNew : Unbound scope declarator.binding.name)
    (initializer : Option Initializer)
    (span : Span) :
    Decides
      (do
        let value ← announceInitializer receiver initializer
        receiver.effect
          (.declaration declarator.formal.isConst
            declarator.formal.ty declarator.formal.name value
            span))
      before
      ((declarator.binding.isConst = true →
          initializer.isSome = true) ∧
        ∀ present ∈ initializer,
          present.value.Fits setting.functions scope
            declarator.binding.ty)
      (before.bindAll [declarator.binding]) := by
  have hDeclare :=
    decides_declaration hSituated declarator.formal.isConst
      declarator.formal.ty hNew
  cases initializer with
  | none =>
      apply (hDeclare none span).congr
      simp [Declarator.binding, Formal.binding]
  | some present =>
      have hValue :=
        decides_value hSituated.reflects present.value
          fun value => hDeclare (some value) span
      rw [announceInitializer]
      simp only [bind_assoc, pure_bind]
      apply hValue.congr
      constructor
      · rintro ⟨ty, hType, -, hCast⟩
        refine ⟨fun _ => rfl, ?_⟩
        intro other hOther
        cases hOther
        exact ⟨ty, hType, hCast _ rfl⟩
      · rintro ⟨-, hFits⟩
        obtain ⟨ty, hType, hCast⟩ := hFits present rfl
        refine ⟨ty, hType, fun _ => rfl, ?_⟩
        intro value hValue
        cases hValue
        exact hCast

/- Only a declaration adds a variable, and it is a new one. -/
theorem Stmt.Valid.situated
    {statement : Stmt}
    (hValid : statement.Valid setting scope)
    (hSituated : Situated before setting scope) :
    Situated (before.bindAll statement.binds) setting
      (statement.binds ++ scope) := by
  cases hValid with
  | declaration hNew hConst hInitializer =>
      exact hSituated.bind hNew
  | _ => exact hSituated

end Statements

end Grammar

end OnePass

------------------------------------------------------------
-- Forms Of Statements
------------------------------------------------------------

namespace OnePass

namespace Grammar

open Analysis

/-
  The analysis, started in this state, accepts the statement
  exactly if it is valid, and then has gained its variable.
-/
def Stmt.Decided
    (setting : Setting)
    (scope : List Binding)
    (before : State)
    (statement : Stmt) : Prop :=
  Decides (statement.announce receiver) before
    (statement.Valid setting scope)
    (before.bindAll statement.binds)

/- As for one statement, for all of them. -/
def Stmts.Decided
    (setting : Setting)
    (scope : List Binding)
    (before : State)
    (statements : Stmts) : Prop :=
  Decides (statements.announce receiver) before
    (statements.Valid setting scope)
    (before.bindAll statements.binds)

variable {setting : Setting}
variable {scope : List Binding}
variable {before : State}

theorem decided_block
    {left : Leaf .leftBrace}
    {body : Stmts}
    {right : Leaf .rightBrace}
    (hBody : body.Decided setting scope before.openScope) :
    (Stmt.block left body right).Decided setting scope
      before := by
  apply (decides_inScope hBody).congr
  constructor
  · exact .block
  · intro hValid
    cases hValid with
    | block hBody => exact hBody

section Situated

variable (hSituated : Situated before setting scope)

include hSituated

theorem decided_declaration
    (declarator : Declarator)
    (initializer : Option Initializer)
    (stop : Leaf .semicolon) :
    (Stmt.declaration declarator initializer stop).Decided
      setting scope before := by
  have hStart :=
    decides_declarationStart hSituated
      declarator.formal.isConst declarator.formal.ty
      declarator.formal.name
  have hDeclaration :=
    hStart.andThen fun hNew =>
      decides_initialized hSituated hNew initializer
        (declarator.startSpan.cover stop.span)
  apply hDeclaration.congr
  constructor
  · rintro ⟨hNew, hConst, hInitializer⟩
    exact .declaration hNew hConst hInitializer
  · intro hValid
    cases hValid with
    | declaration hNew hConst hInitializer =>
        exact ⟨hNew, hConst, hInitializer⟩

theorem decided_assignment
    (name : Leaf .identifier)
    (sign : Leaf .assign)
    (value : Expression)
    (stop : Leaf .semicolon) :
    (Stmt.assignment name sign value stop).Decided setting
      scope before := by
  have hAssignment :=
    decides_value hSituated.reflects value
      (decides_assignment hSituated name.identifier
        (name.span.cover stop.span))
  apply hAssignment.congr
  constructor
  · rintro ⟨ty, hType, binding, hVisible, hName, hConst,
      hCast⟩
    exact .assignment hVisible hName hConst ⟨ty, hType, hCast⟩
  · intro hValid
    cases hValid with
    | assignment hVisible hName hConst hValue =>
        obtain ⟨ty, hType, hCast⟩ := hValue
        exact ⟨ty, hType, _, hVisible, hName, hConst, hCast⟩

theorem decided_call
    (parts : Call)
    (stop : Leaf .semicolon) :
    (Stmt.call parts stop).Decided setting scope before := by
  apply (parts.decides hSituated).congr
  constructor
  · rintro ⟨ty, hParts⟩
    exact .call hParts
  · intro hValid
    cases hValid with
    | call hParts => exact ⟨_, hParts⟩

theorem decided_returnVoid
    (word : Leaf .kwReturn)
    (stop : Leaf .semicolon) :
    (Stmt.returnVoid word stop).Decided setting scope
      before := by
  apply (decides_returnVoid hSituated _).congr
  constructor
  · exact .returnVoid
  · intro hValid
    cases hValid with
    | returnVoid hReturns => exact hReturns

theorem decided_returnValue
    (word : Leaf .kwReturn)
    (value : Expression)
    (stop : Leaf .semicolon) :
    (Stmt.returnValue word value stop).Decided setting scope
      before := by
  have hReturn :=
    decides_value hSituated.reflects value
      (decides_returnValue hSituated
        (word.span.cover value.span))
  apply hReturn.congr
  constructor
  · rintro ⟨ty, hType, hReturns, hCast⟩
    exact .returnValue hReturns ⟨ty, hType, hCast⟩
  · intro hValid
    cases hValid with
    | returnValue hReturns hValue =>
        obtain ⟨ty, hType, hCast⟩ := hValue
        exact ⟨ty, hType, hReturns, hCast⟩

/- Either jump needs a loop around it, and nothing else. -/
theorem decided_jump
    (word : Sign jump?)
    (stop : Leaf .semicolon) :
    (Stmt.jump word stop).Decided setting scope before := by
  have hJump :
      Decides
        (receiver.effect
          (word.meaning.event
            (word.token.span.cover stop.span)))
        before (setting.inLoop = true) before := by
    cases word.meaning <;>
      exact decides_check rfl (requireLoop_eq_ok_iff hSituated)
  apply hJump.congr
  constructor
  · exact .jump
  · intro hValid
    cases hValid with
    | jump hLoop => exact hLoop

theorem decided_ifThen
    {word : Leaf .kwIf}
    {condition : Condition}
    {branch : Stmt}
    (hBranch : branch.Decided setting scope before.openScope) :
    (Stmt.ifThen word condition branch).Decided setting scope
      before := by
  have hBoth :=
    (condition.decides hSituated).andThen fun _ =>
      decides_inScope hBranch
  apply hBoth.congr
  constructor
  · rintro ⟨hCondition, hValid⟩
    exact .ifThen hCondition hValid
  · intro hValid
    cases hValid with
    | ifThen hCondition hValid => exact ⟨hCondition, hValid⟩

theorem decided_ifElse
    {word : Leaf .kwIf}
    {condition : Condition}
    {branch : Stmt}
    {other : Leaf .kwElse}
    {otherwise : Stmt}
    (hBranch : branch.Decided setting scope before.openScope)
    (hOtherwise :
      otherwise.Decided setting scope before.openScope) :
    (Stmt.ifElse word condition branch other
      otherwise).Decided setting scope before := by
  have hAll :=
    (condition.decides hSituated).andThen fun _ =>
      (decides_inScope hBranch).andThen fun _ =>
        decides_inScope hOtherwise
  apply hAll.congr
  constructor
  · rintro ⟨hCondition, hFirst, hSecond⟩
    exact .ifElse hCondition hFirst hSecond
  · intro hValid
    cases hValid with
    | ifElse hCondition hFirst hSecond =>
        exact ⟨hCondition, hFirst, hSecond⟩

/- The body of a loop is the one place that is in a loop. -/
theorem decided_whileLoop
    {word : Leaf .kwWhile}
    {condition : Condition}
    {body : Stmt}
    (hBody :
      body.Decided { setting with inLoop := true } scope
        before.openLoop.openScope) :
    (Stmt.whileLoop word condition body).Decided setting scope
      before := by
  have hOpen :
      Decides (receiver.effect .openLoop) before True
        before.openLoop :=
    decides_true rfl
  have hClose :
      Decides (receiver.effect .closeLoop) before.openLoop
        True before :=
    decides_true rfl
  have hAll :=
    (condition.decides hSituated).andThen fun _ =>
      hOpen.andThen fun _ =>
        (decides_inScope hBody).andThen fun _ => hClose
  apply hAll.congr
  constructor
  · rintro ⟨hCondition, -, hValid, -⟩
    exact .whileLoop hCondition hValid
  · intro hValid
    cases hValid with
    | whileLoop hCondition hValid =>
        exact ⟨hCondition, trivial, hValid, trivial⟩

/- The statements after the first one see its variable. -/
theorem decided_more
    {statement : Stmt}
    {statements : Stmts}
    (hFirst : statement.Decided setting scope before)
    (hRest :
      Situated (before.bindAll statement.binds) setting
          (statement.binds ++ scope) →
        statements.Decided setting (statement.binds ++ scope)
          (before.bindAll statement.binds)) :
    (Stmts.more statement statements).Decided setting scope
      before := by
  have hBoth :=
    hFirst.andThen fun hValid =>
      hRest (hValid.situated hSituated)
  unfold Stmts.Decided
  rw [Stmts.announce, Stmts.binds, State.bindAll_append]
  apply hBoth.congr
  constructor
  · rintro ⟨hFirst, hRest⟩
    exact .more hFirst hRest
  · intro hValid
    cases hValid with
    | more hFirst hRest => exact ⟨hFirst, hRest⟩

end Situated

theorem decided_one
    {statement : Stmt}
    (hStatement : statement.Decided setting scope before) :
    (Stmts.one statement).Decided setting scope before := by
  apply hStatement.congr
  constructor
  · exact .one
  · intro hValid
    cases hValid with
    | one hStatement => exact hStatement

end Grammar

end OnePass

------------------------------------------------------------
-- Statements
------------------------------------------------------------

namespace OnePass

namespace Grammar

open Analysis

mutual

/-
  A statement is accepted exactly where it is valid. The
  place changes on the way down: a loop body is in a loop,
  and statements see what was declared before them.
-/
theorem Stmt.decides
    {setting : Setting}
    {scope : List Binding}
    {before : State}
    (hSituated : Situated before setting scope) :
    (statement : Stmt) →
      Decides (statement.announce receiver) before
        (statement.Valid setting scope)
        (before.bindAll statement.binds)
| .block _ body _ =>
    decided_block (Stmts.decides hSituated.openScope body)
| .declaration declarator initializer stop =>
    decided_declaration hSituated declarator initializer stop
| .assignment name sign value stop =>
    decided_assignment hSituated name sign value stop
| .call parts stop => decided_call hSituated parts stop
| .returnVoid word stop =>
    decided_returnVoid hSituated word stop
| .returnValue word value stop =>
    decided_returnValue hSituated word value stop
| .ifThen _ _ branch =>
    decided_ifThen hSituated
      (Stmt.decides hSituated.openScope branch)
| .ifElse _ _ branch _ otherwise =>
    decided_ifElse hSituated
      (Stmt.decides hSituated.openScope branch)
      (Stmt.decides hSituated.openScope otherwise)
| .whileLoop _ _ body =>
    decided_whileLoop hSituated
      (Stmt.decides hSituated.openLoop.openScope body)
| .jump word stop => decided_jump hSituated word stop

/- Statements are accepted exactly where they are valid. -/
theorem Stmts.decides
    {setting : Setting}
    {scope : List Binding}
    {before : State}
    (hSituated : Situated before setting scope) :
    (statements : Stmts) →
      Decides (statements.announce receiver) before
        (statements.Valid setting scope)
        (before.bindAll statements.binds)
| .one statement =>
    decided_one (Stmt.decides hSituated statement)
| .more statement statements =>
    decided_more hSituated (Stmt.decides hSituated statement)
      fun hAfter => Stmts.decides hAfter statements

end

end Grammar

end OnePass

------------------------------------------------------------
-- Functions
------------------------------------------------------------

namespace OnePass

namespace Analysis

/- The state between two functions. -/
def State.between (functions : Functions) : State where
  symbols :=
    { blocks := []
      outer := []
      functions
      current? := none }
  loops := 0

section Functions

variable {table : Functions}
variable {after : State}

theorem requireNewFunction_eq_ok_iff
    (hIndexed : table.Indexed)
    {name : Identifier} :
    requireNewFunction (.between table) name = .ok () ↔
      ∀ known ∈ table.signatures,
        known.name ≠ name.name := by
  have hFree :
      (State.between table).symbols.isFree name.name = true :=
    rfl
  have hFunction :
      (State.between table).symbols.isFunction name.name =
        table.contains name.name :=
    rfl
  have hContains := hIndexed.contains_iff name.name
  unfold requireNewFunction
  rw [hFree, hFunction]
  cases hKnown : table.contains name.name with
  | true =>
      obtain ⟨known, hListed, hName⟩ :=
        hContains.mp hKnown
      constructor
      · intro hOk
        cases hOk
      · intro hNew
        exact absurd hName (hNew known hListed)
  | false =>
      constructor
      · intro _ known hListed hName
        have hTrue :=
          hContains.mpr ⟨known, hListed, hName⟩
        rw [hKnown] at hTrue
        cases hTrue
      · intro _
        rfl

end Functions

end Analysis

namespace Grammar

open Analysis

section Functions

variable {table : Functions}
variable {earlier : List Signature}
variable {function : Function}

/- The place before the first statement of a function. -/
def Function.setting
    (earlier : List Signature)
    (function : Function) : Setting where
  functions :=
    Functions.library ++ earlier ++ [function.signature]
  returns := function.returns.meaning
  inLoop := false

/- The state before the first statement of a function. -/
def Function.entered
    (table : Functions)
    (function : Function) : State :=
  { State.between table with
    symbols :=
      (State.between table).symbols.inside
        function.signature function.formalList }

theorem Function.formalsFit_iff :
    FormalsFit (State.between table).symbols
        function.name.identifier function.formalList ↔
      (function.bindings.map Binding.name).Nodup ∧
        Unbound function.bindings function.name.text := by
  have hNames :
      function.bindings.map Binding.name =
        function.formalList.map (·.name.name) := by
    unfold Function.bindings
    rw [List.map_map]
    rfl
  unfold FormalsFit Unbound
  rw [hNames]
  apply and_congr_right
  intro _
  unfold Function.bindings
  rw [List.forall_mem_map]
  constructor
  · intro hFormals formal hFormal
    exact (hFormals formal hFormal).1
  · intro hFormals formal hFormal
    exact ⟨hFormals formal hFormal, rfl⟩

/- A function is entered as its body expects. -/
theorem Function.situated_entered
    (hIndexed : table.Indexed)
    (hListed :
      table.signatures = Functions.library ++ earlier)
    (hNew : table.contains function.signature.name = false)
    (hDistinct :
      (function.bindings.map Binding.name).Nodup) :
    Situated (function.entered table)
      (function.setting earlier) function.bindings where
  reflects := by
    have hVisible :
        (function.entered table).symbols.visible =
          function.bindings.reverse := by
      change
        (Symbols.bindAll _ function.bindings).visible = _
      rw [Symbols.visible_bindAll]
      exact List.append_nil _
    have hFunctions :
        (function.entered table).symbols.functions =
          table.append function.signature :=
      Symbols.functions_bindAll _ _
    constructor
    · intro binding
      rw [hVisible, List.mem_reverse]
    · rw [hVisible, List.map_reverse]
      exact List.nodup_reverse.mpr hDistinct
    · intro name signature
      have hAppend :=
        (Functions.indexed_append hIndexed
          hNew).get?_eq_some_iff name signature
      unfold Symbols.signature?
      rw [hFunctions, hAppend]
      change
        signature ∈ table.signatures ++ [_] ∧ _ ↔ _
      rw [hListed]
      rfl
  returns := by
    have hCurrent :
        (function.entered table).current? =
          some function.signature :=
      Symbols.current?_bindAll _ _
    rw [hCurrent]
    rfl
  inLoop := by
    constructor
    · intro hLoop
      cases hLoop
    · intro hLoops
      exact absurd rfl hLoops

/- A function is left as it was entered. -/
theorem Function.step_functionEnd
    (bindings : List Binding)
    (span : Span) :
    step ((function.entered table).bindAll bindings)
        (.functionEnd span) =
      .ok (.between (table.append function.signature)) := by
  have hClose :
      ((function.entered table).bindAll
          bindings).symbols.closeScope =
        .ok
          (((State.between table).symbols.withFunction
            function.signature).enter
              function.signature) := by
    change
      (Symbols.bindAll (Symbols.bindAll _ _) _).closeScope = _
    rw [← Symbols.bindAll_append]
    exact Symbols.closeScope_bindAll rfl _
  rw [step, closeFunction, hClose]
  rfl

/- The header of a function is accepted if its name is new. -/
theorem Function.decides_functionHeader
    (hIndexed : table.Indexed)
    (hListed :
      table.signatures = Functions.library ++ earlier) :
    Decides
      (receiver.effect
        (.functionHeader function.returns.meaning
          function.name.identifier))
      (.between table)
      (∀ known ∈ Functions.library ++ earlier,
        known.name ≠ function.name.text)
      (.between table) := by
  apply decides_check rfl
  rw [requireNewFunction_eq_ok_iff hIndexed, hListed]
  rfl

/- A function with a new name and good formals is entered. -/
theorem Function.decides_functionSignature
    (hNew : table.contains function.signature.name = false) :
    Decides
      (receiver.effect
        (.functionSignature function.returns.meaning
          function.name.identifier function.formalList))
      (.between table)
      ((function.bindings.map Binding.name).Nodup ∧
        Unbound function.bindings function.name.text)
      (function.entered table) := by
  apply decides_effect
  intro after
  rw [step, ← @Function.formalsFit_iff table function]
  by_cases hFormals :
      FormalsFit (State.between table).symbols
        function.name.identifier function.formalList
  · have hDeclare :
        declareFunction (.between table)
            function.returns.meaning
            function.name.identifier function.formalList =
          .ok (function.entered table) :=
      declareFunction_of_formalsFit hNew hFormals
    rw [hDeclare]
    constructor
    · intro hOk
      cases hOk
      exact ⟨hFormals, rfl⟩
    · rintro ⟨-, rfl⟩
      rfl
  · obtain ⟨formal, hReject⟩ :=
      @declareFunction_of_not_formalsFit
        (.between table) function.returns.meaning
        function.name.identifier function.formalList hFormals
    rw [hReject]
    constructor
    · intro hOk
      cases hOk
    · rintro ⟨hFit, -⟩
      exact absurd hFit hFormals

theorem Function.contains_eq_false
    (hIndexed : table.Indexed)
    (hListed :
      table.signatures = Functions.library ++ earlier)
    (hNew :
      ∀ known ∈ Functions.library ++ earlier,
        known.name ≠ function.name.text) :
    table.contains function.signature.name = false := by
  rw [← Bool.not_eq_true, hIndexed.contains_iff, hListed]
  rintro ⟨known, hKnown, hName⟩
  exact hNew known hKnown hName

/- A function is accepted exactly if it is valid. -/
theorem Function.decides
    (hIndexed : table.Indexed)
    (hListed :
      table.signatures = Functions.library ++ earlier) :
    Decides (function.announce receiver) (.between table)
      (function.Valid earlier)
      (.between (table.append function.signature)) := by
  have hHeader :=
    @Function.decides_functionHeader table earlier function
      hIndexed hListed
  have hAll :=
    hHeader.andThen fun hNew =>
      have hAbsent :=
        Function.contains_eq_false hIndexed hListed hNew
      (Function.decides_functionSignature hAbsent).andThen
        fun hFormals =>
          have hSituated :=
            Function.situated_entered hIndexed hListed hAbsent
              hFormals.1
          (Stmts.decides hSituated function.body).andThen
            fun _ =>
              decides_true
                (Function.step_functionEnd
                  function.body.binds function.stop.span)
  apply hAll.congr
  constructor
  · rintro ⟨hNew, ⟨hDistinct, hFormals⟩, hBody, -⟩
    exact ⟨hNew, hDistinct, hFormals, hBody⟩
  · rintro ⟨hNew, hDistinct, hFormals, hBody⟩
    exact ⟨hNew, ⟨hDistinct, hFormals⟩, hBody, trivial⟩

end Functions

end Grammar

end OnePass

------------------------------------------------------------
-- Programs
------------------------------------------------------------

namespace OnePass

namespace Grammar

open Analysis

/- What holds of every split holds of the first, and later. -/
theorem forall_split_cons_iff
    {first : Function}
    {rest : List Function}
    {Holds : List Function → Function → Prop} :
    (∀ earlier function later,
        first :: rest = earlier ++ function :: later →
          Holds earlier function) ↔
      Holds [] first ∧
        ∀ earlier function later,
          rest = earlier ++ function :: later →
            Holds (first :: earlier) function := by
  constructor
  · intro hAll
    refine ⟨hAll [] first rest rfl, ?_⟩
    intro earlier function later hSplit
    apply hAll (first :: earlier) function later
    rw [hSplit, List.cons_append]
  · rintro ⟨hFirst, hRest⟩ earlier function later hSplit
    cases earlier with
    | nil =>
        cases hSplit
        exact hFirst
    | cons other earlier =>
        obtain ⟨hOther, hLater⟩ := List.cons.inj hSplit
        subst hOther
        exact hRest earlier function later hLater

section Listed

variable {table : Functions}
variable (hIndexed : table.Indexed)
variable {earlier : List Function}
variable
  (hListed :
    table.signatures =
      Functions.library ++ earlier.map Function.signature)

/- The functions are valid one after the other. -/
def ValidAfter (earlier functions : List Function) : Prop :=
  ∀ before function later,
    functions = before ++ function :: later →
      function.Valid
        ((earlier ++ before).map Function.signature)

theorem validAfter_cons_iff
    {earlier functions : List Function}
    {function : Function} :
    ValidAfter earlier (function :: functions) ↔
      function.Valid (earlier.map Function.signature) ∧
        ValidAfter (earlier ++ [function]) functions := by
  unfold ValidAfter
  rw [forall_split_cons_iff, List.append_nil]
  simp only [List.append_assoc, List.singleton_append]

include hListed

theorem signatures_append
    (function : Function) :
    (table.append function.signature).signatures =
      Functions.library ++
        (earlier ++ [function]).map Function.signature := by
  change table.signatures ++ [function.signature] = _
  rw [hListed, List.map_append, List.append_assoc]
  rfl

include hIndexed

/- Functions are accepted if each is valid after the others. -/
theorem decides_functions
    (functions : List Function) :
    Decides (announceFunctions receiver functions)
      (.between table) (ValidAfter earlier functions)
      (.between
        (table.appendAll
          (functions.map Function.signature))) := by
  induction functions generalizing table earlier with
  | nil =>
      intro after
      rw [announceFunctions, pure_eq_ok_iff]
      constructor
      · rintro ⟨-, rfl⟩
        refine ⟨?_, rfl⟩
        intro before function later hSplit
        simp at hSplit
      · rintro ⟨-, rfl⟩
        exact ⟨rfl, rfl⟩
  | cons function functions ih =>
      have hFunction :=
        @Function.decides table _ function hIndexed hListed
      have hAll :=
        hFunction.andThen fun hValid =>
          have hAbsent :=
            Function.contains_eq_false hIndexed hListed
              hValid.newName
          ih (Functions.indexed_append hIndexed hAbsent)
            (signatures_append hListed function)
      rw [announceFunctions]
      exact hAll.congr validAfter_cons_iff.symm

/- Valid functions can all be found by their names. -/
theorem indexed_appendAll
    {functions : List Function}
    (hValid : ValidAfter earlier functions) :
    (table.appendAll
      (functions.map Function.signature)).Indexed := by
  induction functions generalizing table earlier with
  | nil => exact hIndexed
  | cons function functions ih =>
      obtain ⟨hFirst, hRest⟩ := validAfter_cons_iff.mp hValid
      have hAbsent :=
        Function.contains_eq_false hIndexed hListed
          hFirst.newName
      exact
        ih (Functions.indexed_append hIndexed hAbsent)
          (signatures_append hListed function) hRest

end Listed

/- The entry point is found exactly if it is declared. -/
theorem decides_programEnd
    {signatures : List Signature}
    (hIndexed :
      (Functions.withLibrary.appendAll signatures).Indexed) :
    Decides (receiver.effect .programEnd)
      (.between
        (Functions.withLibrary.appendAll signatures))
      (Signature.entryPoint ∈ signatures)
      (.between
        (Functions.withLibrary.appendAll signatures)) := by
  have hFound :
      (Functions.withLibrary.appendAll signatures).get?
            Signature.entryPoint.name =
          some Signature.entryPoint ↔
        Signature.entryPoint ∈ signatures := by
    rw [hIndexed.get?_eq_some_iff,
      Functions.signatures_appendAll, List.mem_append]
    constructor
    · rintro ⟨hLibrary | hDeclared, -⟩
      · exact absurd hLibrary (by decide)
      · exact hDeclared
    · intro hDeclared
      exact ⟨.inr hDeclared, rfl⟩
  apply decides_check rfl
  rw [← hFound]
  unfold requireEntryPoint
  change
    (if ((Functions.withLibrary.appendAll signatures).get?
          Signature.entryPoint.name).any
          Signature.isEntryPoint = true then
        _
      else
        _) = _ ↔ _
  cases
      (Functions.withLibrary.appendAll signatures).get?
        Signature.entryPoint.name with
  | none => simp
  | some signature => simp [Signature.isEntryPoint]

/- A program is accepted exactly if it is valid. -/
theorem Program.decides
    (program : Program) :
    Decides (program.announce receiver) .initial program.Valid
      (.between
        (Functions.withLibrary.appendAll
          program.signatures)) := by
  have hLibrary :
      Functions.withLibrary.signatures =
        Functions.library ++
          ([] : List Function).map Function.signature :=
    rfl
  have hFunctions :=
    decides_functions Functions.indexed_withLibrary hLibrary
      program.functions
  have hAll :=
    hFunctions.andThen fun hValid =>
      decides_programEnd
        (indexed_appendAll Functions.indexed_withLibrary
          hLibrary hValid)
  apply hAll.congr
  constructor
  · rintro ⟨hFunctions, hEntry⟩
    exact ⟨hFunctions, hEntry⟩
  · rintro ⟨hFunctions, hEntry⟩
    exact ⟨hFunctions, hEntry⟩

end Grammar

/-
  An analysis succeeds exactly on the tokens of a program
  that keeps the rules, and its result is what the functions
  of that program declare.
-/
theorem analyze_ok_iff_valid
    (tokens : List Token)
    (signatures : List Signature) :
    analyze tokens = .ok signatures ↔
      ∃ program : Grammar.Program,
        program.IsTreeOf tokens ∧
          program.Valid ∧
            signatures = program.signatures := by
  have hParse :
      analyze tokens = .ok signatures ↔
        ∃ final : Analysis.State,
          parse Analysis.receiver tokens .initial =
              (.ok (), final) ∧
            final.declared = signatures := by
    unfold analyze
    split
    · next final hRun => simp [hRun]
    · next failure final hRun => simp [hRun]
  rw [hParse]
  constructor
  · rintro ⟨final, hRun, rfl⟩
    obtain ⟨program, hTree, hDone⟩ := parse_eq_ok_iff.mp hRun
    obtain ⟨hValid, rfl⟩ := (program.decides final).mp hDone
    exact
      ⟨program, hTree, hValid,
        Functions.declared_appendAll program.signatures⟩
  · rintro ⟨program, hTree, hValid, rfl⟩
    have hDone := (program.decides _).mpr ⟨hValid, rfl⟩
    exact
      ⟨_, parse_eq_ok_iff.mpr ⟨program, hTree, hDone⟩,
        Functions.declared_appendAll program.signatures⟩

/- The program `void main() { return; }`. -/
example :
    analyze
        [⟨.kwVoid, "void", ⟨0, 4, 1⟩⟩,
          ⟨.identifier, "main", ⟨5, 9, 1⟩⟩,
          ⟨.leftParen, "(", ⟨9, 10, 1⟩⟩,
          ⟨.rightParen, ")", ⟨10, 11, 1⟩⟩,
          ⟨.leftBrace, "\x7b", ⟨12, 13, 1⟩⟩,
          ⟨.kwReturn, "return", ⟨14, 20, 1⟩⟩,
          ⟨.semicolon, ";", ⟨20, 21, 1⟩⟩,
          ⟨.rightBrace, "\x7d", ⟨22, 23, 1⟩⟩] =
      .ok [⟨"main", .void, []⟩] := by
  rfl

end OnePass
