import OnePass.Proofs.Analysis.Judgement
import OnePass.Proofs.Parser.Reading.Operators

/-
  What the analysis decides inside a function.

  The state of the analysis is compared with the place at
  which a statement stands: which functions may be called,
  which variables are visible, what the function returns and
  whether a loop is open. Each event inside a function then
  decides a condition on that place, and changes the state
  in a known way if the condition holds.

  Main declarations:
    * `Analysis.Decides`
    * `Analysis.decides_inScope`
    * `Analysis.decides_value`
    * `Analysis.Situated`
    * `Analysis.decides_declaration`, and for other events
-/

------------------------------------------------------------
-- Decisions
------------------------------------------------------------

namespace OnePass

namespace Analysis

namespace State

/- The state inside one more scope. -/
def openScope (state : State) : State :=
  { state with symbols := state.symbols.openScope }

/- The state inside one more loop. -/
def openLoop (state : State) : State :=
  { state with loops := state.loops + 1 }

/- The state with more variables in the innermost scope. -/
def bindAll
    (state : State)
    (bindings : List Binding) : State :=
  { state with symbols := state.symbols.bindAll bindings }

theorem bindAll_append
    (state : State)
    (first second : List Binding) :
    state.bindAll (first ++ second) =
      (state.bindAll first).bindAll second := by
  unfold bindAll
  rw [Symbols.bindAll_append]

end State

/-
  The act is accepted exactly if the condition holds, and
  then leads to the final state.
-/
def Decides
    (act : EStateM Stop State Unit)
    (before : State)
    (Condition : Prop)
    (final : State) : Prop :=
  ∀ after,
    act before = .ok () after ↔ Condition ∧ final = after

section Decides

variable {act first second : EStateM Stop State Unit}
variable {before between final : State}
variable {First Second : Prop}

theorem Decides.congr
    (hAct : Decides act before First final)
    (hIff : First ↔ Second) :
    Decides act before Second final := by
  intro after
  rw [hAct after, hIff]

/- The second act may rely on what the first one decided. -/
theorem Decides.andThen
    (hFirst : Decides first before First between)
    (hSecond :
      First → Decides second between Second final) :
    Decides
      (do
        first
        second)
      before (First ∧ Second) final := by
  intro after
  rw [bind_eq_ok_iff]
  constructor
  · rintro ⟨_, _, hDone, hRest⟩
    obtain ⟨hHolds, rfl⟩ := (hFirst _).mp hDone
    obtain ⟨hAlso, rfl⟩ := (hSecond hHolds _).mp hRest
    exact ⟨⟨hHolds, hAlso⟩, rfl⟩
  · rintro ⟨⟨hHolds, hAlso⟩, rfl⟩
    have hDone := (hFirst _).mpr ⟨hHolds, rfl⟩
    have hRest := (hSecond hHolds _).mpr ⟨hAlso, rfl⟩
    exact ⟨(), _, hDone, hRest⟩

theorem decides_effect
    {event : EffectEvent Ty}
    (hStep :
      ∀ after,
        step before event = .ok after ↔
          First ∧ final = after) :
    Decides (receiver.effect event) before First final := by
  intro after
  rw [receiver_effect_eq_ok_iff, hStep]

/- An event that is always accepted. -/
theorem decides_true
    {event : EffectEvent Ty}
    (hStep : step before event = .ok final) :
    Decides (receiver.effect event) before True final := by
  apply decides_effect
  intro after
  rw [hStep]
  simp

/- An event that is a check leaves the state as it is. -/
theorem decides_check
    {event : EffectEvent Ty}
    {check : Except Stop Unit}
    (hStep :
      step before event =
        do
          check
          return before)
    (hCheck : check = .ok () ↔ First) :
    Decides (receiver.effect event) before First before := by
  apply decides_effect
  intro after
  rw [hStep, then_eq_ok_iff, ← hCheck]
  constructor
  · rintro ⟨⟨⟩, hDone, hAfter⟩
    cases hAfter
    exact ⟨hDone, rfl⟩
  · rintro ⟨hDone, rfl⟩
    exact ⟨(), hDone, rfl⟩

end Decides

/- A scope is left as it was entered. -/
theorem step_closeScope_bindAll
    (state : State)
    (bindings : List Binding) :
    step (state.openScope.bindAll bindings) .closeScope =
      .ok state := by
  have hClose :
      (state.symbols.openScope.bindAll bindings).closeScope =
        .ok state.symbols :=
    Symbols.closeScope_bindAll rfl bindings
  rw [step, closeScope]
  change
    (do
      return { state with
        symbols :=
          ← guarded
            (state.symbols.openScope.bindAll
              bindings).closeScope }) = _
  rw [hClose]
  rfl

/- What is accepted inside a scope leaves no trace. -/
theorem decides_inScope
    {inside : EStateM Stop State Unit}
    {before : State}
    {bindings : List Binding}
    {Condition : Prop}
    (hInside :
      Decides inside before.openScope Condition
        (before.openScope.bindAll bindings)) :
    Decides (Grammar.inScope receiver inside) before Condition
      before := by
  have hOpen :
      Decides (receiver.effect .openScope) before True
        before.openScope :=
    decides_true rfl
  have hClose :=
    decides_true (step_closeScope_bindAll before bindings)
  have hScope :=
    hOpen.andThen fun _ => hInside.andThen fun _ => hClose
  apply hScope.congr
  rw [true_and, and_true]

/- An expression, and an event that checks what it is. -/
theorem decides_value
    {before final : State}
    {functions : List Signature}
    {scope : List Binding}
    (hReflects : Reflects before.symbols functions scope)
    {layer : Nat}
    (expr : Grammar.Expr layer)
    {event : Typed Ty → EffectEvent Ty}
    {Fits : Typed Ty → Prop}
    (hEvent :
      ∀ value,
        Decides (receiver.effect (event value)) before
          (Fits value) final) :
    Decides
      (do
        let value ← expr.value receiver
        receiver.effect (event value))
      before
      (∃ ty,
        expr.HasType functions scope ty ∧
          Fits ⟨ty, expr.span⟩)
      final := by
  intro after
  simp only [bind_eq_ok_iff, Grammar.Expr.value_eq_ok_iff]
  constructor
  · rintro ⟨⟨ty, _⟩, _, ⟨hValue, rfl⟩, hAccepted⟩
    obtain ⟨hType, rfl⟩ :=
      (expr.announce_eq_ok_iff hReflects _ _).mp hValue
    obtain ⟨hFits, rfl⟩ := (hEvent _ _).mp hAccepted
    exact ⟨⟨ty, hType, hFits⟩, rfl⟩
  · rintro ⟨⟨ty, hType, hFits⟩, rfl⟩
    have hValue :=
      (expr.announce_eq_ok_iff hReflects ty before).mpr
        ⟨hType, rfl⟩
    have hAccepted := (hEvent _ final).mpr ⟨hFits, rfl⟩
    exact ⟨_, _, ⟨hValue, rfl⟩, hAccepted⟩

end Analysis

end OnePass

------------------------------------------------------------
-- Places
------------------------------------------------------------

namespace OnePass

namespace Analysis

open Grammar (Setting Unbound)

/- The state is as the place of a statement says. -/
structure Situated
    (state : State)
    (setting : Setting)
    (scope : List Binding) : Prop where
  reflects :
    Reflects state.symbols setting.functions scope
  returns :
    state.current?.map Signature.returns =
      some setting.returns
  inLoop : setting.inLoop = true ↔ state.loops ≠ 0

section Situated

variable {state : State}
variable {setting : Setting}
variable {scope : List Binding}

theorem Situated.openScope
    (hSituated : Situated state setting scope) :
    Situated state.openScope setting scope where
  reflects :=
    { visible := hSituated.reflects.visible
      distinct := hSituated.reflects.distinct
      signature? := hSituated.reflects.signature? }
  returns := hSituated.returns
  inLoop := hSituated.inLoop

theorem Situated.openLoop
    (hSituated : Situated state setting scope) :
    Situated state.openLoop { setting with inLoop := true }
      scope where
  reflects := hSituated.reflects
  returns := hSituated.returns
  inLoop := by simp [State.openLoop]

/- A variable with a new name becomes visible. -/
theorem Situated.bind
    (hSituated : Situated state setting scope)
    {binding : Binding}
    (hNew : Unbound scope binding.name) :
    Situated (state.bindAll [binding]) setting
      (binding :: scope) where
  reflects := by
    have hVisible :
        (state.bindAll [binding]).symbols.visible =
          binding :: state.symbols.visible :=
      Symbols.visible_bind state.symbols binding
    constructor
    · intro other
      rw [hVisible, List.mem_cons, List.mem_cons,
        hSituated.reflects.visible]
    · rw [hVisible, List.map_cons, List.nodup_cons]
      refine ⟨?_, hSituated.reflects.distinct⟩
      intro hTaken
      obtain ⟨other, hOther, hName⟩ := List.mem_map.mp hTaken
      have hSeen :=
        (hSituated.reflects.visible other).mp hOther
      exact hNew other hSeen hName
    · intro name signature
      rw [← hSituated.reflects.signature?]
      change
        (state.symbols.bind binding).functions.get? name =
            some signature ↔
          _
      rw [Symbols.functions_bind]
      rfl
  returns := by
    change
      (state.symbols.bind binding).current?.map _ = _
    rw [Symbols.current?_bind]
    exact hSituated.returns
  inLoop := hSituated.inLoop

end Situated

end Analysis

end OnePass

------------------------------------------------------------
-- Events Inside A Function
------------------------------------------------------------

namespace OnePass

namespace Analysis

open Grammar (Setting Unbound)

section Events

variable {before : State}
variable {setting : Setting}
variable {scope : List Binding}

theorem decides_condition
    (value : Typed Ty) :
    Decides (receiver.effect (.condition value)) before
      (value.ty.castsTo .bool = true) before :=
  decides_check rfl requireCast_eq_ok_iff

/- `break` and `continue` make sense inside a loop. -/
theorem requireLoop_eq_ok_iff
    (hSituated : Situated before setting scope)
    {cause : Cause}
    {span : Span} :
    requireLoop before cause span = .ok () ↔
      setting.inLoop = true := by
  rw [hSituated.inLoop]
  unfold requireLoop
  split
  case isTrue hNone => simp [hNone, reject]
  case isFalse hSome => simp [hSome]

theorem decides_declarationStart
    (hSituated : Situated before setting scope)
    (isConst : Bool)
    (ty : Ty)
    (name : Identifier) :
    Decides
      (receiver.effect (.declarationStart isConst ty name))
      before (Unbound scope name.name) before := by
  apply decides_check rfl
  rw [← hSituated.reflects.isFree_iff]
  unfold requireFree
  split
  case isTrue hFree => simp [hFree]
  case isFalse hTaken => simp [hTaken, reject]

theorem requireInitializer_eq_ok_iff
    {isConst : Bool}
    {ty : Ty}
    {name : Identifier}
    {initializer : Option (Typed Ty)}
    {span : Span} :
    requireInitializer isConst ty name initializer span =
        .ok () ↔
      (isConst = true → initializer.isSome = true) ∧
        ∀ value ∈ initializer, value.ty.castsTo ty = true := by
  unfold requireInitializer
  cases initializer with
  | some value => simp [requireCast_eq_ok_iff]
  | none =>
      cases isConst with
      | true => simp [reject]
      | false => simp

/- A declaration adds its variable to the innermost scope. -/
theorem decides_declaration
    (hSituated : Situated before setting scope)
    (isConst : Bool)
    (ty : Ty)
    {name : Identifier}
    (hNew : Unbound scope name.name)
    (initializer : Option (Typed Ty))
    (span : Span) :
    Decides
      (receiver.effect
        (.declaration isConst ty name initializer span))
      before
      ((isConst = true → initializer.isSome = true) ∧
        ∀ value ∈ initializer, value.ty.castsTo ty = true)
      (before.bindAll [⟨name.name, ty, isConst⟩]) := by
  have hFree : before.symbols.isFree name.name = true :=
    hSituated.reflects.isFree_iff.mpr hNew
  have hBind :
      before.symbols.declareVariable
          ⟨name.name, ty, isConst⟩ =
        .ok (before.symbols.bind ⟨name.name, ty, isConst⟩) :=
    Symbols.declareVariable_of_isFree hFree
  apply decides_effect
  intro after
  rw [step, declare, hBind, then_eq_ok_iff,
    ← requireInitializer_eq_ok_iff]
  constructor
  · rintro ⟨⟨⟩, hDone, hAfter⟩
    cases hAfter
    exact ⟨hDone, rfl⟩
  · rintro ⟨hDone, rfl⟩
    exact ⟨(), hDone, rfl⟩

theorem decides_assignment
    (hSituated : Situated before setting scope)
    (name : Identifier)
    (span : Span)
    (value : Typed Ty) :
    Decides (receiver.effect (.assignment name value span))
      before
      (∃ binding ∈ scope,
        binding.name = name.name ∧
          binding.isConst = false ∧
            value.ty.castsTo binding.ty = true)
      before := by
  have hFind :=
    @Reflects.lookup_eq_some_iff _ _ _ hSituated.reflects
      name.name
  apply decides_check rfl
  unfold assign
  cases hFound : before.symbols.lookup name.name with
  | none =>
      constructor
      · intro hOk
        cases hOk
      · rintro ⟨binding, hVisible, hName, -, -⟩
        have hSome := hFind.mpr ⟨hVisible, hName⟩
        rw [hFound] at hSome
        cases hSome
  | some binding =>
      obtain ⟨hVisible, hName⟩ := hFind.mp hFound
      have hOnly :
          ∀ other ∈ scope,
            other.name = name.name → other = binding := by
        intro other hOther hSame
        have hSome := hFind.mpr ⟨hOther, hSame⟩
        rw [hFound] at hSome
        exact (Option.some.inj hSome).symm
      simp only
      cases hConst : binding.isConst with
      | true =>
          constructor
          · intro hOk
            cases hOk
          · rintro ⟨other, hOther, hSame, hNot, -⟩
            rw [hOnly other hOther hSame, hConst] at hNot
            cases hNot
      | false =>
          rw [if_neg Bool.false_ne_true, requireCast_eq_ok_iff]
          constructor
          · intro hCast
            exact ⟨binding, hVisible, hName, hConst, hCast⟩
          · rintro ⟨other, hOther, hSame, -, hCast⟩
            rw [hOnly other hOther hSame] at hCast
            exact hCast

theorem returnType_eq_ok
    {span : Span}
    (hSituated : Situated before setting scope) :
    returnType before span = .ok setting.returns := by
  have hReturns := hSituated.returns
  unfold returnType
  cases hCurrent : before.current? with
  | none =>
      rw [hCurrent] at hReturns
      cases hReturns
  | some signature =>
      rw [hCurrent] at hReturns
      have hSame : signature.returns = setting.returns :=
        Option.some.inj hReturns
      exact congrArg Except.ok hSame

theorem decides_returnVoid
    (hSituated : Situated before setting scope)
    (span : Span) :
    Decides (receiver.effect (.returnVoid span)) before
      (setting.returns = .void) before := by
  apply decides_check rfl
  unfold returnVoid
  rw [returnType_eq_ok hSituated]
  change
    (if setting.returns = .void then _ else _) = _ ↔ _
  split
  case isTrue hVoid => simp [hVoid, pure, Except.pure]
  case isFalse hOther => simp [hOther, reject]

theorem isVoid_iff
    {ty : Ty} :
    ty.isVoid = true ↔ ty = .void := by
  cases ty with
  | void => simp [Ty.isVoid]
  | int => simp [Ty.isVoid]
  | byte => simp [Ty.isVoid]
  | bool => simp [Ty.isVoid]
  | string => simp [Ty.isVoid]

/- No value may be used where nothing is expected. -/
theorem eq_void_of_castsTo
    {target : Ty}
    (hCast : Ty.void.castsTo target = true) :
    target = .void := by
  unfold Ty.castsTo at hCast
  simp only [Bool.or_eq_true, Bool.and_eq_true,
    decide_eq_true_eq, reduceCtorEq, false_and,
    or_false] at hCast
  exact hCast.symm

theorem decides_returnValue
    (hSituated : Situated before setting scope)
    (span : Span)
    (value : Typed Ty) :
    Decides (receiver.effect (.returnValue value span)) before
      (setting.returns ≠ .void ∧
        value.ty.castsTo setting.returns = true)
      before := by
  apply decides_check rfl
  unfold returnValue
  rw [returnType_eq_ok hSituated]
  change
    (if setting.returns.isVoid || value.ty.isVoid then _
      else _) = _ ↔ _
  split
  case isTrue hVoid =>
    constructor
    · intro hOk
      cases hOk
    · rintro ⟨hReturns, hCast⟩
      rcases Bool.or_eq_true_iff.mp hVoid with hVoid | hVoid
      · exact absurd (isVoid_iff.mp hVoid) hReturns
      · rw [isVoid_iff.mp hVoid] at hCast
        exact absurd (eq_void_of_castsTo hCast) hReturns
  case isFalse hOther =>
    rw [requireCast_eq_ok_iff]
    constructor
    · intro hCast
      refine ⟨?_, hCast⟩
      intro hReturns
      rw [isVoid_iff.mpr hReturns] at hOther
      exact hOther rfl
    · rintro ⟨-, hCast⟩
      exact hCast

end Events

end Analysis

end OnePass
