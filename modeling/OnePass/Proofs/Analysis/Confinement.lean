import OnePass.Proofs.Analysis.Invariant
import OnePass.Proofs.Grammar.Use

/-
  Where values without a storable type can stand.

  Variables, parameters and the targets of casts have
  storable types, no function returns a string, and only
  `print` takes one. So an expression of type void is a
  call, one of type string is a literal, and no operation or
  statement accepts either as a part, except that `print`
  accepts a string. In an accepted program a void call is
  therefore a statement of its own, and a string is the
  argument of `print`.

  Main declarations:
    * `Analysis.Orderly`
    * `Analysis.Confined`
    * `Analysis.Confines`
    * `Grammar.Expr.confines`, `Grammar.Stmt.confines`
    * `analyze_confines_void_and_string`
-/

------------------------------------------------------------
-- Storable Types
------------------------------------------------------------

namespace OnePass

namespace Ty

variable {source target : Ty}

theorem storable_of_isNumeral
    (hNumeral : source.isNumeral = true) :
    source.Storable := by
  cases source with
  | int => trivial
  | byte => trivial
  | bool => cases hNumeral
  | string => cases hNumeral
  | void => cases hNumeral

theorem storable_of_castsTo
    (hCast : source.castsTo target = true)
    (hTarget : target.Storable) :
    source.Storable := by
  rcases castsTo_iff.mp hCast with hSame | ⟨hByte, -⟩
  · rw [hSame]
    exact hTarget
  · rw [hByte]
    trivial

theorem storable_of_castsExplicitlyTo
    (hCast : source.castsExplicitlyTo target = true)
    (hTarget : target.Storable) :
    source.Storable := by
  simp only [castsExplicitlyTo, Bool.or_eq_true,
    Bool.and_eq_true, decide_eq_true_eq] at hCast
  rcases hCast with hSame | ⟨hNumeral, -⟩
  · rw [hSame]
    exact hTarget
  · exact storable_of_isNumeral hNumeral

theorem Storable.ne_void
    (hSource : source.Storable) :
    source ≠ .void := by
  intro hVoid
  rw [hVoid] at hSource
  exact hSource

theorem Storable.ne_string
    (hSource : source.Storable) :
    source ≠ .string := by
  intro hString
  rw [hString] at hSource
  exact hSource

end Ty

end OnePass

------------------------------------------------------------
-- Orderly States
------------------------------------------------------------

namespace OnePass

namespace Analysis

open OnePass.Parser (Stage Course)

/- The state occurs at some stage of a run. -/
def Orderly (state : State) : Prop :=
  ∃ stage, Upright stage state

namespace Orderly

variable {state : State}
variable (hState : Orderly state)

include hState

theorem tidy : state.symbols.Tidy := by
  rcases hState with ⟨stage, hUpright⟩
  exact hUpright.tidy

theorem storable_of_lookup
    {name : String}
    {binding : Binding}
    (hFound : state.symbols.lookup name = some binding) :
    binding.ty.Storable :=
  hState.tidy.storable binding
    (List.mem_of_find?_eq_some hFound)

/- No function but `print` takes what is not storable. -/
theorem of_signature?
    {name : String}
    {signature : Signature}
    (hFound : state.symbols.signature? name = some signature) :
    signature.returns ≠ .string ∧
      ((∀ ty ∈ signature.parameters, ty.Storable) ∨
        name = "print" ∧ signature.parameters = [.string]) := by
  have hTidy := hState.tidy
  rcases (hTidy.indexed.get?_eq_some_iff name signature).mp
    hFound with ⟨hListed, hName⟩
  rw [hTidy.functions, Functions.signatures_appendAll,
    List.mem_append] at hListed
  rcases hListed with hLibrary | hDeclared
  · change signature ∈ Functions.library at hLibrary
    simp only [Functions.library, List.mem_cons,
      List.not_mem_nil, or_false] at hLibrary
    rcases hLibrary with hPrint | hPrinti
    · rw [hPrint] at hName ⊢
      exact ⟨by simp, .inr ⟨hName.symm, rfl⟩⟩
    · rw [hPrinti]
      refine ⟨by simp, .inl ?_⟩
      intro ty hTy
      rw [List.mem_singleton.mp hTy]
      trivial
  · have hWritable := hTidy.writable signature hDeclared
    exact ⟨hWritable.returns, .inl hWritable.parameters⟩

/- No function at hand returns a string. -/
theorem returns_ne_string
    {signature : Signature}
    (hCurrent : state.current? = some signature) :
    signature.returns ≠ .string := by
  rcases hState with ⟨stage, hUpright⟩
  have hHand := hUpright.atHand
  cases hScopes : stage.scopes with
  | zero =>
      rw [hScopes] at hHand
      change state.current? = none at hHand
      rw [hCurrent] at hHand
      cases hHand
  | succ scopes =>
      rw [hScopes] at hHand
      rcases hHand with ⟨last, hSame, hLast⟩
      rw [hCurrent] at hSame
      rw [Option.some.inj hSame]
      exact
        (hUpright.tidy.writable last
          (List.mem_of_getLast? hLast)).returns

end Orderly

end Analysis

end OnePass

------------------------------------------------------------
-- Confined Values
------------------------------------------------------------

namespace OnePass

namespace ValueEvent

variable {τ : Type}

def IsCall : ValueEvent τ → Prop
| call _ _ _ => True
| _ => False

def IsStringLiteral : ValueEvent τ → Prop
| stringLiteral _ => True
| _ => False

end ValueEvent

/- An expression is announced. -/
def Event.isValue
    {τ : Type} : Event τ → Bool
| value _ => true
| effect _ => false

/- What is seen of expressions. -/
def valueSightings
    {σ τ : Type}
    (sightings : List (Sighting σ τ)) :
    List (Sighting σ τ) :=
  sightings.filter (·.event.isValue)

namespace Analysis

open Grammar (Role Use)

/- The expression that was seen has the type. -/
def Answers
    (sighting : Sighting State Ty)
    (ty : Ty) : Prop :=
  ∃ event,
    sighting.event = .value event ∧
      receiver.value event sighting.before =
        .ok ty sighting.after

/-
  What was seen is the use of an expression that has a type;
  it is void only for a call that is a statement, and a
  string only for a literal that `print` is applied to.
-/
structure Confined
    (sighting : Sighting State Ty)
    (use : Use) : Prop where
  isUse : sighting.event.erase = .value use.event
  isTyped : ∃ ty, Answers sighting ty
  void :
    Answers sighting .void →
      use.event.IsCall ∧ use.role = .statement
  string :
    Answers sighting .string →
      use.event.IsStringLiteral ∧
        use.role = .argument "print" 1

/- A value of the type may be used in the role. -/
structure Admits
    (role : Role)
    (ty : Ty) : Prop where
  void : ty = .void → role = .statement
  string : ty = .string → role = .argument "print" 1

theorem admits_of_storable
    {ty : Ty}
    (hTy : ty.Storable)
    (role : Role) :
    Admits role ty where
  void hVoid := absurd hVoid hTy.ne_void
  string hString := absurd hString hTy.ne_string

/- The event may have the type, going by its form. -/
structure Formed
    (event : ValueEvent Ty)
    (ty : Ty) : Prop where
  void : ty = .void → event.IsCall
  string : ty = .string → event.IsStringLiteral

theorem formed_of_storable
    {ty : Ty}
    (hTy : ty.Storable)
    (event : ValueEvent Ty) :
    Formed event ty where
  void hVoid := absurd hVoid hTy.ne_void
  string hString := absurd hString hTy.ne_string

theorem isCall_erase
    {event : ValueEvent Ty}
    (hCall : event.IsCall) :
    event.erase.IsCall := by
  cases event with
  | call callee arguments span => trivial
  | _ => cases hCall

theorem isStringLiteral_erase
    {event : ValueEvent Ty}
    (hLiteral : event.IsStringLiteral) :
    event.erase.IsStringLiteral := by
  cases event with
  | stringLiteral span => trivial
  | _ => cases hLiteral

/- A value with the form and the use that its type asks for. -/
theorem confined_of_valueType
    {event : ValueEvent Ty}
    {state : State}
    {ty : Ty}
    {role : Role}
    (hTy : valueType state.symbols event = .ok ty)
    (hFormed : Formed event ty)
    (hAdmits : Admits role ty) :
    Confined ⟨.value event, state, state, true⟩
      ⟨event.erase, role⟩ := by
  have hUnique :
      ∀ {other},
        Answers ⟨.value event, state, state, true⟩ other →
          ty = other := by
    rintro other ⟨_, hEvent, hOther⟩
    cases hEvent
    rw [receiver_value_eq_ok_iff, hTy] at hOther
    exact Except.ok.inj hOther.1
  exact
    { isUse := rfl
      isTyped :=
        ⟨ty, event, rfl,
          receiver_value_eq_ok_iff.mpr ⟨hTy, rfl⟩⟩
      void := fun hVoid =>
        ⟨isCall_erase (hFormed.void (hUnique hVoid)),
          hAdmits.void (hUnique hVoid)⟩
      string := fun hString =>
        ⟨isStringLiteral_erase
            (hFormed.string (hUnique hString)),
          hAdmits.string (hUnique hString)⟩ }

end Analysis

end OnePass

------------------------------------------------------------
-- Acts That Confine
------------------------------------------------------------

namespace OnePass

namespace Analysis

open Grammar (Role Use)

variable {α β : Type}

/-
  If the act answers, then `Known` holds of the answer, and
  the expressions seen meanwhile are confined to the uses if
  the answer is put to a use that is `Admitted`. Both need
  states that occur in runs.
-/
def Confines
    (act : EStateM Stop (Watched State (Sighting State Ty)) α)
    (Known Admitted : α → Prop)
    (uses : List Use) : Prop :=
  ∀ before answer after,
    act before = .ok answer after →
      ∃ sightings,
        after.records.toList =
            before.records.toList ++ sightings ∧
          ((∀ sighting ∈ sightings, Orderly sighting.before) →
            Known answer ∧
              (Admitted answer →
                List.Forall₂ Confined
                  (valueSightings sightings) uses))

theorem Confines.imp
    {act : EStateM Stop (Watched State (Sighting State Ty)) α}
    {Known Known' Admitted Admitted' : α → Prop}
    {uses : List Use}
    (hAct : Confines act Known Admitted uses)
    (hKnown : ∀ answer, Known answer → Known' answer)
    (hAdmitted :
      ∀ answer,
        Known answer → Admitted' answer → Admitted answer) :
    Confines act Known' Admitted' uses := by
  intro before answer after hOk
  rcases hAct _ _ _ hOk with
    ⟨sightings, hRecords, hConfined⟩
  refine ⟨sightings, hRecords, fun hOrderly => ?_⟩
  rcases hConfined hOrderly with ⟨hHolds, hUses⟩
  exact
    ⟨hKnown answer hHolds, fun hAnswer =>
      hUses (hAdmitted answer hHolds hAnswer)⟩

/- What follows an act tells whether its answer is admitted. -/
theorem Confines.bind
    {first :
      EStateM Stop (Watched State (Sighting State Ty)) α}
    {next :
      α → EStateM Stop (Watched State (Sighting State Ty)) β}
    {Known Admitted : α → Prop}
    {Final FinalAdmitted : β → Prop}
    {uses more : List Use}
    (hFirst : Confines first Known Admitted uses)
    (hNext :
      ∀ answer,
        (∃ before after, first before = .ok answer after) →
          Confines (next answer)
            (fun final =>
              (FinalAdmitted final → Admitted answer) ∧
                Final final)
            FinalAdmitted more) :
    Confines (first >>= next) Final FinalAdmitted
      (uses ++ more) := by
  intro before final after hOk
  rcases bind_eq_ok_iff.mp hOk with
    ⟨answer, between, hAnswer, hFinal⟩
  rcases hFirst _ _ _ hAnswer with
    ⟨early, hEarly, hConfined⟩
  rcases hNext answer ⟨before, between, hAnswer⟩ _ _ _ hFinal
    with ⟨late, hLate, hConfined'⟩
  refine ⟨early ++ late, ?_, fun hOrderly => ?_⟩
  · rw [hLate, hEarly, List.append_assoc]
  · rw [List.forall_mem_append] at hOrderly
    rcases hConfined hOrderly.1 with ⟨-, hUses⟩
    rcases hConfined' hOrderly.2 with
      ⟨⟨hAdmitted, hHolds⟩, hMore⟩
    refine ⟨hHolds, fun hLast => ?_⟩
    rw [valueSightings, List.filter_append]
    exact
      List.rel_append (hUses (hAdmitted hLast)) (hMore hLast)

/- As `Confines`, of an act whose answer is not used. -/
abbrev ConfinesAll
    (act : EStateM Stop (Watched State (Sighting State Ty)) α)
    (uses : List Use) : Prop :=
  Confines act (fun _ => True) (fun _ => True) uses

theorem ConfinesAll.andThen
    {first :
      EStateM Stop (Watched State (Sighting State Ty)) α}
    {next :
      α → EStateM Stop (Watched State (Sighting State Ty)) β}
    {uses more : List Use}
    (hFirst : ConfinesAll first uses)
    (hNext : ∀ answer, ConfinesAll (next answer) more) :
    ConfinesAll (first >>= next) (uses ++ more) := by
  apply hFirst.bind
  intro answer _
  apply (hNext answer).imp
  · exact fun _ _ => ⟨fun _ => trivial, trivial⟩
  · exact fun _ _ _ => trivial

theorem confines_pure
    {answer : α}
    {Known Admitted : α → Prop}
    (hKnown : Known answer) :
    Confines (pure answer) Known Admitted [] := by
  intro before final after hOk
  rcases pure_eq_ok_iff.mp hOk with ⟨hSame, hState⟩
  refine ⟨[], ?_, fun _ => ⟨?_, fun _ => .nil⟩⟩
  · rw [hState, List.append_nil]
  · rw [← hSame]
    exact hKnown

/- An expression is seen. -/
theorem confines_value
    (role : Role)
    {event : ValueEvent Ty}
    {Known : Ty → Prop}
    (hEvent :
      ∀ {state ty},
        Orderly state →
          valueType state.symbols event = .ok ty →
            Known ty ∧ Formed event ty) :
    Confines (receiver.recorded.value event) Known
      (Admits role) [⟨event.erase, role⟩] := by
  intro before ty after hOk
  rw [Receiver.recorded_value] at hOk
  cases hAct : receiver.value event before.state with
  | error stop state =>
      rw [Receiver.watch_of_error hAct] at hOk
      cases hOk
  | ok answer state =>
      rw [Receiver.watch_of_ok hAct] at hOk
      cases hOk
      rcases receiver_value_eq_ok_iff.mp hAct with
        ⟨hTy, hSame⟩
      rw [← hSame]
      refine
        ⟨[⟨.value event, before.state, before.state, true⟩],
          Array.toList_appendList, fun hOrderly => ?_⟩
      have hState := hOrderly _ (List.mem_singleton_self _)
      rcases hEvent hState hTy with ⟨hKnown, hFormed⟩
      refine ⟨hKnown, fun hAdmits => ?_⟩
      exact
        .cons (confined_of_valueType hTy hFormed hAdmits) .nil

/- A step that is taken tells what its checks require. -/
theorem confines_effect
    {event : EffectEvent Ty}
    {Known : Prop}
    (hEvent :
      ∀ {state after},
        Orderly state →
          step state event = .ok after → Known) :
    Confines (receiver.recorded.effect event)
      (fun _ => Known) (fun _ => True) [] := by
  intro before answer after hOk
  rw [Receiver.recorded_effect] at hOk
  cases hAct : receiver.effect event before.state with
  | error stop state =>
      rw [Receiver.watch_of_error hAct] at hOk
      cases hOk
  | ok answer state =>
      rw [Receiver.watch_of_ok hAct] at hOk
      cases hOk
      have hStep := receiver_effect_eq_ok_iff.mp hAct
      refine
        ⟨[⟨.effect event, before.state, state, true⟩],
          Array.toList_appendList, fun hOrderly => ?_⟩
      have hState := hOrderly _ (List.mem_singleton_self _)
      exact ⟨hEvent hState hStep, fun _ => .nil⟩

theorem confinesAll_effect
    (event : EffectEvent Ty) :
    ConfinesAll (receiver.recorded.effect event) [] :=
  confines_effect fun _ _ => trivial

end Analysis

end OnePass

------------------------------------------------------------
-- Expressions
------------------------------------------------------------

namespace OnePass

namespace Analysis

open Grammar (Role Use)

variable {state : State}
variable {ty : Ty}

/- What may be used for a value may be used in its role. -/
theorem Admits.of_castsTo
    {role : Role}
    {source target : Ty}
    (hTarget : Admits role target)
    (hCast : source.castsTo target = true) :
    Admits role source := by
  rcases Ty.castsTo_iff.mp hCast with hSame | ⟨hByte, -⟩
  · rw [hSame]
    exact hTarget
  · have hSource : source.Storable := by
      rw [hByte]
      trivial
    exact admits_of_storable hSource role

theorem admits_of_fits
    {role : Role}
    {arguments parameters : List Ty}
    (hFits : fits arguments parameters = true)
    (hParameters :
      ∀ parameter ∈ parameters, Admits role parameter) :
    ∀ argument ∈ arguments, Admits role argument := by
  rw [fits_eq_true_iff] at hFits
  induction hFits with
  | nil => simp
  | cons hCast hRest ih =>
      rw [List.forall_mem_cons] at hParameters ⊢
      exact
        ⟨hParameters.1.of_castsTo hCast, ih hParameters.2⟩

/- A call takes no void, and a string only if it prints it. -/
theorem call_of_valueType
    (hState : Orderly state)
    {callee : Identifier}
    {arguments : List (Typed Ty)}
    {span : Span}
    (hTy :
      valueType state.symbols (.call callee arguments span) =
        .ok ty) :
    ty ≠ .string ∧
      ∀ argument ∈ arguments,
        Admits (.argument callee.name arguments.length)
          argument.ty := by
  rw [valueType, callType] at hTy
  cases hFound : state.symbols.signature? callee.name with
  | none =>
      rw [hFound] at hTy
      cases hTy
  | some signature =>
      simp only [hFound] at hTy
      split at hTy
      case isFalse hFits => cases hTy
      case isTrue hFits =>
        cases hTy
        rcases hState.of_signature? hFound with
          ⟨hReturns, hParameters⟩
        have hAdmits :
            ∀ parameter ∈ signature.parameters,
              Admits (.argument callee.name arguments.length)
                parameter := by
          intro parameter hParameter
          rcases hParameters with
            hStorable | ⟨hPrint, hString⟩
          · exact
              admits_of_storable
                (hStorable parameter hParameter) _
          · have hLength :=
              (fits_eq_true_iff.mp hFits).length_eq
            rw [List.length_map, hString] at hLength
            rw [hString, List.mem_singleton] at hParameter
            rw [hPrint, hLength, hParameter]
            exact ⟨by simp, fun _ => rfl⟩
        have hEach := admits_of_fits hFits hAdmits
        exact ⟨hReturns, List.forall_mem_map.mp hEach⟩

/- Parts of an operation have storable types, and so has it. -/
theorem storable_of_yields
    {operator : Grammar.BinaryOp}
    {left right : Ty}
    (hYields : operator.Yields left right ty) :
    left.Storable ∧ right.Storable ∧ ty.Storable := by
  cases hYields with
  | numeric hLeft hRight =>
      refine
        ⟨Ty.storable_of_isNumeral hLeft,
          Ty.storable_of_isNumeral hRight, ?_⟩
      split
      · trivial
      · trivial
  | relational hLeft hRight =>
      exact
        ⟨Ty.storable_of_isNumeral hLeft,
          Ty.storable_of_isNumeral hRight, trivial⟩
  | logical hLeft hRight =>
      exact
        ⟨Ty.storable_of_castsTo hLeft trivial,
          Ty.storable_of_castsTo hRight trivial, trivial⟩

theorem storable_of_negation
    {operand : Typed Ty}
    {span : Span}
    (hTy :
      valueType state.symbols (.negation operand span) =
        .ok ty) :
    operand.ty.Storable ∧ ty.Storable := by
  rcases then_eq_ok_iff.mp hTy with ⟨_, hCheck, hReturn⟩
  cases hReturn
  rw [requireCast_eq_ok_iff] at hCheck
  exact ⟨Ty.storable_of_castsTo hCheck trivial, trivial⟩

theorem storable_of_cast
    {target : Ty}
    (hTarget : target.Storable)
    {operand : Typed Ty}
    {span : Span}
    (hTy :
      valueType state.symbols (.cast target operand span) =
        .ok ty) :
    operand.ty.Storable ∧ ty.Storable := by
  rw [valueType] at hTy
  split at hTy
  case isFalse hCast => cases hTy
  case isTrue hCast =>
    cases hTy
    exact
      ⟨Ty.storable_of_castsExplicitlyTo hCast hTarget,
        hTarget⟩

theorem storable_of_identifier
    (hState : Orderly state)
    {name : Identifier}
    (hTy :
      valueType state.symbols (.identifier name) = .ok ty) :
    ty.Storable := by
  rw [valueType, Symbols.valueType] at hTy
  cases hFound : state.symbols.lookup name.name with
  | none =>
      rw [hFound] at hTy
      cases hTy
  | some binding =>
      rw [hFound] at hTy
      cases hTy
      exact hState.storable_of_lookup hFound

theorem storable_of_byteLiteral
    {digits : String}
    {span : Span}
    (hTy :
      valueType state.symbols (.byteLiteral digits span) =
        .ok ty) :
    ty.Storable := by
  rw [valueType] at hTy
  split at hTy
  · cases hTy
    trivial
  · cases hTy

/- An expression whose parts and value are storable. -/
theorem confines_storable
    (role : Role)
    {event : ValueEvent Ty}
    {Known : Ty → Prop}
    (hEvent :
      ∀ {state ty},
        Orderly state →
          valueType state.symbols event = .ok ty →
            Known ty ∧ ty.Storable) :
    Confines (receiver.recorded.value event) Known
      (Admits role) [⟨event.erase, role⟩] := by
  apply confines_value
  intro state ty hState hTy
  rcases hEvent hState hTy with ⟨hKnown, hStorable⟩
  exact ⟨hKnown, formed_of_storable hStorable _⟩

end Analysis

namespace Grammar

open Analysis

/- Arguments are announced with their extents. -/
theorem marks_of_announceArguments
    {σ τ ε : Type}
    {receiver : Receiver σ τ ε}
    {arguments : Separated (Expr topLayer)}
    {values : List (Typed τ)}
    (hValues :
      ∃ before after,
        announceArguments receiver arguments before =
          .ok values after) :
    MarksOf arguments values := by
  rcases hValues with ⟨before, after, hOk⟩
  induction arguments generalizing values after with
  | one item =>
      rw [announceArguments] at hOk
      rcases bind_eq_ok_iff.mp hOk with
        ⟨value, between, -, hReturn⟩
      rw [← (pure_eq_ok_iff.mp hReturn).1]
      rfl
  | more items comma item ih =>
      rw [announceArguments] at hOk
      rcases bind_eq_ok_iff.mp hOk with
        ⟨earlier, between, hEarlier, hLater⟩
      rcases bind_eq_ok_iff.mp hLater with
        ⟨value, _, -, hReturn⟩
      have hMarks : earlier.map Typed.erase = _ :=
        ih between hEarlier
      rw [← (pure_eq_ok_iff.mp hReturn).1, MarksOf,
        Separated.toList, List.map_append, hMarks,
        List.map_append]
      rfl

mutual

/- The parts of an expression are confined to their uses. -/
theorem Expr.confines
    {layer : Nat}
    (role : Role) :
    (expr : Expr layer) →
      Confines (expr.announce Analysis.receiver.recorded)
        (fun _ => True) (Admits role) (expr.uses role)
| .negation word operand => by
    rw [Expr.announce, Expr.uses]
    apply (Expr.confines .operand operand).bind
    intro inner _
    apply confines_storable
    intro state ty hState hTy
    rcases storable_of_negation hTy with ⟨hOperand, hStorable⟩
    have hAdmits := admits_of_storable hOperand .operand
    exact ⟨⟨fun _ => hAdmits, trivial⟩, hStorable⟩
| .cast left target right operand => by
    rw [Expr.announce, Expr.uses]
    apply (Expr.confines .operand operand).bind
    intro inner _
    apply confines_storable
    intro state ty hState hTy
    have hTarget := Parser.storable_of_valueType? target.means
    rcases storable_of_cast hTarget hTy with
      ⟨hOperand, hStorable⟩
    have hAdmits := admits_of_storable hOperand .operand
    exact ⟨⟨fun _ => hAdmits, trivial⟩, hStorable⟩
| .paren left inner right => by
    rw [Expr.announce, Expr.uses]
    exact Expr.confines role inner
| .call parts => by
    rw [Expr.announce, Expr.uses]
    apply (Call.confines role parts).imp
    · exact fun _ _ => trivial
    · exact fun _ _ hAdmits => hAdmits
| .name leaf => by
    rw [Expr.announce, Expr.uses]
    apply confines_storable
    intro state ty hState hTy
    exact ⟨trivial, storable_of_identifier hState hTy⟩
| .string leaf => by
    rw [Expr.announce, Expr.uses]
    apply confines_value
    intro state ty hState hTy
    cases hTy
    exact ⟨trivial, by simp, fun _ => trivial⟩
| .number digits => by
    rw [Expr.announce, Expr.uses]
    apply confines_storable
    intro state ty hState hTy
    cases hTy
    exact ⟨trivial, trivial⟩
| .byte digits suffix => by
    rw [Expr.announce, Expr.uses]
    apply confines_storable
    intro state ty hState hTy
    exact ⟨trivial, storable_of_byteLiteral hTy⟩
| .bool word => by
    rw [Expr.announce, Expr.uses]
    apply confines_storable
    intro state ty hState hTy
    cases hTy
    exact ⟨trivial, trivial⟩
| .lift operand => by
    rw [Expr.announce, Expr.uses]
    exact Expr.confines role operand
| .binary left operator right => by
    rw [Expr.announce, Expr.uses, List.append_assoc]
    apply (Expr.confines .operand left).bind
    intro before _
    apply (Expr.confines .operand right).bind
    intro after _
    have hErase :=
      operator.meaning.erase_event
        (⟨before, left.span⟩ : Typed Ty) ⟨after, right.span⟩
        (left.span.cover right.span)
    change _ = operator.meaning.event left.mark right.mark _
      at hErase
    rw [← hErase]
    apply confines_storable
    intro state ty hState hTy
    rw [valueType_binary_eq_ok_iff] at hTy
    rcases storable_of_yields hTy with
      ⟨hLeft, hRight, hStorable⟩
    have hAdmits := admits_of_storable hLeft .operand
    have hAdmits' := admits_of_storable hRight .operand
    exact
      ⟨⟨fun _ => hAdmits', fun _ => hAdmits, trivial⟩,
        hStorable⟩

/- The parts of a call are confined, and it is no string. -/
theorem Call.confines
    (role : Role) :
    (call : Call) →
      Confines (call.announce Analysis.receiver.recorded)
        (· ≠ .string) (Admits role) (call.uses role)
| .bare callee left right => by
    rw [Call.announce, Call.uses]
    apply confines_value
    intro state ty hState hTy
    have hReturns := (call_of_valueType hState hTy).1
    exact
      ⟨hReturns, fun _ => trivial, fun hString =>
        absurd hString hReturns⟩
| .applied callee left arguments right => by
    rw [Call.announce, Call.uses]
    apply (confines_announceArguments _ arguments).bind
    intro values hValues
    have hMarks := marks_of_announceArguments hValues
    have hLength :
        arguments.toList.length = values.length := by
      have hLengths := congrArg List.length hMarks
      rw [List.length_map, List.length_map] at hLengths
      exact hLengths.symm
    rw [← show values.map Typed.erase = _ from hMarks,
      hLength]
    apply confines_value
    intro state ty hState hTy
    rcases call_of_valueType hState hTy with
      ⟨hReturns, hArguments⟩
    exact
      ⟨⟨fun _ => hArguments, hReturns⟩, fun _ => trivial,
        fun hString => absurd hString hReturns⟩

/- Arguments are confined if all of them are admitted. -/
theorem confines_announceArguments
    (role : Role) :
    (arguments : Separated (Expr topLayer)) →
      Confines
        (announceArguments Analysis.receiver.recorded
          arguments)
        (fun _ => True)
        (fun values => ∀ value ∈ values, Admits role value.ty)
        (argumentUses role arguments)
| .one item => by
    rw [announceArguments, argumentUses,
      ← List.append_nil (Expr.uses role item)]
    apply (Expr.confines role item).bind
    intro value _
    apply confines_pure
    refine ⟨fun hAll => ?_, trivial⟩
    exact hAll _ (List.mem_singleton_self _)
| .more items comma item => by
    rw [announceArguments, argumentUses,
      ← List.append_nil (Expr.uses role item)]
    apply (confines_announceArguments role items).bind
    intro before _
    apply (Expr.confines role item).bind
    intro value _
    apply confines_pure
    refine ⟨fun hAll => ?_, fun hAll => ?_, trivial⟩
    · rw [List.forall_mem_append] at hAll
      exact hAll.2 _ (List.mem_singleton_self _)
    · exact (List.forall_mem_append.mp hAll).1

end

end Grammar

end OnePass

------------------------------------------------------------
-- Statements And Programs
------------------------------------------------------------

namespace OnePass

namespace Analysis

variable {state after : State}

theorem storable_of_condition
    {value : Typed Ty}
    (hStep : step state (.condition value) = .ok after) :
    value.ty.Storable := by
  rcases then_eq_ok_iff.mp hStep with ⟨_, hCheck, -⟩
  rw [requireCast_eq_ok_iff] at hCheck
  exact Ty.storable_of_castsTo hCheck trivial

theorem storable_of_declaration
    {isConst : Bool}
    {ty : Ty}
    (hTy : ty.Storable)
    {name : Identifier}
    {initializer : Option (Typed Ty)}
    {span : Span}
    (hStep :
      step state
          (.declaration isConst ty name initializer span) =
        .ok after) :
    ∀ value ∈ initializer, value.ty.Storable := by
  intro value hValue
  rw [Option.mem_def] at hValue
  rcases then_eq_ok_iff.mp hStep with ⟨_, hCheck, -⟩
  rw [hValue, requireInitializer, requireCast_eq_ok_iff]
    at hCheck
  exact Ty.storable_of_castsTo hCheck hTy

theorem storable_of_assignment
    (hState : Orderly state)
    {name : Identifier}
    {value : Typed Ty}
    {span : Span}
    (hStep :
      step state (.assignment name value span) = .ok after) :
    value.ty.Storable := by
  rcases then_eq_ok_iff.mp hStep with ⟨_, hCheck, -⟩
  rw [assign] at hCheck
  cases hFound : state.symbols.lookup name.name with
  | none =>
      rw [hFound] at hCheck
      cases hCheck
  | some binding =>
      simp only [hFound] at hCheck
      split at hCheck
      case isTrue hConst => cases hCheck
      case isFalse hConst =>
        rw [requireCast_eq_ok_iff] at hCheck
        exact
          Ty.storable_of_castsTo hCheck
            (hState.storable_of_lookup hFound)

/- What a function with a result returns can be stored. -/
theorem storable_of_returnType
    (hState : Orderly state)
    {returns : Ty}
    {span : Span}
    (hReturns : returnType state span = .ok returns)
    (hVoid : ¬ returns.isVoid = true) :
    returns.Storable := by
  rw [returnType] at hReturns
  cases hCurrent : state.current? with
  | none =>
      rw [hCurrent] at hReturns
      cases hReturns
  | some signature =>
      rw [hCurrent] at hReturns
      have hSame := Except.ok.inj hReturns
      have hString := hState.returns_ne_string hCurrent
      rw [hSame] at hString
      cases returns with
      | int => trivial
      | byte => trivial
      | bool => trivial
      | string => exact hString rfl
      | void => exact hVoid rfl

theorem storable_of_returnValue
    (hState : Orderly state)
    {value : Typed Ty}
    {span : Span}
    (hStep :
      step state (.returnValue value span) = .ok after) :
    value.ty.Storable := by
  rcases then_eq_ok_iff.mp hStep with ⟨_, hCheck, -⟩
  rcases then_eq_ok_iff.mp hCheck with
    ⟨returns, hReturns, hCast⟩
  split at hCast
  case isTrue hVoid => cases hCast
  case isFalse hVoid =>
    simp only [Bool.or_eq_true, not_or] at hVoid
    rw [requireCast_eq_ok_iff] at hCast
    have hStorable : returns.Storable :=
      storable_of_returnType hState hReturns hVoid.1
    exact Ty.storable_of_castsTo hCast hStorable

end Analysis

namespace Grammar

open Analysis

/- An expression is confined to its use in a statement. -/
theorem Expr.confines_value
    {layer : Nat}
    (role : Role)
    (expr : Expr layer) :
    Confines (expr.value Analysis.receiver.recorded)
      (fun _ => True) (fun value => Admits role value.ty)
      (expr.uses role) := by
  rw [Expr.value, ← List.append_nil (expr.uses role)]
  apply (expr.confines role).bind
  intro ty _
  apply confines_pure
  exact ⟨fun hAdmits => hAdmits, trivial⟩

theorem Condition.confines
    (condition : Condition) :
    ConfinesAll
      (condition.announce Analysis.receiver.recorded)
      (condition.value.uses .condition) := by
  rw [Condition.announce,
    ← List.append_nil (Expr.uses _ condition.value)]
  apply (condition.value.confines_value .condition).bind
  intro value _
  apply confines_effect
  intro state after hState hStep
  have hAdmits :=
    admits_of_storable (storable_of_condition hStep) .condition
  exact ⟨fun _ => hAdmits, trivial⟩

theorem confines_announceInitializer
    (initializer : Option Initializer) :
    Confines
      (announceInitializer Analysis.receiver.recorded
        initializer)
      (fun _ => True)
      (fun value? =>
        ∀ value ∈ value?, Admits .initializer value.ty)
      (initializer.elim [] (·.value.uses .initializer)) := by
  cases initializer with
  | none => exact confines_pure trivial
  | some present =>
      rw [announceInitializer, Option.elim_some,
        ← List.append_nil (Expr.uses _ present.value)]
      apply (present.value.confines_value .initializer).bind
      intro value _
      apply confines_pure
      exact ⟨fun hAdmits => hAdmits value rfl, trivial⟩

/- A scope uses what is inside it. -/
theorem confinesAll_inScope
    {inside :
      EStateM Stop (Watched State (Sighting State Ty)) Unit}
    {uses : List Use}
    (hInside : ConfinesAll inside uses) :
    ConfinesAll (inScope Analysis.receiver.recorded inside)
      uses := by
  rw [inScope, ← List.append_nil uses]
  apply (confinesAll_effect .openScope).andThen
  intro _
  apply hInside.andThen
  intro _
  exact confinesAll_effect .closeScope

mutual

/- The expressions of a statement are confined. -/
theorem Stmt.confines :
    (statement : Stmt) →
      ConfinesAll
        (statement.announce Analysis.receiver.recorded)
        statement.uses
| .block left body right => by
    rw [Stmt.announce, Stmt.uses]
    exact confinesAll_inScope (Stmts.confines body)
| .declaration declarator initializer stop => by
    rw [Stmt.announce, Stmt.uses,
      ← List.append_nil (Option.elim _ _ _)]
    apply (confinesAll_effect _).andThen
    intro _
    apply (confines_announceInitializer initializer).bind
    intro value _
    apply confines_effect
    intro state after hState hStep
    have hTy :=
      Parser.storable_of_valueType? declarator.ty.means
    have hValue := storable_of_declaration hTy hStep
    refine ⟨fun _ present hPresent => ?_, trivial⟩
    exact admits_of_storable (hValue present hPresent) _
| .assignment name sign value stop => by
    rw [Stmt.announce, Stmt.uses,
      ← List.append_nil (Expr.uses _ value)]
    apply (value.confines_value .assigned).bind
    intro result _
    apply confines_effect
    intro state after hState hStep
    have hValue := storable_of_assignment hState hStep
    exact ⟨fun _ => admits_of_storable hValue _, trivial⟩
| .call parts stop => by
    rw [Stmt.announce, Stmt.uses,
      ← List.append_nil (Call.uses _ parts)]
    have hCall :
        ConfinesAll
          (parts.announce Analysis.receiver.recorded)
          (parts.uses .statement) := by
      apply (parts.confines .statement).imp
      · exact fun _ _ => trivial
      · intro ty hString _
        exact ⟨fun _ => rfl, fun hTy => absurd hTy hString⟩
    apply hCall.andThen
    intro _
    exact confines_pure trivial
| .returnVoid word stop => by
    rw [Stmt.announce, Stmt.uses]
    exact confinesAll_effect _
| .returnValue word value stop => by
    rw [Stmt.announce, Stmt.uses,
      ← List.append_nil (Expr.uses _ value)]
    apply (value.confines_value .returned).bind
    intro result _
    apply confines_effect
    intro state after hState hStep
    have hValue := storable_of_returnValue hState hStep
    exact ⟨fun _ => admits_of_storable hValue _, trivial⟩
| .ifThen word condition branch => by
    rw [Stmt.announce, Stmt.uses]
    apply condition.confines.andThen
    intro _
    exact confinesAll_inScope (Stmt.confines branch)
| .ifElse word condition branch other otherwise => by
    rw [Stmt.announce, Stmt.uses]
    apply condition.confines.andThen
    intro _
    apply (confinesAll_inScope (Stmt.confines branch)).andThen
    intro _
    exact confinesAll_inScope (Stmt.confines otherwise)
| .whileLoop word condition body => by
    rw [Stmt.announce, Stmt.uses,
      ← List.append_nil (Stmt.uses body)]
    apply condition.confines.andThen
    intro _
    apply (confinesAll_effect .openLoop).andThen
    intro _
    apply (confinesAll_inScope (Stmt.confines body)).andThen
    intro _
    exact confinesAll_effect .closeLoop
| .jump word stop => by
    rw [Stmt.announce, Stmt.uses]
    exact confinesAll_effect _

/- The expressions of statements are confined. -/
theorem Stmts.confines :
    (statements : Stmts) →
      ConfinesAll
        (statements.announce Analysis.receiver.recorded)
        statements.uses
| .one statement => by
    rw [Stmts.announce, Stmts.uses]
    exact Stmt.confines statement
| .more statement statements => by
    rw [Stmts.announce, Stmts.uses]
    apply (Stmt.confines statement).andThen
    intro _
    exact Stmts.confines statements

end

theorem Function.confines
    (function : Function) :
    ConfinesAll
      (function.announce Analysis.receiver.recorded)
      function.body.uses := by
  rw [Function.announce,
    ← List.append_nil (Stmts.uses function.body)]
  apply (confinesAll_effect _).andThen
  intro _
  apply (confinesAll_effect _).andThen
  intro _
  apply function.body.confines.andThen
  intro _
  exact confinesAll_effect _

/- The expressions of a program are confined. -/
theorem Program.confines
    (program : Program) :
    ConfinesAll
      (program.announce Analysis.receiver.recorded)
      program.uses := by
  have hFunctions :
      ∀ functions : List Function,
        ConfinesAll
          (announceFunctions Analysis.receiver.recorded
            functions)
          (functions.flatMap (·.body.uses)) := by
    intro functions
    induction functions with
    | nil => exact confines_pure trivial
    | cons function functions ih =>
        rw [announceFunctions, List.flatMap_cons]
        apply function.confines.andThen
        intro _
        exact ih
  rw [Program.announce, Program.uses,
    ← List.append_nil (List.flatMap _ _)]
  apply (hFunctions program.functions).andThen
  intro _
  exact confinesAll_effect .programEnd

end Grammar

end OnePass

------------------------------------------------------------
-- Accepted Programs
------------------------------------------------------------

namespace OnePass

namespace Analysis

open OnePass.Parser (Stage Course)

/- Every event so far was seen in a state that occurs. -/
def orderlyCourse :
    Course (Watched State (Sighting State Ty)) Stop where
  At stage watched :=
    Upright stage watched.state ∧
      ∀ sighting ∈ watched.records.toList,
        Orderly sighting.before
  Refused _ _ := True

theorem orderlyCourse_leads
    {α : Type}
    {stage next : Stage}
    {event : Event Ty}
    {act : EStateM Stop State α}
    {watched : Watched State (Sighting State Ty)}
    (hAt : orderlyCourse.At stage watched)
    (hOk :
      ∀ {answer after},
        act watched.state = .ok answer after →
          Upright next after) :
    orderlyCourse.Leads next
      (Receiver.watch (fun seen => [seen]) event act
        watched) := by
  rcases hAt with ⟨hState, hAll⟩
  cases hAct : act watched.state with
  | ok answer after =>
      rw [Receiver.watch_of_ok hAct]
      refine ⟨hOk hAct, ?_⟩
      rw [Array.toList_appendList, List.forall_mem_append,
        List.forall_mem_singleton]
      exact ⟨hAll, stage, hState⟩
  | error stop after =>
      rw [Receiver.watch_of_error hAct]
      trivial

theorem keptBy_orderlyCourse :
    orderlyCourse.KeptBy receiver.recorded where
  value event hValues hAt := by
    rw [Receiver.recorded_value]
    apply orderlyCourse_leads hAt
    intro ty after hOk
    rw [← (receiver_value_eq_ok_iff.mp hOk).2]
    exact hAt.1
  effect hNext hAt := by
    rw [Receiver.recorded_effect]
    apply orderlyCourse_leads hAt
    intro answer after hOk
    exact
      hAt.1.step hNext (receiver_effect_eq_ok_iff.mp hOk)
  programEnd hAt := by
    rw [Receiver.recorded_effect]
    apply orderlyCourse_leads hAt
    intro answer after hOk
    exact
      hAt.1.programEnd (receiver_effect_eq_ok_iff.mp hOk)

end Analysis

/-
  In the run of an accepted program, void calls are
  statements, and strings are literals that are printed.
-/
theorem analyze_confines_void_and_string
    {tokens : List Token}
    {signatures : List Signature}
    (hOk : analyze tokens = .ok signatures) :
    ∃ program : Grammar.Program,
      program.IsTreeOf tokens ∧
        (Analysis.receiver.transcript tokens
            .initial).result =
          .ok () ∧
        List.Forall₂ Analysis.Confined
          (valueSightings
            (Analysis.receiver.transcript tokens
              .initial).sightings)
          program.uses := by
  have hResult :
      (Analysis.receiver.transcript tokens .initial).result =
        .ok () := by
    rw [transcript_result]
    unfold analyze at hOk
    split at hOk
    · next answer final hParse => rw [hParse]
    · cases hOk
  have hStart :
      Analysis.orderlyCourse.At .outside ⟨.initial, #[]⟩ :=
    ⟨Analysis.upright_initial, by simp⟩
  have hConcludes :=
    concludes_parse Analysis.keptBy_orderlyCourse tokens
      hStart
  have hParse :
      parse Analysis.receiver.recorded tokens
          ⟨.initial, #[]⟩ =
        (.ok (),
          (parse Analysis.receiver.recorded tokens
            ⟨.initial, #[]⟩).2) :=
    Prod.ext hResult rfl
  rcases parse_eq_ok_iff.mp hParse with
    ⟨program, hTree, hAnnounce⟩
  rcases program.confines _ _ _ hAnnounce with
    ⟨sightings, hRecords, hConfined⟩
  have hSeen :
      (Analysis.receiver.transcript tokens
          .initial).sightings =
        sightings :=
    hRecords
  rw [hParse] at hConcludes
  have hOrderly := hConcludes.2
  rw [hRecords] at hOrderly
  refine ⟨program, hTree, hResult, ?_⟩
  rw [hSeen]
  exact (hConfined hOrderly).2 trivial

/-
  The tokens of
  `void f() { return; } void main() { f(); print(("x")); }`.
-/
def printingProgram : List Token :=
  [⟨.kwVoid, "void", ⟨0, 4, 1⟩⟩,
    ⟨.identifier, "f", ⟨5, 6, 1⟩⟩,
    ⟨.leftParen, "(", ⟨6, 7, 1⟩⟩,
    ⟨.rightParen, ")", ⟨7, 8, 1⟩⟩,
    ⟨.leftBrace, "\x7b", ⟨9, 10, 1⟩⟩,
    ⟨.kwReturn, "return", ⟨11, 17, 1⟩⟩,
    ⟨.semicolon, ";", ⟨17, 18, 1⟩⟩,
    ⟨.rightBrace, "\x7d", ⟨19, 20, 1⟩⟩,
    ⟨.kwVoid, "void", ⟨21, 25, 1⟩⟩,
    ⟨.identifier, "main", ⟨26, 30, 1⟩⟩,
    ⟨.leftParen, "(", ⟨30, 31, 1⟩⟩,
    ⟨.rightParen, ")", ⟨31, 32, 1⟩⟩,
    ⟨.leftBrace, "\x7b", ⟨33, 34, 1⟩⟩,
    ⟨.identifier, "f", ⟨35, 36, 1⟩⟩,
    ⟨.leftParen, "(", ⟨36, 37, 1⟩⟩,
    ⟨.rightParen, ")", ⟨37, 38, 1⟩⟩,
    ⟨.semicolon, ";", ⟨38, 39, 1⟩⟩,
    ⟨.identifier, "print", ⟨40, 45, 1⟩⟩,
    ⟨.leftParen, "(", ⟨45, 46, 1⟩⟩,
    ⟨.leftParen, "(", ⟨46, 47, 1⟩⟩,
    ⟨.string, "\"x\"", ⟨47, 50, 1⟩⟩,
    ⟨.rightParen, ")", ⟨50, 51, 1⟩⟩,
    ⟨.rightParen, ")", ⟨51, 52, 1⟩⟩,
    ⟨.semicolon, ";", ⟨52, 53, 1⟩⟩,
    ⟨.rightBrace, "\x7d", ⟨54, 55, 1⟩⟩]

theorem printingProgram_confines_void_and_string :
    analyze printingProgram =
        .ok [⟨"f", .void, []⟩, ⟨"main", .void, []⟩] ∧
      ∃ program : Grammar.Program,
        program.IsTreeOf printingProgram ∧
          (Analysis.receiver.transcript printingProgram
              .initial).result =
            .ok () ∧
          List.Forall₂ Analysis.Confined
            (valueSightings
              (Analysis.receiver.transcript printingProgram
                .initial).sightings)
            program.uses := by
  have hOk :
      analyze printingProgram =
        .ok [⟨"f", .void, []⟩, ⟨"main", .void, []⟩] := by
    decide +kernel
  exact ⟨hOk, analyze_confines_void_and_string hOk⟩

end OnePass
