import OnePass.Analysis.Run
import OnePass.Proofs.Analysis.Typing
import OnePass.Proofs.Parser.Outcome

/-
  The analysis finds the types that the rules give.

  An expression is announced to the analysis part by part.
  If the state of the analysis is as the visible variables
  and the known functions say, then the answer is the type
  that the rules give to the expression, the state is left
  as it is, and an expression without a type is refused.

  Main declarations:
    * `Analysis.Reflects`
    * `Analysis.callType_eq_ok_iff`
    * `Analysis.valueType_binary_eq_ok_iff`
    * `Grammar.Expr.Inferred`
    * `Grammar.Expr.announce_eq_ok_iff`
-/

------------------------------------------------------------
-- Checks
------------------------------------------------------------

namespace OnePass

/- Besides every type itself, only a byte is cast, to int. -/
theorem Ty.castsTo_iff
    {source target : Ty} :
    source.castsTo target = true ↔
      source = target ∨ source = .byte ∧ target = .int := by
  simp [castsTo]

namespace Analysis

section Checks

variable {α β : Type}

/- A check and what comes after it both succeed. -/
theorem then_eq_ok_iff
    {ε : Type}
    {first : Except ε α}
    {next : α → Except ε β}
    {answer : β} :
    (first >>= next) = .ok answer ↔
      ∃ value, first = .ok value ∧ next value = .ok answer := by
  cases first with
  | ok value =>
      constructor
      · intro hNext
        exact ⟨value, rfl, hNext⟩
      · rintro ⟨_, hValue, hNext⟩
        cases hValue
        exact hNext
  | error stop =>
      constructor
      · intro hNext
        cases hNext
      · rintro ⟨_, hValue, -⟩
        cases hValue

theorem requireCast_eq_ok_iff
    {source target : Ty}
    {span : Span}
    {answer : Unit} :
    requireCast source target span = .ok answer ↔
      source.castsTo target = true := by
  unfold requireCast
  split
  case isTrue hCast => simp [hCast]
  case isFalse hCast => simp [hCast, reject]

theorem requireNumeral_eq_ok_iff
    {ty : Ty}
    {span : Span}
    {answer : Unit} :
    requireNumeral ty span = .ok answer ↔
      ty.isNumeral = true := by
  unfold requireNumeral
  split
  case isTrue hNumeral => simp [hNumeral]
  case isFalse hNumeral => simp [hNumeral, reject]

end Checks

/- The types of two numerals have a wider type. -/
theorem guarded_widen_eq_ok_iff
    {left right ty : Ty}
    (hLeft : left.isNumeral = true)
    (hRight : right.isNumeral = true) :
    guarded (left.widen right) = .ok ty ↔
      (if left = .int ∨ right = .int then Ty.int
        else Ty.byte) =
        ty := by
  unfold Ty.widen guarded
  rw [hLeft, hRight]
  simp [Except.mapError]

/- Each argument may be used for its parameter. -/
theorem fits_eq_true_iff
    {arguments parameters : List Ty} :
    fits arguments parameters = true ↔
      List.Forall₂
        (fun argument parameter =>
          argument.castsTo parameter = true)
        arguments parameters := by
  induction arguments generalizing parameters with
  | nil =>
      cases parameters with
      | nil => simp [fits]
      | cons parameter parameters => simp [fits]
  | cons argument arguments ih =>
      cases parameters with
      | nil => simp [fits]
      | cons parameter parameters =>
          rw [List.forall₂_cons, ← ih]
          simp only [fits, List.length_cons, List.zip_cons_cons,
            List.all_cons, Nat.add_right_cancel_iff,
            Bool.and_eq_true, decide_eq_true_eq]
          constructor
          · rintro ⟨hLength, hFirst, hRest⟩
            exact ⟨hFirst, hLength, hRest⟩
          · rintro ⟨hFirst, hLength, hRest⟩
            exact ⟨hLength, hFirst, hRest⟩

end Analysis

end OnePass

------------------------------------------------------------
-- What A State Knows
------------------------------------------------------------

namespace OnePass

namespace Analysis

/-
  The symbols hold exactly these functions and visible
  variables, and no two visible variables have one name.
-/
structure Reflects
    (symbols : Symbols)
    (functions : List Signature)
    (scope : List Binding) : Prop where
  visible :
    ∀ binding, binding ∈ symbols.visible ↔ binding ∈ scope
  distinct : (symbols.visible.map Binding.name).Nodup
  signature? :
    ∀ name signature,
      symbols.signature? name = some signature ↔
        signature ∈ functions ∧ signature.name = name

/- Among different names, the first match is the only one. -/
theorem find?_name_eq_some_iff
    {bindings : List Binding}
    (hDistinct : (bindings.map Binding.name).Nodup)
    {name : String}
    {binding : Binding} :
    bindings.find? (·.name = name) = some binding ↔
      binding ∈ bindings ∧ binding.name = name := by
  induction bindings with
  | nil => simp
  | cons first rest ih =>
      obtain ⟨hFirst, hRest⟩ := List.nodup_cons.mp hDistinct
      rw [List.find?_cons, List.mem_cons]
      by_cases hName : first.name = name
      · simp only [hName, decide_true, Option.some.injEq]
        constructor
        · rintro rfl
          exact ⟨.inl rfl, hName⟩
        · rintro ⟨rfl | hMember, hSame⟩
          · rfl
          · rw [hName, ← hSame] at hFirst
            exact absurd (List.mem_map_of_mem hMember) hFirst
      · simp only [hName, decide_false, ih hRest]
        constructor
        · rintro ⟨hMember, hSame⟩
          exact ⟨.inr hMember, hSame⟩
        · rintro ⟨rfl | hMember, hSame⟩
          · exact absurd hSame hName
          · exact ⟨hMember, hSame⟩

section Reflects

variable {symbols : Symbols}
variable {functions : List Signature}
variable {scope : List Binding}
variable (hReflects : Reflects symbols functions scope)

include hReflects

/- A variable is found exactly if it is visible. -/
theorem Reflects.lookup_eq_some_iff
    {name : String}
    {binding : Binding} :
    symbols.lookup name = some binding ↔
      binding ∈ scope ∧ binding.name = name := by
  unfold Symbols.lookup
  rw [find?_name_eq_some_iff hReflects.distinct,
    hReflects.visible]

theorem Reflects.isFree_iff
    {name : String} :
    symbols.isFree name = true ↔
      Grammar.Unbound scope name := by
  rw [Symbols.isFree_iff]
  constructor
  · intro hFree binding hBinding
    exact hFree binding ((hReflects.visible binding).mpr hBinding)
  · intro hUnbound binding hBinding
    exact hUnbound binding ((hReflects.visible binding).mp hBinding)

theorem callType_eq_ok_iff
    {callee : Identifier}
    {arguments : List (Typed Ty)}
    {span : Span}
    {ty : Ty} :
    callType symbols callee arguments span = .ok ty ↔
      ∃ signature ∈ functions,
        signature.name = callee.name ∧
          List.Forall₂
              (fun argument parameter =>
                argument.castsTo parameter = true)
              (arguments.map Typed.ty)
              signature.parameters ∧
            signature.returns = ty := by
  unfold callType
  cases hFound : symbols.signature? callee.name with
  | none =>
      constructor
      · intro hOk
        cases hOk
      · rintro ⟨signature, hKnown, hName, -, -⟩
        have hSome :=
          (hReflects.signature? callee.name signature).mpr
            ⟨hKnown, hName⟩
        rw [hFound] at hSome
        cases hSome
  | some signature =>
      obtain ⟨hKnown, hName⟩ :=
        (hReflects.signature? callee.name signature).mp hFound
      simp only
      split
      case isTrue hFits =>
        constructor
        · intro hOk
          cases hOk
          exact
            ⟨signature, hKnown, hName,
              fits_eq_true_iff.mp hFits, rfl⟩
        · rintro ⟨other, hOther, hSame, -, rfl⟩
          have hSome :=
            (hReflects.signature? callee.name other).mpr
              ⟨hOther, hSame⟩
          rw [hFound] at hSome
          cases hSome
          rfl
      case isFalse hFits =>
        constructor
        · intro hOk
          cases hOk
        · rintro ⟨other, hOther, hSame, hParameters, -⟩
          have hSome :=
            (hReflects.signature? callee.name other).mpr
              ⟨hOther, hSame⟩
          rw [hFound] at hSome
          cases hSome
          exact
            absurd (fits_eq_true_iff.mpr hParameters) hFits

end Reflects

/- An operator yields the type that the rules give it. -/
theorem valueType_binary_eq_ok_iff
    (symbols : Symbols)
    {operator : Grammar.BinaryOp}
    {left right : Typed Ty}
    {span : Span}
    {ty : Ty} :
    valueType symbols (operator.event left right span) =
        .ok ty ↔
      operator.Yields left.ty right.ty ty := by
  cases operator with
  | numeric operator =>
      rw [Grammar.BinaryOp.event, valueType]
      simp only [then_eq_ok_iff, requireNumeral_eq_ok_iff]
      constructor
      · rintro ⟨_, hLeft, _, hRight, hTy⟩
        rw [guarded_widen_eq_ok_iff hLeft hRight] at hTy
        rw [← hTy]
        exact .numeric hLeft hRight
      · intro hYields
        cases hYields with
        | numeric hLeft hRight =>
            refine ⟨(), hLeft, (), hRight, ?_⟩
            rw [guarded_widen_eq_ok_iff hLeft hRight]
  | relational operator =>
      rw [Grammar.BinaryOp.event, valueType]
      simp only [then_eq_ok_iff, requireNumeral_eq_ok_iff]
      constructor
      · rintro ⟨_, hLeft, _, hRight, hTy⟩
        cases hTy
        exact .relational hLeft hRight
      · intro hYields
        cases hYields with
        | relational hLeft hRight =>
            exact ⟨(), hLeft, (), hRight, rfl⟩
  | logical operator =>
      rw [Grammar.BinaryOp.event, valueType]
      simp only [then_eq_ok_iff, requireCast_eq_ok_iff]
      constructor
      · rintro ⟨_, hLeft, _, hRight, hTy⟩
        cases hTy
        exact .logical hLeft hRight
      · intro hYields
        cases hYields with
        | logical hLeft hRight =>
            exact ⟨(), hLeft, (), hRight, rfl⟩

/- The analysis answers a type and keeps its state. -/
theorem receiver_value_eq_ok_iff
    {event : ValueEvent Ty}
    {before after : State}
    {ty : Ty} :
    receiver.value event before = .ok ty after ↔
      valueType before.symbols event = .ok ty ∧
        before = after := by
  unfold receiver
  cases hType : valueType before.symbols event with
  | ok found => simp [hType]
  | error stop => simp [hType]

/- The analysis accepts an event and steps on. -/
theorem receiver_effect_eq_ok_iff
    {event : EffectEvent Ty}
    {before after : State}
    {answer : Unit} :
    receiver.effect event before = .ok answer after ↔
      step before event = .ok after := by
  unfold receiver
  cases hStep : step before event with
  | ok next => simp [hStep]
  | error stop => simp [hStep]

end Analysis

end OnePass

------------------------------------------------------------
-- Forms Of Expressions
------------------------------------------------------------

namespace OnePass

namespace Grammar

open Analysis (Reflects receiver receiver_value_eq_ok_iff)

/-
  The analysis, started in this state, finds the types that
  the expression has, and keeps its state.
-/
def Expr.Inferred
    (functions : List Signature)
    (scope : List Binding)
    (before : Analysis.State)
    {layer : Nat}
    (expr : Expr layer) : Prop :=
  ∀ (ty : Ty) (after : Analysis.State),
    expr.announce receiver before = .ok ty after ↔
      expr.HasType functions scope ty ∧ before = after

/- The same of a call. -/
def Call.Inferred
    (functions : List Signature)
    (scope : List Binding)
    (before : Analysis.State)
    (parts : Call) : Prop :=
  ∀ (ty : Ty) (after : Analysis.State),
    parts.announce receiver before = .ok ty after ↔
      parts.HasType functions scope ty ∧ before = after

/-
  The same of arguments. Their extents are answered as well,
  so that the types alone do not tell the answer.
-/
structure ArgumentsInferred
    (functions : List Signature)
    (scope : List Binding)
    (before : Analysis.State)
    (arguments : Separated (Expr topLayer)) : Prop where
  sound :
    ∀ (values : List (Typed Ty)) (after : Analysis.State),
      announceArguments receiver arguments before =
          .ok values after →
        HaveTypes functions scope arguments
            (values.map Typed.ty) ∧
          before = after
  complete :
    ∀ types : List Ty,
      HaveTypes functions scope arguments types →
        ∃ values,
          values.map Typed.ty = types ∧
            announceArguments receiver arguments before =
              .ok values before

variable {functions : List Signature}
variable {scope : List Binding}
variable {before : Analysis.State}

/- A form that is announced as a single value. -/
theorem Expr.inferred_of_event
    {layer : Nat}
    {expr : Expr layer}
    {event : ValueEvent Ty}
    (hAnnounce :
      expr.announce receiver = receiver.value event)
    (hTypes :
      ∀ ty,
        Analysis.valueType before.symbols event = .ok ty ↔
          expr.HasType functions scope ty) :
    expr.Inferred functions scope before := by
  intro ty after
  rw [hAnnounce, receiver_value_eq_ok_iff, hTypes]

theorem inferred_name
    (hReflects : Reflects before.symbols functions scope)
    (leaf : Leaf .identifier) :
    (Expr.name leaf).Inferred functions scope before := by
  apply Expr.inferred_of_event rfl
  intro ty
  rw [Analysis.valueType, Symbols.valueType]
  constructor
  · intro hTy
    split at hTy
    · next binding hFound =>
        obtain ⟨hVisible, hName⟩ :=
          hReflects.lookup_eq_some_iff.mp hFound
        cases hTy
        exact .name hVisible hName
    · cases hTy
  · intro hType
    cases hType with
    | @name _ binding hVisible hName =>
        have hFound :
            before.symbols.lookup leaf.identifier.name =
              some binding :=
          hReflects.lookup_eq_some_iff.mpr ⟨hVisible, hName⟩
        rw [hFound]
        rfl

theorem inferred_string
    (leaf : Leaf .string) :
    (Expr.string leaf).Inferred functions scope before := by
  apply Expr.inferred_of_event rfl
  intro ty
  constructor
  · rintro ⟨⟩
    exact .string
  · rintro ⟨⟩
    rfl

theorem inferred_number
    (digits : Leaf .number) :
    (Expr.number digits).Inferred functions scope before := by
  apply Expr.inferred_of_event rfl
  intro ty
  constructor
  · rintro ⟨⟩
    exact .number
  · rintro ⟨⟩
    rfl

theorem inferred_byte
    (digits : Leaf .number)
    (suffix : Leaf .byteSuffix) :
    (Expr.byte digits suffix).Inferred functions scope
      before := by
  apply Expr.inferred_of_event rfl
  intro ty
  rw [Analysis.valueType, Analysis.fitsByte_eq_isByteLiteral]
  constructor
  · intro hTy
    split at hTy
    case isTrue hRange =>
      cases hTy
      exact .byte hRange
    case isFalse => cases hTy
  · intro hType
    cases hType with
    | byte hRange => rw [if_pos hRange]

theorem inferred_bool
    (word : Sign truth?) :
    (Expr.bool word).Inferred functions scope before := by
  apply Expr.inferred_of_event rfl
  intro ty
  constructor
  · rintro ⟨⟩
    exact .bool
  · rintro ⟨⟩
    rfl

section Inside

variable {layer : Nat}

theorem inferred_negation
    {word : Leaf .kwNot}
    {operand : Expr 0}
    (hOperand : operand.Inferred functions scope before) :
    (Expr.negation word operand).Inferred functions scope
      before := by
  intro ty after
  rw [Expr.announce]
  simp only [bind_eq_ok_iff, receiver_value_eq_ok_iff,
    Analysis.valueType, Analysis.then_eq_ok_iff,
    Analysis.requireCast_eq_ok_iff, hOperand _ _]
  constructor
  · rintro ⟨inner, _, ⟨hType, rfl⟩, ⟨_, hCast, hTy⟩, rfl⟩
    cases hTy
    exact ⟨.negation hType hCast, rfl⟩
  · rintro ⟨hType, rfl⟩
    cases hType with
    | negation hType hCast =>
        exact
          ⟨_, _, ⟨hType, rfl⟩, ⟨(), hCast, rfl⟩, rfl⟩

theorem inferred_cast
    {left : Leaf .leftParen}
    {target : Sign Kind.valueType?}
    {right : Leaf .rightParen}
    {operand : Expr 0}
    (hOperand : operand.Inferred functions scope before) :
    (Expr.cast left target right operand).Inferred functions
      scope before := by
  intro ty after
  rw [Expr.announce]
  simp only [bind_eq_ok_iff, receiver_value_eq_ok_iff,
    Analysis.valueType, hOperand _ _]
  constructor
  · rintro ⟨inner, _, ⟨hType, rfl⟩, hTy, rfl⟩
    split at hTy
    case isTrue hCast =>
      cases hTy
      exact ⟨.cast hType hCast, rfl⟩
    case isFalse => cases hTy
  · rintro ⟨hType, rfl⟩
    cases hType with
    | cast hType hCast =>
        refine ⟨_, _, ⟨hType, rfl⟩, ?_, rfl⟩
        rw [if_pos hCast]

theorem inferred_paren
    {left : Leaf .leftParen}
    {inner : Expression}
    {right : Leaf .rightParen}
    (hInner : inner.Inferred functions scope before) :
    (Expr.paren left inner right).Inferred functions scope
      before := by
  intro ty after
  rw [Expr.announce, hInner]
  constructor
  · rintro ⟨hType, rfl⟩
    exact ⟨.paren hType, rfl⟩
  · rintro ⟨hType, rfl⟩
    cases hType with
    | paren hType => exact ⟨hType, rfl⟩

theorem inferred_call
    {parts : Call}
    (hParts : parts.Inferred functions scope before) :
    (Expr.call parts).Inferred functions scope before := by
  intro ty after
  rw [Expr.announce, hParts]
  constructor
  · rintro ⟨hType, rfl⟩
    exact ⟨.call hType, rfl⟩
  · rintro ⟨hType, rfl⟩
    cases hType with
    | call hType => exact ⟨hType, rfl⟩

theorem inferred_lift
    {operand : Expr layer}
    (hOperand : operand.Inferred functions scope before) :
    (Expr.lift operand).Inferred functions scope before := by
  intro ty after
  rw [Expr.announce, hOperand]
  constructor
  · rintro ⟨hType, rfl⟩
    exact ⟨.lift hType, rfl⟩
  · rintro ⟨hType, rfl⟩
    cases hType with
    | lift hType => exact ⟨hType, rfl⟩

theorem inferred_binary
    {left : Expr (layer + 1)}
    {operator : Sign (operator? layer)}
    {right : Expr layer}
    (hLeft : left.Inferred functions scope before)
    (hRight : right.Inferred functions scope before) :
    (Expr.binary left operator right).Inferred functions scope
      before := by
  intro ty after
  rw [Expr.announce]
  simp only [bind_eq_ok_iff, receiver_value_eq_ok_iff,
    Analysis.valueType_binary_eq_ok_iff, hLeft _ _]
  constructor
  · rintro ⟨first, _, ⟨hFirst, rfl⟩, second, _, hValue,
      hYields, rfl⟩
    obtain ⟨hSecond, rfl⟩ := (hRight _ _).mp hValue
    exact ⟨.binary hFirst hSecond hYields, rfl⟩
  · rintro ⟨hType, rfl⟩
    cases hType with
    | binary hFirst hSecond hYields =>
        exact
          ⟨_, _, ⟨hFirst, rfl⟩, _, _,
            (hRight _ _).mpr ⟨hSecond, rfl⟩, hYields, rfl⟩

end Inside

theorem Call.inferred_bare
    (hReflects : Reflects before.symbols functions scope)
    (callee : Leaf .identifier)
    (left : Leaf .leftParen)
    (right : Leaf .rightParen) :
    (Call.bare callee left right).Inferred functions scope
      before := by
  intro ty after
  rw [Call.announce, receiver_value_eq_ok_iff,
    Analysis.valueType,
    Analysis.callType_eq_ok_iff hReflects]
  constructor
  · rintro ⟨⟨signature, hKnown, hName, hFit, rfl⟩, rfl⟩
    exact
      ⟨.bare hKnown hName (List.forall₂_nil_left_iff.mp hFit),
        rfl⟩
  · rintro ⟨hType, rfl⟩
    cases hType with
    | @bare _ _ _ signature hKnown hName hParameters =>
        exact
          ⟨⟨signature, hKnown, hName,
              List.forall₂_nil_left_iff.mpr hParameters, rfl⟩,
            rfl⟩

/- The arguments of a call come before the call. -/
theorem Call.inferred_applied
    (hReflects : Reflects before.symbols functions scope)
    {callee : Leaf .identifier}
    {left : Leaf .leftParen}
    {arguments : Separated (Expr topLayer)}
    {right : Leaf .rightParen}
    (hArguments :
      ArgumentsInferred functions scope before arguments) :
    (Call.applied callee left arguments right).Inferred
      functions scope before := by
  intro ty after
  rw [Call.announce]
  simp only [bind_eq_ok_iff, receiver_value_eq_ok_iff,
    Analysis.valueType]
  constructor
  · rintro ⟨values, _, hValues, hCall, rfl⟩
    obtain ⟨hTypes, rfl⟩ := hArguments.sound _ _ hValues
    obtain ⟨signature, hKnown, hName, hFit, rfl⟩ :=
      (Analysis.callType_eq_ok_iff hReflects).mp hCall
    exact ⟨.applied hKnown hName hTypes hFit, rfl⟩
  · rintro ⟨hType, rfl⟩
    cases hType with
    | @applied _ _ _ _ signature types hKnown hName
        hHave hFit =>
        obtain ⟨values, hTypes, hValues⟩ :=
          hArguments.complete _ hHave
        refine ⟨values, _, hValues, ?_, rfl⟩
        apply (Analysis.callType_eq_ok_iff hReflects).mpr
        rw [hTypes]
        exact ⟨signature, hKnown, hName, hFit, rfl⟩

theorem argumentsInferred_one
    {item : Expression}
    (hItem : item.Inferred functions scope before) :
    ArgumentsInferred functions scope before (.one item) where
  sound values after := by
    rw [announceArguments]
    simp only [bind_eq_ok_iff, pure_eq_ok_iff, hItem _ _]
    rintro ⟨ty, _, ⟨hType, rfl⟩, rfl, rfl⟩
    exact ⟨.one hType, rfl⟩
  complete types hTypes := by
    cases hTypes with
    | @one _ ty hType =>
        refine ⟨[⟨ty, item.span⟩], rfl, ?_⟩
        rw [announceArguments]
        simp only [bind_eq_ok_iff, pure_eq_ok_iff, hItem _ _]
        exact ⟨_, _, ⟨hType, rfl⟩, rfl, rfl⟩

theorem argumentsInferred_more
    {items : Separated (Expr topLayer)}
    {comma : Leaf .comma}
    {item : Expression}
    (hItems : ArgumentsInferred functions scope before items)
    (hItem : item.Inferred functions scope before) :
    ArgumentsInferred functions scope before
      (.more items comma item) where
  sound values after := by
    rw [announceArguments]
    simp only [bind_eq_ok_iff, pure_eq_ok_iff]
    rintro ⟨firsts, _, hFirsts, ty, _, hLast, rfl, rfl⟩
    obtain ⟨hTypes, rfl⟩ := hItems.sound _ _ hFirsts
    obtain ⟨hType, rfl⟩ := (hItem _ _).mp hLast
    rw [List.map_append]
    exact ⟨.more hTypes hType, rfl⟩
  complete types hTypes := by
    cases hTypes with
    | @more _ _ _ firstTypes ty hFirstTypes hType =>
        obtain ⟨firsts, hSame, hFirsts⟩ :=
          hItems.complete _ hFirstTypes
        refine ⟨firsts ++ [⟨ty, item.span⟩], ?_, ?_⟩
        · rw [List.map_append, hSame]
          rfl
        · rw [announceArguments]
          simp only [bind_eq_ok_iff, pure_eq_ok_iff]
          exact
            ⟨_, _, hFirsts, _, _,
              (hItem _ _).mpr ⟨hType, rfl⟩, rfl, rfl⟩

end Grammar

end OnePass

------------------------------------------------------------
-- Expressions
------------------------------------------------------------

namespace OnePass

namespace Grammar

open Analysis (Reflects receiver)

variable {functions : List Signature}
variable {scope : List Binding}
variable {before : Analysis.State}

mutual

/-
  An expression is accepted with the type that it has. The
  recursion is that of the trees.
-/
theorem Expr.announce_eq_ok_iff
    {layer : Nat}
    (hReflects : Reflects before.symbols functions scope) :
    (expr : Expr layer) →
      ∀ (ty : Ty) (after : Analysis.State),
        expr.announce receiver before = .ok ty after ↔
          expr.HasType functions scope ty ∧ before = after
| .negation _ operand =>
    inferred_negation
      (Expr.announce_eq_ok_iff hReflects operand)
| .cast _ _ _ operand =>
    inferred_cast (Expr.announce_eq_ok_iff hReflects operand)
| .paren _ inner _ =>
    inferred_paren (Expr.announce_eq_ok_iff hReflects inner)
| .call parts =>
    inferred_call (Call.announce_eq_ok_iff hReflects parts)
| .name leaf => inferred_name hReflects leaf
| .string leaf => inferred_string leaf
| .number digits => inferred_number digits
| .byte digits suffix => inferred_byte digits suffix
| .bool word => inferred_bool word
| .lift operand =>
    inferred_lift (Expr.announce_eq_ok_iff hReflects operand)
| .binary left _ right =>
    inferred_binary (Expr.announce_eq_ok_iff hReflects left)
      (Expr.announce_eq_ok_iff hReflects right)

/- A call is accepted with the type that it has. -/
theorem Call.announce_eq_ok_iff
    (hReflects : Reflects before.symbols functions scope) :
    (parts : Call) →
      ∀ (ty : Ty) (after : Analysis.State),
        parts.announce receiver before = .ok ty after ↔
          parts.HasType functions scope ty ∧ before = after
| .bare callee left right =>
    Call.inferred_bare hReflects callee left right
| .applied _ _ arguments _ =>
    Call.inferred_applied hReflects
      (arguments_inferred hReflects arguments)

/- Arguments are accepted with the types that they have. -/
theorem arguments_inferred
    (hReflects : Reflects before.symbols functions scope) :
    (arguments : Separated (Expr topLayer)) →
      ArgumentsInferred functions scope before arguments
| .one item =>
    argumentsInferred_one
      (Expr.announce_eq_ok_iff hReflects item)
| .more items _ item =>
    argumentsInferred_more (arguments_inferred hReflects items)
      (Expr.announce_eq_ok_iff hReflects item)

end

end Grammar

end OnePass
