import OnePass.Proofs.Grammar.Boundary

/-
  When the parts of a rule answer.

  Every statement says exactly when a part answers, with
  what, and where the cursor then stands. A token that is
  read is given as a leaf of its kind.

  Main declarations:
    * `bind_eq_ok_iff`
    * `Parser.expect_eq_ok_iff`, `Parser.identifier_eq_ok_iff`
    * `Parser.valueType_eq_ok_iff`
    * `Parser.value_eq_ok_iff`, `Parser.effect_eq_ok_iff`
    * `Parser.iterate_eq_ok_iff`
-/

------------------------------------------------------------
-- Sequencing
------------------------------------------------------------

namespace OnePass

section Sequencing

variable {ε σ α β : Type}

/- A sequence goes on where its first part answers. -/
theorem bind_of_ok
    {first : EStateM ε σ α}
    {next : α → EStateM ε σ β}
    {before between : σ}
    {value : α}
    (hFirst : first before = .ok value between) :
    (first >>= next) before = next value between := by
  change EStateM.bind first next before = _
  unfold EStateM.bind
  rw [hFirst]

/- A sequence stops where its first part stops. -/
theorem bind_of_error
    {first : EStateM ε σ α}
    {next : α → EStateM ε σ β}
    {before between : σ}
    {reason : ε}
    (hFirst : first before = .error reason between) :
    (first >>= next) before = .error reason between := by
  change EStateM.bind first next before = _
  unfold EStateM.bind
  rw [hFirst]

/- A sequence answers when both of its parts do. -/
theorem bind_eq_ok_iff
    {first : EStateM ε σ α}
    {next : α → EStateM ε σ β}
    {before after : σ}
    {answer : β} :
    (first >>= next) before = .ok answer after ↔
      ∃ value between,
        first before = .ok value between ∧
          next value between = .ok answer after := by
  change EStateM.bind first next before = _ ↔ _
  unfold EStateM.bind
  cases first before with
  | ok value between =>
      constructor
      · intro hNext
        exact ⟨value, between, rfl, hNext⟩
      · rintro ⟨_, _, hFirst, hNext⟩
        cases hFirst
        exact hNext
  | error reason between => simp

/- Changing the answer does not change when there is one. -/
theorem map_eq_ok_iff
    {change : α → β}
    {act : EStateM ε σ α}
    {before after : σ}
    {answer : β} :
    (change <$> act) before = .ok answer after ↔
      ∃ value,
        act before = .ok value after ∧
          change value = answer := by
  change EStateM.map change act before = _ ↔ _
  unfold EStateM.map
  cases act before with
  | ok value between =>
      constructor
      · intro hOk
        cases hOk
        exact ⟨value, rfl, rfl⟩
      · rintro ⟨_, hOk, rfl⟩
        cases hOk
        rfl
  | error reason between => simp

@[simp] theorem pure_eq_ok_iff
    {value answer : α}
    {before after : σ} :
    (pure value : EStateM ε σ α) before =
        .ok answer after ↔
      value = answer ∧ before = after := by
  change EStateM.Result.ok value before = _ ↔ _
  simp

end Sequencing

end OnePass

------------------------------------------------------------
-- Reading Tokens
------------------------------------------------------------

namespace OnePass

namespace Parser

open Grammar (Leaf Sign returnType? headKind)

variable {σ ε α : Type}
variable {before after : Cursor σ}

theorem peek_bind
    {next : Option Kind → Rule σ ε α} :
    (peek >>= next) before =
      next (headKind before.rest) before :=
  rfl

theorem lookahead_bind
    {next : Option Kind × Option Kind → Rule σ ε α} :
    (lookahead >>= next) before =
      next (headKind before.rest, headKind before.rest.tail)
        before := by
  rcases before with ⟨_ | ⟨_, _ | _⟩, _⟩
  · rfl
  · rfl
  · rfl

theorem unexpected_ne_ok
    {answer : α} :
    (unexpected : Rule σ ε α) before ≠ .ok answer after := by
  intro hOk
  cases hOk

theorem token_of_kind
    {next : Token}
    {rest : List Token}
    {state : σ} :
    token (ε := ε) next.kind ⟨next :: rest, state⟩ =
      .ok next ⟨rest, state⟩ := by
  change
    (if next.kind = next.kind then do
        set (⟨rest, state⟩ : Cursor σ)
        return next
      else
        unexpected : Rule σ ε Token)
      ⟨next :: rest, state⟩ = _
  rw [if_pos rfl]
  rfl

theorem token_of_ne
    {kind : Kind}
    {next : Token}
    {rest : List Token}
    {state : σ}
    (hKind : next.kind ≠ kind) :
    token (ε := ε) kind ⟨next :: rest, state⟩ =
      .error (.stuck .unexpected) ⟨next :: rest, state⟩ := by
  change
    (if next.kind = kind then do
        set (⟨rest, state⟩ : Cursor σ)
        return next
      else
        unexpected : Rule σ ε Token)
      ⟨next :: rest, state⟩ = _
  rw [if_neg hKind]
  rfl

theorem token_eq_ok_iff
    {kind : Kind}
    {answer : Token} :
    token (ε := ε) kind before = .ok answer after ↔
      before.rest = answer :: after.rest ∧
        answer.kind = kind ∧ after.state = before.state := by
  rcases before with ⟨_ | ⟨next, rest⟩, state⟩
  · constructor
    · intro hOk
      exact absurd hOk (unexpected_ne_ok (ε := ε))
    · simp
  · by_cases hKind : next.kind = kind
    · subst hKind
      rw [token_of_kind]
      constructor
      · intro hOk
        cases hOk
        exact ⟨rfl, rfl, rfl⟩
      · rintro ⟨hRest, -, hState⟩
        rcases after with ⟨unread, final⟩
        cases hRest
        cases hState
        rfl
    · constructor
      · intro hOk
        rw [token_of_ne hKind] at hOk
        cases hOk
      · rintro ⟨hRest, hAnswer, -⟩
        rw [(List.cons.inj hRest).1] at hKind
        exact absurd hAnswer hKind

theorem expect_eq_ok_iff
    {kind : Kind}
    {span : Span} :
    expect (ε := ε) kind before = .ok span after ↔
      ∃ leaf : Leaf kind,
        before.rest = leaf.token :: after.rest ∧
          after.state = before.state ∧ span = leaf.span := by
  unfold expect
  simp only [bind_eq_ok_iff, token_eq_ok_iff,
    pure_eq_ok_iff]
  constructor
  · rintro ⟨⟨kind, text, span⟩, _, ⟨hRest, rfl, hState⟩,
      rfl, rfl⟩
    exact ⟨⟨text, span⟩, hRest, hState, rfl⟩
  · rintro ⟨leaf, hRest, hState, rfl⟩
    exact ⟨leaf.token, after, ⟨hRest, rfl, hState⟩, rfl, rfl⟩

theorem identifier_eq_ok_iff
    {name : Identifier} :
    identifier (ε := ε) before = .ok name after ↔
      ∃ leaf : Leaf .identifier,
        before.rest = leaf.token :: after.rest ∧
          after.state = before.state ∧
            name = leaf.identifier := by
  unfold identifier
  simp only [bind_eq_ok_iff, token_eq_ok_iff,
    pure_eq_ok_iff]
  constructor
  · rintro ⟨⟨_, text, span⟩, _, ⟨hRest, rfl, hState⟩,
      rfl, rfl⟩
    exact ⟨⟨text, span⟩, hRest, hState, rfl⟩
  · rintro ⟨leaf, hRest, hState, rfl⟩
    exact ⟨leaf.token, after, ⟨hRest, rfl, hState⟩, rfl, rfl⟩

end Parser

end OnePass

------------------------------------------------------------
-- Choices
------------------------------------------------------------

namespace OnePass

namespace Parser

open Grammar (Leaf Sign returnType? headKind)

variable {σ ε : Type}
variable {before after : Cursor σ}

theorem accept_eq_ok_iff
    {kind : Kind}
    {found : Bool} :
    accept (ε := ε) kind before = .ok found after ↔
      (∃ leaf : Leaf kind,
        before.rest = leaf.token :: after.rest ∧
          after.state = before.state ∧ found = true) ∨
      (headKind before.rest ≠ some kind ∧
        after = before ∧ found = false) := by
  unfold accept
  rw [peek_bind]
  by_cases hKind : headKind before.rest = some kind
  · rw [if_pos hKind]
    simp only [bind_eq_ok_iff, token_eq_ok_iff,
      pure_eq_ok_iff]
    constructor
    · rintro ⟨⟨_, text, span⟩, _, ⟨hRest, rfl, hState⟩,
        rfl, rfl⟩
      exact Or.inl ⟨⟨text, span⟩, hRest, hState, rfl⟩
    · rintro (⟨leaf, hRest, hState, rfl⟩ | ⟨hNot, -, -⟩)
      · exact
          ⟨leaf.token, after, ⟨hRest, rfl, hState⟩, rfl, rfl⟩
      · exact absurd hKind hNot
  · rw [if_neg hKind, pure_eq_ok_iff]
    constructor
    · rintro ⟨rfl, rfl⟩
      exact Or.inr ⟨hKind, rfl, rfl⟩
    · rintro (⟨leaf, hRest, -, -⟩ | ⟨-, rfl, rfl⟩)
      · rw [hRest] at hKind
        exact absurd rfl hKind
      · exact ⟨rfl, rfl⟩

theorem nextSpan_eq_ok_iff
    {span : Span} :
    nextSpan (ε := ε) before = .ok span after ↔
      before.rest.head?.map Token.span = some span ∧
        after = before := by
  rcases before with ⟨_ | ⟨next, rest⟩, state⟩
  · constructor
    · intro hOk
      exact absurd hOk (unexpected_ne_ok (ε := ε))
    · simp
  · change
      (pure next.span : Rule σ ε Span)
        ⟨next :: rest, state⟩ = _ ↔ _
    rw [pure_eq_ok_iff]
    simp [eq_comm]

theorem valueType_eq_ok_iff
    {ty : Ty} :
    valueType (ε := ε) before = .ok ty after ↔
      ∃ sign : Sign Kind.valueType?,
        before.rest = sign.token :: after.rest ∧
          after.state = before.state ∧
            ty = sign.meaning := by
  unfold valueType
  rw [peek_bind]
  rcases before with ⟨_ | ⟨next, rest⟩, state⟩
  · constructor
    · intro hOk
      exact absurd hOk (unexpected_ne_ok (ε := ε))
    · simp
  · cases hMeaning : next.kind.valueType? with
    | none =>
        simp only [headKind, List.head?_cons,
          Option.map_some, hMeaning]
        constructor
        · intro hOk
          exact absurd hOk unexpected_ne_ok
        · rintro ⟨sign, hRest, -, -⟩
          have hMeans := sign.means
          rw [← (List.cons.inj hRest).1, hMeaning] at hMeans
          cases hMeans
    | some meaning =>
        simp only [headKind, List.head?_cons,
          Option.map_some, hMeaning, bind_eq_ok_iff,
          token_eq_ok_iff, pure_eq_ok_iff]
        constructor
        · rintro ⟨_, _, ⟨hRest, -, hState⟩, rfl, rfl⟩
          rw [← (List.cons.inj hRest).1] at hRest
          exact ⟨⟨next, meaning, hMeaning⟩, hRest, hState, rfl⟩
        · rintro ⟨sign, hRest, hState, rfl⟩
          have hMeans := sign.means
          rw [← (List.cons.inj hRest).1, hMeaning] at hMeans
          refine
            ⟨sign.token, after, ⟨hRest, ?_, hState⟩,
              Option.some.inj hMeans, rfl⟩
          rw [(List.cons.inj hRest).1]

/- A sign of a value type is a sign of a return type. -/
theorem returnType?_of_valueType?
    {kind : Kind}
    {ty : Ty}
    (hKind : kind.valueType? = some ty) :
    returnType? kind = some ty := by
  cases kind <;> first | exact hKind | cases hKind

theorem returnType_eq_ok_iff
    {ty : Ty} :
    returnType (ε := ε) before = .ok ty after ↔
      ∃ sign : Sign returnType?,
        before.rest = sign.token :: after.rest ∧
          after.state = before.state ∧
            ty = sign.meaning := by
  unfold returnType
  rw [bind_eq_ok_iff]
  constructor
  · rintro ⟨found, between, hAccept, hRest⟩
    rw [accept_eq_ok_iff] at hAccept
    rcases hAccept with
      ⟨leaf, hTokens, hState, rfl⟩ | ⟨-, rfl, rfl⟩
    · rw [if_pos rfl, pure_eq_ok_iff] at hRest
      rcases hRest with ⟨rfl, rfl⟩
      exact
        ⟨⟨leaf.token, .void, rfl⟩, hTokens, hState, rfl⟩
    · rw [if_neg Bool.false_ne_true, valueType_eq_ok_iff]
        at hRest
      rcases hRest with ⟨sign, hTokens, hState, rfl⟩
      exact
        ⟨⟨sign.token, _, returnType?_of_valueType? sign.means⟩,
          hTokens, hState, rfl⟩
  · rintro ⟨⟨⟨kind, text, span⟩, meaning, hMeans⟩, hTokens,
      hState, hTy⟩
    by_cases hVoid : kind = .kwVoid
    · subst hVoid
      refine
        ⟨true, after, accept_eq_ok_iff.mpr
          (Or.inl ⟨⟨text, span⟩, hTokens, hState, rfl⟩), ?_⟩
      rw [if_pos rfl, pure_eq_ok_iff, hTy]
      exact ⟨Option.some.inj hMeans, rfl⟩
    · refine
        ⟨false, before, accept_eq_ok_iff.mpr
          (Or.inr ⟨?_, rfl, rfl⟩), ?_⟩
      · simpa [hTokens] using hVoid
      · have hValue : kind.valueType? = some meaning := by
          simpa [returnType?, hVoid] using hMeans
        rw [if_neg Bool.false_ne_true, valueType_eq_ok_iff]
        exact
          ⟨⟨⟨kind, text, span⟩, meaning, hValue⟩, hTokens,
            hState, hTy⟩

end Parser

end OnePass

------------------------------------------------------------
-- Announcing Events
------------------------------------------------------------

namespace OnePass

namespace Parser

variable {σ τ ε α : Type}
variable {before after : Cursor σ}

theorem announce_eq_ok_iff
    {act : EStateM ε σ α}
    {answer : α} :
    announce act before = .ok answer after ↔
      act before.state = .ok answer after.state ∧
        after.rest = before.rest := by
  unfold announce
  cases act before.state with
  | ok result next =>
      constructor
      · intro hOk
        cases hOk
        exact ⟨rfl, rfl⟩
      · rintro ⟨hAct, hRest⟩
        cases hAct
        rw [← hRest]
  | error reason next => simp

theorem effect_eq_ok_iff
    {receiver : Receiver σ τ ε}
    {event : EffectEvent τ}
    {answer : Unit} :
    effect receiver event before = .ok answer after ↔
      receiver.effect event before.state =
          .ok () after.state ∧
        after.rest = before.rest :=
  announce_eq_ok_iff

theorem value_eq_ok_iff
    {receiver : Receiver σ τ ε}
    {event : ValueEvent τ}
    {span : Span}
    {answer : Typed τ} :
    value receiver event span before = .ok answer after ↔
      receiver.value event before.state =
          .ok answer.ty after.state ∧
        after.rest = before.rest ∧ answer.span = span := by
  unfold value
  simp only [bind_eq_ok_iff, pure_eq_ok_iff,
    announce_eq_ok_iff]
  constructor
  · rintro ⟨result, _, ⟨hAct, hRest⟩, rfl, rfl⟩
    exact ⟨hAct, hRest, rfl⟩
  · rintro ⟨hAct, hRest, rfl⟩
    exact ⟨answer.ty, after, ⟨hAct, hRest⟩, rfl, rfl⟩

end Parser

end OnePass

------------------------------------------------------------
-- Repetition
------------------------------------------------------------

namespace OnePass

namespace Parser

variable {σ ε α : Type}

/- Steps of a loop, up to one that answers nothing. -/
inductive Steps
    (step : α → Rule σ ε (Option α)) :
    α → Cursor σ → α → Cursor σ → Prop where
  | stop
      {current : α}
      {before after : Cursor σ}
      (hStep : step current before = .ok none after) :
      Steps step current before current after
  | next
      {current value final : α}
      {before between after : Cursor σ}
      (hStep : step current before = .ok (some value) between)
      (hSteps : Steps step value between final after) :
      Steps step current before final after

/-
  A step that answers reads a token, and at the end of input
  a step answers nothing. The unread tokens then bound the
  number of steps.
-/
structure Progresses
    (step : α → Rule σ ε (Option α)) : Prop where
  reads :
    ∀ {current value : α} {before after : Cursor σ},
      step current before = .ok (some value) after →
        after.rest.length < before.rest.length
  ends :
    ∀ (current : α) (state : σ),
      step current ⟨[], state⟩ = .ok none ⟨[], state⟩

private theorem iterateWithin_eq_ok_iff
    {step : α → Rule σ ε (Option α)}
    (hProgress : Progresses step)
    {bound : List Token}
    {current final : α}
    {before after : Cursor σ}
    (hBound : before.rest.length ≤ bound.length) :
    iterateWithin step bound current before =
        .ok final after ↔
      Steps step current before final after := by
  induction bound generalizing current before with
  | nil =>
      rcases before with ⟨rest, state⟩
      have hRest : rest = [] := by
        simpa using hBound
      subst hRest
      have hEnds := hProgress.ends current state
      rw [iterateWithin, pure_eq_ok_iff]
      constructor
      · rintro ⟨rfl, rfl⟩
        exact Steps.stop hEnds
      · intro hSteps
        cases hSteps with
        | stop hStep =>
            rw [hEnds] at hStep
            cases hStep
            exact ⟨rfl, rfl⟩
        | next hStep _ =>
            rw [hEnds] at hStep
            cases hStep
  | cons token bound ih =>
      rw [iterateWithin, bind_eq_ok_iff]
      constructor
      · rintro ⟨value?, between, hStep, hRest⟩
        cases value? with
        | none =>
            rw [pure_eq_ok_iff] at hRest
            rcases hRest with ⟨rfl, rfl⟩
            exact Steps.stop hStep
        | some value =>
            have hReads := hProgress.reads hStep
            rw [List.length_cons] at hBound
            exact
              Steps.next hStep
                ((ih (by omega)).mp hRest)
      · intro hSteps
        cases hSteps with
        | stop hStep =>
            exact ⟨none, after, hStep, rfl⟩
        | @next _ value _ _ between _ hStep hRest =>
            have hReads := hProgress.reads hStep
            rw [List.length_cons] at hBound
            exact
              ⟨some value, between, hStep,
                (ih (by omega)).mpr hRest⟩

/- A loop answers when its steps come to an end. -/
theorem iterate_eq_ok_iff
    {step : α → Rule σ ε (Option α)}
    (hProgress : Progresses step)
    {first final : α}
    {before after : Cursor σ} :
    iterate step first before = .ok final after ↔
      Steps step first before final after := by
  change
    iterateWithin step before.rest first before = _ ↔ _
  exact iterateWithin_eq_ok_iff hProgress (Nat.le_refl _)

end Parser

end OnePass
