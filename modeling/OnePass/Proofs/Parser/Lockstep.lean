import OnePass.Proofs.Parser.Outcome
import OnePass.Proofs.Parser.Resemblance

/-
  Two runs of the parser, side by side.

  The tokens of the two runs are alike, and the receivers
  may answer with different attributes. As long as neither
  receiver refuses an event, the two runs announce events
  that are alike, in the same order, and come to the same
  end. When the left receiver refuses an event, the left run
  is over, while the right run may go on.

  Main declarations:
    * `Parser.Bond`, `Parser.Bond.KeptBy`
    * `Parser.Bond.Pairs`
    * `Parser.Bond.pairs_program`
    * `settles_parse`
-/

------------------------------------------------------------
-- Bonds
------------------------------------------------------------

namespace OnePass

namespace Parser

/-
  What holds between two receivers. Once the left one has
  refused an event for a reason and stopped in a state, the
  right one has either refused one too, or it goes on. A run
  on the right that goes on alone may be answered anything,
  so that everything on the right needs a counterpart.
-/
structure Bond (σ τ ε σ' τ' ε' : Type)
    extends like : Resemblance where
  Attribute : τ → τ' → Prop
  Together : σ → σ' → Prop
  Parted : ε → σ → Option ε' → σ' → Prop
  total :
    ∀ {reason : ε} {final : σ} {state' : σ'},
      Parted reason final none state' → like.Total
  exists_attribute :
    ∀ {reason : ε} {final : σ} {state' : σ'},
      Parted reason final none state' →
        ∀ right, ∃ left, Attribute left right

namespace Bond

variable {σ τ ε σ' τ' ε' α β α' β' : Type}

/- What an act on the right leads to, after the parting. -/
def Remains
    (bond : Bond σ τ ε σ' τ' ε')
    (reason : ε)
    (final : σ) :
    EStateM.Result ε' σ' α' → Prop
| .ok _ state => bond.Parted reason final none state
| .error reason' state =>
    bond.Parted reason final (some reason') state

/- What two acts on corresponding events lead to. -/
def Meets
    (bond : Bond σ τ ε σ' τ' ε')
    (Answer : α → α' → Prop) :
    EStateM.Result ε σ α → EStateM.Result ε' σ' α' → Prop
| .ok left state, .ok right state' =>
    Answer left right ∧ bond.Together state state'
| .error reason state, right =>
    bond.Remains reason state right
| .ok _ _, .error _ _ => False

/- The receivers keep the bond, together and apart. -/
structure KeptBy
    (bond : Bond σ τ ε σ' τ' ε')
    (left : Receiver σ τ ε)
    (right : Receiver σ' τ' ε') : Prop where
  value :
    ∀ {event : ValueEvent τ} {event' : ValueEvent τ'}
      {state : σ} {state' : σ'},
      ValueEvent.Alike bond.like bond.Attribute event
          event' →
        bond.Together state state' →
          bond.Meets bond.Attribute (left.value event state)
            (right.value event' state')
  effect :
    ∀ {event : EffectEvent τ} {event' : EffectEvent τ'}
      {state : σ} {state' : σ'},
      EffectEvent.Alike bond.like bond.Attribute event
          event' →
        bond.Together state state' →
          bond.Meets Eq (left.effect event state)
            (right.effect event' state')
  valueAlone :
    ∀ {reason : ε} {final : σ} {state' : σ'}
      (event' : ValueEvent τ'),
      bond.Parted reason final none state' →
        bond.Remains reason final (right.value event' state')
  effectAlone :
    ∀ {reason : ε} {final : σ} {state' : σ'}
      (event' : EffectEvent τ'),
      bond.Parted reason final none state' →
        bond.Remains reason final
          (right.effect event' state')

end Bond

end Parser

end OnePass

------------------------------------------------------------
-- Paired Rules
------------------------------------------------------------

namespace OnePass

namespace Parser

namespace Bond

variable {σ τ ε σ' τ' ε' α β α' β' : Type}

/- What a run on the right leads to, after the parting. -/
def Stays
    (bond : Bond σ τ ε σ' τ' ε')
    (reason : ε)
    (final : σ)
    (Answer : α → α' → Prop) :
    EStateM.Result (Halt ε') (Cursor σ') α' → Prop
| .ok right after =>
    bond.Parted reason final none after.state ∧
      ∃ left, Answer left right
| .error (.stuck _) after =>
    bond.Parted reason final none after.state
| .error (.refused reason') after =>
    bond.Parted reason final (some reason') after.state

/- What two runs that start together lead to. -/
def Ends
    (bond : Bond σ τ ε σ' τ' ε')
    (Answer : α → α' → Prop) :
    EStateM.Result (Halt ε) (Cursor σ) α →
      EStateM.Result (Halt ε') (Cursor σ') α' → Prop
| .ok left after, .ok right after' =>
    Answer left right ∧
      bond.Rest after.rest after'.rest ∧
        bond.Together after.state after'.state
| .error (.stuck obstacle) after,
  .error (.stuck obstacle') after' =>
    obstacle = obstacle' ∧
      bond.Rest after.rest after'.rest ∧
        bond.Together after.state after'.state
| .error (.refused reason) after, right =>
    bond.Stays reason after.state Answer right
| _, _ => False

/- The two rules keep the bond, together and apart. -/
structure Pairs
    (bond : Bond σ τ ε σ' τ' ε')
    (Answer : α → α' → Prop)
    (left : Rule σ ε α)
    (right : Rule σ' ε' α') : Prop where
  together :
    ∀ (cursor : Cursor σ) (cursor' : Cursor σ'),
      bond.Rest cursor.rest cursor'.rest →
        bond.Together cursor.state cursor'.state →
          bond.Ends Answer (left cursor) (right cursor')
  alone :
    ∀ (reason : ε) (final : σ) (cursor' : Cursor σ'),
      bond.Parted reason final none cursor'.state →
        bond.Stays reason final Answer (right cursor')

end Bond

end Parser

end OnePass

------------------------------------------------------------
-- Reading Tokens
------------------------------------------------------------

namespace OnePass

namespace Parser

namespace Bond

variable {σ τ ε σ' τ' ε' α β α' β' : Type}
variable {bond : Bond σ τ ε σ' τ' ε'}

/- A run on the right that goes on alone. -/
theorem Stays.bind
    {reason : ε}
    {final : σ}
    {Answer : α → α' → Prop}
    {Answer' : β → β' → Prop}
    {rule : Rule σ' ε' α'}
    {next : α' → Rule σ' ε' β'}
    {cursor : Cursor σ'}
    (hRule :
      bond.Stays reason final Answer (rule cursor))
    (hNext :
      ∀ left right after,
        Answer left right →
          bond.Parted reason final none after.state →
            bond.Stays reason final Answer'
              (next right after)) :
    bond.Stays reason final Answer'
      ((rule >>= next) cursor) := by
  cases hOutcome : rule cursor with
  | ok right after =>
      rw [hOutcome] at hRule
      obtain ⟨hParted, left, hAnswer⟩ := hRule
      rw [bind_of_ok hOutcome]
      exact hNext left right after hAnswer hParted
  | error halt after =>
      rw [hOutcome] at hRule
      rw [bind_of_error hOutcome]
      cases halt with
      | stuck obstacle => exact hRule
      | refused reason' => exact hRule

theorem Pairs.bind
    {Answer : α → α' → Prop}
    {Answer' : β → β' → Prop}
    {left : Rule σ ε α}
    {right : Rule σ' ε' α'}
    {next : α → Rule σ ε β}
    {next' : α' → Rule σ' ε' β'}
    (hRules : bond.Pairs Answer left right)
    (hNext :
      ∀ answer answer',
        Answer answer answer' →
          bond.Pairs Answer' (next answer)
            (next' answer')) :
    bond.Pairs Answer' (left >>= next) (right >>= next') where
  together cursor cursor' hRest hTogether := by
    have hEnds :=
      hRules.together cursor cursor' hRest hTogether
    cases hLeft : left cursor with
    | ok answer after =>
        rw [bind_of_ok hLeft]
        rw [hLeft] at hEnds
        cases hRight : right cursor' with
        | ok answer' after' =>
            rw [bind_of_ok hRight]
            rw [hRight] at hEnds
            obtain ⟨hAnswer, hAfter, hStates⟩ := hEnds
            exact
              (hNext answer answer' hAnswer).together after
                after' hAfter hStates
        | error halt' after' =>
            rw [hRight] at hEnds
            cases hEnds
    | error halt after =>
        rw [bind_of_error hLeft]
        rw [hLeft] at hEnds
        cases halt with
        | stuck obstacle =>
            cases hRight : right cursor' with
            | ok answer' after' =>
                rw [hRight] at hEnds
                cases hEnds
            | error halt' after' =>
                rw [bind_of_error hRight]
                rw [hRight] at hEnds
                cases halt' with
                | stuck obstacle' => exact hEnds
                | refused reason' => cases hEnds
        | refused reason =>
            have hStays :
                bond.Stays reason after.state Answer
                  (right cursor') :=
              hEnds
            apply hStays.bind
            intro answer answer' after' hAnswer hParted
            exact
              (hNext answer answer' hAnswer).alone reason
                after.state after' hParted
  alone reason final cursor' hParted := by
    apply (hRules.alone reason final cursor' hParted).bind
    intro answer answer' after' hAnswer hAfter
    exact
      (hNext answer answer' hAnswer).alone reason final
        after' hAfter

theorem pairs_pure
    {Answer : α → α' → Prop}
    {left : α}
    {right : α'}
    (hAnswer : Answer left right) :
    bond.Pairs Answer (pure left : Rule σ ε α)
      (pure right : Rule σ' ε' α') where
  together _ _ hRest hTogether :=
    ⟨hAnswer, hRest, hTogether⟩
  alone _ _ _ hParted := ⟨hParted, left, hAnswer⟩

/- Both runs are stuck at the same point. -/
theorem pairs_stuck
    {Answer : α → α' → Prop}
    (obstacle : Obstacle) :
    bond.Pairs Answer
      (throw (.stuck obstacle) : Rule σ ε α)
      (throw (.stuck obstacle) : Rule σ' ε' α') where
  together _ _ hRest hTogether := ⟨rfl, hRest, hTogether⟩
  alone _ _ _ hParted := hParted

theorem pairs_unexpected
    {Answer : α → α' → Prop} :
    bond.Pairs Answer (unexpected : Rule σ ε α)
      (unexpected : Rule σ' ε' α') :=
  pairs_stuck .unexpected

theorem pairs_lookahead :
    bond.Pairs Eq (lookahead : Rule σ ε _)
      (lookahead : Rule σ' ε' _) where
  together cursor cursor' hRest hTogether := by
    rcases cursor with ⟨rest, state⟩
    rcases cursor' with ⟨rest', state'⟩
    obtain ⟨rfl, rfl⟩ |
        ⟨first, first', tail, tail', rfl, rfl, hFirst⟩ :=
      bond.rest_cases hRest
    · exact ⟨rfl, hRest, hTogether⟩
    · have hTail := bond.tail hRest
      obtain ⟨rfl, rfl⟩ |
          ⟨second, second', _, _, rfl, rfl, hSecond⟩ :=
        bond.rest_cases hTail
      · have hKinds :
            (some first.kind, (none : Option Kind)) =
              (some first'.kind, none) := by
          rw [hFirst]
        exact ⟨hKinds, hRest, hTogether⟩
      · have hKinds :
            (some first.kind, some second.kind) =
              (some first'.kind, some second'.kind) := by
          rw [hFirst, hSecond]
        exact ⟨hKinds, hRest, hTogether⟩
  alone reason final cursor' hParted := by
    rcases cursor' with ⟨_ | ⟨_, _ | _⟩, _⟩
    · exact ⟨hParted, _, rfl⟩
    · exact ⟨hParted, _, rfl⟩
    · exact ⟨hParted, _, rfl⟩

theorem pairs_peek :
    bond.Pairs Eq (peek : Rule σ ε _)
      (peek : Rule σ' ε' _) where
  together cursor cursor' hRest hTogether := by
    rcases cursor with ⟨rest, state⟩
    rcases cursor' with ⟨rest', state'⟩
    obtain ⟨rfl, rfl⟩ |
        ⟨first, first', tail, tail', rfl, rfl, hFirst⟩ :=
      bond.rest_cases hRest
    · exact ⟨rfl, hRest, hTogether⟩
    · have hKind : some first.kind = some first'.kind := by
        rw [hFirst]
      exact ⟨hKind, hRest, hTogether⟩
  alone _ _ _ hParted := ⟨hParted, _, rfl⟩

theorem pairs_token
    {kind : Kind}
    {Answer : Token → Token → Prop}
    (hAnswer :
      ∀ {left right lefts rights},
        bond.Rest (left :: lefts) (right :: rights) →
          left.kind = kind → Answer left right)
    (hTotal :
      bond.like.Total → ∀ right, ∃ left, Answer left right) :
    bond.Pairs Answer (token kind : Rule σ ε Token)
      (token kind : Rule σ' ε' Token) where
  together cursor cursor' hRest hTogether := by
    rcases cursor with ⟨rest, state⟩
    rcases cursor' with ⟨rest', state'⟩
    obtain ⟨rfl, rfl⟩ |
        ⟨first, first', tail, tail', rfl, rfl, hFirst⟩ :=
      bond.rest_cases hRest
    · exact ⟨rfl, hRest, hTogether⟩
    · by_cases hKind : first.kind = kind
      · have hKind' : first'.kind = kind := by
          rw [← hFirst, hKind]
        have hTokens : Answer first first' :=
          hAnswer hRest hKind
        have hTail := bond.tail hRest
        subst hKind
        rw [token_of_kind]
        rw [← hKind', token_of_kind]
        exact ⟨hTokens, hTail, hTogether⟩
      · have hKind' : first'.kind ≠ kind := by
          rw [← hFirst]
          exact hKind
        rw [token_of_ne hKind, token_of_ne hKind']
        exact ⟨rfl, hRest, hTogether⟩
  alone reason final cursor' hParted := by
    rcases cursor' with ⟨_ | ⟨first', tail'⟩, state'⟩
    · exact hParted
    · by_cases hKind : first'.kind = kind
      · subst hKind
        rw [token_of_kind]
        exact ⟨hParted, hTotal (bond.total hParted) first'⟩
      · rw [token_of_ne hKind]
        exact hParted

/- A token that is read for its kind alone. -/
theorem pairs_word
    (kind : Kind) :
    bond.Pairs (fun _ _ => True)
      (token kind : Rule σ ε Token)
      (token kind : Rule σ' ε' Token) := by
  apply pairs_token
  · intro left right lefts rights _ _
    trivial
  · intro _ right
    exact ⟨right, trivial⟩

theorem pairs_expect
    (kind : Kind) :
    bond.Pairs bond.Place (expect kind : Rule σ ε Span)
      (expect kind : Rule σ' ε' Span) := by
  have hToken :
      bond.Pairs
        (fun left right => bond.Place left.span right.span)
        (token kind : Rule σ ε Token)
        (token kind : Rule σ' ε' Token) := by
    apply pairs_token
    · intro left right lefts rights hRest _
      exact bond.place hRest
    · intro hTotal right
      obtain ⟨span, hSpan⟩ := hTotal.place right.span
      exact ⟨⟨right.kind, right.text, span⟩, hSpan⟩
  apply hToken.bind
  intro left right hPlace
  exact pairs_pure hPlace

theorem pairs_identifier :
    bond.Pairs bond.Name (identifier : Rule σ ε Identifier)
      (identifier : Rule σ' ε' Identifier) := by
  have hToken :
      bond.Pairs
        (fun left right =>
          bond.Name ⟨left.text, left.span⟩
            ⟨right.text, right.span⟩)
        (token .identifier : Rule σ ε Token)
        (token .identifier : Rule σ' ε' Token) := by
    apply pairs_token
    · intro left right lefts rights hRest hKind
      exact bond.name hRest hKind
    · intro hTotal right
      obtain ⟨name, hName⟩ :=
        hTotal.name ⟨right.text, right.span⟩
      exact ⟨⟨right.kind, name.name, name.span⟩, hName⟩
  apply hToken.bind
  intro left right hName
  exact pairs_pure hName

theorem pairs_nextSpan :
    bond.Pairs bond.Place (nextSpan : Rule σ ε Span)
      (nextSpan : Rule σ' ε' Span) where
  together cursor cursor' hRest hTogether := by
    rcases cursor with ⟨rest, state⟩
    rcases cursor' with ⟨rest', state'⟩
    obtain ⟨rfl, rfl⟩ |
        ⟨first, first', tail, tail', rfl, rfl, hFirst⟩ :=
      bond.rest_cases hRest
    · exact ⟨rfl, hRest, hTogether⟩
    · exact ⟨bond.place hRest, hRest, hTogether⟩
  alone reason final cursor' hParted := by
    rcases cursor' with ⟨_ | ⟨first', tail'⟩, state'⟩
    · exact hParted
    · have hTotal := bond.total hParted
      exact ⟨hParted, hTotal.place first'.span⟩

/- A rule that both runs apply to the same answer. -/
theorem Pairs.bindEq
    {Answer : β → β' → Prop}
    {left : Rule σ ε α}
    {right : Rule σ' ε' α}
    {next : α → Rule σ ε β}
    {next' : α → Rule σ' ε' β'}
    (hRules : bond.Pairs Eq left right)
    (hNext :
      ∀ answer,
        bond.Pairs Answer (next answer) (next' answer)) :
    bond.Pairs Answer (left >>= next) (right >>= next') := by
  apply hRules.bind
  intro answer answer' hEq
  subst hEq
  exact hNext answer

theorem pairs_accept
    (kind : Kind) :
    bond.Pairs Eq (accept kind : Rule σ ε Bool)
      (accept kind : Rule σ' ε' Bool) := by
  apply pairs_peek.bindEq
  intro next
  split
  · apply (pairs_word kind).bind
    intro _ _ _
    exact pairs_pure rfl
  · exact pairs_pure rfl

theorem pairs_valueType :
    bond.Pairs Eq (valueType : Rule σ ε Ty)
      (valueType : Rule σ' ε' Ty) := by
  apply pairs_peek.bindEq
  intro next
  cases next with
  | none => exact pairs_unexpected
  | some kind =>
      cases hType : kind.valueType? with
      | none =>
          simp only [hType]
          exact pairs_unexpected
      | some ty =>
          simp only [hType]
          apply (pairs_word kind).bind
          intro _ _ _
          exact pairs_pure rfl

theorem pairs_returnType :
    bond.Pairs Eq (returnType : Rule σ ε Ty)
      (returnType : Rule σ' ε' Ty) := by
  apply (pairs_accept .kwVoid).bindEq
  intro found
  split
  · exact pairs_pure rfl
  · exact pairs_valueType

theorem pairs_declarator :
    bond.Pairs (Formal.Alike bond.like)
      (declarator : Rule σ ε Formal)
      (declarator : Rule σ' ε' Formal) := by
  apply (pairs_accept .kwConst).bindEq
  intro isConst
  apply pairs_valueType.bindEq
  intro ty
  apply pairs_identifier.bind
  intro name name' hName
  exact pairs_pure ⟨rfl, rfl, hName⟩

end Bond

end Parser

end OnePass

------------------------------------------------------------
-- Repetition
------------------------------------------------------------

namespace OnePass

namespace Parser

namespace Bond

variable {σ τ ε σ' τ' ε' α α' : Type}
variable {bond : Bond σ τ ε σ' τ' ε'}

/-
  Two loops keep the bond if their steps do. The bounds of
  the loops are of equal length while the runs are together,
  but need not be once they have parted.
-/
theorem pairs_iterate
    {Answer : α → α' → Prop}
    {step : α → Rule σ ε (Option α)}
    {step' : α' → Rule σ' ε' (Option α')}
    (hStep :
      ∀ current current',
        Answer current current' →
          bond.Pairs (Option.Rel Answer) (step current)
            (step' current'))
    {start : α}
    {start' : α'}
    (hStart : Answer start start') :
    bond.Pairs Answer (iterate step start)
      (iterate step' start') := by
  have hAlone :
      ∀ (bound' : List Token) (current : α) (current' : α'),
        Answer current current' →
          ∀ reason final cursor',
            bond.Parted reason final none cursor'.state →
              bond.Stays reason final Answer
                (iterateWithin step' bound' current'
                  cursor') := by
    intro bound'
    induction bound' with
    | nil =>
        intro current current' hCurrent reason final cursor'
          hParted
        exact ⟨hParted, current, hCurrent⟩
    | cons token' bound' ih =>
        intro current current' hCurrent reason final cursor'
          hParted
        have hOne :=
          (hStep current current' hCurrent).alone reason
            final cursor' hParted
        apply hOne.bind
        intro next next' after' hNext hAfter
        cases hNext with
        | none => exact ⟨hAfter, current, hCurrent⟩
        | some hNext =>
            exact ih _ _ hNext reason final after' hAfter
  have hTogether :
      ∀ (bound bound' : List Token)
        (current : α) (current' : α'),
        bound.length = bound'.length →
          Answer current current' →
            bond.Pairs Answer
              (iterateWithin step bound current)
              (iterateWithin step' bound' current') := by
    intro bound
    induction bound with
    | nil =>
        intro bound' current current' hLength hCurrent
        cases bound' with
        | nil => exact pairs_pure hCurrent
        | cons token' bound' => cases hLength
    | cons token bound ih =>
        intro bound' current current' hLength hCurrent
        cases bound' with
        | nil => cases hLength
        | cons token' bound' =>
            apply (hStep current current' hCurrent).bind
            intro next next' hNext
            cases hNext with
            | none => exact pairs_pure hCurrent
            | some hNext =>
                apply ih _ _ _ _ hNext
                exact Nat.succ.inj hLength
  constructor
  · intro cursor cursor' hRest hStates
    have hLength := bond.length_eq hRest
    exact
      (hTogether cursor.rest cursor'.rest start start'
        hLength hStart).together cursor cursor' hRest hStates
  · intro reason final cursor' hParted
    exact
      hAlone cursor'.rest start start' hStart reason final
        cursor' hParted

theorem pairs_commaList
    {Answer : α → α' → Prop}
    {item : Rule σ ε α}
    {item' : Rule σ' ε' α'}
    (hItem : bond.Pairs Answer item item') :
    bond.Pairs (List.Forall₂ Answer) (commaList item)
      (commaList item') := by
  have hStep :
      ∀ items items',
        List.Forall₂ Answer items items' →
          bond.Pairs (Option.Rel (List.Forall₂ Answer))
            (itemStep item items)
            (itemStep item' items') := by
    intro items items' hItems
    apply (pairs_accept .comma).bindEq
    intro found
    split
    · apply hItem.bind
      intro last last' hLast
      have hLonger :
          List.Forall₂ Answer (items ++ [last])
            (items' ++ [last']) :=
        List.rel_append hItems (.cons hLast .nil)
      exact pairs_pure (.some hLonger)
    · exact pairs_pure .none
  apply pairs_peek.bindEq
  intro next
  split
  · exact pairs_pure .nil
  · apply hItem.bind
    intro first first' hFirst
    exact pairs_iterate hStep (.cons hFirst .nil)

end Bond

end Parser

end OnePass

------------------------------------------------------------
-- Expressions
------------------------------------------------------------

namespace OnePass

namespace Parser

/- A number, and the kind of the token after it. -/
def numberAhead {σ ε : Type} :
    Rule σ ε (Token × Option Kind) := do
  let number ← token .number
  return (number, ← peek)

/- A number is a byte or not by what is seen after it. -/
theorem numberLiteral_eq
    {σ τ ε : Type}
    (receiver : Receiver σ τ ε) :
    numberLiteral receiver =
      numberAhead >>= fun seen =>
        if seen.2 = some .byteSuffix then do
          let stop ← expect .byteSuffix
          let span := seen.1.span.cover stop
          value receiver (.byteLiteral seen.1.text span) span
        else
          value receiver
            (.numberLiteral seen.1.text seen.1.span)
            seen.1.span := by
  simp only [numberLiteral, numberAhead, bind_assoc,
    pure_bind]

namespace Bond

variable {σ τ ε σ' τ' ε' α α' ω : Type}
variable {bond : Bond σ τ ε σ' τ' ε'}
variable {left : Receiver σ τ ε}
variable {right : Receiver σ' τ' ε'}

/-
  The digits of a number correspond, and are the same if the
  byte suffix follows.
-/
theorem pairs_numberAhead :
    bond.Pairs
      (fun seen seen' =>
        seen.2 = seen'.2 ∧
          bond.Place seen.1.span seen'.1.span ∧
            bond.Digits seen.1.text seen'.1.text ∧
              (seen.2 = some .byteSuffix →
                seen.1.text = seen'.1.text))
      (numberAhead : Rule σ ε (Token × Option Kind))
      (numberAhead : Rule σ' ε' (Token × Option Kind)) where
  together cursor cursor' hRest hTogether := by
    rcases cursor with ⟨rest, state⟩
    rcases cursor' with ⟨rest', state'⟩
    obtain ⟨rfl, rfl⟩ |
        ⟨first, first', tail, tail', rfl, rfl, hFirst⟩ :=
      bond.rest_cases hRest
    · exact ⟨rfl, hRest, hTogether⟩
    · by_cases hKind : first.kind = .number
      · have hPlace := bond.place hRest
        have hDigits := bond.digits hRest hKind
        have hTail := bond.tail hRest
        have hLeft :
            token (ε := ε) .number ⟨first :: tail, state⟩ =
              .ok first ⟨tail, state⟩ := by
          rw [← hKind, token_of_kind]
        have hRight :
            token (ε := ε') .number
                ⟨first' :: tail', state'⟩ =
              .ok first' ⟨tail', state'⟩ := by
          rw [← hKind, hFirst, token_of_kind]
        unfold numberAhead
        rw [bind_of_ok hLeft, bind_of_ok hRight]
        obtain ⟨rfl, rfl⟩ |
            ⟨second, second', _, _, rfl, rfl, hSecond⟩ :=
          bond.rest_cases hTail
        · exact
            ⟨⟨rfl, hPlace, hDigits, by simp⟩, hTail,
              hTogether⟩
        · have hNext :
              some second.kind = some second'.kind := by
            rw [hSecond]
          have hBytes :
              some second.kind = some .byteSuffix →
                first.text = first'.text := by
            intro hSuffix
            exact
              bond.byteDigits hRest hKind
                (Option.some.inj hSuffix)
          exact
            ⟨⟨hNext, hPlace, hDigits, hBytes⟩, hTail,
              hTogether⟩
      · have hLeft :
            token (ε := ε) .number ⟨first :: tail, state⟩ =
              .error (.stuck .unexpected)
                ⟨first :: tail, state⟩ :=
          token_of_ne hKind
        have hRight :
            token (ε := ε') .number
                ⟨first' :: tail', state'⟩ =
              .error (.stuck .unexpected)
                ⟨first' :: tail', state'⟩ := by
          apply token_of_ne
          rw [← hFirst]
          exact hKind
        unfold numberAhead
        rw [bind_of_error hLeft, bind_of_error hRight]
        exact ⟨rfl, hRest, hTogether⟩
  alone reason final cursor' hParted := by
    apply ((pairs_word .number).alone reason final cursor'
      hParted).bind
    intro first first' after' hFirst hAfter
    have hTotal := bond.total hAfter
    have hDigits := hTotal.digits first'.text
    obtain ⟨span, hSpan⟩ := hTotal.place first'.span
    let number : Token := ⟨first'.kind, first'.text, span⟩
    exact
      ⟨hAfter, ⟨number, _⟩, rfl, hSpan, hDigits,
        fun _ => rfl⟩

/- Expressions that are alike. -/
abbrev Values
    (bond : Bond σ τ ε σ' τ' ε') :
    Typed τ → Typed τ' → Prop :=
  Typed.Alike bond.like bond.Attribute

theorem pairs_announce
    {Answer : α → α' → Prop}
    {act : EStateM ε σ α}
    {act' : EStateM ε' σ' α'}
    (hActs :
      ∀ state state',
        bond.Together state state' →
          bond.Meets Answer (act state) (act' state'))
    (hAlone :
      ∀ reason final state',
        bond.Parted reason final none state' →
          bond.Remains reason final (act' state'))
    (hTotal :
      ∀ {reason final state'},
        bond.Parted reason final none state' →
          ∀ answer', ∃ answer, Answer answer answer') :
    bond.Pairs Answer (announce act) (announce act') := by
  have hStays :
      ∀ reason final (cursor' : Cursor σ'),
        bond.Remains reason final (act' cursor'.state) →
          bond.Stays reason final Answer
            (announce act' cursor') := by
    intro reason final cursor' hRemains
    unfold announce
    cases hRight : act' cursor'.state with
    | ok answer' state' =>
        rw [hRight] at hRemains
        exact ⟨hRemains, hTotal hRemains answer'⟩
    | error reason' state' =>
        rw [hRight] at hRemains
        exact hRemains
  constructor
  · intro cursor cursor' hRest hTogether
    have hMeets := hActs _ _ hTogether
    cases hLeft : act cursor.state with
    | ok answer state =>
        rw [hLeft] at hMeets
        unfold announce
        rw [hLeft]
        cases hRight : act' cursor'.state with
        | ok answer' state' =>
            rw [hRight] at hMeets
            exact ⟨hMeets.1, hRest, hMeets.2⟩
        | error reason' state' =>
            rw [hRight] at hMeets
            cases hMeets
    | error reason state =>
        rw [hLeft] at hMeets
        have hRefused :
            announce act cursor =
              .error (.refused reason)
                { cursor with state } := by
          unfold announce
          rw [hLeft]
        rw [hRefused]
        exact hStays reason state cursor' hMeets
  · intro reason final cursor' hParted
    exact
      hStays reason final cursor'
        (hAlone reason final cursor'.state hParted)

section Expressions

variable (hKept : bond.KeptBy left right)

include hKept

theorem pairs_effect
    {event : EffectEvent τ}
    {event' : EffectEvent τ'}
    (hEvents :
      EffectEvent.Alike bond.like bond.Attribute event
        event') :
    bond.Pairs Eq (effect left event)
      (effect right event') := by
  apply pairs_announce
  · intro state state' hTogether
    exact hKept.effect hEvents hTogether
  · intro reason final state' hParted
    exact hKept.effectAlone event' hParted
  · intro _ _ _ _ answer'
    exact ⟨answer', rfl⟩

theorem pairs_value
    {event : ValueEvent τ}
    {event' : ValueEvent τ'}
    {span span' : Span}
    (hEvents :
      ValueEvent.Alike bond.like bond.Attribute event event')
    (hSpan : bond.Place span span') :
    bond.Pairs bond.Values (value left event span)
      (value right event' span') := by
  have hAnnounce :
      bond.Pairs bond.Attribute
        (announce (left.value event))
        (announce (right.value event')) := by
    apply pairs_announce
    · intro state state' hTogether
      exact hKept.value hEvents hTogether
    · intro reason final state' hParted
      exact hKept.valueAlone event' hParted
    · intro _ _ _ hParted
      exact bond.exists_attribute hParted
  apply hAnnounce.bind
  intro ty ty' hTy
  exact pairs_pure ⟨hTy, hSpan⟩

theorem pairs_leftChain
    (operator? : Kind → Option ω)
    (combine :
      Typed τ → ω → Typed τ → Span → ValueEvent τ)
    (combine' :
      Typed τ' → ω → Typed τ' → Span → ValueEvent τ')
    (hCombine :
      ∀ {first first' second second' span span'} operator,
        bond.Values first first' →
          bond.Values second second' →
            bond.Place span span' →
              ValueEvent.Alike bond.like bond.Attribute
                (combine first operator second span)
                (combine' first' operator second' span'))
    {operand : Rule σ ε (Typed τ)}
    {operand' : Rule σ' ε' (Typed τ')}
    (hOperand : bond.Pairs bond.Values operand operand') :
    bond.Pairs bond.Values
      (leftChain left operator? combine operand)
      (leftChain right operator? combine' operand') := by
  have hStep :
      ∀ first first',
        bond.Values first first' →
          bond.Pairs (Option.Rel bond.Values)
            (chainStep left operator? combine operand first)
            (chainStep right operator? combine' operand'
              first') := by
    intro first first' hFirst
    apply pairs_peek.bindEq
    intro next
    cases next with
    | none => exact pairs_pure .none
    | some kind =>
        cases hOperator : operator? kind with
        | none =>
            simp only [hOperator]
            exact pairs_pure .none
        | some operator =>
            simp only [hOperator]
            apply (pairs_word kind).bind
            intro _ _ _
            apply hOperand.bind
            intro second second' hSecond
            have hSpan :=
              bond.cover hFirst.span hSecond.span
            have hEvents :=
              hCombine operator hFirst hSecond hSpan
            apply (pairs_value hKept hEvents hSpan).bind
            intro value value' hValue
            exact pairs_pure (.some hValue)
  apply hOperand.bind
  intro first first' hFirst
  exact pairs_iterate hStep hFirst

theorem pairs_expressionOf
    {factor : Rule σ ε (Typed τ)}
    {factor' : Rule σ' ε' (Typed τ')}
    (hFactor : bond.Pairs bond.Values factor factor') :
    bond.Pairs bond.Values (expressionOf left factor)
      (expressionOf right factor') := by
  have hProduct :=
    pairs_leftChain hKept Kind.productOp? .numeric .numeric
      (fun _ => .numeric) hFactor
  have hSum :=
    pairs_leftChain hKept Kind.sumOp? .numeric .numeric
      (fun _ => .numeric) hProduct
  have hComparison :=
    pairs_leftChain hKept Kind.relationalOp? .relational
      .relational (fun _ => .relational) hSum
  have hConjunction :=
    pairs_leftChain hKept Kind.andOp? .logical .logical
      (fun _ => .logical) hComparison
  exact
    pairs_leftChain hKept Kind.orOp? .logical .logical
      (fun _ => .logical) hConjunction

theorem pairs_call
    {expression : Rule σ ε (Typed τ)}
    {expression' : Rule σ' ε' (Typed τ')}
    (hExpression :
      bond.Pairs bond.Values expression expression') :
    bond.Pairs bond.Values (call left expression)
      (call right expression') := by
  apply pairs_identifier.bind
  intro callee callee' hCallee
  apply (pairs_expect .leftParen).bind
  intro _ _ _
  apply (pairs_commaList hExpression).bind
  intro arguments arguments' hArguments
  apply (pairs_expect .rightParen).bind
  intro stop stop' hStop
  have hSpan :=
    bond.cover (bond.place_of_name hCallee) hStop
  exact
    pairs_value hKept (.call hCallee hArguments hSpan) hSpan

theorem pairs_numberLiteral :
    bond.Pairs bond.Values (numberLiteral left)
      (numberLiteral right) := by
  rw [numberLiteral_eq, numberLiteral_eq]
  apply pairs_numberAhead.bind
  rintro ⟨number, next⟩ ⟨number', next'⟩ hNumbers
  obtain ⟨hNext, hPlace, hDigits, hBytes⟩ := hNumbers
  cases hNext
  split
  case isTrue hSuffix =>
    have hText : number.text = number'.text := hBytes hSuffix
    apply (pairs_expect .byteSuffix).bind
    intro stop stop' hStop
    have hSpan := bond.cover hPlace hStop
    rw [hText]
    exact pairs_value hKept (.byteLiteral hSpan) hSpan
  case isFalse =>
    exact
      pairs_value hKept (.numberLiteral hDigits hPlace)
        hPlace

theorem pairs_boolLiteral
    (kind : Kind)
    (truth : Bool) :
    bond.Pairs bond.Values (boolLiteral left kind truth)
      (boolLiteral right kind truth) := by
  apply (pairs_expect kind).bind
  intro span span' hSpan
  exact pairs_value hKept (.boolLiteral hSpan) hSpan

theorem pairs_factor
    (budget : Nat) :
    bond.Pairs bond.Values (factor left budget)
      (factor right budget) := by
  induction budget with
  | zero => exact pairs_stuck .tooDeep
  | succ budget ih =>
      have hExpression := pairs_expressionOf hKept ih
      apply pairs_lookahead.bindEq
      intro kinds
      split
      · apply (pairs_expect .kwNot).bind
        intro start start' hStart
        apply ih.bind
        intro operand operand' hOperand
        have hSpan := bond.cover hStart hOperand.span
        exact pairs_value hKept (.negation hOperand hSpan) hSpan
      · split
        · apply (pairs_expect .leftParen).bind
          intro start start' hStart
          apply pairs_valueType.bindEq
          intro target
          apply (pairs_expect .rightParen).bind
          intro _ _ _
          apply ih.bind
          intro operand operand' hOperand
          have hSpan := bond.cover hStart hOperand.span
          exact pairs_value hKept (.cast hOperand hSpan) hSpan
        · apply (pairs_expect .leftParen).bind
          intro start start' hStart
          apply hExpression.bind
          intro inner inner' hInner
          apply (pairs_expect .rightParen).bind
          intro stop stop' hStop
          have hSpan := bond.cover hStart hStop
          exact pairs_pure ⟨hInner.ty, hSpan⟩
      · split
        · exact pairs_call hKept hExpression
        · apply pairs_identifier.bind
          intro name name' hName
          have hSpan := bond.place_of_name hName
          exact pairs_value hKept (.identifier hName) hSpan
      · apply (pairs_expect .string).bind
        intro span span' hSpan
        exact pairs_value hKept (.stringLiteral hSpan) hSpan
      · exact pairs_numberLiteral hKept
      · exact pairs_boolLiteral hKept _ _
      · exact pairs_boolLiteral hKept _ _
      · exact pairs_unexpected

theorem pairs_expression
    (budget : Nat) :
    bond.Pairs bond.Values (expression left budget)
      (expression right budget) :=
  pairs_expressionOf hKept (pairs_factor hKept budget)

end Expressions

end Bond

end Parser

end OnePass

------------------------------------------------------------
-- Statements
------------------------------------------------------------

namespace OnePass

namespace Parser

namespace Bond

variable {σ τ ε σ' τ' ε' : Type}
variable {bond : Bond σ τ ε σ' τ' ε'}
variable {left : Receiver σ τ ε}
variable {right : Receiver σ' τ' ε'}

theorem pairs_statementList
    {statement : Rule σ ε Unit}
    {statement' : Rule σ' ε' Unit}
    (hStatement : bond.Pairs Eq statement statement') :
    bond.Pairs Eq (statementList statement)
      (statementList statement') := by
  have hStep :
      ∀ current current' : Unit,
        current = current' →
          bond.Pairs (Option.Rel Eq)
            (statementStep statement current)
            (statementStep statement' current') := by
    intro current current' _
    apply pairs_peek.bindEq
    intro next
    split
    · exact pairs_pure .none
    · exact pairs_pure .none
    · apply hStatement.bindEq
      intro _
      exact pairs_pure (.some rfl)
  apply hStatement.bindEq
  intro _
  exact pairs_iterate hStep rfl

section Statements

variable (hKept : bond.KeptBy left right)

include hKept

theorem pairs_branch
    {statement : Rule σ ε Unit}
    {statement' : Rule σ' ε' Unit}
    (hStatement : bond.Pairs Eq statement statement') :
    bond.Pairs Eq (branch left statement)
      (branch right statement') := by
  apply (pairs_effect hKept .openScope).bindEq
  intro _
  apply hStatement.bindEq
  intro _
  exact pairs_effect hKept .closeScope

section Inside

variable {expression : Rule σ ε (Typed τ)}
variable {expression' : Rule σ' ε' (Typed τ')}
variable
  (hExpression :
    bond.Pairs bond.Values expression expression')

include hExpression

theorem pairs_condition :
    bond.Pairs Eq (condition left expression)
      (condition right expression') := by
  apply (pairs_expect .leftParen).bind
  intro _ _ _
  apply hExpression.bind
  intro value value' hValue
  apply (pairs_effect hKept (.condition hValue)).bindEq
  intro _
  apply (pairs_expect .rightParen).bind
  intro _ _ _
  exact pairs_pure rfl

theorem pairs_returnStatement :
    bond.Pairs Eq (returnStatement left expression)
      (returnStatement right expression') := by
  apply (pairs_expect .kwReturn).bind
  intro start start' hStart
  apply pairs_peek.bindEq
  intro next
  split
  · apply pairs_nextSpan.bind
    intro stop stop' hStop
    have hSpan := bond.cover hStart hStop
    apply (pairs_effect hKept (.returnVoid hSpan)).bindEq
    intro _
    apply (pairs_expect .semicolon).bind
    intro _ _ _
    exact pairs_pure rfl
  · apply hExpression.bind
    intro result result' hResult
    have hSpan := bond.cover hStart hResult.span
    apply
      (pairs_effect hKept (.returnValue hResult hSpan)).bindEq
    intro _
    apply (pairs_expect .semicolon).bind
    intro _ _ _
    exact pairs_pure rfl

theorem pairs_assignment :
    bond.Pairs Eq (assignment left expression)
      (assignment right expression') := by
  apply pairs_identifier.bind
  intro name name' hName
  apply (pairs_expect .assign).bind
  intro _ _ _
  apply hExpression.bind
  intro result result' hResult
  apply (pairs_expect .semicolon).bind
  intro stop stop' hStop
  have hSpan := bond.cover (bond.place_of_name hName) hStop
  exact pairs_effect hKept (.assignment hName hResult hSpan)

theorem pairs_callStatement :
    bond.Pairs Eq (callStatement left expression)
      (callStatement right expression') := by
  apply (pairs_call hKept hExpression).bind
  intro _ _ _
  apply (pairs_expect .semicolon).bind
  intro _ _ _
  exact pairs_pure rfl

omit hKept in
theorem pairs_initializer :
    bond.Pairs (Option.Rel bond.Values)
      (initializer expression) (initializer expression') := by
  apply (pairs_accept .assign).bindEq
  intro found
  split
  · apply hExpression.bind
    intro value value' hValue
    exact pairs_pure (.some hValue)
  · exact pairs_pure .none

theorem pairs_declaration :
    bond.Pairs Eq (declaration left expression)
      (declaration right expression') := by
  apply pairs_nextSpan.bind
  intro start start' hStart
  apply pairs_declarator.bind
  rintro ⟨isConst, ty, name⟩ ⟨isConst', ty', name'⟩ hFormals
  obtain ⟨hConst, hTy, hName⟩ := hFormals
  cases hConst
  cases hTy
  apply (pairs_effect hKept (.declarationStart hName)).bindEq
  intro _
  apply (pairs_initializer hExpression).bind
  intro first first' hFirst
  apply (pairs_expect .semicolon).bind
  intro stop stop' hStop
  have hSpan := bond.cover hStart hStop
  exact pairs_effect hKept (.declaration hName hFirst hSpan)

end Inside

theorem pairs_jump
    (kind : Kind)
    {event : Span → EffectEvent τ}
    {event' : Span → EffectEvent τ'}
    (hEvents :
      ∀ {span span'},
        bond.Place span span' →
          EffectEvent.Alike bond.like bond.Attribute
            (event span) (event' span')) :
    bond.Pairs Eq (jump left kind event)
      (jump right kind event') := by
  apply (pairs_expect kind).bind
  intro start start' hStart
  apply (pairs_expect .semicolon).bind
  intro stop stop' hStop
  exact
    pairs_effect hKept (hEvents (bond.cover hStart hStop))

theorem pairs_statement
    (budget : Nat) :
    bond.Pairs Eq (statement left budget)
      (statement right budget) := by
  induction budget with
  | zero => exact pairs_stuck .tooDeep
  | succ budget ih =>
      have hExpression := pairs_expression hKept budget
      apply pairs_lookahead.bindEq
      intro kinds
      split
      · apply (pairs_expect .leftBrace).bind
        intro _ _ _
        apply (pairs_effect hKept .openScope).bindEq
        intro _
        apply (pairs_statementList ih).bindEq
        intro _
        apply (pairs_effect hKept .closeScope).bindEq
        intro _
        apply (pairs_expect .rightBrace).bind
        intro _ _ _
        exact pairs_pure rfl
      · apply (pairs_expect .kwIf).bind
        intro _ _ _
        apply (pairs_condition hKept hExpression).bindEq
        intro _
        apply (pairs_branch hKept ih).bindEq
        intro _
        apply (pairs_accept .kwElse).bindEq
        intro found
        split
        · exact pairs_branch hKept ih
        · exact pairs_pure rfl
      · apply (pairs_expect .kwWhile).bind
        intro _ _ _
        apply (pairs_condition hKept hExpression).bindEq
        intro _
        apply (pairs_effect hKept .openLoop).bindEq
        intro _
        apply (pairs_branch hKept ih).bindEq
        intro _
        exact pairs_effect hKept .closeLoop
      · exact pairs_returnStatement hKept hExpression
      · exact pairs_jump hKept .kwBreak .breakStatement
      · exact pairs_jump hKept .kwContinue .continueStatement
      · exact pairs_assignment hKept hExpression
      · exact pairs_callStatement hKept hExpression
      · split
        · exact pairs_declaration hKept hExpression
        · exact pairs_unexpected
      · exact pairs_unexpected

end Statements

end Bond

end Parser

end OnePass

------------------------------------------------------------
-- Programs
------------------------------------------------------------

namespace OnePass

namespace Parser

namespace Bond

variable {σ τ ε σ' τ' ε' : Type}
variable {bond : Bond σ τ ε σ' τ' ε'}
variable {left : Receiver σ τ ε}
variable {right : Receiver σ' τ' ε'}

theorem pairs_function
    (hKept : bond.KeptBy left right)
    (limit : Nat) :
    bond.Pairs Eq (function left limit)
      (function right limit) := by
  have hSignature :
      bond.Pairs Eq (signature left) (signature right) := by
    apply pairs_returnType.bindEq
    intro returns
    apply pairs_identifier.bind
    intro name name' hName
    apply (pairs_effect hKept (.functionHeader hName)).bindEq
    intro _
    apply (pairs_expect .leftParen).bind
    intro _ _ _
    apply (pairs_commaList pairs_declarator).bind
    intro formals formals' hFormals
    apply
      (pairs_effect hKept
        (.functionSignature hName hFormals)).bindEq
    intro _
    apply (pairs_expect .rightParen).bind
    intro _ _ _
    exact pairs_pure rfl
  have hBody :
      bond.Pairs Eq (functionBody left limit)
        (functionBody right limit) := by
    have hStatement := pairs_statement hKept limit
    apply (pairs_expect .leftBrace).bind
    intro _ _ _
    apply (pairs_statementList hStatement).bindEq
    intro _
    apply (pairs_expect .rightBrace).bind
    intro stop stop' hStop
    exact pairs_effect hKept (.functionEnd hStop)
  apply hSignature.bindEq
  intro _
  exact hBody

/- Two runs of the parser keep the bond of their receivers. -/
theorem pairs_program
    (hKept : bond.KeptBy left right)
    (limit : Nat) :
    bond.Pairs Eq (program left limit)
      (program right limit) := by
  have hStep :
      ∀ current current' : Unit,
        current = current' →
          bond.Pairs (Option.Rel Eq)
            (functionStep left limit current)
            (functionStep right limit current') := by
    intro current current' _
    apply pairs_peek.bindEq
    intro next
    split
    · exact pairs_pure .none
    · apply (pairs_function hKept limit).bindEq
      intro _
      exact pairs_pure (.some rfl)
  apply (pairs_iterate hStep rfl).bindEq
  intro _
  exact pairs_effect hKept .programEnd

end Bond

end Parser

/- The reason for which a run was refused, if it was. -/
def refusal?
    {ε : Type} :
    Except (Parser.Failure ε) Unit → Option ε
| .error (.refused reason) => some reason
| .error (.misfit _) | .ok _ => none

theorem eq_refused_of_refusal?
    {ε : Type}
    {result : Except (Parser.Failure ε) Unit}
    {reason : ε}
    (hRefusal : refusal? result = some reason) :
    result = .error (.refused reason) := by
  unfold refusal? at hRefusal
  split at hRefusal
  · cases hRefusal
    rfl
  · cases hRefusal
  · cases hRefusal

/- What two runs lead to, seen from their results. -/
inductive Parser.Bond.Settles
    {σ τ ε σ' τ' ε' : Type}
    (bond : Parser.Bond σ τ ε σ' τ' ε')
    (tokens tokens' : List Token) :
    Except (Parser.Failure ε) Unit × σ →
      Except (Parser.Failure ε') Unit × σ' → Prop where
  | accepted
      {final final'}
      (hTogether : bond.Together final final') :
      Settles bond tokens tokens' (.ok (), final)
        (.ok (), final')
  | stuck
      {final final' rest rest'}
      (obstacle : Parser.Obstacle)
      (hRest : bond.Rest rest rest')
      (hTogether : bond.Together final final') :
      Settles bond tokens tokens'
        (.error
          (.misfit (Parser.misfitAt tokens rest obstacle)),
          final)
        (.error
          (.misfit (Parser.misfitAt tokens' rest' obstacle)),
          final')
  | refused
      {reason final result' final'}
      (hParted :
        bond.Parted reason final (refusal? result') final') :
      Settles bond tokens tokens'
        (.error (.refused reason), final) (result', final')

/- The bond of two receivers is kept, however runs end. -/
theorem settles_parse
    {σ τ ε σ' τ' ε' : Type}
    {bond : Parser.Bond σ τ ε σ' τ' ε'}
    {left : Receiver σ τ ε}
    {right : Receiver σ' τ' ε'}
    (hKept : bond.KeptBy left right)
    {tokens tokens' : List Token}
    (hTokens : bond.Rest tokens tokens')
    {start : σ}
    {start' : σ'}
    (hStart : bond.Together start start') :
    bond.Settles tokens tokens' (parse left tokens start)
      (parse right tokens' start') := by
  have hEnds :=
    (Parser.Bond.pairs_program hKept
      Parser.maxNesting).together ⟨tokens, start⟩
      ⟨tokens', start'⟩ hTokens hStart
  unfold parse
  cases hLeft :
      Parser.program left Parser.maxNesting
        ⟨tokens, start⟩ with
  | ok answer after =>
      rw [hLeft] at hEnds
      cases hRight :
          Parser.program right Parser.maxNesting
            ⟨tokens', start'⟩ with
      | ok answer' after' =>
          rw [hRight] at hEnds
          exact .accepted hEnds.2.2
      | error halt' after' =>
          rw [hRight] at hEnds
          cases hEnds
  | error halt after =>
      rw [hLeft] at hEnds
      cases halt with
      | stuck obstacle =>
          cases hRight :
              Parser.program right Parser.maxNesting
                ⟨tokens', start'⟩ with
          | ok answer' after' =>
              rw [hRight] at hEnds
              cases hEnds
          | error halt' after' =>
              rw [hRight] at hEnds
              cases halt' with
              | stuck obstacle' =>
                  obtain ⟨hObstacle, hRest, hStates⟩ := hEnds
                  subst hObstacle
                  exact .stuck obstacle hRest hStates
              | refused reason' => cases hEnds
      | refused reason =>
          cases hRight :
              Parser.program right Parser.maxNesting
                ⟨tokens', start'⟩ with
          | ok answer' after' =>
              rw [hRight] at hEnds
              exact .refused hEnds.1
          | error halt' after' =>
              rw [hRight] at hEnds
              cases halt' with
              | stuck obstacle' => exact .refused hEnds
              | refused reason' => exact .refused hEnds

end OnePass
