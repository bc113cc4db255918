import OnePass.Proofs.Grammar.Script
import OnePass.Proofs.Parser.Outcome

/-
  Rules that follow a script.

  A rule is watched from the outside: the tokens it reads
  and the events it announces make up a script. As long as a
  rule answers, it has followed the script of a tree. When
  it halts, wherever and for whatever reason, what it has
  done so far is how the script of some program starts. One
  rule of this kind is given for each part that the rules of
  the grammar are built from.

  Main declarations:
    * `Parser.Enacts`, `Parser.Enacts.bind`
    * `Parser.Plays`, `Parser.Plays.bind`
    * `Parser.enacts_iterate`
    * `Parser.plays_commaSeparated`
-/

------------------------------------------------------------
-- Enactment
------------------------------------------------------------

namespace OnePass

namespace Parser

open Grammar

variable {σ τ ε α β χ : Type}

/- The state of a receiver, and the record of its events. -/
abbrev Recording (σ τ : Type) : Type :=
  Watched σ (Sighting σ τ)

/-
  How a run ends that starts when a script has been done. If
  there is an answer, more has been done, as is said; if
  not, what has been done is an opening.
-/
def Ends
    (done : Script)
    (Then : α → Script → Prop)
    (before : Cursor (Recording σ τ)) :
    EStateM.Result (Halt ε) (Cursor (Recording σ τ)) α →
      Prop
| .ok answer after =>
    ∃ next : Script,
      Then answer (done ++ next) ∧
        before.rest = next.tokens ++ after.rest ∧
          after.state.events =
            before.state.events ++ next.events
| .error _ after =>
    ∃ (next : Script) (rest : List Token),
      (done ++ next).IsOpening ∧
        before.rest = next.tokens ++ rest ∧
          after.state.events =
            before.state.events ++ next.events

/- So every run of the rule ends, on tokens in order. -/
def Enacts
    (done : Script)
    (rule : Rule (Recording σ τ) ε α)
    (Then : α → Script → Prop) : Prop :=
  ∀ before,
    Ordered (done.tokens ++ before.rest) →
      Ends done Then before (rule before)

variable {done : Script}
variable {Then : α → Script → Prop}

/- What was done before counts as done. -/
theorem Ends.after
    {next : Script}
    {before between : Cursor (Recording σ τ)}
    {result :
      EStateM.Result (Halt ε) (Cursor (Recording σ τ)) α}
    (hRest : before.rest = next.tokens ++ between.rest)
    (hEvents :
      between.state.events =
        before.state.events ++ next.events)
    (hEnds : Ends (done ++ next) Then between result) :
    Ends done Then before result := by
  cases result with
  | ok answer after =>
      rcases hEnds with ⟨more, hThen, hMoreRest, hMoreEvents⟩
      refine ⟨next ++ more, ?_, ?_, ?_⟩
      · rw [← List.append_assoc]
        exact hThen
      · rw [hRest, hMoreRest]
        simp
      · rw [hMoreEvents, hEvents]
        simp
  | error halt after =>
      rcases hEnds with
        ⟨more, rest, hOpening, hMoreRest, hMoreEvents⟩
      refine ⟨next ++ more, rest, ?_, ?_, ?_⟩
      · rw [← List.append_assoc]
        exact hOpening
      · rw [hRest, hMoreRest]
        simp
      · rw [hMoreEvents, hEvents]
        simp

/- A sequence goes on from what its first part has done. -/
theorem Ends.bind
    {first : Rule (Recording σ τ) ε β}
    {next : β → Rule (Recording σ τ) ε α}
    {Between : β → Script → Prop}
    {before : Cursor (Recording σ τ)}
    (hOrdered : Ordered (done.tokens ++ before.rest))
    (hFirst : Ends done Between before (first before))
    (hNext :
      ∀ answer part rest,
        Between answer (done ++ part) →
          before.rest = part.tokens ++ rest →
            Enacts (done ++ part) (next answer) Then) :
    Ends done Then before ((first >>= next) before) := by
  cases hRun : first before with
  | ok answer between =>
      rw [hRun] at hFirst
      rcases hFirst with ⟨part, hBetween, hRest, hEvents⟩
      rw [bind_of_ok hRun]
      have hStill :
          Ordered ((done ++ part).tokens ++ between.rest) := by
        rw [Script.tokens_append, List.append_assoc, ← hRest]
        exact hOrdered
      exact
        Ends.after hRest hEvents
          (hNext answer part _ hBetween hRest between hStill)
  | error halt after =>
      rw [hRun] at hFirst
      rw [bind_of_error hRun]
      exact hFirst

theorem Enacts.bind
    {first : Rule (Recording σ τ) ε β}
    {next : β → Rule (Recording σ τ) ε α}
    {Between : β → Script → Prop}
    (hFirst : Enacts done first Between)
    (hNext :
      ∀ answer script,
        Between answer script →
          Enacts script (next answer) Then) :
    Enacts done (first >>= next) Then := by
  intro before hOrdered
  apply Ends.bind hOrdered (hFirst before hOrdered)
  intro answer part _ hBetween _
  exact hNext answer _ hBetween

theorem Enacts.weaken
    {rule : Rule (Recording σ τ) ε α}
    {Stronger : α → Script → Prop}
    (hRule : Enacts done rule Stronger)
    (hThen :
      ∀ answer script,
        Stronger answer script → Then answer script) :
    Enacts done rule Then := by
  intro before hOrdered
  have hEnds := hRule before hOrdered
  cases hRun : rule before with
  | ok answer after =>
      rw [hRun] at hEnds
      rcases hEnds with ⟨next, hStronger, hRest, hEvents⟩
      exact ⟨next, hThen _ _ hStronger, hRest, hEvents⟩
  | error halt after =>
      rw [hRun] at hEnds
      exact hEnds

theorem enacts_pure
    {answer : α}
    (hThen : Then answer done) :
    Enacts done
      (pure answer : Rule (Recording σ τ) ε α) Then := by
  intro before _
  exact ⟨[], by simpa using hThen, by simp, by simp⟩

/- A rule may halt wherever a program may go on. -/
theorem enacts_throw
    (hOpening : done.IsOpening)
    (halt : Halt ε) :
    Enacts done
      (throw halt : Rule (Recording σ τ) ε α) Then := by
  intro before _
  exact
    ⟨[], before.rest, by simpa using hOpening, by simp,
      by simp⟩

/- The tokens that were read are in order. -/
theorem enacts_of_ordered
    {rule : Rule (Recording σ τ) ε α}
    (hRule : Ordered done.tokens → Enacts done rule Then) :
    Enacts done rule Then := by
  intro before hOrdered
  exact hRule hOrdered.of_append_left before hOrdered

theorem enacts_peek
    {next : Option Kind → Rule (Recording σ τ) ε α}
    (hNext : ∀ kind, Enacts done (next kind) Then) :
    Enacts done (peek >>= next) Then := by
  intro before hOrdered
  rw [peek_bind]
  exact hNext _ before hOrdered

theorem enacts_lookahead
    {next :
      Option Kind × Option Kind →
        Rule (Recording σ τ) ε α}
    (hNext : ∀ kinds, Enacts done (next kinds) Then) :
    Enacts done (lookahead >>= next) Then := by
  intro before hOrdered
  rw [lookahead_bind]
  exact hNext _ before hOrdered

end Parser

end OnePass

------------------------------------------------------------
-- Announcements
------------------------------------------------------------

namespace OnePass

section Erasure

variable {τ : Type}

@[simp] theorem ValueEvent.erase_call
    (callee : Identifier)
    (arguments : List (Typed τ))
    (span : Span) :
    (call callee arguments span).erase =
      .call callee (arguments.map Typed.erase) span :=
  rfl

@[simp] theorem ValueEvent.erase_cast
    (target : Ty)
    (operand : Typed τ)
    (span : Span) :
    (cast target operand span).erase =
      .cast target operand.erase span :=
  rfl

@[simp] theorem ValueEvent.erase_negation
    (operand : Typed τ)
    (span : Span) :
    (negation operand span).erase =
      .negation operand.erase span :=
  rfl

@[simp] theorem EffectEvent.erase_condition
    (value : Typed τ) :
    (condition value).erase = .condition value.erase :=
  rfl

@[simp] theorem EffectEvent.erase_declaration
    (isConst : Bool)
    (ty : Ty)
    (name : Identifier)
    (initializer : Option (Typed τ))
    (span : Span) :
    (declaration isConst ty name initializer span).erase =
      .declaration isConst ty name
        (initializer.map Typed.erase) span :=
  rfl

@[simp] theorem EffectEvent.erase_assignment
    (name : Identifier)
    (value : Typed τ)
    (span : Span) :
    (assignment name value span).erase =
      .assignment name value.erase span :=
  rfl

@[simp] theorem EffectEvent.erase_returnValue
    (value : Typed τ)
    (span : Span) :
    (returnValue value span).erase =
      .returnValue value.erase span :=
  rfl

@[simp] theorem EffectEvent.erase_functionHeader
    (returns : Ty)
    (name : Identifier) :
    (functionHeader returns name : EffectEvent τ).erase =
      .functionHeader returns name :=
  rfl

@[simp] theorem EffectEvent.erase_functionSignature
    (returns : Ty)
    (name : Identifier)
    (formals : List Formal) :
    (functionSignature returns name formals :
        EffectEvent τ).erase =
      .functionSignature returns name formals :=
  rfl

@[simp] theorem EffectEvent.erase_functionEnd
    (span : Span) :
    (functionEnd span : EffectEvent τ).erase =
      .functionEnd span :=
  rfl

@[simp] theorem EffectEvent.erase_declarationStart
    (isConst : Bool)
    (ty : Ty)
    (name : Identifier) :
    (declarationStart isConst ty name : EffectEvent τ).erase =
      .declarationStart isConst ty name :=
  rfl

@[simp] theorem EffectEvent.erase_openScope :
    (openScope : EffectEvent τ).erase = .openScope :=
  rfl

@[simp] theorem EffectEvent.erase_closeScope :
    (closeScope : EffectEvent τ).erase = .closeScope :=
  rfl

@[simp] theorem EffectEvent.erase_openLoop :
    (openLoop : EffectEvent τ).erase = .openLoop :=
  rfl

@[simp] theorem EffectEvent.erase_closeLoop :
    (closeLoop : EffectEvent τ).erase = .closeLoop :=
  rfl

end Erasure

namespace Parser

open Grammar

variable {σ τ ε α : Type}
variable {receiver : Receiver σ τ ε}
variable {done : Script}

/- An event is written down whether it is accepted or not. -/
theorem ends_announce
    {Then : α → Script → Prop}
    {event : Event τ}
    {act : EStateM ε σ α}
    {before : Cursor (Recording σ τ)}
    (hThen :
      ∀ answer,
        Then answer (done ++ [Mark.announce event.erase]))
    (hOpening :
      Script.IsOpening (done ++ [.announce event.erase])) :
    Ends done Then before
      (announce
        (Receiver.watch (fun sighting => [sighting]) event act)
        before) := by
  rcases before with ⟨rest, watched⟩
  cases hAct : act watched.state with
  | ok answer after =>
      simp only [announce, Receiver.watch, hAct]
      refine
        ⟨[.announce event.erase], hThen answer, by simp, ?_⟩
      simp [Watched.events]
  | error reason after =>
      simp only [announce, Receiver.watch, hAct]
      refine
        ⟨[.announce event.erase], rest, hOpening, by simp, ?_⟩
      simp [Watched.events]

theorem enacts_effect
    {Then : Unit → Script → Prop}
    {event : EffectEvent τ}
    (hThen :
      Then ()
        (done ++ [Mark.announce (.effect event.erase)]))
    (hOpening :
      Script.IsOpening
        (done ++ [.announce (.effect event.erase)])) :
    Enacts done (effect receiver.recorded event) Then := by
  intro before _
  exact ends_announce (fun _ => hThen) hOpening

theorem enacts_effect_bind
    {Then : α → Script → Prop}
    {event : EffectEvent τ}
    {next : Unit → Rule (Recording σ τ) ε α}
    (hOpening :
      Script.IsOpening
        (done ++ [.announce (.effect event.erase)]))
    (hNext :
      Enacts (done ++ [.announce (.effect event.erase)])
        (next ()) Then) :
    Enacts done
      (effect receiver.recorded event >>= next) Then := by
  have hEffect :
      Enacts done (effect receiver.recorded event)
        (fun _ script =>
          script =
            done ++ [Mark.announce (.effect event.erase)]) :=
    enacts_effect rfl hOpening
  apply hEffect.bind
  rintro _ _ rfl
  exact hNext

theorem enacts_value
    {Then : Typed τ → Script → Prop}
    {event : ValueEvent τ}
    {span : Span}
    (hThen :
      ∀ ty,
        Then ⟨ty, span⟩
          (done ++ [Mark.announce (.value event.erase)]))
    (hOpening :
      Script.IsOpening
        (done ++ [.announce (.value event.erase)])) :
    Enacts done (value receiver.recorded event span) Then := by
  have hAnnounce :
      Enacts done
        (announce (ε := ε) (receiver.recorded.value event))
        (fun _ script =>
          script =
            done ++ [Mark.announce (.value event.erase)]) := by
    intro before _
    exact ends_announce (fun _ => rfl) hOpening
  apply hAnnounce.bind
  rintro ty _ rfl
  exact enacts_pure (hThen ty)

end Parser

end OnePass

------------------------------------------------------------
-- Playing Trees
------------------------------------------------------------

namespace OnePass

namespace Parser

open Grammar

variable {σ τ ε α β χ : Type}

/-
  Wherever each of the trees may come next, the rule enacts
  the script of one of them, and answers as it should.
-/
def Plays
    (script : χ → Script)
    (Answers : χ → α → Prop)
    (rule : Rule (Recording σ τ) ε α) : Prop :=
  ∀ done : Script,
    (∀ tree, Script.IsOpening (done ++ script tree)) →
      Enacts done rule fun answer after =>
        ∃ tree,
          after = done ++ script tree ∧ Answers tree answer

variable {script : χ → Script}
variable {Answers : χ → α → Prop}
variable {done : Script}

theorem Plays.bind
    {first : Rule (Recording σ τ) ε α}
    {next : α → Rule (Recording σ τ) ε β}
    {Then : β → Script → Prop}
    (hFirst : Plays script Answers first)
    (hOpening :
      ∀ tree, Script.IsOpening (done ++ script tree))
    (hNext :
      ∀ tree answer,
        Answers tree answer →
          Enacts (done ++ script tree) (next answer) Then) :
    Enacts done (first >>= next) Then := by
  apply (hFirst done hOpening).bind
  rintro answer _ ⟨tree, rfl, hAnswer⟩
  exact hNext tree answer hAnswer

/- The last part of a sequence completes it. -/
theorem Plays.last
    {rule : Rule (Recording σ τ) ε α}
    {Then : α → Script → Prop}
    (hRule : Plays script Answers rule)
    (hOpening :
      ∀ tree, Script.IsOpening (done ++ script tree))
    (hThen :
      ∀ tree answer,
        Answers tree answer →
          Then answer (done ++ script tree)) :
    Enacts done rule Then := by
  apply (hRule done hOpening).weaken
  rintro answer _ ⟨tree, rfl, hAnswer⟩
  exact hThen tree answer hAnswer

/- A rule may halt before it has done anything. -/
theorem isOpening_of_script
    [Nonempty χ]
    (hOpening :
      ∀ tree, Script.IsOpening (done ++ script tree)) :
    done.IsOpening :=
  (hOpening (Classical.arbitrary χ)).cut
    (List.prefix_append _ _)

theorem plays_throw
    [Nonempty χ]
    (halt : Halt ε) :
    Plays script Answers
      (throw halt : Rule (Recording σ τ) ε α) := by
  intro done hOpening
  exact enacts_throw (isOpening_of_script hOpening) halt

end Parser

end OnePass

------------------------------------------------------------
-- Tokens
------------------------------------------------------------

namespace OnePass

namespace Parser

open Grammar

variable {σ τ ε α β χ : Type}

theorem plays_token
    (kind : Kind) :
    Plays (fun leaf : Leaf kind => [.read leaf.token])
      (fun leaf answer => answer = leaf.token)
      (token kind : Rule (Recording σ τ) ε Token) := by
  intro done hOpening
  have hHere := isOpening_of_script hOpening
  rintro ⟨_ | ⟨next, rest⟩, state⟩ _
  · exact ⟨[], [], by simpa using hHere, rfl, by simp⟩
  · by_cases hKind : next.kind = kind
    · subst hKind
      rw [token_of_kind]
      exact
        ⟨[.read next], ⟨⟨next.text, next.span⟩, rfl, rfl⟩,
          rfl, by simp⟩
    · rw [token_of_ne hKind]
      exact
        ⟨[], next :: rest, by simpa using hHere, rfl,
          by simp⟩

theorem plays_expect
    (kind : Kind) :
    Plays (fun leaf : Leaf kind => [.read leaf.token])
      (fun leaf answer => answer = leaf.span)
      (expect kind : Rule (Recording σ τ) ε Span) := by
  intro done hOpening
  apply (plays_token kind).bind hOpening
  rintro leaf _ rfl
  exact enacts_pure ⟨leaf, rfl, rfl⟩

theorem plays_identifier :
    Plays
      (fun leaf : Leaf .identifier => [.read leaf.token])
      (fun leaf answer => answer = leaf.identifier)
      (identifier : Rule (Recording σ τ) ε Identifier) := by
  intro done hOpening
  apply (plays_token .identifier).bind hOpening
  rintro leaf _ rfl
  exact enacts_pure ⟨leaf, rfl, rfl⟩

/- A token that may be there. -/
theorem plays_accept
    (kind : Kind) :
    Plays
      (fun leaf? : Option (Leaf kind) =>
        silent (leaf?.toList.map Leaf.token))
      (fun leaf? answer => answer = leaf?.isSome)
      (accept kind : Rule (Recording σ τ) ε Bool) := by
  intro done hOpening
  unfold accept
  apply enacts_peek
  intro next
  split
  · apply (plays_token kind).bind
    · intro leaf
      exact hOpening (some leaf)
    · intro leaf _ _
      exact enacts_pure ⟨some leaf, rfl, rfl⟩
  · exact enacts_pure ⟨none, by simp [silent], rfl⟩

theorem plays_valueType :
    Plays
      (fun sign : Sign Kind.valueType? => [.read sign.token])
      (fun sign answer => answer = sign.meaning)
      (valueType : Rule (Recording σ τ) ε Ty) := by
  intro done hOpening
  have hHere := isOpening_of_script hOpening
  unfold valueType
  apply enacts_peek
  intro next
  split
  · next kind =>
      split
      · next ty hType =>
          apply (plays_token kind).bind
          · intro leaf
            exact hOpening ⟨leaf.token, ty, hType⟩
          · intro leaf _ _
            exact
              enacts_pure
                ⟨⟨leaf.token, ty, hType⟩, rfl, rfl⟩
      · exact enacts_throw hHere _
  · exact enacts_throw hHere _

theorem plays_returnType :
    Plays
      (fun sign : Sign returnType? => [.read sign.token])
      (fun sign answer => answer = sign.meaning)
      (returnType : Rule (Recording σ τ) ε Ty) := by
  intro done hOpening
  unfold returnType
  apply (plays_accept .kwVoid).bind
  · intro leaf?
    cases leaf? with
    | none =>
        simpa [silent] using isOpening_of_script hOpening
    | some leaf => exact hOpening ⟨leaf.token, .void, rfl⟩
  · rintro leaf? _ rfl
    cases leaf? with
    | none =>
        have hHere : done ++ silent [] = done :=
          List.append_nil done
        have hSign :=
          fun sign : Sign Kind.valueType? =>
            returnType?_of_valueType? sign.means
        change Enacts (done ++ silent []) valueType _
        rw [hHere]
        apply plays_valueType.last
        · intro sign
          exact
            hOpening ⟨sign.token, sign.meaning, hSign sign⟩
        · rintro sign _ rfl
          exact
            ⟨⟨sign.token, sign.meaning, hSign sign⟩, rfl, rfl⟩
    | some leaf =>
        exact
          enacts_pure
            ⟨⟨leaf.token, .void, rfl⟩, rfl, rfl⟩

end Parser

end OnePass

------------------------------------------------------------
-- Tokens Ahead
------------------------------------------------------------

namespace OnePass

namespace Parser

open Grammar

variable {σ τ ε α β χ : Type}
variable {done : Script}

/- The next token is the first that is read then. -/
theorem Plays.bind_nextSpan
    {script : χ → Script}
    {Answers : χ → α → Prop}
    {first : Rule (Recording σ τ) ε α}
    {next : Span → α → Rule (Recording σ τ) ε β}
    {Then : β → Script → Prop}
    [Nonempty χ]
    (hFirst : Plays script Answers first)
    (hTokens : ∀ tree, (script tree).tokens ≠ [])
    (hOpening :
      ∀ tree, Script.IsOpening (done ++ script tree))
    (hNext :
      ∀ tree answer start rest,
        Answers tree answer →
          (script tree).tokens = start :: rest →
            Enacts (done ++ script tree)
              (next start.span answer) Then) :
    Enacts done
      (nextSpan >>= fun start => first >>= next start)
      Then := by
  have hHere := isOpening_of_script hOpening
  rintro ⟨_ | ⟨start, rest⟩, state⟩ hOrdered
  · exact ⟨[], [], by simpa using hHere, rfl, by simp⟩
  · change
      Ends done Then ⟨start :: rest, state⟩
        ((first >>= next start.span) ⟨start :: rest, state⟩)
    apply
      Ends.bind hOrdered (hFirst done hOpening _ hOrdered)
    rintro answer part unread ⟨tree, hPart, hAnswer⟩ hRest
    rw [List.append_cancel_left hPart] at hRest ⊢
    cases hRead : (script tree).tokens with
    | nil => exact absurd hRead (hTokens tree)
    | cons token more =>
        rw [hRead] at hRest
        rw [(List.cons.inj hRest).1]
        exact hNext tree answer token more hAnswer hRead

theorem expect_of_kind
    {token : Token}
    {rest : List Token}
    {state : σ} :
    expect (ε := ε) token.kind ⟨token :: rest, state⟩ =
      .ok token.span ⟨rest, state⟩ :=
  expect_eq_ok_iff.mpr
    ⟨⟨token.text, token.span⟩, rfl, rfl, rfl⟩

/-
  An event about the next token is announced before that
  token is read, and is taken to come after it.
-/
theorem ends_ahead
    {receiver : Receiver σ τ ε}
    {Then : Unit → Script → Prop}
    {event : Span → EffectEvent τ}
    {token : Token}
    {rest : List Token}
    {state : Recording σ τ}
    (hThen :
      Then ()
        (done ++
          [.read token,
            Mark.announce
              (.effect (event token.span).erase)]))
    (hOpening :
      Script.IsOpening
        (done ++
          [.read token,
            .announce (.effect (event token.span).erase)])) :
    Ends done Then ⟨token :: rest, state⟩
      ((do
        let stop ← nextSpan
        effect receiver.recorded (event stop)
        let _ ← expect token.kind :
          Rule (Recording σ τ) ε Unit)
        ⟨token :: rest, state⟩) := by
  change
    Ends done Then ⟨token :: rest, state⟩
      ((do
        effect receiver.recorded (event token.span)
        let _ ← expect token.kind :
          Rule (Recording σ τ) ε Unit)
        ⟨token :: rest, state⟩)
  cases hAct :
      receiver.effect (event token.span) state.state with
  | ok answer after =>
      have hEffect :
          effect receiver.recorded (event token.span)
              ⟨token :: rest, state⟩ =
            .ok answer
              ⟨token :: rest, after,
                state.records ++
                  [(⟨.effect (event token.span),
                    state.state, after, true⟩ :
                      Sighting σ τ)]⟩ := by
        simp only [effect, announce, Receiver.recorded,
          Receiver.watched, Receiver.watch, hAct]
      rw [bind_of_ok hEffect, bind_of_ok expect_of_kind]
      refine ⟨_, hThen, rfl, ?_⟩
      simp [Watched.events, Event.erase]
  | error reason after =>
      have hEffect :
          effect receiver.recorded (event token.span)
              ⟨token :: rest, state⟩ =
            .error (.refused reason)
              ⟨token :: rest, after,
                state.records ++
                  [(⟨.effect (event token.span),
                    state.state, after, false⟩ :
                      Sighting σ τ)]⟩ := by
        simp only [effect, announce, Receiver.recorded,
          Receiver.watched, Receiver.watch, hAct]
      rw [bind_of_error hEffect]
      refine ⟨_, rest, hOpening, rfl, ?_⟩
      simp [Watched.events, Event.erase]

end Parser

end OnePass

------------------------------------------------------------
-- Repetition
------------------------------------------------------------

namespace OnePass

namespace Parser

open Grammar

variable {σ τ ε α χ : Type}

section Iterate

variable {step : α → Rule (Recording σ τ) ε (Option α)}
variable {Kept : α → Script → Prop}
variable
  (hStep :
    ∀ current done,
      Kept current done →
        Enacts done (step current) fun next after =>
          Kept (next.getD current) after)

include hStep

theorem enacts_iterateWithin
    (bound : List Token)
    {first : α}
    {done : Script}
    (hFirst : Kept first done) :
    Enacts done (iterateWithin step bound first) Kept := by
  induction bound generalizing first done with
  | nil => exact enacts_pure hFirst
  | cons token bound ih =>
      apply (hStep first done hFirst).bind
      intro next after hNext
      cases next with
      | none => exact enacts_pure hNext
      | some answer => exact ih hNext

/- What every step keeps is kept by all of them. -/
theorem enacts_iterate
    {first : α}
    {done : Script}
    (hFirst : Kept first done) :
    Enacts done (iterate step first) Kept := by
  intro before hOrdered
  exact
    enacts_iterateWithin hStep before.rest hFirst before
      hOrdered

end Iterate

section Commas

variable {script : χ → Script}
variable {Answers : χ → α → Prop}
variable {item : Rule (Recording σ τ) ε α}
variable [Nonempty χ]
variable (hItem : Plays script Answers item)

include hItem

theorem plays_commaSeparated :
    Plays (Separated.script script)
      (fun items answers =>
        List.Forall₂ Answers items.toList answers)
      (commaSeparated item) := by
  intro done hOpening
  apply hItem.bind
  · intro first
    exact hOpening (.one first)
  intro first answer hAnswer
  apply enacts_iterate
  · rintro answers _ ⟨items, rfl, hAnswers⟩
    apply (plays_accept .comma).bind
    · intro comma?
      cases comma? with
      | none => simpa [silent] using hOpening items
      | some comma =>
          apply
            (hOpening
              (.more items comma
                (Classical.arbitrary χ))).cut
          simp [Separated.script, silent]
    · rintro comma? _ rfl
      cases comma? with
      | none =>
          exact
            enacts_pure
              ⟨items, by simp [silent], hAnswers⟩
      | some comma =>
          have hMore :
              ∀ last,
                done ++ items.script script ++
                    silent [comma.token] ++ script last =
                  done ++
                    (Separated.more items comma last).script
                      script := by
            intro last
            simp [Separated.script, silent]
          apply hItem.bind
          · intro last
            exact (hMore last).symm ▸ hOpening _
          · intro last value hValue
            refine
              enacts_pure
                ⟨.more items comma last, hMore last, ?_⟩
            exact
              List.rel_append hAnswers (.cons hValue .nil)
  · exact ⟨.one first, rfl, .cons hAnswer .nil⟩

theorem plays_commaList :
    Plays
      (fun items? : Option (Separated χ) =>
        items?.elim [] (Separated.script script))
      (fun items? answers =>
        List.Forall₂ Answers
          (items?.elim [] Separated.toList) answers)
      (commaList item) := by
  intro done hOpening
  unfold commaList
  apply enacts_peek
  intro next
  split
  · exact enacts_pure ⟨none, by simp, .nil⟩
  · apply (plays_commaSeparated hItem).last
    · intro items
      exact hOpening (some items)
    · intro items answers hAnswers
      exact ⟨some items, rfl, hAnswers⟩

end Commas

end Parser

end OnePass
