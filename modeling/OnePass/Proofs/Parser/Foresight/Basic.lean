import OnePass.Proofs.Grammar.Sentence
import OnePass.Proofs.Parser.Outcome
import OnePass.Proofs.Parser.Transcript

/-
  What the tokens that were read say about a run.

  A rule is compared with another one that reads the same
  trees, hears no receiver, and may be given more levels of
  nesting. What the rule reads belongs to a language, or is
  the beginning of something that does. When it answers, the
  other rule answers at the same token, whatever comes after
  that token. When a token does not fit, the other rule is
  stuck at the same token, whatever comes after it, with one
  exception: a name where a statement may start is given up
  because of the token after it, and so it takes that token
  too for the other rule to be stuck.

  Main declarations:
    * `Parser.heedless`
    * `Parser.Blames`, `Parser.Foretells`
    * `Parser.Predicts`, `Parser.Predicts.bind`
    * `Parser.predicts_iterate`
-/

------------------------------------------------------------
-- Predictions
------------------------------------------------------------

namespace OnePass

namespace Parser

open Grammar

variable {σ ε α β γ δ : Type}

/- A receiver that takes no notice of events. -/
def heedless : Receiver Unit Unit Empty where
  value _ := pure ()
  effect _ := pure ()

/- How a run that nobody hears ends, by the tokens. -/
abbrev Reading (α : Type) : Type :=
  List Token → EStateM.Result (Halt Empty) (Cursor Unit) α

/-
  Once it has read the tokens, the run answers before the
  next one, whatever follows.
-/
def AnswersBefore
    (run : Reading α)
    (answer : α)
    (read : List Token)
    (next : Token) : Prop :=
  ∀ more,
    run (read ++ next :: more) = .ok answer ⟨next :: more, ()⟩

/-
  Once it has read the tokens, the run is stuck before those
  ahead, whatever follows.
-/
def StuckBefore
    (run : Reading α)
    (read ahead : List Token) : Prop :=
  ∀ more,
    run (read ++ (ahead ++ more)) =
      .error (.stuck .unexpected) ⟨ahead ++ more, ()⟩

/- Any statement may come after the tokens. -/
def TakesStatement
    (language : Language Token)
    (read : List Token) : Prop :=
  ∀ statement : Stmt, ∃ more,
    read ++ (statement.tokens ++ more) ∈ language

/-
  The next token cannot be read. If it is a name where a
  statement may start, it is the one after it that cannot.
-/
def Blames
    (language : Language Token)
    (run : Reading α)
    (read : List Token) : List Token → Prop
| [] => True
| next :: rest =>
    StuckBefore run read [next] ∨
      next.kind = .identifier ∧
        TakesStatement language read ∧
          ∀ second ∈ rest.head?,
            StuckBefore run read [next, second]

/-
  What the end of a run says about the tokens, and about the
  other run on tokens that start in the same way.
-/
def Foretells
    (language : Language Token)
    (run : Reading β)
    (translate : α → β)
    (before : List Token) :
    EStateM.Result (Halt ε) (Cursor σ) α → Prop
| .ok answer after =>
    ∃ read ∈ language,
      before = read ++ after.rest ∧
        ∀ next ∈ after.rest.head?,
          AnswersBefore run (translate answer) read next
| .error (.stuck obstacle) after =>
    ∃ read more,
      read ++ more ∈ language ∧
        before = read ++ after.rest ∧
          (obstacle = .unexpected →
            Blames language run read after.rest)
| .error (.refused _) _ => True

/- Every run of the rule foretells the runs of the other. -/
def Predicts
    (language : Language Token)
    (translate : α → β)
    (rule : Rule σ ε α)
    (other : Rule Unit Empty β) : Prop :=
  ∀ cursor,
    Foretells language (fun tokens => other ⟨tokens, ()⟩)
      translate cursor.rest (rule cursor)

end Parser

end OnePass

------------------------------------------------------------
-- Sequences
------------------------------------------------------------

namespace OnePass

namespace Parser

open Grammar

variable {σ ε α β γ δ : Type}
variable {language first second : Language Token}

/- Tokens that start in the same way have the same first. -/
theorem headKind_append_cons
    (read : List Token)
    {rest : List Token}
    {next : Token}
    (hNext : next ∈ rest.head?)
    (more : List Token) :
    headKind (read ++ next :: more) =
      headKind (read ++ rest) := by
  cases read with
  | nil =>
      rw [List.nil_append, List.nil_append, headKind,
        headKind, hNext]
      rfl
  | cons token read => rfl

/- An answer holds for all tokens that start the same way. -/
theorem answers_of_head
    {run : Reading β}
    {answer : β}
    {read later rest : List Token}
    (hAnswers :
      ∀ next ∈ (later ++ rest).head?,
        AnswersBefore run answer read next)
    {next : Token}
    (hNext : next ∈ rest.head?)
    (more : List Token) :
    run (read ++ (later ++ next :: more)) =
      .ok answer ⟨later ++ next :: more, ()⟩ := by
  cases later with
  | nil => exact hAnswers next hNext more
  | cons token later => exact hAnswers token rfl _

theorem TakesStatement.mono
    {read : List Token}
    (hTakes : TakesStatement first read)
    (hLanguage : first ≤ language) :
    TakesStatement language read := by
  intro statement
  rcases hTakes statement with ⟨more, hMore⟩
  exact ⟨more, hLanguage hMore⟩

/- What blames a token for one run blames it for another. -/
theorem Blames.map
    {run : Reading α}
    {run' : Reading β}
    {read read' rest : List Token}
    (hBlames : Blames first run read rest)
    (hStuck :
      ∀ next ∈ rest.head?, ∀ more,
        StuckBefore run read (next :: more) →
          StuckBefore run' read' (next :: more))
    (hTakes :
      TakesStatement first read →
        TakesStatement language read') :
    Blames language run' read' rest := by
  cases rest with
  | nil => trivial
  | cons next rest =>
      rcases hBlames with hNext | ⟨hName, hStarts, hSecond⟩
      · exact .inl (hStuck next rfl [] hNext)
      · refine .inr ⟨hName, hTakes hStarts, ?_⟩
        intro second hMember
        exact
          hStuck next rfl [second] (hSecond second hMember)

/- A run foretells also for a larger language. -/
theorem Foretells.mono
    {run : Reading β}
    {translate : α → β}
    {before : List Token}
    {outcome : EStateM.Result (Halt ε) (Cursor σ) α}
    (hOutcome : Foretells first run translate before outcome)
    (hLanguage : first ≤ language) :
    Foretells language run translate before outcome := by
  match outcome, hOutcome with
  | .ok answer after, ⟨read, hRead, hBefore, hAnswers⟩ =>
      exact ⟨read, hLanguage hRead, hBefore, hAnswers⟩
  | .error (.stuck obstacle) after,
    ⟨read, more, hMore, hBefore, hBlames⟩ =>
      refine
        ⟨read, more, hLanguage hMore, hBefore,
          fun hObstacle => ?_⟩
      exact
        (hBlames hObstacle).map (fun _ _ _ hStuck => hStuck)
          (·.mono hLanguage)
  | .error (.refused reason) after, _ => trivial

/- Only runs on tokens that start the same way matter. -/
theorem Foretells.congr
    {run run' : Reading β}
    {translate : α → β}
    {before : List Token}
    {outcome : EStateM.Result (Halt ε) (Cursor σ) α}
    (hOutcome :
      Foretells language run translate before outcome)
    (hRun :
      ∀ {read rest next},
        before = read ++ rest →
          next ∈ rest.head? →
            ∀ more,
              run' (read ++ next :: more) =
                run (read ++ next :: more)) :
    Foretells language run' translate before outcome := by
  match outcome, hOutcome with
  | .ok answer after, ⟨read, hRead, hBefore, hAnswers⟩ =>
      refine ⟨read, hRead, hBefore, ?_⟩
      intro next hNext more
      rw [hRun hBefore hNext]
      exact hAnswers next hNext more
  | .error (.stuck obstacle) after,
    ⟨read, more, hMore, hBefore, hBlames⟩ =>
      refine
        ⟨read, more, hMore, hBefore, fun hObstacle => ?_⟩
      apply (hBlames hObstacle).map _ id
      intro next hNext ahead hStuck unread
      rw [List.cons_append, hRun hBefore hNext]
      exact hStuck unread
  | .error (.refused reason) after, _ => trivial

/-
  The end of a part that another part follows. The part that
  is stuck keeps the whole stuck.
-/
theorem Foretells.stuck
    [Spoken second]
    {run : Reading β}
    {run' : Reading δ}
    {translate : α → β}
    {translate' : γ → δ}
    {before : List Token}
    {obstacle : Obstacle}
    {after : Cursor σ}
    (hOutcome :
      Foretells first run translate before
        (.error (.stuck obstacle) after :
          EStateM.Result (Halt ε) (Cursor σ) α))
    (hRun :
      ∀ {tokens cursor},
        tokens ≠ [] →
          run tokens = .error (.stuck .unexpected) cursor →
            run' tokens =
              .error (.stuck .unexpected) cursor) :
    Foretells (first * second) run' translate' before
      (.error (.stuck obstacle) after :
        EStateM.Result (Halt ε) (Cursor σ) γ) := by
  rcases hOutcome with ⟨read, more, hMore, hBefore, hBlames⟩
  rcases ‹Spoken second›.exists_mem with ⟨later, hLater⟩
  refine ⟨read, more ++ later, ?_, hBefore, ?_⟩
  · rw [← List.append_assoc]
    exact Language.append_mem_mul hMore hLater
  · intro hObstacle
    apply (hBlames hObstacle).map
    · intro next _ ahead hStuck rest
      exact hRun (by simp) (hStuck rest)
    · intro hTakes statement
      rcases hTakes statement with ⟨rest, hRest⟩
      refine ⟨rest ++ later, ?_⟩
      have hBoth := Language.append_mem_mul hRest hLater
      simpa only [List.append_assoc] using hBoth

/- The end of a part that comes after another part. -/
theorem Foretells.prepend
    {run : Reading β}
    {later whole : Reading δ}
    {answer : β}
    {translate : γ → δ}
    {read before between : List Token}
    {outcome : EStateM.Result (Halt ε) (Cursor σ) γ}
    (hRead : read ∈ first)
    (hBefore : before = read ++ between)
    (hAnswers :
      ∀ next ∈ between.head?,
        AnswersBefore run answer read next)
    (hWhole :
      ∀ {rest},
        headKind rest = headKind between →
          run (read ++ rest) = .ok answer ⟨rest, ()⟩ →
            whole (read ++ rest) = later rest)
    (hOutcome :
      Foretells second later translate between outcome) :
    Foretells (first * second) whole translate before
      outcome := by
  match outcome, hOutcome with
  | .ok final after, ⟨more, hMore, hBetween, hLater⟩ =>
      refine
        ⟨read ++ more, Language.append_mem_mul hRead hMore,
          ?_, ?_⟩
      · rw [hBefore, hBetween, List.append_assoc]
      · intro next hNext rest
        have hHead := headKind_append_cons more hNext rest
        rw [← hBetween] at hHead
        rw [hBetween] at hAnswers
        rw [List.append_assoc,
          hWhole hHead (answers_of_head hAnswers hNext rest)]
        exact hLater next hNext rest
  | .error (.stuck obstacle) after,
    ⟨more, rest, hMore, hBetween, hBlames⟩ =>
      refine ⟨read ++ more, rest, ?_, ?_, ?_⟩
      · rw [List.append_assoc]
        exact Language.append_mem_mul hRead hMore
      · rw [hBefore, hBetween, List.append_assoc]
      · intro hObstacle
        apply (hBlames hObstacle).map
        · intro next hNext ahead hStuck unread
          have hHead :=
            headKind_append_cons more hNext (ahead ++ unread)
          rw [← hBetween] at hHead
          rw [hBetween] at hAnswers
          rw [List.append_assoc, List.cons_append,
            hWhole hHead (answers_of_head hAnswers hNext _)]
          exact hStuck unread
        · intro hTakes statement
          rcases hTakes statement with ⟨unread, hUnread⟩
          refine ⟨unread, ?_⟩
          rw [List.append_assoc]
          exact Language.append_mem_mul hRead hUnread
  | .error (.refused reason) after, _ => trivial

namespace Predicts

variable {translate : α → β}
variable {translate' : γ → δ}
variable {rule : Rule σ ε α}
variable {other : Rule Unit Empty β}
variable {next : α → Rule σ ε γ}
variable {next' : β → Rule Unit Empty δ}

theorem mono
    (hRule : Predicts first translate rule other)
    (hLanguage : first ≤ language) :
    Predicts language translate rule other :=
  fun cursor => (hRule cursor).mono hLanguage

/- One rule after the other. -/
theorem bind
    [Spoken second]
    (hRule : Predicts first translate rule other)
    (hNext :
      ∀ answer,
        Predicts second translate' (next answer)
          (next' (translate answer))) :
    Predicts (first * second) translate' (rule >>= next)
      (other >>= next') := by
  intro cursor
  have hOutcome := hRule cursor
  cases hFirst : rule cursor with
  | ok answer between =>
      rw [hFirst] at hOutcome
      rw [bind_of_ok hFirst]
      rcases hOutcome with ⟨read, hRead, hBefore, hAnswers⟩
      exact
        .prepend hRead hBefore hAnswers
          (fun _ hOther => bind_of_ok hOther)
          (hNext answer between)
  | error halt after =>
      rw [hFirst] at hOutcome
      rw [bind_of_error hFirst]
      cases halt with
      | stuck obstacle =>
          exact
            Foretells.stuck hOutcome
              fun _ hOther => bind_of_error hOther
      | refused reason => trivial

/- A rule after one that reads nothing. -/
theorem after
    [Spoken language]
    (hRule : Predicts 1 translate rule other)
    (hNext :
      ∀ answer,
        Predicts language translate' (next answer)
          (next' (translate answer))) :
    Predicts language translate' (rule >>= next)
      (other >>= next') := by
  rw [← one_mul language]
  exact hRule.bind hNext

/- A rule before one that reads nothing. -/
theorem before
    (hRule : Predicts language translate rule other)
    (hNext :
      ∀ answer,
        Predicts 1 translate' (next answer)
          (next' (translate answer))) :
    Predicts language translate' (rule >>= next)
      (other >>= next') := by
  rw [← mul_one language]
  exact hRule.bind hNext

end Predicts

end Parser

end OnePass

------------------------------------------------------------
-- Reading Tokens
------------------------------------------------------------

namespace OnePass

namespace Parser

open Grammar
open scoped Computability

variable {σ τ ε α β γ δ : Type}
variable {language first second : Language Token}
variable {translate : α → β}

theorem predicts_pure
    (translate : α → β)
    (answer : α) :
    Predicts 1 translate (pure answer : Rule σ ε α)
      (pure (translate answer)) := by
  intro cursor
  exact ⟨[], rfl, rfl, fun _ _ _ => rfl⟩

theorem predicts_unexpected
    [Spoken language] :
    Predicts language translate (unexpected : Rule σ ε α)
      unexpected := by
  intro cursor
  rcases ‹Spoken language›.exists_mem with ⟨words, hWords⟩
  refine ⟨[], words, hWords, rfl, fun _ => ?_⟩
  cases cursor.rest with
  | nil => trivial
  | cons next rest => exact .inl fun _ => rfl

/- At the nesting limit nothing is said of the other rule. -/
theorem predicts_tooDeep
    [Spoken language]
    {other : Rule Unit Empty β} :
    Predicts language translate
      (throw (.stuck .tooDeep) : Rule σ ε α) other := by
  intro cursor
  rcases ‹Spoken language›.exists_mem with ⟨words, hWords⟩
  refine ⟨[], words, hWords, rfl, fun hObstacle => ?_⟩
  cases hObstacle

theorem predicts_peek :
    Predicts 1 id (peek : Rule σ ε _) peek := by
  intro cursor
  refine ⟨[], rfl, rfl, fun next hNext more => ?_⟩
  have hHead := headKind_append_cons [] hNext more
  exact congrArg (EStateM.Result.ok · _) hHead

theorem predicts_nextSpan :
    Predicts 1 id (nextSpan : Rule σ ε _) nextSpan := by
  intro cursor
  rcases cursor with ⟨_ | ⟨next, rest⟩, state⟩
  · exact ⟨[], [], rfl, rfl, fun _ => trivial⟩
  · refine ⟨[], rfl, rfl, ?_⟩
    rintro _ ⟨rfl⟩ more
    rfl

theorem predicts_token
    (kind : Kind) :
    Predicts (leafWords kind) id (token kind : Rule σ ε Token)
      (token kind) := by
  intro cursor
  have hSpoken : Spoken (leafWords kind) := inferInstance
  rcases hSpoken.exists_mem with ⟨words, hWords⟩
  rcases cursor with ⟨_ | ⟨next, rest⟩, state⟩
  · exact ⟨[], words, hWords, rfl, fun _ => trivial⟩
  · by_cases hKind : next.kind = kind
    · subst hKind
      rw [token_of_kind]
      exact
        ⟨[next], ⟨⟨next.text, next.span⟩, rfl⟩, rfl,
          fun _ _ _ => token_of_kind⟩
    · rw [token_of_ne hKind]
      exact
        ⟨[], words, hWords, rfl,
          fun _ => .inl fun _ => token_of_ne hKind⟩

theorem predicts_expect
    (kind : Kind) :
    Predicts (leafWords kind) id (expect kind : Rule σ ε Span)
      (expect kind) := by
  apply (predicts_token kind).before
  intro next
  exact predicts_pure id _

theorem predicts_identifier :
    Predicts (leafWords .identifier) id
      (identifier : Rule σ ε Identifier) identifier := by
  apply (predicts_token .identifier).before
  intro name
  exact predicts_pure id _

/- Two ways to go on, by whether a token is next. -/
theorem predicts_accept
    [Spoken first]
    {translate : γ → δ}
    (kind : Kind)
    {next : Bool → Rule σ ε γ}
    {next' : Bool → Rule Unit Empty δ}
    (hFound :
      Predicts first translate (next true) (next' true))
    (hMissing :
      Predicts second translate (next false) (next' false)) :
    Predicts (leafWords kind * first + second) translate
      (accept kind >>= next) (accept kind >>= next') := by
  unfold accept
  rw [bind_assoc, bind_assoc]
  apply predicts_peek.after
  intro head
  by_cases hHead : head = some kind
  · simp only [id_eq, if_pos hHead, bind_assoc, pure_bind]
    exact
      ((predicts_token kind).bind fun _ => hFound).mono
        le_self_add
  · simp only [id_eq, if_neg hHead, pure_bind]
    exact hMissing.mono le_add_self

theorem predicts_valueType :
    Predicts (signWords Kind.valueType?) id
      (valueType : Rule σ ε Ty) valueType := by
  apply predicts_peek.after
  intro head
  cases head with
  | none => exact predicts_unexpected
  | some kind =>
      cases hType : kind.valueType? with
      | none =>
          simp only [id_eq, hType]
          exact predicts_unexpected
      | some ty =>
          simp only [id_eq, hType]
          apply
            ((predicts_token kind).mono
              (leaf_le_sign hType)).before
          intro _
          exact predicts_pure id _

theorem predicts_returnType :
    Predicts (signWords returnType?) id
      (returnType : Rule σ ε Ty) returnType := by
  have hWords :
      leafWords .kwVoid * 1 + signWords Kind.valueType? ≤
        signWords returnType? := by
    rintro _ (⟨_, ⟨leaf, rfl⟩, _, rfl, rfl⟩ | ⟨sign, rfl⟩)
    · exact ⟨⟨leaf.token, .void, rfl⟩, rfl⟩
    · exact
        ⟨⟨sign.token, sign.meaning,
          returnType?_of_valueType? sign.means⟩, rfl⟩
  apply Predicts.mono _ hWords
  apply predicts_accept .kwVoid
  · exact predicts_pure id _
  · exact predicts_valueType

theorem predicts_declarator :
    Predicts (written Declarator.tokens) id
      (declarator : Rule σ ε Formal) declarator := by
  have hRest (isConst : Bool) :
      Predicts
        (signWords Kind.valueType? * leafWords .identifier) id
        (do
          let ty ← valueType
          let name ← identifier
          return { isConst, ty, name } : Rule σ ε Formal)
        (do
          let ty ← valueType
          let name ← identifier
          return { isConst, ty, name }) := by
    apply predicts_valueType.bind
    intro ty
    apply predicts_identifier.before
    intro name
    exact predicts_pure id _
  apply Predicts.mono _ declarator_le
  exact predicts_accept .kwConst (hRest true) (hRest false)

end Parser

end OnePass

------------------------------------------------------------
-- Announcing Events
------------------------------------------------------------

namespace OnePass

namespace Parser

variable {σ τ ε α : Type}

/- Nothing is read while the receiver acts. -/
theorem predicts_announce
    (act : EStateM ε σ α) :
    Predicts 1 (fun _ => ()) (announce act)
      (announce (pure ())) := by
  intro cursor
  unfold announce
  cases act cursor.state with
  | ok answer state =>
      exact ⟨[], rfl, rfl, fun _ _ _ => rfl⟩
  | error reason state => trivial

theorem predicts_effect
    (receiver : Receiver σ τ ε)
    (event : EffectEvent τ)
    (event' : EffectEvent Unit) :
    Predicts 1 id (effect receiver event)
      (effect heedless event') :=
  predicts_announce (receiver.effect event)

theorem predicts_value
    (receiver : Receiver σ τ ε)
    (event : ValueEvent τ)
    (event' : ValueEvent Unit)
    (span : Span) :
    Predicts 1 Typed.erase (value receiver event span)
      (value heedless event' span) := by
  apply (predicts_announce (receiver.value event)).before
  intro answer
  exact predicts_pure Typed.erase _

end Parser

end OnePass

------------------------------------------------------------
-- Repetition
------------------------------------------------------------

namespace OnePass

namespace Parser

open Grammar
open scoped Computability

variable {σ τ ε α β : Type}
variable {language : Language Token}
variable {translate : α → β}
variable {step : α → Rule σ ε (Option α)}
variable {step' : β → Rule Unit Empty (Option β)}

/-
  The next token decides whether a loop is over. If it is
  not, a step reads something of the language.
-/
def PredictsStep
    (language : Language Token)
    (translate : α → β)
    (step : α → Rule σ ε (Option α))
    (step' : β → Rule Unit Empty (Option β)) : Prop :=
  ∀ current, ∃ body body',
    step current = peek >>= body ∧
      step' (translate current) = peek >>= body' ∧
        ∀ head,
          body head = pure none ∧ body' head = pure none ∨
            Predicts language (Option.map translate)
              (body head) (body' head)

/- What a step of a loop comes to. -/
theorem PredictsStep.cases
    (hStep : PredictsStep language translate step step')
    (current : α)
    (cursor : Cursor σ) :
    (step current cursor = .ok none cursor ∧
        ∀ next ∈ cursor.rest.head?,
          AnswersBefore
            (fun tokens =>
              step' (translate current) ⟨tokens, ()⟩)
            none [] next) ∨
      Foretells language
        (fun tokens => step' (translate current) ⟨tokens, ()⟩)
        (Option.map translate) cursor.rest
        (step current cursor) := by
  rcases hStep current with
    ⟨body, body', hBody, hBody', hCases⟩
  -- On the other side, a step begins with the same kind.
  have hOther :
      ∀ {read rest next},
        cursor.rest = read ++ rest →
          next ∈ rest.head? →
            ∀ more,
              step' (translate current)
                  ⟨read ++ next :: more, ()⟩ =
                body' (headKind cursor.rest)
                  ⟨read ++ next :: more, ()⟩ := by
    intro read rest next hRest hNext more
    rw [hBody', peek_bind, hRest]
    dsimp only
    rw [headKind_append_cons read hNext more]
  have hRun :
      step current cursor =
        body (headKind cursor.rest) cursor := by
    rw [hBody, peek_bind]
  rw [hRun]
  rcases hCases (headKind cursor.rest) with
    ⟨hNone, hNone'⟩ | hPredicts
  · rw [hNone]
    refine .inl ⟨rfl, fun next hNext more => ?_⟩
    have hHead := hOther (List.nil_append _).symm hNext more
    rw [hNone'] at hHead
    exact hHead
  · exact .inr ((hPredicts cursor).congr hOther)

/- A loop is over when its step answers nothing. -/
theorem iterateWithin_of_none
    {bound : List Token}
    (hBound : bound ≠ [])
    {current : α}
    {before after : Cursor σ}
    (hStep : step current before = .ok none after) :
    iterateWithin step bound current before =
      .ok current after := by
  cases bound with
  | nil => exact absurd rfl hBound
  | cons token bound =>
      rw [iterateWithin, bind_of_ok hStep]
      rfl

/- A loop is stuck where its step is. -/
theorem iterateWithin_of_error
    {bound : List Token}
    (hBound : bound ≠ [])
    {current : α}
    {before after : Cursor σ}
    {halt : Halt ε}
    (hStep : step current before = .error halt after) :
    iterateWithin step bound current before =
      .error halt after := by
  cases bound with
  | nil => exact absurd rfl hBound
  | cons token bound =>
      rw [iterateWithin, bind_of_error hStep]

/- The bound of a loop that goes on is used up by one. -/
theorem iterateWithin_of_some
    {token : Token}
    {bound : List Token}
    {current value : α}
    {before between : Cursor σ}
    (hStep : step current before = .ok (some value) between) :
    iterateWithin step (token :: bound) current before =
      iterateWithin step bound value between := by
  rw [iterateWithin, bind_of_ok hStep]

/-
  The bound of the loop on the other side is the tokens with
  some more in front of them, so that it is still enough
  after each step.
-/
private theorem foretells_iterateWithin
    (hStep : PredictsStep language translate step step')
    (hReads : [] ∉ language)
    (bound : List Token)
    (current : α)
    (cursor : Cursor σ)
    (slack : List Token)
    (hBound : cursor.rest.length ≤ bound.length) :
    Foretells language∗
      (fun tokens =>
        iterateWithin step' (slack ++ tokens)
          (translate current) ⟨tokens, ()⟩)
      translate cursor.rest
      (iterateWithin step bound current cursor) := by
  have hStar : language * language∗ ≤ language∗ :=
    mul_kstar_le_kstar
  induction bound generalizing current cursor slack with
  | nil =>
      have hRest : cursor.rest = [] := by simpa using hBound
      refine ⟨[], Language.nil_mem_kstar _, rfl, ?_⟩
      rw [hRest]
      intro next hNext
      cases hNext
  | cons token bound ih =>
      rcases hStep.cases current cursor with
        ⟨hNone, hOver⟩ | hOutcome
      · rw [iterateWithin_of_none (List.cons_ne_nil _ _)
          hNone]
        refine ⟨[], Language.nil_mem_kstar _, rfl, ?_⟩
        intro next hNext more
        apply iterateWithin_of_none (by simp)
        exact hOver next hNext more
      · cases hFirst : step current cursor with
        | error halt after =>
            rw [hFirst] at hOutcome
            rw [iterateWithin, bind_of_error hFirst]
            cases halt with
            | refused reason => trivial
            | stuck obstacle =>
                refine (hOutcome.stuck ?_).mono hStar
                intro tokens other hTokens hOther
                exact
                  iterateWithin_of_error (by simp [hTokens])
                    hOther
        | ok value? between =>
            rw [hFirst] at hOutcome
            rcases hOutcome with
              ⟨read, hRead, hBefore, hAnswers⟩
            cases value? with
            | none =>
                rw [iterateWithin_of_none
                  (List.cons_ne_nil _ _) hFirst]
                have hWords : read ∈ language∗ :=
                  (le_kstar : language ≤ language∗) hRead
                refine ⟨read, hWords, hBefore, ?_⟩
                intro next hNext more
                apply iterateWithin_of_none (by simp)
                exact hAnswers next hNext more
            | some value =>
                rw [iterateWithin_of_some hFirst]
                cases read with
                | nil => exact absurd hRead hReads
                | cons head read =>
                    have hLength :
                        between.rest.length ≤
                          bound.length := by
                      rw [hBefore] at hBound
                      simp only [List.length_append,
                        List.length_cons] at hBound
                      omega
                    have hLater :=
                      ih value between
                        (slack ++ head :: read).tail hLength
                    refine
                      (hLater.prepend hRead hBefore hAnswers
                        ?_).mono hStar
                    intro rest _ hOther
                    cases slack with
                    | nil => exact iterateWithin_of_some hOther
                    | cons token slack =>
                        simp only [List.tail_cons,
                          List.cons_append, List.append_assoc]
                        exact iterateWithin_of_some hOther

/- A loop reads any number of what a step reads. -/
theorem predicts_iterate
    (hStep : PredictsStep language translate step step')
    (hReads : [] ∉ language)
    (first : α) :
    Predicts language∗ translate (iterate step first)
      (iterate step' (translate first)) :=
  fun cursor =>
    foretells_iterateWithin hStep hReads cursor.rest first
      cursor [] le_rfl

/- One or more items, separated by commas. -/
theorem predicts_commaSeparated
    {χ : Type}
    [Nonempty χ]
    {tokens : χ → List Token}
    {item : Rule σ ε α}
    {item' : Rule Unit Empty β}
    (hItem : Predicts (written tokens) translate item item') :
    Predicts (separatedWords tokens) (List.map translate)
      (commaSeparated item) (commaSeparated item') := by
  have hStep :
      PredictsStep (leafWords .comma * written tokens)
        (List.map translate) (itemStep item)
        (itemStep item') := by
    intro items
    refine ⟨_, _, bind_assoc _ _ _, bind_assoc _ _ _, ?_⟩
    intro head
    by_cases hHead : head = some .comma
    · simp only [if_pos hHead, bind_assoc, pure_bind]
      refine .inr ((predicts_token .comma).bind fun _ => ?_)
      apply hItem.before
      intro last
      have hPure :=
        predicts_pure (Option.map (List.map translate))
          (some (items ++ [last])) (σ := σ) (ε := ε)
      simpa using hPure
    · simp only [if_neg hHead, pure_bind]
      exact .inl ⟨rfl, rfl⟩
  have hReads : [] ∉ leafWords .comma * written tokens := by
    rintro ⟨_, ⟨comma, rfl⟩, _, _, hNil⟩
    cases hNil
  apply Predicts.mono _ (separated_le tokens)
  apply hItem.bind
  intro first
  exact predicts_iterate hStep hReads [first]

/- Any number of items, before a closing parenthesis. -/
theorem predicts_commaList
    {χ : Type}
    [Nonempty χ]
    {tokens : χ → List Token}
    {item : Rule σ ε α}
    {item' : Rule Unit Empty β}
    (hItem : Predicts (written tokens) translate item item') :
    Predicts (listedWords tokens) (List.map translate)
      (commaList item) (commaList item') := by
  apply predicts_peek.after
  intro head
  apply Predicts.mono _ (listed_le tokens)
  by_cases hHead : head = some .rightParen
  · simp only [id_eq, if_pos hHead]
    exact
      (predicts_pure (List.map translate) []).mono
        le_self_add
  · simp only [id_eq, if_neg hHead]
    exact (predicts_commaSeparated hItem).mono le_add_self

end Parser

end OnePass
