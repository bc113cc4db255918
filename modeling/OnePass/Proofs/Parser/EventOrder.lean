import Mathlib.Computability.Language
import OnePass.Proofs.Parser.Independence

/-
  The words that runs of the parser spell.

  The events of a complete run are those of its functions,
  one after the other, and the end of the program. Inside a
  function, scopes and loops are opened and closed in pairs:
  a loop is opened right after its condition, its body is
  exactly one scope, and the values between the start of a
  declaration and the declaration itself belong to its first
  value. A run that halts has spelt the beginning of such a
  word, whichever receiver it had and however it halted.

  Main declarations:
    * `Event.IsBody`, `Event.functionWords`
    * `Event.programWords`
    * `Event.Announced`, `Event.Announced.next`
    * `Event.Announced.begins`
    * `keptInside_orderCourse`
    * `transcript_spells_word`
-/

------------------------------------------------------------
-- Words
------------------------------------------------------------

namespace OnePass

open scoped Computability

/- A statement is complete, and changes no scope or loop. -/
def EffectEvent.IsSimple
    {τ : Type} : EffectEvent τ → Prop
| .assignment _ _ _ | .returnVoid _ | .returnValue _ _
| .breakStatement _ | .continueStatement _ => True
| _ => False

namespace Event

variable {τ : Type}

/- The events of the statements inside one scope. -/
inductive IsBody : List (Event τ) → Prop where
  | nil : IsBody []
  | append
      {first second : List (Event τ)}
      (hFirst : IsBody first)
      (hSecond : IsBody second) :
      IsBody (first ++ second)
  | value
      (event : ValueEvent τ) :
      IsBody [.value event]
  | simple
      {event : EffectEvent τ}
      (hSimple : event.IsSimple) :
      IsBody [.effect event]
  | declaration
      (isConst : Bool)
      (ty : Ty)
      (name : Identifier)
      (values : List (ValueEvent τ))
      (initializer : Option (Typed τ))
      (span : Span) :
      IsBody
        (.effect (.declarationStart isConst ty name) ::
          values.map .value ++
            [.effect
              (.declaration isConst ty name initializer
                span)])
  /- A block, or the branch after an `else`. -/
  | scope
      {inner : List (Event τ)}
      (hInner : IsBody inner) :
      IsBody
        (.effect .openScope :: inner ++
          [.effect .closeScope])
  /- The branch after a condition. -/
  | branch
      (condition : Typed τ)
      {inner : List (Event τ)}
      (hInner : IsBody inner) :
      IsBody
        (.effect (.condition condition) ::
          .effect .openScope :: inner ++
            [.effect .closeScope])
  | loop
      (condition : Typed τ)
      {inner : List (Event τ)}
      (hInner : IsBody inner) :
      IsBody
        (.effect (.condition condition) ::
          .effect .openLoop :: .effect .openScope :: inner ++
            [.effect .closeScope, .effect .closeLoop])

/- The events of a function, from its header to its end. -/
def functionWords : Language (Event τ) :=
  {word |
    ∃ returns name formals body span,
      IsBody body ∧
        word =
          .effect (.functionHeader returns name) ::
            .effect
              (.functionSignature returns name formals) ::
              body ++ [.effect (.functionEnd span)]}

/- The events of a program. -/
def programWords : Language (Event τ) :=
  functionWords∗ * {[.effect .programEnd]}

end Event

end OnePass

------------------------------------------------------------
-- Unfinished Bodies
------------------------------------------------------------

namespace OnePass

namespace Event

open OnePass.Parser (Frame)

variable {τ : Type}

/-
  The events of a body in which scopes are still open. They
  are listed from the inside out.
-/
inductive Unclosed :
    List Frame → List (Event τ) → Prop where
  | body
      {events : List (Event τ)}
      (hBody : IsBody events) :
      Unclosed [] events
  | scope
      {frames : List Frame}
      {outer inner : List (Event τ)}
      (hOuter : Unclosed frames outer)
      (hInner : IsBody inner) :
      Unclosed (.block :: frames)
        (outer ++ .effect .openScope :: inner)
  | branch
      {frames : List Frame}
      {outer inner : List (Event τ)}
      (condition : Typed τ)
      (hOuter : Unclosed frames outer)
      (hInner : IsBody inner) :
      Unclosed (.block :: frames)
        (outer ++ .effect (.condition condition) ::
          .effect .openScope :: inner)
  | loop
      {frames : List Frame}
      {outer inner : List (Event τ)}
      (condition : Typed τ)
      (hOuter : Unclosed frames outer)
      (hInner : IsBody inner) :
      Unclosed (.loop :: frames)
        (outer ++ .effect (.condition condition) ::
          .effect .openLoop :: .effect .openScope :: inner)

namespace Unclosed

variable {frames : List Frame}
variable {events : List (Event τ)}

/- Statements are added to the innermost open scope. -/
theorem append
    (hEvents : Unclosed frames events)
    {more : List (Event τ)}
    (hMore : IsBody more) :
    Unclosed frames (events ++ more) := by
  cases hEvents with
  | body hBody => exact body (hBody.append hMore)
  | scope hOuter hInner =>
      simpa using hOuter.scope (hInner.append hMore)
  | branch condition hOuter hInner =>
      simpa using
        hOuter.branch condition (hInner.append hMore)
  | loop condition hOuter hInner =>
      simpa using
        hOuter.loop condition (hInner.append hMore)

theorem closeScope
    (hEvents : Unclosed (.block :: frames) events) :
    Unclosed frames (events ++ [.effect .closeScope]) := by
  cases hEvents with
  | scope hOuter hInner =>
      simpa using hOuter.append (.scope hInner)
  | branch condition hOuter hInner =>
      simpa using hOuter.append (.branch condition hInner)

theorem closeLoop
    (hEvents : Unclosed (.loop :: frames) events) :
    Unclosed frames
      (events ++
        [.effect .closeScope, .effect .closeLoop]) := by
  cases hEvents with
  | loop condition hOuter hInner =>
      simpa using hOuter.append (.loop condition hInner)

/- All open scopes can be closed, from the inside out. -/
theorem exists_body
    (hEvents : Unclosed frames events) :
    ∃ rest, IsBody (events ++ rest) := by
  induction frames generalizing events with
  | nil =>
      cases hEvents with
      | body hBody => exact ⟨[], by simpa using hBody⟩
  | cons frame frames ih =>
      cases frame with
      | block =>
          rcases ih hEvents.closeScope with ⟨rest, hBody⟩
          exact ⟨_, by simpa using hBody⟩
      | loop =>
          rcases ih hEvents.closeLoop with ⟨rest, hBody⟩
          exact ⟨_, by simpa using hBody⟩

end Unclosed

end Event

end OnePass

------------------------------------------------------------
-- Words And Stages
------------------------------------------------------------

namespace OnePass

open scoped Computability

namespace Event

open OnePass.Parser (Stage Frame)

variable {τ : Type}

/-
  The events of complete functions and of one more function
  whose body is unfinished.
-/
def InBody
    (frames : List Frame)
    (events : List (Event τ)) : Prop :=
  ∃ functions ∈ (functionWords : Language (Event τ))∗,
    ∃ returns name formals body,
      Unclosed frames body ∧
        events =
          functions ++
            .effect (.functionHeader returns name) ::
              .effect
                (.functionSignature returns name formals) ::
                body

/- What has been announced when a stage is reached. -/
def Announced : Stage → List (Event τ) → Prop
| .outside, events =>
    events ∈ (functionWords : Language (Event τ))∗
| .headed returns name, events =>
    ∃ functions ∈ (functionWords : Language (Event τ))∗,
      events =
        functions ++ [.effect (.functionHeader returns name)]
| .body frames, events => InBody frames events
| .declaring isConst ty name frames, events =>
    ∃ (earlier : List (Event τ))
      (values : List (ValueEvent τ)),
      InBody frames earlier ∧
        events =
          earlier ++
            .effect (.declarationStart isConst ty name) ::
              values.map .value
| .decided frames, events =>
    ∃ earlier condition,
      InBody frames earlier ∧
        events = earlier ++ [.effect (.condition condition)]
| .looping frames, events =>
    ∃ earlier condition,
      InBody frames earlier ∧
        events =
          earlier ++
            [.effect (.condition condition),
              .effect .openLoop]
| .looped frames, events =>
    ∃ earlier,
      InBody (.loop :: frames) earlier ∧
        events = earlier ++ [.effect .closeScope]
| .finished, _ => False

section InBody

variable {frames : List Frame}
variable {events : List (Event τ)}

/- A change of an unfinished body is a change of the run. -/
theorem InBody.map
    (hEvents : InBody frames events)
    {frames' : List Frame}
    {more : List (Event τ)}
    (hMore :
      ∀ {body}, Unclosed frames body →
        Unclosed frames' (body ++ more)) :
    InBody frames' (events ++ more) := by
  rcases hEvents with
    ⟨functions, hFunctions, returns, name, formals, body,
      hBody, hEq⟩
  refine
    ⟨functions, hFunctions, returns, name, formals,
      body ++ more, hMore hBody, ?_⟩
  simp [hEq]

theorem InBody.append
    (hEvents : InBody frames events)
    {more : List (Event τ)}
    (hMore : IsBody more) :
    InBody frames (events ++ more) :=
  hEvents.map fun hBody => hBody.append hMore

end InBody

/- The body of a function starts with nothing open. -/
theorem inBody_signed
    {functions : List (Event τ)}
    (hFunctions :
      functions ∈ (functionWords : Language (Event τ))∗)
    (returns : Ty)
    (name : Identifier)
    (formals : List Formal) :
    InBody []
      (functions ++
        [.effect (.functionHeader returns name)] ++
          [.effect
            (.functionSignature returns name formals)]) := by
  refine
    ⟨functions, hFunctions, returns, name, formals, [],
      .body .nil, ?_⟩
  simp

/- Functions and one more function. -/
theorem append_mem_functionWords
    {functions word : List (Event τ)}
    (hFunctions :
      functions ∈ (functionWords : Language (Event τ))∗)
    (hWord : word ∈ (functionWords : Language (Event τ))) :
    functions ++ word ∈
      (functionWords : Language (Event τ))∗ := by
  rcases Language.mem_kstar.mp hFunctions with
    ⟨words, hEq, hWords⟩
  refine Language.mem_kstar.mpr ⟨words ++ [word], ?_, ?_⟩
  · simp [hEq]
  · intro other hOther
    rcases List.mem_append.mp hOther with hOld | hNew
    · exact hWords other hOld
    · rw [List.mem_singleton.mp hNew]
      exact hWord

/- A body is complete, and with it its function. -/
theorem InBody.functionEnd
    {events : List (Event τ)}
    (hEvents : InBody [] events)
    (span : Span) :
    events ++ [.effect (.functionEnd span)] ∈
      (functionWords : Language (Event τ))∗ := by
  rcases hEvents with
    ⟨functions, hFunctions, returns, name, formals, body,
      hBody, hEq⟩
  cases hBody with
  | body hBody =>
      have hWord :
          .effect (.functionHeader returns name) ::
              .effect
                (.functionSignature returns name formals) ::
                body ++ [.effect (.functionEnd span)] ∈
            (functionWords : Language (Event τ)) :=
        ⟨returns, name, formals, body, span, hBody, rfl⟩
      simpa [hEq] using
        append_mem_functionWords hFunctions hWord

/- An expression is announced where it is allowed. -/
theorem Announced.value
    {stage : Stage}
    {events : List (Event τ)}
    (hEvents : Announced stage events)
    (hValues : stage.AllowsValues)
    (event : ValueEvent τ) :
    Announced stage (events ++ [.value event]) := by
  cases stage with
  | body frames => exact InBody.append hEvents (.value event)
  | declaring isConst ty name frames =>
      rcases hEvents with ⟨earlier, values, hEarlier, hEq⟩
      refine ⟨earlier, values ++ [event], hEarlier, ?_⟩
      simp [hEq]
  | _ => cases hValues

/- An event leads from what was announced at its stage on. -/
theorem Announced.next
    {stage next : Stage}
    {event : EffectEvent τ}
    {events : List (Event τ)}
    (hNext : stage.Next event next)
    (hEvents : Announced stage events) :
    Announced next (events ++ [.effect event]) := by
  cases hNext with
  | functionHeader => exact ⟨events, hEvents, rfl⟩
  | functionSignature _ _ =>
      rcases hEvents with ⟨functions, hFunctions, hEq⟩
      rw [hEq]
      exact inBody_signed hFunctions _ _ _
  | functionEnd => exact InBody.functionEnd hEvents _
  | openScope hRoom =>
      exact InBody.map hEvents fun hBody => hBody.scope .nil
  | openBranch hRoom =>
      rcases hEvents with ⟨earlier, condition, hEarlier, hEq⟩
      rw [hEq, List.append_assoc]
      exact hEarlier.map fun hBody =>
        hBody.branch condition .nil
  | openBody hRoom =>
      rcases hEvents with ⟨earlier, condition, hEarlier, hEq⟩
      rw [hEq, List.append_assoc]
      exact hEarlier.map fun hBody =>
        hBody.loop condition .nil
  | closeScope =>
      exact InBody.map hEvents fun hBody => hBody.closeScope
  | closeBody => exact ⟨events, hEvents, rfl⟩
  | openLoop hRoom =>
      rcases hEvents with ⟨earlier, condition, hEarlier, hEq⟩
      refine ⟨earlier, condition, hEarlier, ?_⟩
      simp [hEq]
  | closeLoop =>
      rcases hEvents with ⟨earlier, hEarlier, hEq⟩
      rw [hEq, List.append_assoc]
      exact hEarlier.map fun hBody => hBody.closeLoop
  | condition => exact ⟨events, _, hEvents, rfl⟩
  | declarationStart =>
      exact ⟨events, [], hEvents, by simp⟩
  | declaration hTy =>
      rcases hEvents with ⟨earlier, values, hEarlier, hEq⟩
      rw [hEq, List.append_assoc]
      exact hEarlier.append
        (.declaration _ _ _ values _ _)
  | assignment => exact InBody.append hEvents (.simple trivial)
  | returnVoid => exact InBody.append hEvents (.simple trivial)
  | returnValue =>
      exact InBody.append hEvents (.simple trivial)
  | breakStatement =>
      exact InBody.append hEvents (.simple trivial)
  | continueStatement =>
      exact InBody.append hEvents (.simple trivial)

end Event

end OnePass

------------------------------------------------------------
-- Beginnings Of Words
------------------------------------------------------------

namespace OnePass

open scoped Computability

namespace Event

open OnePass.Parser (Stage Frame)

variable {τ : Type}
variable {events : List (Event τ)}

/- The events are the beginning of those of a program. -/
def Begins (events : List (Event τ)) : Prop :=
  ∃ word ∈ programWords, events <+: word

theorem Begins.of_append
    {more : List (Event τ)}
    (hBegins : Begins (events ++ more)) :
    Begins events := by
  rcases hBegins with ⟨word, hWord, hPrefix⟩
  exact ⟨word, hWord, (List.prefix_append _ _).trans hPrefix⟩

theorem append_programEnd_mem
    (hEvents :
      events ∈ (functionWords : Language (Event τ))∗) :
    events ++ [.effect .programEnd] ∈ programWords :=
  Language.append_mem_mul hEvents rfl

theorem begins_functions
    (hEvents :
      events ∈ (functionWords : Language (Event τ))∗) :
    Begins events :=
  ⟨_, append_programEnd_mem hEvents, List.prefix_append _ _⟩

/- An unfinished body can be finished, and its function. -/
theorem InBody.begins
    {frames : List Frame}
    (hEvents : InBody frames events) :
    Begins events := by
  have hClosed : ∃ rest, InBody [] (events ++ rest) := by
    rcases hEvents with
      ⟨functions, hFunctions, returns, name, formals, body,
        hBody, hEq⟩
    rcases hBody.exists_body with ⟨rest, hRest⟩
    refine
      ⟨rest, functions, hFunctions, returns, name, formals,
        body ++ rest, .body hRest, ?_⟩
    simp [hEq]
  rcases hClosed with ⟨rest, hRest⟩
  have hFunctions := hRest.functionEnd .blank
  exact (begins_functions hFunctions).of_append.of_append

/- What has been announced at a stage can be completed. -/
theorem Announced.begins
    {stage : Stage}
    (hEvents : Announced stage events) :
    Begins events := by
  cases stage with
  | outside => exact begins_functions hEvents
  | headed returns name =>
      rcases hEvents with ⟨functions, hFunctions, hEq⟩
      have hSigned := inBody_signed hFunctions returns name []
      rw [← hEq] at hSigned
      exact hSigned.begins.of_append
  | body frames => exact InBody.begins hEvents
  | declaring isConst ty name frames =>
      rcases hEvents with ⟨earlier, values, hEarlier, hEq⟩
      have hDeclared :=
        hEarlier.append
          (.declaration isConst ty name values none .blank)
      rw [← List.append_assoc, ← hEq] at hDeclared
      exact hDeclared.begins.of_append
  | decided frames =>
      rcases hEvents with ⟨earlier, condition, hEarlier, hEq⟩
      have hOpened :=
        hEarlier.map fun hBody => hBody.branch condition .nil
      rw [List.append_cons, ← hEq] at hOpened
      exact hOpened.begins.of_append
  | looping frames =>
      rcases hEvents with ⟨earlier, condition, hEarlier, hEq⟩
      have hOpened :=
        hEarlier.map fun hBody => hBody.loop condition .nil
      rw [List.append_cons, List.append_cons,
        List.append_assoc earlier] at hOpened
      rw [hEq]
      exact hOpened.begins.of_append
  | looped frames =>
      rcases hEvents with ⟨earlier, hEarlier, hEq⟩
      have hClosed :=
        hEarlier.map fun hBody => hBody.closeLoop
      rw [List.append_cons, ← hEq] at hClosed
      exact hClosed.begins.of_append
  | finished => cases hEvents

end Event

end OnePass

------------------------------------------------------------
-- No Early End
------------------------------------------------------------

namespace OnePass

open scoped Computability

namespace Event

open OnePass.Parser (Stage Frame)

variable {τ : Type}
variable {events : List (Event τ)}

theorem IsBody.programEnd_notMem
    (hBody : IsBody events) :
    .effect .programEnd ∉ events := by
  induction hBody with
  | nil => simp
  | append _ _ ihFirst ihSecond => simp [ihFirst, ihSecond]
  | value event => simp
  | simple hSimple =>
      intro hMem
      rw [List.mem_singleton, Event.effect.injEq] at hMem
      rw [← hMem] at hSimple
      exact hSimple
  | declaration => simp
  | scope _ ih => simp [ih]
  | branch _ _ ih => simp [ih]
  | loop _ _ ih => simp [ih]

theorem Unclosed.programEnd_notMem
    {frames : List Frame}
    (hEvents : Unclosed frames events) :
    .effect .programEnd ∉ events := by
  rcases hEvents.exists_body with ⟨rest, hBody⟩
  intro hMem
  exact
    hBody.programEnd_notMem (List.mem_append_left rest hMem)

theorem programEnd_notMem_functions
    (hEvents :
      events ∈ (functionWords : Language (Event τ))∗) :
    .effect .programEnd ∉ events := by
  rcases Language.mem_kstar.mp hEvents with
    ⟨words, hEq, hWords⟩
  rw [hEq, List.mem_flatten]
  intro hMem
  rcases hMem with ⟨word, hWord, hEnd⟩
  rcases hWords word hWord with
    ⟨returns, name, formals, body, span, hBody, hFunction⟩
  rw [hFunction] at hEnd
  simp [hBody.programEnd_notMem] at hEnd

theorem InBody.programEnd_notMem
    {frames : List Frame}
    (hEvents : InBody frames events) :
    .effect .programEnd ∉ events := by
  rcases hEvents with
    ⟨functions, hFunctions, returns, name, formals, body,
      hBody, hEq⟩
  have hEarlier := programEnd_notMem_functions hFunctions
  simp [hEq, hEarlier, hBody.programEnd_notMem]

/- The end of the program is announced at no stage before. -/
theorem Announced.programEnd_notMem
    {stage : Stage}
    (hEvents : Announced stage events) :
    .effect .programEnd ∉ events := by
  cases stage with
  | outside => exact programEnd_notMem_functions hEvents
  | headed returns name =>
      rcases hEvents with ⟨functions, hFunctions, hEq⟩
      simp [hEq, programEnd_notMem_functions hFunctions]
  | body frames => exact InBody.programEnd_notMem hEvents
  | declaring isConst ty name frames =>
      rcases hEvents with ⟨earlier, values, hEarlier, hEq⟩
      simp [hEq, hEarlier.programEnd_notMem]
  | decided frames =>
      rcases hEvents with ⟨earlier, condition, hEarlier, hEq⟩
      simp [hEq, hEarlier.programEnd_notMem]
  | looping frames =>
      rcases hEvents with ⟨earlier, condition, hEarlier, hEq⟩
      simp [hEq, hEarlier.programEnd_notMem]
  | looped frames =>
      rcases hEvents with ⟨earlier, hEarlier, hEq⟩
      simp [hEq, hEarlier.programEnd_notMem]
  | finished => cases hEvents

end Event

end OnePass

------------------------------------------------------------
-- Runs
------------------------------------------------------------

namespace OnePass

open OnePass.Parser

variable {σ τ ε α : Type}

/- The events of a run, with the attributes in them. -/
def Transcript.announced
    (transcript : Transcript σ τ ε) : List (Event τ) :=
  transcript.sightings.map (·.event)

/- The events recorded so far. -/
def Watched.announced
    (watched : Watched σ (Sighting σ τ)) :
    List (Event τ) :=
  watched.records.toList.map (·.event)

/-
  The tokens that are unread when a run is over. A run in
  which an event is refused is over at that event.
-/
def Receiver.unread
    (receiver : Receiver σ τ ε)
    (tokens : List Token)
    (start : σ) : List Token :=
  match program receiver.recorded maxNesting
      ⟨tokens, ⟨start, #[]⟩⟩ with
  | .ok _ after => after.rest
  | .error _ after => after.rest

/- The recorded events are those of the stage. -/
def orderCourse :
    Course (Watched σ (Sighting σ τ)) ε where
  At stage watched :=
    Event.Announced stage watched.announced
  Refused _ watched :=
    ∃ stage, Event.Announced stage watched.announced

/- An event is recorded, whether it is accepted or not. -/
theorem orderCourse_leads_watch
    {stage : Stage}
    {event : Event τ}
    {act : EStateM ε σ α}
    {watched : Watched σ (Sighting σ τ)}
    (hEvents :
      Event.Announced stage (watched.announced ++ [event])) :
    (orderCourse : Course _ ε).Leads stage
      (Receiver.watch (fun seen => [seen]) event act
        watched) := by
  cases hAct : act watched.state with
  | ok answer after =>
      rw [Receiver.watch_of_ok hAct]
      simpa [Course.Leads, orderCourse, Watched.announced]
        using hEvents
  | error reason after =>
      rw [Receiver.watch_of_error hAct]
      refine ⟨stage, ?_⟩
      simpa [Watched.announced] using hEvents

theorem keptInside_orderCourse
    (receiver : Receiver σ τ ε) :
    orderCourse.KeptInside receiver.recorded where
  value event hValues hState :=
    orderCourse_leads_watch (hState.value hValues event)
  effect hNext hState :=
    orderCourse_leads_watch (hState.next hNext)

/- The functions of a program are read to the last token. -/
theorem rest_eq_nil_of_steps
    {receiver : Receiver σ τ ε}
    {limit : Nat}
    {answer final : Unit}
    {before after : Cursor σ}
    (hSteps :
      Steps (functionStep receiver limit) answer before final
        after) :
    after.rest = [] := by
  induction hSteps with
  | stop hStep =>
      rcases functionStep_eq_none_iff.mp hStep with
        ⟨hRest, hAfter⟩
      rw [hAfter]
      exact hRest
  | next _ _ ih => exact ih

section Halting

variable {receiver : Receiver σ τ ε}
variable {tokens : List Token}
variable {start : σ}
variable {after : Cursor (Watched σ (Sighting σ τ))}

/- What is seen of a run that comes to its end. -/
theorem transcript_of_program_ok
    (hRun :
      program receiver.recorded maxNesting
          ⟨tokens, ⟨start, #[]⟩⟩ =
        .ok () after) :
    (receiver.transcript tokens start).announced =
        after.state.announced ∧
      receiver.unread tokens start = after.rest := by
  unfold Receiver.transcript Receiver.unread parse
  rw [hRun]
  exact ⟨rfl, rfl⟩

/- What is seen of a run that halts. -/
theorem transcript_of_program_error
    {halt : Halt ε}
    (hRun :
      program receiver.recorded maxNesting
          ⟨tokens, ⟨start, #[]⟩⟩ =
        .error halt after) :
    (receiver.transcript tokens start).announced =
        after.state.announced ∧
      (receiver.transcript tokens start).result ≠ .ok () ∧
        receiver.unread tokens start = after.rest := by
  unfold Receiver.transcript Receiver.unread parse
  rw [hRun]
  cases halt with
  | stuck obstacle => exact ⟨rfl, by simp, rfl⟩
  | refused reason => exact ⟨rfl, by simp, rfl⟩

/-
  After the functions of a program, its end is announced and
  nothing more is read, whether the end is accepted or not.
-/
theorem transcript_of_functions
    {between : Cursor (Watched σ (Sighting σ τ))}
    (hRun :
      iterate (functionStep receiver.recorded maxNesting) ()
          ⟨tokens, ⟨start, #[]⟩⟩ =
        .ok () between) :
    (receiver.transcript tokens start).announced =
        between.state.announced ++ [.effect .programEnd] ∧
      receiver.unread tokens start = between.rest := by
  have hProgram :
      program receiver.recorded maxNesting
          ⟨tokens, ⟨start, #[]⟩⟩ =
        effect receiver.recorded .programEnd between :=
    bind_of_ok hRun
  unfold effect announce at hProgram
  rw [Receiver.recorded_effect] at hProgram
  cases hAct :
      receiver.effect .programEnd between.state.state with
  | ok answer final =>
      rw [Receiver.watch_of_ok hAct] at hProgram
      rcases transcript_of_program_ok hProgram with
        ⟨hAnnounced, hUnread⟩
      refine ⟨hAnnounced.trans ?_, hUnread⟩
      simp [Watched.announced]
  | error reason final =>
      rw [Receiver.watch_of_error hAct] at hProgram
      rcases transcript_of_program_error hProgram with
        ⟨hAnnounced, -, hUnread⟩
      refine ⟨hAnnounced.trans ?_, hUnread⟩
      simp [Watched.announced]

end Halting

/-
  The events of a run are the beginning of a word, and a
  whole word if the run succeeds. The end of the program is
  announced only when no token is left.
-/
theorem transcript_spells_word
    (receiver : Receiver σ τ ε)
    (tokens : List Token)
    (start : σ) :
    let run := receiver.transcript tokens start
    (∃ word ∈ Event.programWords, run.announced <+: word) ∧
      (run.result = .ok () →
        run.announced ∈ Event.programWords) ∧
      (.effect .programEnd ∈ run.announced →
        receiver.unread tokens start = []) := by
  intro run
  have hStart :
      (orderCourse : Course _ ε).At .outside
        (⟨start, #[]⟩ : Watched σ (Sighting σ τ)) :=
    Language.nil_mem_kstar _
  have hFunctions :=
    Course.follows_functions
      (keptInside_orderCourse receiver)
      ⟨tokens, ⟨start, #[]⟩⟩ hStart
  cases hRun :
      iterate (functionStep receiver.recorded maxNesting) ()
        ⟨tokens, ⟨start, #[]⟩⟩ with
  | ok answer between =>
      rw [hRun] at hFunctions
      have hWord := Event.append_programEnd_mem hFunctions
      rcases transcript_of_functions hRun with
        ⟨hAnnounced, hUnread⟩
      change run.announced = _ at hAnnounced
      rw [hAnnounced, hUnread]
      refine ⟨⟨_, hWord, List.prefix_rfl⟩, ?_, ?_⟩
      · intro _
        exact hWord
      · intro _
        exact
          rest_eq_nil_of_steps
            ((iterate_eq_ok_iff progresses_functionStep).mp
              hRun)
  | error halt after =>
      -- No function announces the end of the program, so it
      -- is missing from a run that halts inside one.
      rw [hRun] at hFunctions
      have hStage :
          ∃ stage,
            Event.Announced stage after.state.announced := by
        cases halt with
        | stuck obstacle => exact hFunctions
        | refused reason => exact hFunctions
      rcases hStage with ⟨stage, hEvents⟩
      rcases transcript_of_program_error (bind_of_error hRun)
        with ⟨hAnnounced, hResult, -⟩
      change run.announced = _ at hAnnounced
      rw [hAnnounced]
      refine ⟨hEvents.begins, ?_, ?_⟩
      · intro hOk
        exact absurd hOk hResult
      · intro hEnd
        exact absurd hEnd hEvents.programEnd_notMem

end OnePass
