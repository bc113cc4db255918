import Mathlib.Data.List.Nodup
import OnePass.Proofs.Analysis.Movement
import OnePass.Proofs.Parser.EventOrder
import OnePass.Proofs.Symbols.Functions

/-
  What holds of the analysis state at every event of a run.

  The outer scope stays empty, all visible variables have
  different names and storable types, and the functions are
  those of the library and the declared ones. How many
  scopes and loops are open, and which function is at hand,
  follows from the events accepted so far: outside of a body
  nothing is open, and inside of one the scopes and loops
  that were opened and not closed since its signature.

  Main declarations:
    * `Symbols.Tidy`
    * `Analysis.Upright`, `Analysis.Upright.step`
    * `Analysis.Tracks`, `Analysis.Tracks.next`
    * `Analysis.Invariant`
    * `invariant_at_every_event`
-/

------------------------------------------------------------
-- Tidy Tables
------------------------------------------------------------

namespace OnePass

/- A declared function has the types that can be written. -/
structure Signature.Writable
    (signature : Signature) : Prop where
  parameters : ∀ ty ∈ signature.parameters, ty.Storable
  returns : signature.returns ≠ .string

namespace Symbols

/- What no event of a run ever breaks. -/
structure Tidy (table : Symbols) : Prop where
  outer : table.outer = []
  distinct : (table.visible.map Binding.name).Nodup
  storable : ∀ binding ∈ table.visible, binding.ty.Storable
  functions : table.functions.OverLibrary
  indexed : table.functions.Indexed
  writable :
    ∀ signature ∈ table.functions.declared,
      signature.Writable

namespace Tidy

variable {table : Symbols}
variable (hTidy : table.Tidy)

theorem initial : Symbols.initial.Tidy where
  outer := rfl
  distinct := List.nodup_nil
  storable := by simp [Symbols.initial, visible]
  functions := Functions.overLibrary_appendAll []
  indexed := Functions.indexed_withLibrary
  writable := by
    intro signature hSignature
    cases hSignature

include hTidy

theorem openScope : table.openScope.Tidy :=
  { hTidy with }

/- Closing a scope forgets variables and nothing else. -/
theorem closeScope
    {scope : Scope}
    {blocks : List Scope}
    (hBlocks : table.blocks = scope :: blocks) :
    Tidy { table with blocks } := by
  have hVisible :
      table.visible =
        scope ++ visible { table with blocks } := by
    simp [visible, hBlocks]
  have hDistinct := hTidy.distinct
  have hStorable := hTidy.storable
  rw [hVisible] at hDistinct hStorable
  rw [List.map_append] at hDistinct
  refine
    { hTidy with
      distinct := hDistinct.of_append_right
      storable := ?_ }
  intro binding hBinding
  exact hStorable binding (List.mem_append_right _ hBinding)

theorem leave : table.leave.Tidy :=
  { hTidy with }

/- A variable with a free name and a storable type. -/
theorem bind
    (hDepth : 0 < table.depth)
    {binding : Binding}
    (hFree : table.isFree binding.name = true)
    (hTy : binding.ty.Storable) :
    (table.bind binding).Tidy where
  outer := by rw [outer_bind hDepth, hTidy.outer]
  distinct := by
    rw [visible_bind, List.map_cons, List.nodup_cons]
    refine ⟨?_, hTidy.distinct⟩
    intro hTaken
    rcases List.mem_map.mp hTaken with ⟨other, hOther, hName⟩
    exact isFree_iff.mp hFree other hOther hName
  storable := by
    rw [visible_bind]
    exact List.forall_mem_cons.mpr ⟨hTy, hTidy.storable⟩
  functions := by
    rw [functions_bind]
    exact hTidy.functions
  indexed := by
    rw [functions_bind]
    exact hTidy.indexed
  writable := by
    rw [functions_bind]
    exact hTidy.writable

/- A function with fitting formals is entered. -/
theorem inside
    {returns : Ty}
    {name : Identifier}
    {formals : List Formal}
    (hNew : table.isFunction name.name = false)
    (hFit : Analysis.FormalsFit table name formals)
    (hReturns : returns ≠ .string)
    (hFormals : ∀ formal ∈ formals, formal.ty.Storable) :
    (table.inside (Analysis.signatureOf returns name formals)
      formals).Tidy where
  outer := by rw [outer_inside, hTidy.outer]
  distinct := by
    have hNames :
        ((formals.map Formal.binding).map
            Binding.name).Nodup := by
      rw [List.map_map]
      exact hFit.1
    rw [visible_inside, List.map_append, List.map_reverse]
    refine
      List.nodup_append'.mpr
        ⟨List.nodup_reverse.mpr hNames, hTidy.distinct, ?_⟩
    intro used hUsed hTaken
    rw [List.mem_reverse, List.map_map] at hUsed
    rcases List.mem_map.mp hUsed with
      ⟨formal, hFormal, hName⟩
    rcases List.mem_map.mp hTaken with
      ⟨other, hOther, hOtherName⟩
    have hFree :=
      isFree_iff.mp (hFit.2 formal hFormal).2 other hOther
    exact hFree (hOtherName.trans hName.symm)
  storable := by
    rw [visible_inside]
    intro binding hBinding
    rcases List.mem_append.mp hBinding with hNew | hOld
    · rw [List.mem_reverse] at hNew
      rcases List.mem_map.mp hNew with
        ⟨formal, hFormal, hEq⟩
      rw [← hEq]
      exact hFormals formal hFormal
    · exact hTidy.storable binding hOld
  functions := by
    rw [functions_inside]
    exact hTidy.functions.append _
  indexed := by
    rw [functions_inside]
    exact Functions.indexed_append hTidy.indexed hNew
  writable := by
    rw [functions_inside, hTidy.functions.declared_append]
    intro signature hSignature
    rcases List.mem_append.mp hSignature with hOld | hNew
    · exact hTidy.writable signature hOld
    · rw [List.mem_singleton.mp hNew]
      refine ⟨?_, hReturns⟩
      intro ty hTy
      rcases List.mem_map.mp hTy with ⟨formal, hFormal, hEq⟩
      rw [← hEq]
      exact hFormals formal hFormal

end Tidy

end Symbols

end OnePass

------------------------------------------------------------
-- Upright States
------------------------------------------------------------

namespace OnePass

namespace Parser

namespace Stage

/- The open scopes of a stage are within the nesting limit. -/
def HasRoom : Stage → Prop
| body frames | declaring _ _ _ frames | decided frames =>
    frames.length ≤ maxNesting
| looping frames | looped frames =>
    frames.length < maxNesting
| outside | headed _ _ | finished => True

variable {stage next : Stage}

theorem HasRoom.of_next
    {τ : Type}
    {event : EffectEvent τ}
    (hRoom : stage.HasRoom)
    (hNext : stage.Next event next) :
    next.HasRoom := by
  cases hNext with
  | functionHeader => exact trivial
  | functionSignature _ _ => exact Nat.zero_le _
  | functionEnd => exact trivial
  | openScope hFits => exact hFits
  | openBranch hFits => exact hFits
  | openBody hFits => exact hFits
  | closeScope => exact Nat.le_of_lt hRoom
  | closeBody => exact hRoom
  | openLoop hFits => exact hFits
  | closeLoop => exact Nat.le_of_lt hRoom
  | condition => exact hRoom
  | declarationStart => exact hRoom
  | declaration hTy => exact hRoom
  | assignment => exact hRoom
  | returnVoid => exact hRoom
  | returnValue => exact hRoom
  | breakStatement => exact hRoom
  | continueStatement => exact hRoom

/- Every open loop has a scope, or is about to have one. -/
theorem loops_le_scopes : stage.loops ≤ stage.scopes := by
  have hCount :
      ∀ frames : List Frame,
        frames.count .loop ≤ frames.length :=
    fun _ => List.count_le_length
  cases stage with
  | body frames => exact Nat.le_succ_of_le (hCount frames)
  | declaring isConst ty name frames =>
      exact Nat.le_succ_of_le (hCount frames)
  | decided frames => exact Nat.le_succ_of_le (hCount frames)
  | looping frames => exact Nat.succ_le_succ (hCount frames)
  | looped frames => exact Nat.succ_le_succ (hCount frames)
  | outside => exact Nat.le_refl 0
  | headed returns name => exact Nat.le_refl 0
  | finished => exact Nat.le_refl 0

theorem HasRoom.scopes_le
    (hRoom : stage.HasRoom) :
    stage.scopes ≤ maxNesting + 1 := by
  cases stage with
  | outside => exact Nat.zero_le _
  | headed returns name => exact Nat.zero_le _
  | finished => exact Nat.zero_le _
  | body frames => exact Nat.succ_le_succ hRoom
  | declaring isConst ty name frames =>
      exact Nat.succ_le_succ hRoom
  | decided frames => exact Nat.succ_le_succ hRoom
  | looping frames => exact Nat.le_succ_of_le hRoom
  | looped frames => exact Nat.le_succ_of_le hRoom

theorem HasRoom.loops_le
    (hRoom : stage.HasRoom) :
    stage.loops ≤ maxNesting := by
  have hCount :
      ∀ frames : List Frame,
        frames.count .loop ≤ frames.length :=
    fun _ => List.count_le_length
  cases stage with
  | outside => exact Nat.zero_le _
  | headed returns name => exact Nat.zero_le _
  | finished => exact Nat.zero_le _
  | body frames => exact (hCount frames).trans hRoom
  | declaring isConst ty name frames =>
      exact (hCount frames).trans hRoom
  | decided frames => exact (hCount frames).trans hRoom
  | looping frames =>
      exact (Nat.succ_le_succ (hCount frames)).trans hRoom
  | looped frames =>
      exact (Nat.succ_le_succ (hCount frames)).trans hRoom

end Stage

end Parser

namespace Analysis

open OnePass.Parser (Stage Frame)

/-
  The function at hand: none where no scope is open, and the
  function declared last where one is.
-/
def AtHand : Nat → State → Prop
| 0, state => state.current? = none
| _ + 1, state =>
    ∃ signature,
      state.current? = some signature ∧
        state.declared.getLast? = some signature

/- The state is as the stage says, and tidy. -/
structure Upright
    (stage : Stage)
    (state : State) : Prop where
  inStep : InStep stage state
  tidy : state.symbols.Tidy
  room : stage.HasRoom
  atHand : AtHand stage.scopes state

theorem upright_initial : Upright .outside .initial where
  inStep := inStep_initial
  tidy := .initial
  room := trivial
  atHand := rfl

section Upright

variable {stage next : Stage}
variable {state after : State}
variable {event : EffectEvent Ty}

/- What an event of a function does to a tidy table. -/
theorem Upright.tidy_step
    (hState : Upright stage state)
    (hNext : stage.Next event next)
    (hMoves : Moves state event after) :
    after.symbols.Tidy := by
  have hTidy := hState.tidy
  cases hMoves with
  | check hCheck => exact hTidy
  | functionSignature hNew hFit =>
      cases hNext with
      | functionSignature hReturns hFormals =>
          exact hTidy.inside hNew hFit hReturns hFormals
  | functionEnd hBlocks =>
      exact (hTidy.closeScope hBlocks).leave
  | openScope => exact hTidy.openScope
  | closeScope hBlocks => exact hTidy.closeScope hBlocks
  | openLoop => exact hTidy
  | closeLoop hLoops => exact hTidy
  | declaration hFree =>
      cases hNext with
      | declaration hTy =>
          have hDepth : 0 < state.symbols.depth := by
            have hScopes := hState.inStep.depth
            change state.symbols.depth = _ + 1 at hScopes
            omega
          exact hTidy.bind hDepth hFree hTy

/- What an event of a function does to the one at hand. -/
theorem Upright.atHand_step
    (hState : Upright stage state)
    (hNext : stage.Next event next)
    (hMoves : Moves state event after) :
    AtHand next.scopes after := by
  have hHand := hState.atHand
  cases hMoves with
  | functionSignature hNew hFit =>
      cases hNext with
      | functionSignature hReturns hFormals =>
          refine ⟨_, Symbols.current?_inside _ _ _, ?_⟩
          unfold State.declared
          rw [Symbols.functions_inside,
            hState.tidy.functions.declared_append]
          simp
  | functionEnd hBlocks =>
      cases hNext with
      | functionEnd => rfl
  | declaration hFree =>
      cases hNext with
      | declaration hTy =>
          rcases hHand with ⟨signature, hCurrent, hLast⟩
          refine ⟨signature, ?_, ?_⟩
          · unfold State.current?
            rw [Symbols.current?_bind]
            exact hCurrent
          · unfold State.declared
            rw [Symbols.functions_bind]
            exact hLast
  | check hCheck =>
      cases hNext with
      | functionHeader => exact hHand
      | condition => exact hHand
      | declarationStart => exact hHand
      | assignment => exact hHand
      | returnVoid => exact hHand
      | returnValue => exact hHand
      | breakStatement => exact hHand
      | continueStatement => exact hHand
      | _ => cases hCheck
  | openScope =>
      cases hNext with
      | openScope hRoom => exact hHand
      | openBranch hRoom => exact hHand
      | openBody hRoom => exact hHand
  | closeScope hBlocks =>
      cases hNext with
      | closeScope => exact hHand
      | closeBody => exact hHand
  | openLoop =>
      cases hNext with
      | openLoop hRoom => exact hHand
  | closeLoop hLoops =>
      cases hNext with
      | closeLoop => exact hHand

/- An upright state stays upright. -/
theorem Upright.step
    (hState : Upright stage state)
    (hNext : stage.Next event next)
    (hStep : step state event = .ok after) :
    Upright next after where
  inStep := (lands_step hNext hState.inStep).2 after hStep
  tidy := hState.tidy_step hNext (moves_of_step hStep)
  room := Stage.HasRoom.of_next hState.room hNext
  atHand := hState.atHand_step hNext (moves_of_step hStep)

theorem Upright.programEnd
    (hState : Upright .outside state)
    (hStep : Analysis.step state .programEnd = .ok after) :
    Upright .finished after := by
  have hSame : after = state := eq_of_check hStep
  rw [hSame]
  exact
    { inStep := hState.inStep.finished
      tidy := hState.tidy
      room := trivial
      atHand := hState.atHand }

end Upright

end Analysis

end OnePass

------------------------------------------------------------
-- Open Scopes And Loops
------------------------------------------------------------

namespace OnePass

namespace Event

variable {τ : Type}

/- What one event does to the events of the open body. -/
def extendBody
    (body? : Option (List (Event τ))) :
    Event τ → Option (List (Event τ))
| .effect (.functionSignature _ _ _) => some []
| .effect (.functionEnd _) => none
| event => body?.map (· ++ [event])

/-
  The events since the signature of the function whose body
  is open, if one is.
-/
def openBody?
    (events : List (Event τ)) : Option (List (Event τ)) :=
  events.foldl extendBody none

@[simp] theorem openBody?_concat
    (events : List (Event τ))
    (event : Event τ) :
    openBody? (events ++ [event]) =
      extendBody (openBody? events) event :=
  List.foldl_append

/- The event neither starts nor ends a body. -/
def StaysInside : Event τ → Prop
| .effect (.functionSignature _ _ _) => False
| .effect (.functionEnd _) => False
| _ => True

theorem extendBody_of_staysInside
    (body? : Option (List (Event τ)))
    {event : Event τ}
    (hInside : event.StaysInside) :
    extendBody body? event = body?.map (· ++ [event]) := by
  unfold extendBody
  split
  · cases hInside
  · cases hInside
  · rfl

end Event

namespace Analysis

open OnePass.Parser (Stage Frame)

/-
  The stage has as many open scopes and loops as the events
  have left open.
-/
def Tracks
    (stage : Stage)
    (events : List (Event Ty)) : Prop :=
  match Event.openBody? events with
  | none => stage.scopes = 0
  | some body =>
      0 < stage.scopes ∧
        stage.scopes + body.count (.effect .closeScope) =
            1 + body.count (.effect .openScope) ∧
          stage.loops + body.count (.effect .closeLoop) =
            body.count (.effect .openLoop)

/- An event inside a body, or outside of all of them. -/
theorem Tracks.concat
    {stage next : Stage}
    {events : List (Event Ty)}
    {event : Event Ty}
    (hTracks : Tracks stage events)
    (hInside : event.StaysInside)
    (hOutside : stage.scopes = 0 ↔ next.scopes = 0)
    (hScopes :
      next.scopes + [event].count (.effect .closeScope) =
        stage.scopes + [event].count (.effect .openScope))
    (hLoops :
      next.loops + [event].count (.effect .closeLoop) =
        stage.loops + [event].count (.effect .openLoop)) :
    Tracks next (events ++ [event]) := by
  unfold Tracks at hTracks ⊢
  rw [Event.openBody?_concat,
    Event.extendBody_of_staysInside _ hInside]
  cases hBody : Event.openBody? events with
  | none =>
      rw [hBody] at hTracks
      exact hOutside.mp hTracks
  | some body =>
      rw [hBody] at hTracks
      simp only [Option.map_some, List.count_append]
      simp only at hTracks
      omega

theorem Tracks.value
    {stage : Stage}
    {events : List (Event Ty)}
    (hTracks : Tracks stage events)
    (event : ValueEvent Ty) :
    Tracks stage (events ++ [.value event]) :=
  hTracks.concat trivial Iff.rfl (by simp) (by simp)

theorem Tracks.next
    {stage next : Stage}
    {events : List (Event Ty)}
    {event : EffectEvent Ty}
    (hTracks : Tracks stage events)
    (hNext : stage.Next event next) :
    Tracks next (events ++ [.effect event]) := by
  cases hNext with
  | functionSignature _ _ =>
      unfold Tracks
      rw [Event.openBody?_concat]
      simp [Event.extendBody, Stage.scopes, Stage.loops]
  | functionEnd =>
      unfold Tracks
      rw [Event.openBody?_concat]
      simp [Event.extendBody, Stage.scopes]
  | functionHeader =>
      exact hTracks.concat trivial Iff.rfl rfl rfl
  | openScope hRoom =>
      exact
        hTracks.concat trivial (by simp [Stage.scopes]) rfl
          (by simp [Stage.loops])
  | openBranch hRoom =>
      exact
        hTracks.concat trivial (by simp [Stage.scopes]) rfl
          (by simp [Stage.loops])
  | openBody hRoom =>
      exact
        hTracks.concat trivial (by simp [Stage.scopes]) rfl
          (by simp [Stage.loops])
  | closeScope =>
      exact
        hTracks.concat trivial (by simp [Stage.scopes]) rfl
          (by simp [Stage.loops])
  | closeBody =>
      exact
        hTracks.concat trivial (by simp [Stage.scopes]) rfl
          (by simp [Stage.loops])
  | openLoop hRoom =>
      exact hTracks.concat trivial Iff.rfl rfl rfl
  | closeLoop => exact hTracks.concat trivial Iff.rfl rfl rfl
  | condition => exact hTracks.concat trivial Iff.rfl rfl rfl
  | declarationStart =>
      exact hTracks.concat trivial Iff.rfl rfl rfl
  | declaration hTy =>
      exact hTracks.concat trivial Iff.rfl rfl rfl
  | assignment => exact hTracks.concat trivial Iff.rfl rfl rfl
  | returnVoid => exact hTracks.concat trivial Iff.rfl rfl rfl
  | returnValue =>
      exact hTracks.concat trivial Iff.rfl rfl rfl
  | breakStatement =>
      exact hTracks.concat trivial Iff.rfl rfl rfl
  | continueStatement =>
      exact hTracks.concat trivial Iff.rfl rfl rfl

end Analysis

end OnePass

------------------------------------------------------------
-- The Invariant
------------------------------------------------------------

namespace OnePass

namespace Analysis

open OnePass.Parser (Stage Frame maxNesting)

/-
  The state inside a body of which these events have been
  accepted. A scope is opened for a block, for a branch and
  for the body of a loop.
-/
structure InsideBody
    (body : List (Event Ty))
    (state : State) : Prop where
  depth :
    state.depth + body.count (.effect .closeScope) =
      1 + body.count (.effect .openScope)
  loops :
    state.loops + body.count (.effect .closeLoop) =
      body.count (.effect .openLoop)
  current :
    ∃ signature,
      state.current? = some signature ∧
        state.declared.getLast? = some signature
  loops_le_depth : state.loops ≤ state.depth
  depth_le : state.depth ≤ maxNesting + 1
  loops_le : state.loops ≤ maxNesting

/- The state outside of all bodies. -/
structure OutsideBodies (state : State) : Prop where
  depth : state.depth = 0
  loops : state.loops = 0
  current : state.current? = none

/- What holds of the state once these events are accepted. -/
structure Invariant
    (events : List (Event Ty))
    (state : State) : Prop where
  outer : state.symbols.outer = []
  distinct : (state.symbols.visible.map Binding.name).Nodup
  place :
    match Event.openBody? events with
    | none => OutsideBodies state
    | some body => InsideBody body state
  storable :
    ∀ binding ∈ state.symbols.visible, binding.ty.Storable
  writable :
    ∀ signature ∈ state.declared, signature.Writable

/- An upright state, and the events that led to its stage. -/
theorem Upright.invariant
    {stage : Stage}
    {state : State}
    {events : List (Event Ty)}
    (hState : Upright stage state)
    (hTracks : Tracks stage events) :
    Invariant events state where
  outer := hState.tidy.outer
  distinct := hState.tidy.distinct
  storable := hState.tidy.storable
  writable := hState.tidy.writable
  place := by
    have hDepth := hState.inStep.depth
    have hLoops := hState.inStep.loops
    have hHand := hState.atHand
    have hLess : stage.loops ≤ stage.scopes :=
      Stage.loops_le_scopes
    unfold Tracks at hTracks
    cases hBody : Event.openBody? events with
    | none =>
        simp only [hBody] at hTracks ⊢
        rw [hTracks] at hHand
        refine ⟨by omega, by omega, hHand⟩
    | some body =>
        simp only [hBody] at hTracks ⊢
        rcases hTracks with ⟨hOpen, hScopes, hBodies⟩
        rcases Nat.exists_eq_add_one.mpr hOpen with
          ⟨scopes, hSucc⟩
        rw [hSucc] at hHand
        have hMost := Stage.HasRoom.scopes_le hState.room
        have hMostLoops := Stage.HasRoom.loops_le hState.room
        exact
          { depth := by omega
            loops := by omega
            current := hHand
            loops_le_depth := by omega
            depth_le := by omega
            loops_le := by omega }

end Analysis

end OnePass

------------------------------------------------------------
-- Every Event Of A Run
------------------------------------------------------------

namespace OnePass

section Sightings

variable {σ τ : Type}

/- The events that were accepted, in order. -/
def acceptedEvents
    (sightings : List (Sighting σ τ)) : List (Event τ) :=
  (sightings.filter (·.accepted)).map (·.event)

/-
  What holds of the accepted events and the state, before
  and after every event that was seen.
-/
def AtEveryEvent
    (Holds : List (Event τ) → σ → Prop)
    (sightings : List (Sighting σ τ)) : Prop :=
  ∀ earlier sighting later,
    sightings = earlier ++ sighting :: later →
      Holds (acceptedEvents earlier) sighting.before ∧
        Holds (acceptedEvents (earlier ++ [sighting]))
          sighting.after

variable {sightings : List (Sighting σ τ)}

theorem AtEveryEvent.concat
    {Holds : List (Event τ) → σ → Prop}
    (hAll : AtEveryEvent Holds sightings)
    {last : Sighting σ τ}
    (hBefore : Holds (acceptedEvents sightings) last.before)
    (hAfter :
      Holds (acceptedEvents (sightings ++ [last]))
        last.after) :
    AtEveryEvent Holds (sightings ++ [last]) := by
  intro earlier sighting later hSplit
  rcases List.eq_nil_or_concat later with
    hNone | ⟨between, final, hLater⟩
  · rw [hNone] at hSplit
    rcases List.append_inj' hSplit rfl with
      ⟨hEarlier, hLast⟩
    rw [← hEarlier, ← List.singleton_injective hLast]
    exact ⟨hBefore, hAfter⟩
  · have hShorter :
        sightings ++ [last] =
          (earlier ++ sighting :: between) ++ [final] := by
      rw [hSplit, hLater]
      simp
    exact
      hAll earlier sighting between
        (List.append_inj' hShorter rfl).1

@[simp] theorem acceptedEvents_concat
    (sighting : Sighting σ τ) :
    acceptedEvents (sightings ++ [sighting]) =
      if sighting.accepted then
        acceptedEvents sightings ++ [sighting.event]
      else
        acceptedEvents sightings := by
  unfold acceptedEvents
  by_cases hAccepted : sighting.accepted = true
  · simp [hAccepted]
  · simp [hAccepted]

end Sightings

namespace Analysis

open OnePass.Parser (Stage Course)

/- An event that is refused leaves the state as it was. -/
theorem eq_of_receiver_value_error
    {event : ValueEvent Ty}
    {before after : State}
    {stop : Stop}
    (hError :
      receiver.value event before = .error stop after) :
    after = before := by
  unfold receiver at hError
  cases hType : valueType before.symbols event with
  | ok ty => simp [hType] at hError
  | error reason =>
      simp only [hType] at hError
      cases hError
      rfl

theorem eq_of_receiver_effect_error
    {event : EffectEvent Ty}
    {before after : State}
    {stop : Stop}
    (hError :
      receiver.effect event before = .error stop after) :
    after = before := by
  unfold receiver at hError
  cases hStep : step before event with
  | ok next => simp [hStep] at hError
  | error reason =>
      simp only [hStep] at hError
      cases hError
      rfl

/- The invariant so far, and what keeps it from here on. -/
def invariantCourse :
    Course (Watched State (Sighting State Ty)) Stop where
  At stage watched :=
    Upright stage watched.state ∧
      Tracks stage (acceptedEvents watched.records.toList) ∧
        AtEveryEvent Invariant watched.records.toList
  Refused _ watched :=
    AtEveryEvent Invariant watched.records.toList

/- An event is seen, and keeps the invariant either way. -/
theorem invariantCourse_leads
    {α : Type}
    {stage next : Stage}
    {event : Event Ty}
    {act : EStateM Stop State α}
    {watched : Watched State (Sighting State Ty)}
    (hAt : invariantCourse.At stage watched)
    (hTracks :
      Tracks next
        (acceptedEvents watched.records.toList ++ [event]))
    (hOk :
      ∀ {answer after},
        act watched.state = .ok answer after →
          Upright next after)
    (hError :
      ∀ {stop after},
        act watched.state = .error stop after →
          after = watched.state) :
    invariantCourse.Leads next
      (Receiver.watch (fun seen => [seen]) event act
        watched) := by
  rcases hAt with ⟨hState, hNow, hAll⟩
  have hBefore := hState.invariant hNow
  cases hAct : act watched.state with
  | ok answer after =>
      have hUpright := hOk hAct
      rw [Receiver.watch_of_ok hAct]
      refine ⟨hUpright, ?_, ?_⟩
      · simpa using hTracks
      · rw [Array.toList_appendList]
        refine hAll.concat hBefore ?_
        rw [acceptedEvents_concat]
        exact hUpright.invariant hTracks
  | error stop after =>
      have hSame := hError hAct
      rw [Receiver.watch_of_error hAct, hSame]
      change AtEveryEvent _ _
      rw [Array.toList_appendList]
      refine hAll.concat hBefore ?_
      rw [acceptedEvents_concat]
      exact hBefore

theorem keptBy_invariantCourse :
    invariantCourse.KeptBy receiver.recorded where
  value event hValues hAt := by
    rw [Receiver.recorded_value]
    refine
      invariantCourse_leads hAt (hAt.2.1.value event) ?_
        eq_of_receiver_value_error
    intro ty after hOk
    rw [← (receiver_value_eq_ok_iff.mp hOk).2]
    exact hAt.1
  effect hNext hAt := by
    rw [Receiver.recorded_effect]
    refine
      invariantCourse_leads hAt (hAt.2.1.next hNext) ?_
        eq_of_receiver_effect_error
    intro answer after hOk
    exact
      hAt.1.step hNext (receiver_effect_eq_ok_iff.mp hOk)
  programEnd hAt := by
    rw [Receiver.recorded_effect]
    refine
      invariantCourse_leads hAt
        (hAt.2.1.concat trivial Iff.rfl rfl rfl) ?_
        eq_of_receiver_effect_error
    intro answer after hOk
    exact
      hAt.1.programEnd (receiver_effect_eq_ok_iff.mp hOk)

end Analysis

/-
  At every event of every run, accepted or not, the state of
  the analysis is as the events accepted so far say.
-/
theorem invariant_at_every_event
    (tokens : List Token) :
    AtEveryEvent Analysis.Invariant
      (Analysis.receiver.transcript tokens
        .initial).sightings := by
  have hStart :
      Analysis.invariantCourse.At .outside
        ⟨.initial, #[]⟩ := by
    refine ⟨Analysis.upright_initial, rfl, ?_⟩
    intro earlier sighting later hSplit
    simp at hSplit
  have hConcludes :=
    concludes_parse Analysis.keptBy_invariantCourse tokens
      hStart
  unfold Receiver.transcript
  cases hRun :
      parse Analysis.receiver.recorded tokens
        ⟨.initial, #[]⟩ with
  | mk result final =>
      rw [hRun] at hConcludes
      cases result with
      | ok answer => exact hConcludes.2.2
      | error failure =>
          cases failure with
          | misfit misfit =>
              rcases hConcludes with ⟨stage, hAt⟩
              exact hAt.2.2
          | refused stop => exact hConcludes

end OnePass
