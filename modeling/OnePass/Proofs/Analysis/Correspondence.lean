import OnePass.Analysis.Run
import OnePass.Proofs.Grammar.Boundary
import OnePass.Proofs.Parser.Lockstep
import OnePass.Proofs.Symbols.Renaming

/-
  Programs that differ in names and places only.

  Two programs correspond if their tokens are of the same
  kinds, the names of one are those of the other under a
  renaming, and the places in them are related. The texts of
  all other tokens may differ, but for the digits of bytes.
  Analyses of the two go on side by side: the states differ
  in the names only, and both programs are accepted, or
  both are refused for the same cause at related places.

  Key definitions include:
    * `Analysis.Correspondence`
    * `Analysis.Correspondence.Tokens`
    * `Analysis.Correspondence.Stops`

  Main declarations:
    * `Analysis.Correspondence.concur_valueType`
    * `Analysis.Correspondence.concur_step`
    * `Analysis.Correspondence.concur_analyze`
-/

------------------------------------------------------------
-- Corresponding Programs
------------------------------------------------------------

namespace OnePass

/- What is wrong, with the new name in it. -/
def Cause.rename
    (names : Renaming) : Cause → Cause
| undefinedVariable name =>
    .undefinedVariable (names.apply name)
| undefinedFunction name =>
    .undefinedFunction (names.apply name)
| redefinition name => .redefinition (names.apply name)
| prototypeMismatch name expected =>
    .prototypeMismatch (names.apply name) expected
| constReassignment name =>
    .constReassignment (names.apply name)
| constWithoutInitializer name =>
    .constWithoutInitializer (names.apply name)
| lexical => .lexical
| malformed => .malformed
| typeMismatch => .typeMismatch
| byteOutOfRange literal => .byteOutOfRange literal
| unexpectedBreak => .unexpectedBreak
| unexpectedContinue => .unexpectedContinue

namespace Analysis

open Grammar (headKind)

/-
  New names, and how places are related. The relation covers
  the places that are made up from others: the extent of two
  parts, and the end of the input.
-/
structure Correspondence extends Renaming where
  Place : Span → Span → Prop
  cover :
    ∀ {left right left' right' : Span},
      Place left right →
        Place left' right' →
          Place (left.cover left') (right.cover right')
  afterLast :
    ∀ {left right : Span},
      Place left right →
        Place ⟨left.stop, left.stop, left.line⟩
          ⟨right.stop, right.stop, right.line⟩
  noToken : Place ⟨0, 0, 1⟩ ⟨0, 0, 1⟩

namespace Correspondence

variable (same : Correspondence)

/-
  Tokens of the same kinds at related places. Names are
  renamed, and the digits of bytes are the same.
-/
inductive Tokens : List Token → List Token → Prop where
  | nil : Tokens [] []
  | cons
      {left right : Token}
      {lefts rights : List Token}
      (hKind : left.kind = right.kind)
      (hPlace : same.Place left.span right.span)
      (hName :
        left.kind = .identifier →
          right.text = same.apply left.text)
      (hDigits :
        left.kind = .number →
          headKind lefts = some .byteSuffix →
            left.text = right.text)
      (hRest : Tokens lefts rights) :
      Tokens (left :: lefts) (right :: rights)

/- Stops for the same cause at related places. -/
inductive Stops : Stop → Stop → Prop where
  | located
      {cause : Cause}
      {place place' span span' : Span}
      (hLine : same.Place place place')
      (hSpan : same.Place span span') :
      Stops
        (.finding (.located cause place.line span))
        (.finding
          (.located (cause.rename same.toRenaming)
            place'.line span'))
  | missingMain :
      Stops (.finding .missingMain) (.finding .missingMain)
  | fault
      {fault : Fault} :
      Stops (.fault fault)
        (.fault (fault.rename same.toRenaming))

/- What the tokens of the two programs have in common. -/
def resemblance : Parser.Resemblance where
  Rest := same.Tokens
  Place := same.Place
  Name left right :=
    right.name = same.apply left.name ∧
      same.Place left.span right.span
  Digits _ _ := True
  eq_nil_iff hRest := by
    cases hRest with
    | nil => simp
    | cons hKind hPlace hName hDigits hRest => simp
  kind_eq hRest := by
    cases hRest with
    | cons hKind hPlace hName hDigits hRest => exact hKind
  tail hRest := by
    cases hRest with
    | cons hKind hPlace hName hDigits hRest => exact hRest
  place hRest := by
    cases hRest with
    | cons hKind hPlace hName hDigits hRest => exact hPlace
  name hRest hIdentifier := by
    cases hRest with
    | cons hKind hPlace hName hDigits hRest =>
        exact ⟨hName hIdentifier, hPlace⟩
  digits _ _ := trivial
  byteDigits hRest hNumber hSuffix := by
    cases hRest with
    | cons hKind hPlace hName hDigits hRest =>
        apply hDigits hNumber
        rw [← hSuffix]
        rfl
  cover := same.cover
  place_of_name hName := hName.2

/- The state after the names are changed. -/
def state (old : State) : State where
  symbols := old.symbols.rename same.toRenaming
  loops := old.loops

theorem state_initial : same.state .initial = .initial := by
  simp [state, State.initial]

/- Outcomes of two checks, or of two steps. -/
abbrev ConcurStops
    {α α' : Type}
    (Answer : α → α' → Prop) :
    Except Stop α → Except Stop α' → Prop :=
  Concur same.Stops Answer

/- The states of the two analyses differ in names only. -/
abbrev ConcurStates :
    Except Stop State → Except Stop State → Prop :=
  same.ConcurStops fun old new => new = same.state old

end Correspondence

end Analysis

end OnePass

------------------------------------------------------------
-- Checks
------------------------------------------------------------

namespace OnePass

namespace Analysis

namespace Correspondence

variable {same : Correspondence}
variable {α α' β β' : Type}

/- Both programs are refused for the same cause. -/
theorem concur_reject
    {Answer : α → α' → Prop}
    (cause : Cause)
    {span span' : Span}
    (hSpan : same.Place span span') :
    same.ConcurStops Answer (reject cause span)
      (reject (cause.rename same.toRenaming) span') :=
  .error (.located hSpan hSpan)

theorem concur_guarded
    {Answer : α → α' → Prop}
    {outcome : Except Fault α}
    {outcome' : Except Fault α'}
    (hOutcome :
      Concur
        (fun old new => new = old.rename same.toRenaming)
        Answer outcome outcome') :
    same.ConcurStops Answer (guarded outcome)
      (guarded outcome') := by
  cases hOutcome with
  | ok hAnswer => exact .ok hAnswer
  | error hFault =>
      subst hFault
      exact .error .fault

/- A check that does not depend on names. -/
theorem concur_check
    (passes : Bool)
    (cause : Cause)
    {span span' : Span}
    (hSpan : same.Place span span') :
    same.ConcurStops Eq
      (if passes then .ok () else reject cause span)
      (if passes then .ok ()
        else reject (cause.rename same.toRenaming) span') := by
  split
  · exact .ok rfl
  · exact concur_reject cause hSpan

theorem concur_requireCast
    (source target : Ty)
    {span span' : Span}
    (hSpan : same.Place span span') :
    same.ConcurStops Eq (requireCast source target span)
      (requireCast source target span') :=
  concur_check (source.castsTo target) .typeMismatch hSpan

theorem concur_requireNumeral
    (ty : Ty)
    {span span' : Span}
    (hSpan : same.Place span span') :
    same.ConcurStops Eq (requireNumeral ty span)
      (requireNumeral ty span') :=
  concur_check ty.isNumeral .typeMismatch hSpan

/- A check, and what is answered if it is passed. -/
theorem concur_then
    {Answer : β → β' → Prop}
    {check check' : Except Stop α}
    {next : α → Except Stop β}
    {next' : α → Except Stop β'}
    (hCheck : same.ConcurStops Eq check check')
    (hNext :
      ∀ answer,
        same.ConcurStops Answer (next answer)
          (next' answer)) :
    same.ConcurStops Answer (check >>= next)
      (check' >>= next') := by
  apply hCheck.bind
  intro answer answer' hSame
  subst hSame
  exact hNext answer

end Correspondence

end Analysis

end OnePass

------------------------------------------------------------
-- Expressions
------------------------------------------------------------

namespace OnePass

namespace Analysis

namespace Correspondence

variable {same : Correspondence}

/- Expressions of the same type at related places. -/
abbrev Values (same : Correspondence) :
    Typed Ty → Typed Ty → Prop :=
  Typed.Alike same.resemblance Eq

theorem map_ty_eq
    {arguments arguments' : List (Typed Ty)}
    (hArguments :
      List.Forall₂ same.Values arguments arguments') :
    arguments.map Typed.ty = arguments'.map Typed.ty := by
  induction hArguments with
  | nil => rfl
  | cons hFirst _ ih =>
      rw [List.map_cons, List.map_cons, hFirst.ty, ih]

theorem concur_callType
    (symbols : Symbols)
    {callee callee' : Identifier}
    {arguments arguments' : List (Typed Ty)}
    {span span' : Span}
    (hCallee : same.resemblance.Name callee callee')
    (hArguments :
      List.Forall₂ same.Values arguments arguments')
    (hSpan : same.Place span span') :
    same.ConcurStops Eq
      (callType symbols callee arguments span)
      (callType (symbols.rename same.toRenaming) callee'
        arguments' span') := by
  unfold callType
  rw [hCallee.1, Symbols.signature?_rename,
    ← map_ty_eq hArguments]
  cases symbols.signature? callee.name with
  | none =>
      exact
        concur_reject (.undefinedFunction callee.name) hSpan
  | some signature =>
      simp only [Option.map_some, Signature.rename]
      split
      · exact .ok rfl
      · exact
          concur_reject
            (.prototypeMismatch callee.name
              signature.parameters)
            hSpan

/- Corresponding expressions have the same type. -/
theorem concur_valueType
    (symbols : Symbols)
    {event event' : ValueEvent Ty}
    (hEvents :
      ValueEvent.Alike same.resemblance Eq event event') :
    same.ConcurStops Eq (valueType symbols event)
      (valueType (symbols.rename same.toRenaming) event') := by
  cases hEvents with
  | call hCallee hArguments hSpan =>
      exact
        concur_callType symbols hCallee hArguments hSpan
  | @identifier name name' hName =>
      simp only [valueType, Symbols.valueType, hName.1,
        Symbols.lookup_rename]
      cases symbols.lookup name.name with
      | none =>
          exact
            concur_reject (.undefinedVariable name.name)
              hName.2
      | some binding => exact .ok rfl
  | numberLiteral hDigits hSpan => exact .ok rfl
  | @byteLiteral digits span span' hSpan =>
      simp only [valueType]
      split
      · exact .ok rfl
      · exact concur_reject (.byteOutOfRange digits) hSpan
  | stringLiteral hSpan => exact .ok rfl
  | boolLiteral hSpan => exact .ok rfl
  | cast hOperand hSpan =>
      simp only [valueType, hOperand.ty]
      split
      · exact .ok rfl
      · exact concur_reject .typeMismatch hSpan
  | numeric hLeft hRight hSpan =>
      simp only [valueType, hLeft.ty, hRight.ty]
      apply concur_then (concur_requireNumeral _ hSpan)
      intro _
      apply concur_then (concur_requireNumeral _ hSpan)
      intro _
      apply concur_guarded
      unfold Ty.widen
      split
      · exact .ok rfl
      · exact .error rfl
  | relational hLeft hRight hSpan =>
      simp only [valueType, hLeft.ty, hRight.ty]
      apply concur_then (concur_requireNumeral _ hSpan)
      intro _
      apply concur_then (concur_requireNumeral _ hSpan)
      intro _
      exact .ok rfl
  | logical hLeft hRight hSpan =>
      simp only [valueType, hLeft.ty, hRight.ty]
      apply concur_then (concur_requireCast _ _ hSpan)
      intro _
      apply concur_then (concur_requireCast _ _ hSpan)
      intro _
      exact .ok rfl
  | negation hOperand hSpan =>
      simp only [valueType, hOperand.ty]
      apply concur_then (concur_requireCast _ _ hSpan)
      intro _
      exact .ok rfl

end Correspondence

end Analysis

end OnePass

------------------------------------------------------------
-- Declarations
------------------------------------------------------------

namespace OnePass

namespace Analysis

namespace Correspondence

variable {same : Correspondence}

/- Formals at related places, under their new names. -/
abbrev Formals (same : Correspondence) :
    List Formal → List Formal → Prop :=
  List.Forall₂ (Formal.Alike same.resemblance)

/- The same formal is the first that is in conflict. -/
theorem firstConflict?_rel
    (taken taken' : String → Bool)
    {formals formals' : List Formal}
    (hTaken :
      ∀ name, taken' (same.apply name) = taken name)
    (hFormals : same.Formals formals formals') :
    Option.Rel same.resemblance.Name
      (firstConflict? taken formals)
      (firstConflict? taken' formals') := by
  induction hFormals generalizing taken taken' with
  | nil => exact .none
  | @cons formal formal' _ _ hFirst _ ih =>
      have hSame :
          taken' formal'.name.name =
            taken formal.name.name := by
        rw [hFirst.name.1, hTaken]
      unfold firstConflict?
      rw [hSame]
      split
      · exact .some hFirst.name
      · apply ih
        intro name
        rw [hFirst.name.1, hTaken]
        simp

/- The same prototype, under its new name. -/
theorem signatureOf_eq
    (returns : Ty)
    {name name' : Identifier}
    {formals formals' : List Formal}
    (hName : same.resemblance.Name name name')
    (hFormals : same.Formals formals formals') :
    signatureOf returns name' formals' =
      (signatureOf returns name formals).rename
        same.toRenaming := by
  have hTypes :
      formals.map Formal.ty = formals'.map Formal.ty := by
    induction hFormals with
    | nil => rfl
    | cons hFirst _ ih =>
        rw [List.map_cons, List.map_cons, hFirst.ty, ih]
  unfold signatureOf
  rw [hName.1, hTypes]
  rfl

theorem concur_bindFormals
    (symbols : Symbols)
    {formals formals' : List Formal}
    (hFormals : same.Formals formals formals') :
    Symbols.ConcurRenamed same.toRenaming
      (bindFormals symbols formals)
      (bindFormals (symbols.rename same.toRenaming)
        formals') := by
  induction hFormals generalizing symbols with
  | nil => exact .ok rfl
  | @cons formal formal' formals formals' hFirst _ ih =>
      have hBinding :
          (⟨formal'.name.name, formal'.ty,
              formal'.isConst⟩ : Binding) =
            Binding.rename same.toRenaming
              ⟨formal.name.name, formal.ty,
                formal.isConst⟩ := by
        rw [hFirst.name.1, ← hFirst.ty, ← hFirst.isConst]
        rfl
      unfold bindFormals
      rw [List.foldlM_cons, List.foldlM_cons, hBinding]
      apply (symbols.concur_declareVariable _ _).bind
      intro after after' hAfter
      subst hAfter
      exact ih after

theorem concur_declareFunction
    (before : State)
    (returns : Ty)
    {name name' : Identifier}
    {formals formals' : List Formal}
    (hName : same.resemblance.Name name name')
    (hFormals : same.Formals formals formals') :
    same.ConcurStates
      (declareFunction before returns name formals)
      (declareFunction (same.state before) returns name'
        formals') := by
  have hConflict :=
    firstConflict?_rel
      (fun candidate =>
        candidate = name.name ||
          !before.symbols.isFree candidate)
      (fun candidate =>
        candidate = name'.name ||
          !(same.state before).symbols.isFree candidate)
      (by simp [hName.1, state]) hFormals
  unfold declareFunction
  simp only
  generalize firstConflict? _ formals = conflict
    at hConflict ⊢
  generalize firstConflict? _ formals' = conflict'
    at hConflict ⊢
  cases hConflict with
  | @some formal formal' hFormal =>
      simp only [hFormal.1]
      exact
        concur_reject (.redefinition formal.name) hFormal.2
  | none =>
      simp only [signatureOf_eq returns hName hFormals]
      apply
        (concur_guarded
          (before.symbols.concur_declareFunction
            same.toRenaming
            (signatureOf returns name formals))).bind
      intro known known' hKnown
      subst hKnown
      apply
        (concur_guarded
          (concur_bindFormals
            (known.enter
              (signatureOf returns name formals)).openScope
            hFormals)).bind
      intro inside inside' hInside
      subst hInside
      exact .ok rfl

theorem concur_declare
    (before : State)
    (isConst : Bool)
    (ty : Ty)
    {name name' : Identifier}
    {initializer initializer' : Option (Typed Ty)}
    {span span' : Span}
    (hName : same.resemblance.Name name name')
    (hInitializer :
      Option.Rel same.Values initializer initializer')
    (hSpan : same.Place span span') :
    same.ConcurStates
      (declare before isConst ty name initializer span)
      (declare (same.state before) isConst ty name'
        initializer' span') := by
  have hRequire :
      same.ConcurStops Eq
        (requireInitializer isConst ty name initializer span)
        (requireInitializer isConst ty name' initializer'
          span') := by
    unfold requireInitializer
    cases hInitializer with
    | some hValue =>
        simp only [hValue.ty]
        exact concur_requireCast _ _ hSpan
    | none =>
        simp only [hName.1]
        split
        · exact
            concur_reject
              (.constWithoutInitializer name.name) hSpan
        · exact .ok rfl
  unfold declare
  apply concur_then hRequire
  intro _
  rw [hName.1]
  apply
    (concur_guarded
      (before.symbols.concur_declareVariable same.toRenaming
        ⟨name.name, ty, isConst⟩)).bind
  intro after after' hAfter
  subst hAfter
  exact .ok rfl

end Correspondence

end Analysis

end OnePass

------------------------------------------------------------
-- Steps
------------------------------------------------------------

namespace OnePass

namespace Analysis

namespace Correspondence

variable {same : Correspondence}
variable (before : State)

theorem concur_requireNewFunction
    {name name' : Identifier}
    (hName : same.resemblance.Name name name') :
    same.ConcurStops Eq (requireNewFunction before name)
      (requireNewFunction (same.state before) name') := by
  unfold requireNewFunction
  simp only [hName.1, state, Symbols.isFunction_rename,
    Symbols.isFree_rename]
  split
  · exact concur_reject (.redefinition name.name) hName.2
  · exact .ok rfl

theorem concur_requireFree
    {name name' : Identifier}
    (hName : same.resemblance.Name name name') :
    same.ConcurStops Eq (requireFree before name)
      (requireFree (same.state before) name') := by
  unfold requireFree
  simp only [hName.1, state, Symbols.isFree_rename]
  exact
    concur_check (before.symbols.isFree name.name)
      (.redefinition name.name) hName.2

theorem concur_assign
    {name name' : Identifier}
    {value value' : Typed Ty}
    {span span' : Span}
    (hName : same.resemblance.Name name name')
    (hValue : same.Values value value')
    (hSpan : same.Place span span') :
    same.ConcurStops Eq (assign before name value span)
      (assign (same.state before) name' value' span') := by
  unfold assign
  simp only [hName.1, state, Symbols.lookup_rename,
    hValue.ty]
  cases before.symbols.lookup name.name with
  | none => exact .error (.located hSpan hName.2)
  | some binding =>
      simp only [Option.map_some, Binding.rename]
      split
      · exact .error (.located hSpan hName.2)
      · exact concur_requireCast _ _ hSpan

theorem concur_returnType
    {span span' : Span}
    (hSpan : same.Place span span') :
    same.ConcurStops Eq (returnType before span)
      (returnType (same.state before) span') := by
  unfold returnType
  simp only [State.current?, state, Symbols.rename]
  cases before.symbols.current? with
  | none => exact concur_reject .typeMismatch hSpan
  | some signature => exact .ok rfl

theorem concur_returnVoid
    {span span' : Span}
    (hSpan : same.Place span span') :
    same.ConcurStops Eq (returnVoid before span)
      (returnVoid (same.state before) span') := by
  unfold returnVoid
  apply concur_then (concur_returnType before hSpan)
  intro returns
  split
  · exact .ok rfl
  · exact concur_reject .typeMismatch hSpan

theorem concur_returnValue
    {value value' : Typed Ty}
    {span span' : Span}
    (hValue : same.Values value value')
    (hSpan : same.Place span span') :
    same.ConcurStops Eq (returnValue before value span)
      (returnValue (same.state before) value' span') := by
  unfold returnValue
  rw [hValue.ty]
  apply concur_then (concur_returnType before hSpan)
  intro returns
  split
  · exact concur_reject .typeMismatch hSpan
  · exact concur_requireCast _ _ hSpan

theorem concur_requireLoop
    (cause : Cause)
    {span span' : Span}
    (hSpan : same.Place span span') :
    same.ConcurStops Eq (requireLoop before cause span)
      (requireLoop (same.state before)
        (cause.rename same.toRenaming) span') := by
  have hLoops : (same.state before).loops = before.loops :=
    rfl
  unfold requireLoop
  rw [hLoops]
  split
  · exact concur_reject cause hSpan
  · exact .ok rfl

/- The entry point keeps its name. -/
theorem concur_requireEntryPoint :
    same.ConcurStops Eq (requireEntryPoint before)
      (requireEntryPoint (same.state before)) := by
  have hFound :=
    before.symbols.signature?_rename same.toRenaming
      Signature.entryPoint.name
  rw [same.entryPoint] at hFound
  unfold requireEntryPoint
  simp only [state, hFound, Option.any_map,
    Signature.isEntryPoint_rename]
  split
  · exact .ok rfl
  · exact .error .missingMain

/- A check that is passed leaves both states as they are. -/
theorem concur_checked
    {check check' : Except Stop Unit}
    (hCheck : same.ConcurStops Eq check check') :
    same.ConcurStates
      (do
        check
        return before)
      (do
        check'
        return same.state before) := by
  apply concur_then hCheck
  intro _
  exact .ok rfl

theorem concur_closing
    (change : Symbols → Symbols)
    (hChange :
      ∀ table : Symbols,
        change (table.rename same.toRenaming) =
          (change table).rename same.toRenaming) :
    same.ConcurStates
      (do
        let symbols ← guarded before.symbols.closeScope
        return { before with symbols := change symbols })
      (do
        let symbols ←
          guarded (same.state before).symbols.closeScope
        return { same.state before with
          symbols := change symbols }) := by
  apply
    (concur_guarded
      (before.symbols.concur_closeScope same.toRenaming)).bind
  intro after after' hAfter
  subst hAfter
  rw [hChange]
  exact .ok rfl

/- Corresponding events lead to corresponding states. -/
theorem concur_step
    {event event' : EffectEvent Ty}
    (hEvents :
      EffectEvent.Alike same.resemblance Eq event event') :
    same.ConcurStates (step before event)
      (step (same.state before) event') := by
  cases hEvents with
  | functionHeader hName =>
      exact
        concur_checked before
          (concur_requireNewFunction before hName)
  | functionSignature hName hFormals =>
      exact
        concur_declareFunction before _ hName hFormals
  | functionEnd hSpan =>
      exact concur_closing before Symbols.leave fun _ => rfl
  | openScope => exact .ok rfl
  | closeScope =>
      exact concur_closing before id fun _ => rfl
  | openLoop => exact .ok rfl
  | closeLoop =>
      unfold step closeLoop
      simp only [state]
      split
      · exact .error .fault
      · exact .ok rfl
  | condition hValue =>
      apply concur_checked before
      rw [hValue.ty]
      exact concur_requireCast _ _ hValue.span
  | declarationStart hName =>
      exact
        concur_checked before
          (concur_requireFree before hName)
  | declaration hName hInitializer hSpan =>
      exact
        concur_declare before _ _ hName hInitializer hSpan
  | assignment hName hValue hSpan =>
      exact
        concur_checked before
          (concur_assign before hName hValue hSpan)
  | returnVoid hSpan =>
      exact
        concur_checked before (concur_returnVoid before hSpan)
  | returnValue hValue hSpan =>
      exact
        concur_checked before
          (concur_returnValue before hValue hSpan)
  | breakStatement hSpan =>
      exact
        concur_checked before
          (concur_requireLoop before .unexpectedBreak hSpan)
  | continueStatement hSpan =>
      exact
        concur_checked before
          (concur_requireLoop before .unexpectedContinue
            hSpan)
  | programEnd =>
      exact
        concur_checked before
          (concur_requireEntryPoint before)

end Correspondence

end Analysis

end OnePass

------------------------------------------------------------
-- Runs
------------------------------------------------------------

namespace OnePass

namespace Analysis

namespace Correspondence

variable (same : Correspondence)

/- Two analyses that go on, or are refused, together. -/
def bond :
    Parser.Bond State Ty Stop State Ty Stop where
  like := same.resemblance
  Attribute := Eq
  Together old new := new = same.state old
  Parted stop _ stop' _ :=
    ∃ other, stop' = some other ∧ same.Stops stop other
  total hParted := by
    rcases hParted with ⟨_, hNone, -⟩
    cases hNone
  exists_attribute hParted := by
    rcases hParted with ⟨_, hNone, -⟩
    cases hNone

theorem keptBy_bond :
    same.bond.KeptBy receiver receiver where
  value {event event' before before'} hEvents hTogether := by
    have hTogether : before' = same.state before := hTogether
    subst hTogether
    have hTypes :=
      concur_valueType before.symbols hEvents
    unfold receiver
    simp only [state]
    generalize valueType before.symbols event = outcome
      at hTypes ⊢
    generalize valueType _ event' = outcome' at hTypes ⊢
    cases hTypes with
    | ok hType => exact ⟨hType, rfl⟩
    | error hStops => exact ⟨_, rfl, hStops⟩
  effect {event event' before before'} hEvents hTogether := by
    have hTogether : before' = same.state before := hTogether
    subst hTogether
    have hSteps := concur_step before hEvents
    unfold receiver
    simp only
    generalize step before event = outcome at hSteps ⊢
    generalize step _ event' = outcome' at hSteps ⊢
    cases hSteps with
    | ok hAfter => exact ⟨rfl, hAfter⟩
    | error hStops => exact ⟨_, rfl, hStops⟩
  valueAlone event' hParted := by
    rcases hParted with ⟨_, hNone, -⟩
    cases hNone
  effectAlone event' hParted := by
    rcases hParted with ⟨_, hNone, -⟩
    cases hNone

variable {same : Correspondence}

theorem Tokens.place_endSpan
    {tokens tokens' : List Token}
    (hTokens : same.Tokens tokens tokens') :
    same.Place (Parser.endSpan tokens)
      (Parser.endSpan tokens') := by
  induction hTokens with
  | nil => exact same.noToken
  | cons hKind hPlace hName hDigits hRest ih =>
      cases hRest with
      | nil => exact same.afterLast hPlace
      | cons hKind' hPlace' hName' hDigits' hRest' =>
          unfold Parser.endSpan at ih ⊢
          rw [List.getLast?_cons_cons,
            List.getLast?_cons_cons]
          exact ih

/- Both programs are malformed at related places. -/
theorem Tokens.stops_misfit
    {tokens tokens' rest rest' : List Token}
    (hTokens : same.Tokens tokens tokens')
    (hRest : same.Tokens rest rest')
    (obstacle : Parser.Obstacle) :
    same.Stops
      (.ofFailure
        (.misfit (Parser.misfitAt tokens rest obstacle)))
      (.ofFailure
        (.misfit
          (Parser.misfitAt tokens' rest' obstacle))) := by
  cases hRest with
  | nil =>
      exact
        .located hTokens.place_endSpan hTokens.place_endSpan
  | cons hKind hPlace hName hDigits hMore =>
      exact .located hPlace hPlace

/-
  Corresponding programs declare the same functions, under
  their new names, or are refused for the same cause.
-/
theorem concur_analyze
    {tokens tokens' : List Token}
    (hTokens : same.Tokens tokens tokens') :
    same.ConcurStops
      (fun old new =>
        new = old.map (·.rename same.toRenaming))
      (analyze tokens) (analyze tokens') := by
  have hSettles :=
    settles_parse same.keptBy_bond hTokens
      same.state_initial.symm
  unfold analyze
  generalize parse receiver tokens .initial = left
    at hSettles ⊢
  generalize parse receiver tokens' .initial = right
    at hSettles ⊢
  cases hSettles with
  | @accepted final final' hTogether =>
      have hTogether : final' = same.state final := hTogether
      subst hTogether
      exact
        .ok
          (final.symbols.functions.declared_rename
            same.toRenaming)
  | stuck obstacle hRest hTogether =>
      exact .error (hTokens.stops_misfit hRest obstacle)
  | @refused stop final result' final' hParted =>
      rcases hParted with ⟨other, hRefusal, hStops⟩
      rw [eq_refused_of_refusal? hRefusal]
      exact .error hStops

end Correspondence

end Analysis

end OnePass
