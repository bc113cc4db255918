import Mathlib.Data.List.Nodup
import OnePass.Proofs.Analysis.Misuse

/-
  Declaring a function with its formals.

  The formals are looked at from left to right, and the
  first one whose name is that of the function, of a visible
  variable or of a formal to its left is reported. If there
  is none, and the function is new, the function is known
  afterwards and is the one at hand, and each formal stands
  for itself in a new scope. Nothing else changes.

  Main declarations:
    * `Analysis.Clashes`, `Analysis.Conflicts`
    * `Analysis.firstConflict?_eq_none_iff_clashes`
    * `Analysis.firstConflict?_eq_some_iff`
    * `Analysis.IsLeftmostConflict`
    * `Analysis.Enters`
    * `signature_refused_or_entered`
-/

------------------------------------------------------------
-- The First Conflict
------------------------------------------------------------

namespace OnePass

namespace Analysis

/- The name of a formal is taken, or used to its left. -/
def Clashes
    (taken : String → Bool)
    (before : List Formal)
    (formal : Formal) : Prop :=
  taken formal.name.name = true ∨
    ∃ earlier ∈ before,
      earlier.name.name = formal.name.name

/- Some formal in the list clashes. -/
def HasClash
    (taken : String → Bool)
    (formals : List Formal) : Prop :=
  ∃ before formal after,
    formals = before ++ formal :: after ∧
      Clashes taken before formal

variable {taken : String → Bool}
variable {first formal : Formal}
variable {before formals : List Formal}

@[simp] theorem clashes_nil_iff :
    Clashes taken [] formal ↔
      taken formal.name.name = true := by
  simp [Clashes]

/- The names that were seen are taken, too. -/
theorem clashes_cons_iff :
    Clashes taken (first :: before) formal ↔
      Clashes
        (fun name => name = first.name.name || taken name)
        before formal := by
  simp only [Clashes, List.exists_mem_cons_iff,
    Bool.or_eq_true, decide_eq_true_eq]
  rw [@eq_comm _ formal.name.name, or_left_comm, or_assoc]

/- The first formal clashes, or one of the others. -/
theorem hasClash_cons_iff :
    HasClash taken (first :: formals) ↔
      taken first.name.name = true ∨
        HasClash
          (fun name => name = first.name.name || taken name)
          formals := by
  constructor
  · rintro ⟨before, formal, after, hSplit, hClash⟩
    cases before with
    | nil =>
        cases hSplit
        exact .inl (clashes_nil_iff.mp hClash)
    | cons other before =>
        cases hSplit
        exact
          .inr
            ⟨before, formal, after, rfl,
              clashes_cons_iff.mp hClash⟩
  · rintro (hTaken | ⟨before, formal, after, rfl, hClash⟩)
    · exact
        ⟨[], first, formals, rfl, clashes_nil_iff.mpr hTaken⟩
    · exact
        ⟨first :: before, formal, after, rfl,
          clashes_cons_iff.mpr hClash⟩

/- Nothing is found exactly if no formal clashes. -/
theorem firstConflict?_eq_none_iff_clashes :
    firstConflict? taken formals = none ↔
      ¬ HasClash taken formals := by
  induction formals generalizing taken with
  | nil => simp [firstConflict?, HasClash]
  | cons first formals ih =>
      rw [hasClash_cons_iff, firstConflict?]
      by_cases hTaken : taken first.name.name = true
      · simp [hTaken]
      · simp [hTaken, ih]

/- What is found clashes, and no formal to its left does. -/
theorem firstConflict?_eq_some_iff
    {name : Identifier} :
    firstConflict? taken formals = some name ↔
      ∃ before formal after,
        formals = before ++ formal :: after ∧
          Clashes taken before formal ∧
            ¬ HasClash taken before ∧ formal.name = name := by
  simp only [← firstConflict?_eq_none_iff_clashes]
  induction formals generalizing taken with
  | nil => simp [firstConflict?]
  | cons first formals ih =>
      by_cases hTaken : taken first.name.name = true
      · rw [firstConflict?, if_pos hTaken,
          Option.some.injEq]
        constructor
        · intro hName
          exact
            ⟨[], first, formals, rfl,
              clashes_nil_iff.mpr hTaken, rfl, hName⟩
        · rintro ⟨before, formal, after, hSplit, -, hNone,
            hName⟩
          cases before with
          | nil =>
              cases hSplit
              exact hName
          | cons other before =>
              cases hSplit
              rw [firstConflict?, if_pos hTaken] at hNone
              cases hNone
      · rw [firstConflict?, if_neg hTaken, ih]
        constructor
        · rintro ⟨before, formal, after, rfl, hClash, hNone,
            hName⟩
          refine
            ⟨first :: before, formal, after, rfl,
              clashes_cons_iff.mpr hClash, ?_, hName⟩
          rwa [firstConflict?, if_neg hTaken]
        · rintro ⟨before, formal, after, hSplit, hClash,
            hNone, hName⟩
          cases before with
          | nil =>
              cases hSplit
              exact absurd (clashes_nil_iff.mp hClash) hTaken
          | cons other before =>
              cases hSplit
              rw [firstConflict?, if_neg hTaken] at hNone
              exact
                ⟨before, formal, after, rfl,
                  clashes_cons_iff.mp hClash, hNone, hName⟩

end Analysis

end OnePass

------------------------------------------------------------
-- Conflicts
------------------------------------------------------------

namespace OnePass

namespace Analysis

/-
  A formal, after those to its left, has the name of the
  function, of a visible variable or of one of these.
-/
def Conflicts
    (symbols : Symbols)
    (function : Identifier)
    (before : List Formal)
    (formal : Formal) : Prop :=
  formal.name.name = function.name ∨
    symbols.isVisible formal.name.name = true ∨
      ∃ earlier ∈ before,
        earlier.name.name = formal.name.name

/- Some formal in the list conflicts. -/
def HasConflict
    (symbols : Symbols)
    (function : Identifier)
    (formals : List Formal) : Prop :=
  ∃ before formal after,
    formals = before ++ formal :: after ∧
      Conflicts symbols function before formal

/- The formal conflicts, and none to its left does. -/
def IsLeftmostConflict
    (symbols : Symbols)
    (function : Identifier)
    (formals : List Formal)
    (formal : Formal) : Prop :=
  ∃ before after,
    formals = before ++ formal :: after ∧
      Conflicts symbols function before formal ∧
        ¬ HasConflict symbols function before

variable {symbols : Symbols}
variable {function : Identifier}
variable {formals before : List Formal}
variable {formal : Formal}

/- The names that no formal may have. -/
def takenBy
    (symbols : Symbols)
    (function : Identifier)
    (name : String) : Bool :=
  name = function.name || !symbols.isFree name

theorem clashes_takenBy_iff :
    Clashes (takenBy symbols function) before formal ↔
      Conflicts symbols function before formal := by
  simp only [Clashes, Conflicts, takenBy, Symbols.isFree,
    Symbols.isVisible, Bool.or_eq_true, decide_eq_true_eq,
    Option.not_isNone, or_assoc]

theorem hasClash_takenBy_iff :
    HasClash (takenBy symbols function) formals ↔
      HasConflict symbols function formals := by
  simp only [HasClash, HasConflict, clashes_takenBy_iff]

theorem formalsFit_iff_not_hasConflict :
    FormalsFit symbols function formals ↔
      ¬ HasConflict symbols function formals := by
  rw [formalsFit_iff, ← hasClash_takenBy_iff]
  exact firstConflict?_eq_none_iff_clashes

/- What is found is the name of the leftmost conflict. -/
theorem firstConflict?_takenBy_eq_some_iff
    {name : Identifier} :
    firstConflict? (takenBy symbols function) formals =
        some name ↔
      ∃ formal,
        IsLeftmostConflict symbols function formals formal ∧
          formal.name = name := by
  simp only [firstConflict?_eq_some_iff,
    clashes_takenBy_iff, hasClash_takenBy_iff,
    IsLeftmostConflict]
  constructor
  · rintro ⟨before, formal, after, hSplit, hConflict, hNone,
      hName⟩
    exact
      ⟨formal, ⟨before, after, hSplit, hConflict, hNone⟩,
        hName⟩
  · rintro ⟨formal,
      ⟨before, after, hSplit, hConflict, hNone⟩, hName⟩
    exact
      ⟨before, formal, after, hSplit, hConflict, hNone,
        hName⟩

/- Where there is a conflict there is a leftmost one. -/
theorem hasConflict_iff_exists_leftmost :
    HasConflict symbols function formals ↔
      ∃ formal,
        IsLeftmostConflict symbols function formals
          formal := by
  constructor
  · intro hConflict
    have hSome :
        firstConflict? (takenBy symbols function) formals ≠
          none := by
      rw [ne_eq, firstConflict?_eq_none_iff_clashes,
        not_not, hasClash_takenBy_iff]
      exact hConflict
    rcases Option.ne_none_iff_exists'.mp hSome with
      ⟨name, hFirst⟩
    rcases firstConflict?_takenBy_eq_some_iff.mp hFirst with
      ⟨formal, hLeftmost, -⟩
    exact ⟨formal, hLeftmost⟩
  · rintro ⟨formal, before, after, hSplit, hConflict, -⟩
    exact ⟨before, formal, after, hSplit, hConflict⟩

/- The leftmost conflict is what is reported. -/
theorem declareFunction_eq_finding_iff
    {state : State}
    {returns : Ty}
    {diagnostic : Diagnostic} :
    declareFunction state returns function formals =
        .error (.finding diagnostic) ↔
      ∃ formal,
        IsLeftmostConflict state.symbols function formals
            formal ∧
          diagnostic =
            .pointAt (.redefinition formal.name.name)
              formal.name.span := by
  by_cases hFit : FormalsFit state.symbols function formals
  · have hNone : ¬ HasConflict state.symbols function formals :=
      formalsFit_iff_not_hasConflict.mp hFit
    constructor
    · intro hError
      cases hKnown :
          state.symbols.isFunction function.name with
      | true =>
          rw [declareFunction_of_isFunction hKnown hFit]
            at hError
          cases hError
      | false =>
          rw [declareFunction_of_formalsFit hKnown hFit]
            at hError
          cases hError
    · rintro ⟨formal, hLeftmost, -⟩
      exact
        absurd
          (hasConflict_iff_exists_leftmost.mpr
            ⟨formal, hLeftmost⟩)
          hNone
  · rw [formalsFit_iff] at hFit
    rcases Option.ne_none_iff_exists'.mp hFit with
      ⟨name, hFirst⟩
    have hReject :
        declareFunction state returns function formals =
          reject (.redefinition name.name) name.span := by
      unfold declareFunction
      simp only [hFirst]
    rw [hReject]
    constructor
    · intro hError
      cases hError
      rcases firstConflict?_takenBy_eq_some_iff.mp hFirst with
        ⟨formal, hLeftmost, rfl⟩
      exact ⟨formal, hLeftmost, rfl⟩
    · rintro ⟨formal, hLeftmost, rfl⟩
      have hSame :=
        firstConflict?_takenBy_eq_some_iff.mpr
          ⟨formal, hLeftmost, rfl⟩
      rw [Option.some.inj (hFirst.symm.trans hSame)]
      rfl

end Analysis

end OnePass

------------------------------------------------------------
-- Entering A Function
------------------------------------------------------------

namespace OnePass

namespace Symbols

variable {table : Symbols}
variable {formals : List Formal}

/- Formals with different names stand for themselves. -/
theorem lookup_inside_formal
    (signature : Signature)
    (hNames : (formals.map (·.name.name)).Nodup)
    {formal : Formal}
    (hFormal : formal ∈ formals) :
    (table.inside signature formals).lookup
        formal.name.name =
      some formal.binding := by
  have hDistinct :
      ((formals.map Formal.binding).reverse.map
        Binding.name).Nodup := by
    rw [List.map_reverse, List.nodup_reverse, List.map_map]
    exact hNames
  have hFound :
      (formals.map Formal.binding).reverse.find?
          (·.name = formal.name.name) =
        some formal.binding := by
    rw [Analysis.find?_name_eq_some_iff hDistinct,
      List.mem_reverse]
    exact ⟨List.mem_map_of_mem hFormal, rfl⟩
  rw [lookup, visible_inside, List.find?_append, hFound,
    Option.some_or]

/- All other names stand for what they stood for. -/
theorem lookup_inside_other
    (signature : Signature)
    {name : String}
    (hOther :
      ∀ formal ∈ formals, formal.name.name ≠ name) :
    (table.inside signature formals).lookup name =
      table.lookup name := by
  have hNone :
      (formals.map Formal.binding).reverse.find?
          (·.name = name) =
        none := by
    simpa [Formal.binding] using hOther
  rw [lookup, visible_inside, List.find?_append, hNone,
    Option.none_or, lookup]

end Symbols

namespace Analysis

/-
  The state inside a new function, by what it answers. The
  name of the function is new among those declared.
-/
structure Enters
    (before : State)
    (signature : Signature)
    (formals : List Formal)
    (after : State) : Prop where
  /- The function is the last one, and all others stay. -/
  signatures :
    after.symbols.functions.signatures =
      before.symbols.functions.signatures ++ [signature]
  declared : after.declared = before.declared ++ [signature]
  found :
    after.symbols.signature? signature.name = some signature
  others :
    ∀ name,
      name ≠ signature.name →
        after.symbols.signature? name =
          before.symbols.signature? name
  /- It is the function at hand. -/
  current : after.current? = some signature
  /- One more scope is open, and as many loops. -/
  depth : after.depth = before.depth + 1
  loops : after.loops = before.loops
  /- A formal has its own type and constness. -/
  formal :
    ∀ formal ∈ formals,
      after.symbols.lookup formal.name.name =
        some ⟨formal.name.name, formal.ty, formal.isConst⟩
  /- Any other name stands for what it stood for. -/
  unchanged :
    ∀ name,
      (∀ formal ∈ formals, formal.name.name ≠ name) →
        after.symbols.lookup name = before.symbols.lookup name

theorem enters_inside
    {state : State}
    (hReachable : Reachable state)
    {returns : Ty}
    {function : Identifier}
    {formals : List Formal}
    (hFit : FormalsFit state.symbols function formals) :
    Enters state (signatureOf returns function formals)
      formals
      { state with
        symbols :=
          state.symbols.inside
            (signatureOf returns function formals)
            formals } := by
  have hIndexed := indexed_of_reachable hReachable
  have hAddressed := addressed_of_reachable hReachable
  constructor
  · exact
      congrArg Functions.signatures
        (Symbols.functions_inside _ _ _)
  · unfold State.declared Functions.declared
    rw [Symbols.functions_inside]
    exact List.drop_append_of_le_length hAddressed.library
  · unfold Symbols.signature?
    rw [Symbols.functions_inside]
    exact Functions.get?_append_self
  · intro name hName
    unfold Symbols.signature?
    rw [Symbols.functions_inside]
    exact Functions.get?_append_of_ne hIndexed hName
  · exact Symbols.current?_inside _ _ _
  · exact Symbols.depth_inside _ _ _
  · rfl
  · intro formal hFormal
    exact Symbols.lookup_inside_formal _ hFit.1 hFormal
  · intro name hOther
    exact Symbols.lookup_inside_other _ hOther

end Analysis

open Analysis (State Reachable HasConflict
  IsLeftmostConflict Enters perform)

/-
  In every state that events can lead to, the signature of a
  function is refused exactly if some formal conflicts, and
  then because of the leftmost such formal. Otherwise a
  function with a new name is entered.
-/
theorem signature_refused_or_entered
    {state : State}
    (hReachable : Reachable state)
    (returns : Ty)
    (function : Identifier)
    (formals : List Formal) :
    let outcome :=
      perform state
        (.effect
          (.functionSignature returns function formals))
    let signature : Signature :=
      ⟨function.name, returns, formals.map Formal.ty⟩
    ((∃ diagnostic,
        outcome = .error (.finding diagnostic)) ↔
      HasConflict state.symbols function formals) ∧
    (∀ diagnostic,
      outcome = .error (.finding diagnostic) →
        ∃ formal,
          IsLeftmostConflict state.symbols function formals
              formal ∧
            diagnostic =
              .located (.redefinition formal.name.name)
                formal.name.span.line formal.name.span ∧
            diagnostic.kind =
              "DuplicateOrConflictingDefinition") ∧
    (¬ HasConflict state.symbols function formals →
      state.symbols.isFunction function.name = false →
        ∃ next,
          outcome = .ok (none, next) ∧
            Enters state signature formals next) := by
  intro outcome signature
  have hFinding :
      ∀ diagnostic,
        outcome = .error (.finding diagnostic) ↔
          ∃ formal,
            IsLeftmostConflict state.symbols function formals
                formal ∧
              diagnostic =
                .pointAt (.redefinition formal.name.name)
                  formal.name.span := by
    intro diagnostic
    unfold outcome
    rw [Analysis.perform_effect_eq_error_iff, Analysis.step]
    exact Analysis.declareFunction_eq_finding_iff
  refine ⟨?_, ?_, ?_⟩
  · rw [Analysis.hasConflict_iff_exists_leftmost]
    constructor
    · rintro ⟨diagnostic, hError⟩
      obtain ⟨formal, hLeftmost, -⟩ :=
        (hFinding diagnostic).mp hError
      exact ⟨formal, hLeftmost⟩
    · rintro ⟨formal, hLeftmost⟩
      exact
        ⟨_, (hFinding _).mpr ⟨formal, hLeftmost, rfl⟩⟩
  · intro diagnostic hError
    obtain ⟨formal, hLeftmost, rfl⟩ :=
      (hFinding diagnostic).mp hError
    exact ⟨formal, hLeftmost, rfl, rfl⟩
  · intro hNone hNew
    have hFit :=
      Analysis.formalsFit_iff_not_hasConflict.mpr hNone
    refine ⟨_, ?_, Analysis.enters_inside hReachable hFit⟩
    unfold outcome
    rw [perform, Analysis.step,
      Analysis.declareFunction_of_formalsFit hNew hFit]
    rfl

/- A variable is visible, and no function is declared. -/
def visibleVariable : State where
  symbols :=
    Symbols.initial.bind ⟨"g", .int, true⟩
  loops := 0

/-
  The formals of the first function have a name that is
  visible and, after it, one that is used twice. Those of
  the second function conflict with nothing.
-/
theorem signature_refused_or_entered_visibleVariable :
    let place : Span := ⟨0, 1, 1⟩
    let formals : List Formal :=
      [⟨true, .int, ⟨"x", place⟩⟩,
        ⟨false, .byte, ⟨"y", place⟩⟩]
    let conflicting : List Formal :=
      formals ++
        [⟨false, .int, ⟨"g", ⟨4, 5, 2⟩⟩⟩,
          ⟨false, .int, ⟨"x", ⟨8, 9, 3⟩⟩⟩]
    let finding : Diagnostic :=
      .located (.redefinition "g") 2 ⟨4, 5, 2⟩
    perform visibleVariable
        (.effect
          (.functionSignature .void ⟨"f", place⟩
            conflicting)) =
      .error (.finding finding) ∧
    (∃ formal,
      IsLeftmostConflict visibleVariable.symbols
          ⟨"f", place⟩ conflicting formal ∧
        formal.name.name = "g") ∧
    ∃ next,
      perform visibleVariable
          (.effect
            (.functionSignature .void ⟨"f", place⟩
              formals)) =
          .ok (none, next) ∧
        Enters visibleVariable ⟨"f", .void, [.int, .byte]⟩
          formals next := by
  intro place formals conflicting finding
  have hReachable : Reachable visibleVariable :=
    ⟨[.effect
        (.declaration true .int ⟨"g", place⟩
          (some ⟨.int, place⟩) place)],
      _, rfl⟩
  refine ⟨rfl, ?_, ?_⟩
  · obtain ⟨formal, hLeftmost, hFinding, -⟩ :=
      (signature_refused_or_entered hReachable .void
        ⟨"f", place⟩ conflicting).2.1 finding rfl
    injection hFinding with hCause
    injection hCause with hName
    exact ⟨formal, hLeftmost, hName.symm⟩
  · apply
      (signature_refused_or_entered hReachable .void
        ⟨"f", place⟩ formals).2.2
    · rw [← Analysis.formalsFit_iff_not_hasConflict]
      unfold Analysis.FormalsFit
      decide
    · rfl

end OnePass
