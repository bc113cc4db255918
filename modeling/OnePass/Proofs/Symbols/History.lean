import Mathlib.Data.List.Induction
import Mathlib.Data.List.Nodup
import OnePass.Proofs.Analysis.Judgement

/-
  A symbol table and the changes that led to it.

  The changes are listed in the order in which they were
  made. A scope stays open as long as no more scopes are
  closed after it than were opened. What the table answers
  about a name follows from the one declaration of the name
  that was made in a scope that is still open; if there is
  none, the name is free. Closing a scope leads back to what
  was visible before the scope was opened.

  Main declarations:
    * `Symbols.Changes`, `Symbols.changes_of_apply`
    * `Symbols.StaysOpen`, `Symbols.Encloses`
    * `Symbols.MadeIn`, `Symbols.mem_scopeAt_iff`
    * `Symbols.InForce`
    * `Symbols.Recounts`
    * `table_recounts_history`
-/

------------------------------------------------------------
-- Changes
------------------------------------------------------------

namespace OnePass

namespace Symbols

/- The change is about variables and their scopes. -/
def Operation.IsAboutVariables : Operation → Prop
| openScope | closeScope | declareVariable _ => True
| declareFunction _ | enter _ | leave => False

/- The table, a change that can be made, and the table after. -/
inductive Changes :
    Symbols → Operation → Symbols → Prop where
  | openScope
      {table : Symbols} :
      Changes table .openScope table.openScope
  | closeScope
      {table : Symbols}
      {scope : Scope}
      {blocks : List Scope}
      (hBlocks : table.blocks = scope :: blocks) :
      Changes table .closeScope { table with blocks }
  | declareVariable
      {table : Symbols}
      {binding : Binding}
      (hFree : table.isFree binding.name = true) :
      Changes table (.declareVariable binding)
        (table.bind binding)
  | declareFunction
      {table : Symbols}
      {signature : Signature} :
      Changes table (.declareFunction signature)
        (table.withFunction signature)
  | enter
      {table : Symbols}
      {signature : Signature} :
      Changes table (.enter signature)
        (table.enter signature)
  | leave
      {table : Symbols} :
      Changes table .leave table.leave

variable {table next : Symbols}
variable {operation : Operation}

theorem changes_of_apply
    (hApply : table.apply operation = .ok next) :
    Changes table operation next := by
  cases operation with
  | openScope =>
      cases hApply
      exact .openScope
  | closeScope =>
      simp only [apply, Symbols.closeScope] at hApply
      cases hBlocks : table.blocks with
      | nil =>
          rw [hBlocks] at hApply
          cases hApply
      | cons scope blocks =>
          rw [hBlocks] at hApply
          cases hApply
          exact .closeScope hBlocks
  | declareVariable binding =>
      simp only [apply, Symbols.declareVariable] at hApply
      by_cases hFree : table.isFree binding.name = true
      · rw [if_pos hFree] at hApply
        cases hApply
        exact .declareVariable hFree
      · rw [if_neg hFree] at hApply
        cases hApply
  | declareFunction signature =>
      simp only [apply, Symbols.declareFunction,
        Functions.declare] at hApply
      by_cases hKnown :
          table.functions.contains signature.name = true
      · rw [if_pos hKnown] at hApply
        cases hApply
      · rw [if_neg hKnown] at hApply
        cases hApply
        exact .declareFunction
  | enter signature =>
      cases hApply
      exact .enter
  | leave =>
      cases hApply
      exact .leave

/- Variables and functions do not touch each other. -/
theorem Changes.separate
    (hChanges : Changes table operation next) :
    (operation.IsAboutVariables →
        next.functions = table.functions ∧
          next.current? = table.current?) ∧
      (¬ operation.IsAboutVariables →
        next.blocks = table.blocks ∧
          next.outer = table.outer) := by
  cases hChanges with
  | openScope | closeScope hBlocks =>
      simp [Operation.IsAboutVariables, Symbols.openScope]
  | declareVariable hFree =>
      simp [Operation.IsAboutVariables]
  | declareFunction | enter | leave =>
      simp [Operation.IsAboutVariables, withFunction,
        Symbols.enter, Symbols.leave]

/- A scope more is open, or one less, or as many. -/
theorem Changes.depth
    (hChanges : Changes table operation next) :
    next.depth + [operation].count .closeScope =
      table.depth + [operation].count .openScope := by
  cases hChanges with
  | openScope => rfl
  | closeScope hBlocks => simp [Symbols.depth, hBlocks]
  | declareVariable hFree => simp
  | declareFunction | enter | leave => rfl

/- Changes that are made one after the other. -/
theorem applyAll_append_eq_ok_iff
    {first second : List Operation} :
    table.applyAll (first ++ second) = .ok next ↔
      ∃ between,
        table.applyAll first = .ok between ∧
          between.applyAll second = .ok next := by
  unfold applyAll
  rw [List.foldlM_append]
  exact Analysis.then_eq_ok_iff

theorem applyAll_cons_eq_ok_iff
    {operations : List Operation} :
    table.applyAll (operation :: operations) = .ok next ↔
      ∃ between,
        table.apply operation = .ok between ∧
          between.applyAll operations = .ok next := by
  unfold applyAll
  rw [List.foldlM_cons]
  exact Analysis.then_eq_ok_iff

/- The last change comes after all the others. -/
theorem exists_of_applyAll_concat
    {operations : List Operation}
    (hRun :
      table.applyAll (operations ++ [operation]) =
        .ok next) :
    ∃ between,
      table.applyAll operations = .ok between ∧
        Changes between operation next := by
  rcases applyAll_append_eq_ok_iff.mp hRun with
    ⟨between, hFirst, hLast⟩
  rcases applyAll_cons_eq_ok_iff.mp hLast with
    ⟨after, hApply, hDone⟩
  cases hDone
  exact ⟨between, hFirst, changes_of_apply hApply⟩

end Symbols

end OnePass

------------------------------------------------------------
-- Scopes That Stay Open
------------------------------------------------------------

namespace OnePass

namespace Symbols

/-
  A scope that is open before these changes is open after
  each of them.
-/
def StaysOpen (later : List Operation) : Prop :=
  ∀ part, part <+: later →
    part.count .closeScope ≤ part.count .openScope

/-
  A scope that is open before these changes stays open, and
  at the end this many scopes are open inside it.
-/
def Encloses
    (inner : Nat)
    (later : List Operation) : Prop :=
  StaysOpen later ∧
    later.count .closeScope + inner = later.count .openScope

variable {later : List Operation}
variable {operation : Operation}
variable {inner : Nat}

theorem StaysOpen.counts
    (hOpen : StaysOpen later) :
    later.count .closeScope ≤ later.count .openScope :=
  hOpen later List.prefix_rfl

theorem staysOpen_iff_exists_encloses :
    StaysOpen later ↔ ∃ inner, Encloses inner later := by
  constructor
  · intro hOpen
    have hCounts := hOpen.counts
    refine
      ⟨later.count .openScope - later.count .closeScope,
        hOpen, ?_⟩
    omega
  · rintro ⟨inner, hOpen, -⟩
    exact hOpen

theorem encloses_nil_iff :
    Encloses inner [] ↔ inner = 0 := by
  constructor
  · intro hEncloses
    simpa using hEncloses.2
  · rintro rfl
    refine ⟨?_, rfl⟩
    intro part hPart
    rw [List.prefix_nil.mp hPart]
    exact Nat.le_refl _

theorem staysOpen_concat_iff :
    StaysOpen (later ++ [operation]) ↔
      StaysOpen later ∧
        (later ++ [operation]).count .closeScope ≤
          (later ++ [operation]).count .openScope := by
  constructor
  · intro hOpen
    refine ⟨?_, hOpen.counts⟩
    intro part hPart
    exact hOpen part (hPart.trans (List.prefix_append _ _))
  · intro hOpen part hPart
    rcases List.prefix_concat_iff.mp hPart with hAll | hPart
    · rw [hAll]
      exact hOpen.2
    · exact hOpen.1 part hPart

/- One change more, by what it does to the two counts. -/
theorem encloses_concat_iff :
    Encloses inner (later ++ [operation]) ↔
      StaysOpen later ∧
        later.count .closeScope +
            [operation].count .closeScope + inner =
          later.count .openScope +
            [operation].count .openScope := by
  unfold Encloses
  rw [staysOpen_concat_iff, List.count_append,
    List.count_append]
  constructor
  · intro hEncloses
    exact ⟨hEncloses.1.1, hEncloses.2⟩
  · intro hEncloses
    exact ⟨⟨hEncloses.1, by omega⟩, hEncloses.2⟩

theorem encloses_openScope_iff :
    Encloses (inner + 1) (later ++ [.openScope]) ↔
      Encloses inner later := by
  have hCounts :
      [Operation.openScope].count .closeScope = 0 ∧
        [Operation.openScope].count .openScope = 1 := by
    decide
  rw [encloses_concat_iff, hCounts.1, hCounts.2, Encloses]
  exact and_congr_right fun _ => by omega

/- A scope that was just opened is inside all the others. -/
theorem not_encloses_openScope :
    ¬ Encloses 0 (later ++ [.openScope]) := by
  have hCounts :
      [Operation.openScope].count .closeScope = 0 ∧
        [Operation.openScope].count .openScope = 1 := by
    decide
  rw [encloses_concat_iff, hCounts.1, hCounts.2]
  rintro ⟨hOpen, hLast⟩
  have hBefore := hOpen.counts
  omega

theorem encloses_closeScope_iff :
    Encloses inner (later ++ [.closeScope]) ↔
      Encloses (inner + 1) later := by
  have hCounts :
      [Operation.closeScope].count .closeScope = 1 ∧
        [Operation.closeScope].count .openScope = 0 := by
    decide
  rw [encloses_concat_iff, hCounts.1, hCounts.2, Encloses]
  exact and_congr_right fun _ => by omega

theorem encloses_other_iff
    (hOpen : operation ≠ .openScope)
    (hClose : operation ≠ .closeScope) :
    Encloses inner (later ++ [operation]) ↔
      Encloses inner later := by
  have hCounts :
      [operation].count .closeScope = 0 ∧
        [operation].count .openScope = 0 := by
    simp [hOpen, hClose]
  rw [encloses_concat_iff, hCounts.1, hCounts.2, Encloses]
  exact and_congr_right fun _ => by omega

end Symbols

end OnePass

------------------------------------------------------------
-- Changes In Open Scopes
------------------------------------------------------------

namespace OnePass

namespace Symbols

/-
  The change was made, and the scope that was innermost
  right after it is open at the end, with this many scopes
  inside it.
-/
def MadeIn
    (operations : List Operation)
    (inner : Nat)
    (operation : Operation) : Prop :=
  ∃ before after,
    operations = before ++ operation :: after ∧
      Encloses inner after

variable {operations : List Operation}
variable {last operation : Operation}
variable {inner : Nat}

/- The change is the last one, or comes before it. -/
theorem madeIn_concat_iff :
    MadeIn (operations ++ [last]) inner operation ↔
      last = operation ∧ inner = 0 ∨
        ∃ before after,
          operations = before ++ operation :: after ∧
            Encloses inner (after ++ [last]) := by
  constructor
  · rintro ⟨before, after, hSplit, hEncloses⟩
    rcases List.eq_nil_or_concat' after with
      rfl | ⟨later, final, rfl⟩
    · have hParts := List.append_singleton_inj.mp hSplit
      exact
        .inl ⟨hParts.2, encloses_nil_iff.mp hEncloses⟩
    · rw [← List.cons_append, ← List.append_assoc] at hSplit
      have hParts := List.append_singleton_inj.mp hSplit
      rw [hParts.2]
      exact .inr ⟨before, later, hParts.1, hEncloses⟩
  · rintro (⟨rfl, rfl⟩ | ⟨before, after, rfl, hEncloses⟩)
    · exact
        ⟨operations, [], rfl, encloses_nil_iff.mpr rfl⟩
    · exact
        ⟨before, after ++ [last], by simp, hEncloses⟩

theorem madeIn_openScope_iff :
    MadeIn (operations ++ [.openScope]) (inner + 1)
        operation ↔
      MadeIn operations inner operation := by
  rw [madeIn_concat_iff]
  simp only [encloses_openScope_iff, Nat.add_one_ne_zero,
    and_false, false_or, MadeIn]

theorem madeIn_openScope_zero_iff :
    MadeIn (operations ++ [.openScope]) 0 operation ↔
      operation = .openScope := by
  rw [madeIn_concat_iff]
  simp only [not_encloses_openScope, and_false, exists_false,
    or_false, and_true, eq_comm]

theorem madeIn_closeScope_iff
    (hOperation : operation ≠ .closeScope) :
    MadeIn (operations ++ [.closeScope]) inner operation ↔
      MadeIn operations (inner + 1) operation := by
  rw [madeIn_concat_iff]
  simp only [encloses_closeScope_iff, hOperation.symm,
    false_and, false_or, MadeIn]

/- All other changes are made in the innermost scope. -/
theorem madeIn_other_iff
    (hOpen : last ≠ .openScope)
    (hClose : last ≠ .closeScope) :
    MadeIn (operations ++ [last]) inner operation ↔
      last = operation ∧ inner = 0 ∨
        MadeIn operations inner operation := by
  rw [madeIn_concat_iff]
  simp only [encloses_other_iff hOpen hClose, MadeIn]

end Symbols

end OnePass

------------------------------------------------------------
-- Tables And Their History
------------------------------------------------------------

namespace OnePass

namespace Symbols

/- All open scopes, innermost first. -/
def scopes (table : Symbols) : List Scope :=
  table.blocks ++ [table.outer]

/- The variables of the scope that has this many inside it. -/
def scopeAt
    (table : Symbols)
    (inner : Nat) : Scope :=
  table.scopes.getD inner []

theorem mem_visible_iff
    {table : Symbols}
    {binding : Binding} :
    binding ∈ table.visible ↔
      ∃ inner, binding ∈ table.scopeAt inner := by
  have hVisible : table.visible = table.scopes.flatten := by
    simp [visible, scopes]
  rw [hVisible, List.mem_flatten]
  constructor
  · rintro ⟨scope, hScope, hBinding⟩
    rcases List.getElem?_of_mem hScope with ⟨inner, hInner⟩
    refine ⟨inner, ?_⟩
    rw [scopeAt, List.getD_eq_getElem?_getD, hInner]
    exact hBinding
  · rintro ⟨inner, hBinding⟩
    rw [scopeAt, List.getD_eq_getElem?_getD] at hBinding
    cases hInner : table.scopes[inner]? with
    | none => simp [hInner] at hBinding
    | some scope =>
        rw [hInner] at hBinding
        exact ⟨scope, List.mem_of_getElem? hInner, hBinding⟩

/- Only the innermost scope gets the new variable. -/
theorem scopeAt_bind_zero
    (table : Symbols)
    (binding : Binding) :
    (table.bind binding).scopeAt 0 =
      binding :: table.scopeAt 0 := by
  unfold bind
  cases hBlocks : table.blocks with
  | nil => simp [scopeAt, scopes, hBlocks]
  | cons scope blocks => simp [scopeAt, scopes, hBlocks]

theorem scopeAt_bind_succ
    (table : Symbols)
    (binding : Binding)
    (inner : Nat) :
    (table.bind binding).scopeAt (inner + 1) =
      table.scopeAt (inner + 1) := by
  unfold bind
  cases hBlocks : table.blocks with
  | nil => simp [scopeAt, scopes, hBlocks]
  | cons scope blocks => simp [scopeAt, scopes, hBlocks]

variable {table : Symbols}
variable {operations : List Operation}

/-
  The variables of an open scope are those that were
  declared in it.
-/
theorem mem_scopeAt_iff
    (hRun : initial.applyAll operations = .ok table)
    {inner : Nat}
    {binding : Binding} :
    binding ∈ table.scopeAt inner ↔
      MadeIn operations inner (.declareVariable binding) := by
  induction operations using List.reverseRecOn
    generalizing table inner with
  | nil =>
      cases hRun
      cases inner with
      | zero => simp [MadeIn, scopeAt, scopes, initial]
      | succ inner => simp [MadeIn, scopeAt, scopes, initial]
  | append_singleton operations operation ih =>
      rcases exists_of_applyAll_concat hRun with
        ⟨between, hFirst, hChanges⟩
      cases hChanges with
      | openScope =>
          cases inner with
          | zero =>
              rw [madeIn_openScope_zero_iff]
              simp [scopeAt, scopes, Symbols.openScope]
          | succ inner =>
              rw [madeIn_openScope_iff, ← ih hFirst]
              rfl
      | closeScope hBlocks =>
          rw [madeIn_closeScope_iff (by simp), ← ih hFirst]
          simp [scopeAt, scopes, hBlocks]
      | declareVariable hFree =>
          rw [madeIn_other_iff (by simp) (by simp),
            ← ih hFirst]
          cases inner with
          | zero =>
              rw [scopeAt_bind_zero, List.mem_cons]
              simp [eq_comm]
          | succ inner =>
              rw [scopeAt_bind_succ]
              simp
      | declareFunction | enter | leave =>
          rw [madeIn_other_iff (by simp) (by simp),
            ← ih hFirst]
          simp only [reduceCtorEq, false_and, false_or]
          rfl

/- Every open scope inside the outer one was opened. -/
theorem madeIn_openScope_of_lt
    (hRun : initial.applyAll operations = .ok table)
    {inner : Nat}
    (hInner : inner < table.depth) :
    MadeIn operations inner .openScope := by
  induction operations using List.reverseRecOn
    generalizing table inner with
  | nil =>
      cases hRun
      cases hInner
  | append_singleton operations operation ih =>
      rcases exists_of_applyAll_concat hRun with
        ⟨between, hFirst, hChanges⟩
      cases hChanges with
      | openScope =>
          cases inner with
          | zero => exact madeIn_openScope_zero_iff.mpr rfl
          | succ inner =>
              rw [madeIn_openScope_iff]
              exact ih hFirst (Nat.lt_of_succ_lt_succ hInner)
      | closeScope hBlocks =>
          rw [madeIn_closeScope_iff (by simp)]
          apply ih hFirst
          rw [depth, hBlocks]
          exact Nat.succ_lt_succ hInner
      | declareVariable hFree =>
          rw [madeIn_other_iff (by simp) (by simp)]
          exact .inr (ih hFirst (by simpa using hInner))
      | declareFunction | enter | leave =>
          rw [madeIn_other_iff (by simp) (by simp)]
          exact .inr (ih hFirst hInner)

/- The depth counts the scopes that were not closed. -/
theorem depth_of_applyAll
    (hRun : initial.applyAll operations = .ok table) :
    table.depth + operations.count .closeScope =
      operations.count .openScope := by
  induction operations using List.reverseRecOn
    generalizing table with
  | nil =>
      cases hRun
      rfl
  | append_singleton operations operation ih =>
      rcases exists_of_applyAll_concat hRun with
        ⟨between, hFirst, hChanges⟩
      have hBefore := ih hFirst
      have hDepth := hChanges.depth
      rw [List.count_append, List.count_append]
      omega

/- No two visible variables have one name. -/
theorem distinct_of_applyAll
    (hRun : initial.applyAll operations = .ok table) :
    (table.visible.map Binding.name).Nodup := by
  induction operations using List.reverseRecOn
    generalizing table with
  | nil =>
      cases hRun
      exact List.nodup_nil
  | append_singleton operations operation ih =>
      rcases exists_of_applyAll_concat hRun with
        ⟨between, hFirst, hChanges⟩
      have hBefore := ih hFirst
      cases hChanges with
      | openScope | declareFunction | enter | leave =>
          exact hBefore
      | closeScope hBlocks =>
          rw [visible, hBlocks, List.flatten_cons,
            List.append_assoc, List.map_append] at hBefore
          exact hBefore.of_append_right
      | declareVariable hFree =>
          rw [visible_bind, List.map_cons, List.nodup_cons]
          refine ⟨?_, hBefore⟩
          intro hTaken
          rcases List.mem_map.mp hTaken with
            ⟨other, hOther, hName⟩
          exact isFree_iff.mp hFree other hOther hName

end Symbols

end OnePass

------------------------------------------------------------
-- Declarations In Force
------------------------------------------------------------

namespace OnePass

namespace Symbols

/-
  After the first changes a variable is declared, in a scope
  that is open at the end.
-/
def DeclaredAfter
    (operations before : List Operation)
    (binding : Binding) : Prop :=
  ∃ after,
    operations =
        before ++ .declareVariable binding :: after ∧
      StaysOpen after

/- The variable that a name stands for after the changes. -/
def InForce
    (operations : List Operation)
    (name : String)
    (binding : Binding) : Prop :=
  binding.name = name ∧
    ∃ before, DeclaredAfter operations before binding

variable {table : Symbols}
variable {operations : List Operation}

theorem mem_visible_iff_declaredAfter
    (hRun : initial.applyAll operations = .ok table)
    {binding : Binding} :
    binding ∈ table.visible ↔
      ∃ before, DeclaredAfter operations before binding := by
  rw [mem_visible_iff]
  simp only [mem_scopeAt_iff hRun, MadeIn, DeclaredAfter,
    staysOpen_iff_exists_encloses]
  constructor
  · rintro ⟨inner, before, after, hSplit, hEncloses⟩
    exact ⟨before, after, hSplit, inner, hEncloses⟩
  · rintro ⟨before, after, hSplit, inner, hEncloses⟩
    exact ⟨inner, before, after, hSplit, hEncloses⟩

/- A variable is found exactly if its declaration counts. -/
theorem lookup_eq_some_iff_inForce
    (hRun : initial.applyAll operations = .ok table)
    {name : String}
    {binding : Binding} :
    table.lookup name = some binding ↔
      InForce operations name binding := by
  unfold lookup InForce
  rw [Analysis.find?_name_eq_some_iff
      (distinct_of_applyAll hRun),
    mem_visible_iff_declaredAfter hRun, and_comm]

theorem lookup_eq_none_iff_inForce
    (hRun : initial.applyAll operations = .ok table)
    {name : String} :
    table.lookup name = none ↔
      ∀ binding, ¬ InForce operations name binding := by
  simp only [← lookup_eq_some_iff_inForce hRun]
  exact Option.eq_none_iff_forall_ne_some

/-
  A name is not declared again while a declaration of it
  counts.
-/
theorem name_ne_of_declared_earlier
    (hRun : initial.applyAll operations = .ok table)
    {before between after : List Operation}
    {first second : Binding}
    (hSplit :
      operations =
        before ++ .declareVariable first ::
          (between ++ .declareVariable second :: after))
    (hOpen :
      StaysOpen
        (between ++ .declareVariable second :: after)) :
    first.name ≠ second.name := by
  have hParts :
      operations =
        (before ++ .declareVariable first :: between) ++
          .declareVariable second :: after := by
    rw [hSplit, List.append_assoc, List.cons_append]
  rw [hParts, applyAll_append_eq_ok_iff] at hRun
  rcases hRun with ⟨middle, hFirst, hSecond⟩
  rcases applyAll_cons_eq_ok_iff.mp hSecond with
    ⟨next, hDeclare, -⟩
  have hVisible : first ∈ middle.visible := by
    rw [mem_visible_iff_declaredAfter hFirst]
    refine ⟨before, between, rfl, ?_⟩
    intro part hPart
    exact hOpen part (hPart.trans (List.prefix_append _ _))
  cases changes_of_apply hDeclare with
  | declareVariable hFree =>
      exact isFree_iff.mp hFree first hVisible

/- Only one declaration of a name counts. -/
theorem declaredAfter_unique
    (hRun : initial.applyAll operations = .ok table)
    {before before' : List Operation}
    {first second : Binding}
    (hFirst : DeclaredAfter operations before first)
    (hSecond : DeclaredAfter operations before' second)
    (hName : first.name = second.name) :
    before = before' ∧ first = second := by
  rcases hFirst with ⟨after, hSplit, hOpen⟩
  rcases hSecond with ⟨after', hSplit', hOpen'⟩
  rcases List.append_eq_append_iff.mp
      (hSplit.symm.trans hSplit') with
    ⟨between, hBefore, hRest⟩ | ⟨between, hBefore, hRest⟩
  · cases between with
    | nil =>
        cases hRest
        exact ⟨by simpa using hBefore.symm, rfl⟩
    | cons operation between =>
        cases hRest
        exact
          absurd hName
            (name_ne_of_declared_earlier hRun hSplit hOpen)
  · cases between with
    | nil =>
        cases hRest
        exact ⟨by simpa using hBefore, rfl⟩
    | cons operation between =>
        cases hRest
        exact
          absurd hName.symm
            (name_ne_of_declared_earlier hRun hSplit' hOpen')

end Symbols

end OnePass

------------------------------------------------------------
-- Closed Scopes
------------------------------------------------------------

namespace OnePass

namespace Symbols

/- Every scope that these changes open is closed again. -/
abbrev Balanced (inside : List Operation) : Prop :=
  Encloses 0 inside

/-
  What happens inside a scope leaves the scopes around it as
  they are.
-/
theorem drop_blocks_of_encloses
    {table after : Symbols}
    {inside : List Operation}
    (hRun : table.openScope.applyAll inside = .ok after)
    {inner : Nat}
    (hEncloses : Encloses inner inside) :
    after.depth = table.depth + (inner + 1) ∧
      after.blocks.drop (inner + 1) = table.blocks ∧
        after.outer = table.outer := by
  induction inside using List.reverseRecOn
    generalizing after inner with
  | nil =>
      cases hRun
      rw [encloses_nil_iff] at hEncloses
      subst hEncloses
      exact ⟨rfl, rfl, rfl⟩
  | append_singleton inside operation ih =>
      rcases exists_of_applyAll_concat hRun with
        ⟨between, hFirst, hChanges⟩
      cases hChanges with
      | openScope =>
          cases inner with
          | zero => exact absurd hEncloses not_encloses_openScope
          | succ inner =>
              rw [encloses_openScope_iff] at hEncloses
              rcases ih hFirst hEncloses with
                ⟨hDepth, hBlocks, hOuter⟩
              exact
                ⟨congrArg (· + 1) hDepth, hBlocks, hOuter⟩
      | closeScope hInner =>
          rw [encloses_closeScope_iff] at hEncloses
          rcases ih hFirst hEncloses with
            ⟨hDepth, hBlocks, hOuter⟩
          rw [depth, hInner] at hDepth
          rw [hInner] at hBlocks
          exact ⟨Nat.succ.inj hDepth, hBlocks, hOuter⟩
      | declareVariable hFree =>
          rw [encloses_other_iff (by simp) (by simp)]
            at hEncloses
          rcases ih hFirst hEncloses with
            ⟨hDepth, hBlocks, hOuter⟩
          have hOpen : 0 < between.depth := by omega
          rw [depth_bind, outer_bind hOpen]
          refine ⟨hDepth, ?_, hOuter⟩
          unfold bind
          cases hInner : between.blocks with
          | nil => simp [depth, hInner] at hOpen
          | cons scope blocks =>
              rw [hInner] at hBlocks
              exact hBlocks
      | declareFunction | enter | leave =>
          rw [encloses_other_iff (by simp) (by simp)]
            at hEncloses
          exact ih hFirst hEncloses

/- A scope that is closed was opened, and what it had is gone. -/
theorem scopes_of_closeScope
    {table : Symbols}
    {before inside : List Operation}
    (hRun :
      initial.applyAll
          (before ++ .openScope ::
            (inside ++ [.closeScope])) =
        .ok table)
    (hBalanced : Balanced inside) :
    ∃ earlier,
      initial.applyAll before = .ok earlier ∧
        table.blocks = earlier.blocks ∧
          table.outer = earlier.outer := by
  rcases applyAll_append_eq_ok_iff.mp hRun with
    ⟨earlier, hBefore, hScope⟩
  rcases applyAll_cons_eq_ok_iff.mp hScope with
    ⟨opened, hOpen, hRest⟩
  cases hOpen
  rcases exists_of_applyAll_concat hRest with
    ⟨between, hInside, hChanges⟩
  rcases drop_blocks_of_encloses hInside hBalanced with
    ⟨-, hBlocks, hOuter⟩
  refine ⟨earlier, hBefore, ?_⟩
  cases hChanges with
  | closeScope hInner =>
      rw [hInner] at hBlocks
      exact ⟨hBlocks, hOuter⟩

/- Every scope that is closed was opened before. -/
theorem exists_opened_of_closeScope
    {table : Symbols}
    {history : List Operation}
    (hRun :
      initial.applyAll (history ++ [.closeScope]) =
        .ok table) :
    ∃ before inside,
      history = before ++ .openScope :: inside ∧
        Balanced inside := by
  rcases exists_of_applyAll_concat hRun with
    ⟨between, hFirst, hChanges⟩
  cases hChanges with
  | closeScope hBlocks =>
      apply madeIn_openScope_of_lt hFirst
      rw [depth, hBlocks]
      exact Nat.succ_pos _

end Symbols

end OnePass

------------------------------------------------------------
-- What A Table Recounts
------------------------------------------------------------

namespace OnePass

namespace Symbols

/- What a table answers, read off the changes that led to it. -/
structure Recounts
    (table : Symbols)
    (operations : List Operation) : Prop where
  /- The open scopes are those opened and not closed. -/
  depth :
    table.depth + operations.count .closeScope =
      operations.count .openScope
  /- No two visible variables have one name. -/
  distinct : (table.visible.map Binding.name).Nodup
  /- One declaration of a name is in force, if any. -/
  once :
    ∀ before before' first second,
      DeclaredAfter operations before first →
        DeclaredAfter operations before' second →
          first.name = second.name →
            before = before' ∧ first = second
  /- The variable in force is what all answers are about. -/
  found :
    ∀ name binding,
      InForce operations name binding →
        table.lookup name = some binding ∧
          table.isVisible name = true ∧
            table.isFree name = false ∧
              table.isConst name = binding.isConst ∧
                table.typeOf? name = some binding.ty ∧
                  ∀ span,
                    table.valueType name span =
                      .ok binding.ty
  /- Without one the name is free. -/
  absent :
    ∀ name,
      (∀ binding, ¬ InForce operations name binding) →
        table.lookup name = none ∧
          table.isVisible name = false ∧
            table.isFree name = true ∧
              table.isConst name = false ∧
                table.typeOf? name = none ∧
                  ∀ span,
                    table.valueType name span =
                      .error
                        (.pointAt (.undefinedVariable name)
                          span)
  /- A scope that was closed last had been opened. -/
  opened :
    ∀ history,
      operations = history ++ [.closeScope] →
        ∃ before inside,
          history = before ++ .openScope :: inside ∧
            Balanced inside
  /- It leads back to what was there before it was opened. -/
  restored :
    ∀ before inside,
      operations =
          before ++ .openScope :: (inside ++ [.closeScope]) →
        Balanced inside →
          ∃ earlier,
            initial.applyAll before = .ok earlier ∧
              table.blocks = earlier.blocks ∧
                table.outer = earlier.outer
  /- Changes to the variables leave the functions alone. -/
  functionsKept :
    ∀ operation next,
      operation.IsAboutVariables →
        table.apply operation = .ok next →
          next.functions = table.functions ∧
            next.current? = table.current?
  /- Changes to the functions leave the variables alone. -/
  variablesKept :
    ∀ operation next,
      ¬ operation.IsAboutVariables →
        table.apply operation = .ok next →
          ∀ name, next.lookup name = table.lookup name

end Symbols

open Symbols

/-
  However changes follow each other, as long as each can be
  made, the table recounts them.
-/
theorem table_recounts_history
    {operations : List Symbols.Operation}
    {table : Symbols}
    (hRun :
      Symbols.initial.applyAll operations = .ok table) :
    table.Recounts operations where
  depth := depth_of_applyAll hRun
  distinct := distinct_of_applyAll hRun
  once _ _ _ _ := declaredAfter_unique hRun
  found name binding hForce := by
    have hLookup :=
      (lookup_eq_some_iff_inForce hRun).mpr hForce
    simp [hLookup, isVisible, isFree, isConst, typeOf?,
      Symbols.valueType]
  absent name hAbsent := by
    have hLookup :=
      (lookup_eq_none_iff_inForce hRun).mpr hAbsent
    simp [hLookup, isVisible, isFree, isConst, typeOf?,
      Symbols.valueType]
  opened history hHistory := by
    rw [hHistory] at hRun
    exact exists_opened_of_closeScope hRun
  restored before inside hScope hBalanced := by
    rw [hScope] at hRun
    exact scopes_of_closeScope hRun hBalanced
  functionsKept operation next hVariables hApply :=
    (changes_of_apply hApply).separate.1 hVariables
  variablesKept operation next hFunctions hApply name := by
    rcases (changes_of_apply hApply).separate.2
        hFunctions with
      ⟨hBlocks, hOuter⟩
    rw [lookup, lookup, visible, visible, hBlocks, hOuter]

/-
  A scope with a variable and with another scope in it, in
  which a function is declared and a name is used again.
-/
def reusedName : List Symbols.Operation :=
  [.declareVariable ⟨"w", .int, true⟩, .openScope,
    .declareVariable ⟨"x", .int, false⟩, .openScope,
    .declareVariable ⟨"y", .bool, true⟩, .closeScope,
    .declareFunction ⟨"y", .void, [.byte]⟩,
    .declareVariable ⟨"y", .byte, false⟩, .closeScope]

theorem table_recounts_reusedName :
    ∃ table,
      Symbols.initial.applyAll reusedName = .ok table ∧
        table.Recounts reusedName :=
  ⟨_, rfl, table_recounts_history rfl⟩

end OnePass
