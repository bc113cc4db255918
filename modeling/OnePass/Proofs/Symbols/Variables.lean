import OnePass.Analysis.Effect

/-
  Variables in scope.

  The visible variables are those of all open scopes. Here
  is what the operations on scopes do to them, and when the
  formals of a function can be declared together.

  Main declarations:
    * `Symbols.visible_bind`
    * `Symbols.isFree_iff`
    * `Symbols.bindAll`
    * `Analysis.firstConflict?_eq_none_iff`
    * `Analysis.bindFormals_eq_ok`
-/

------------------------------------------------------------
-- Visible Variables
------------------------------------------------------------

namespace OnePass

namespace Symbols

variable (table : Symbols)

/- A new variable is the innermost and newest one. -/
@[simp] theorem visible_bind
    (binding : Binding) :
    (table.bind binding).visible =
      binding :: table.visible := by
  unfold bind visible
  cases hBlocks : table.blocks with
  | nil => rfl
  | cons scope blocks => rfl

/- A name is free if no visible variable has it. -/
theorem isFree_iff
    {table : Symbols}
    {name : String} :
    table.isFree name = true ↔
      ∀ binding ∈ table.visible, binding.name ≠ name := by
  unfold isFree lookup
  simp [Option.isNone_iff_eq_none, List.find?_eq_none]

/- A variable is declared exactly if its name is free. -/
theorem declareVariable_of_isFree
    {table : Symbols}
    {binding : Binding}
    (hFree : table.isFree binding.name = true) :
    table.declareVariable binding =
      .ok (table.bind binding) := by
  unfold declareVariable
  rw [if_pos hFree]

@[simp] theorem depth_bind
    (binding : Binding) :
    (table.bind binding).depth = table.depth := by
  unfold bind depth
  cases hBlocks : table.blocks with
  | nil => simp
  | cons scope blocks => simp

/- Only the innermost scope changes. -/
theorem outer_bind
    {table : Symbols}
    (hDepth : 0 < table.depth)
    (binding : Binding) :
    (table.bind binding).outer = table.outer := by
  unfold bind
  cases hBlocks : table.blocks with
  | nil => simp [depth, hBlocks] at hDepth
  | cons scope blocks => rfl

@[simp] theorem functions_bind
    (binding : Binding) :
    (table.bind binding).functions = table.functions := by
  unfold bind
  cases hBlocks : table.blocks with
  | nil => rfl
  | cons scope blocks => rfl

@[simp] theorem current?_bind
    (binding : Binding) :
    (table.bind binding).current? = table.current? := by
  unfold bind
  cases hBlocks : table.blocks with
  | nil => rfl
  | cons scope blocks => rfl

end Symbols

end OnePass

------------------------------------------------------------
-- Several Variables
------------------------------------------------------------

namespace OnePass

namespace Symbols

/- Add variables to the innermost scope, in this order. -/
def bindAll
    (table : Symbols)
    (bindings : List Binding) : Symbols :=
  bindings.foldl bind table

@[simp] theorem bindAll_cons
    (table : Symbols)
    (binding : Binding)
    (bindings : List Binding) :
    table.bindAll (binding :: bindings) =
      (table.bind binding).bindAll bindings :=
  rfl

@[simp] theorem visible_bindAll
    (table : Symbols)
    (bindings : List Binding) :
    (table.bindAll bindings).visible =
      bindings.reverse ++ table.visible := by
  induction bindings generalizing table with
  | nil => rfl
  | cons binding bindings ih =>
      rw [bindAll_cons, ih, visible_bind]
      simp

@[simp] theorem depth_bindAll
    (table : Symbols)
    (bindings : List Binding) :
    (table.bindAll bindings).depth = table.depth := by
  induction bindings generalizing table with
  | nil => rfl
  | cons binding bindings ih =>
      rw [bindAll_cons, ih, depth_bind]

theorem outer_bindAll
    {table : Symbols}
    (hDepth : 0 < table.depth)
    (bindings : List Binding) :
    (table.bindAll bindings).outer = table.outer := by
  induction bindings generalizing table with
  | nil => rfl
  | cons binding bindings ih =>
      have hBound : 0 < (table.bind binding).depth := by
        simpa using hDepth
      rw [bindAll_cons, ih hBound, outer_bind hDepth]

@[simp] theorem functions_bindAll
    (table : Symbols)
    (bindings : List Binding) :
    (table.bindAll bindings).functions = table.functions := by
  induction bindings generalizing table with
  | nil => rfl
  | cons binding bindings ih =>
      rw [bindAll_cons, ih, functions_bind]

@[simp] theorem current?_bindAll
    (table : Symbols)
    (bindings : List Binding) :
    (table.bindAll bindings).current? = table.current? := by
  induction bindings generalizing table with
  | nil => rfl
  | cons binding bindings ih =>
      rw [bindAll_cons, ih, current?_bind]

theorem bindAll_append
    (table : Symbols)
    (first second : List Binding) :
    table.bindAll (first ++ second) =
      (table.bindAll first).bindAll second :=
  List.foldl_append

/- Variables are forgotten with the scope they are in. -/
theorem closeScope_bindAll
    {table : Symbols}
    {scope : Scope}
    {blocks : List Scope}
    (hBlocks : table.blocks = scope :: blocks)
    (bindings : List Binding) :
    (table.bindAll bindings).closeScope =
      .ok { table with blocks } := by
  induction bindings generalizing table scope with
  | nil =>
      change table.closeScope = _
      unfold closeScope
      rw [hBlocks]
  | cons binding bindings ih =>
      have hBind :
          table.bind binding =
            { table with
              blocks := (binding :: scope) :: blocks } := by
        unfold bind
        rw [hBlocks]
      rw [bindAll_cons, hBind]
      exact ih rfl

end Symbols

end OnePass

------------------------------------------------------------
-- Formals
------------------------------------------------------------

namespace OnePass

/- A formal, as a variable. -/
def Formal.binding (formal : Formal) : Binding :=
  ⟨formal.name.name, formal.ty, formal.isConst⟩

namespace Analysis

/- No name is taken, and none is used twice. -/
theorem firstConflict?_eq_none_iff
    {taken : String → Bool}
    {formals : List Formal} :
    firstConflict? taken formals = none ↔
      (formals.map (·.name.name)).Nodup ∧
        ∀ formal ∈ formals,
          taken formal.name.name = false := by
  induction formals generalizing taken with
  | nil => simp [firstConflict?]
  | cons formal formals ih =>
      unfold firstConflict?
      by_cases hTaken : taken formal.name.name = true
      · simp [hTaken]
      · rw [if_neg hTaken, ih]
        simp only [Bool.not_eq_true] at hTaken
        simp only [Bool.or_eq_false_iff, decide_eq_false_iff_not,
          List.map_cons, List.nodup_cons, List.mem_map,
          List.forall_mem_cons, not_exists, not_and]
        constructor
        · rintro ⟨hNodup, hRest⟩
          exact
            ⟨⟨fun other hOther => (hRest other hOther).1,
                hNodup⟩,
              hTaken, fun other hOther =>
                (hRest other hOther).2⟩
        · rintro ⟨⟨hNew, hNodup⟩, -, hFree⟩
          exact
            ⟨hNodup, fun other hOther =>
              ⟨hNew other hOther, hFree other hOther⟩⟩

/- Formals with different free names can be declared. -/
theorem bindFormals_eq_ok
    (table : Symbols)
    (formals : List Formal)
    (hNames : (formals.map (·.name.name)).Nodup)
    (hFree :
      ∀ formal ∈ formals,
        table.isFree formal.name.name = true) :
    bindFormals table formals =
      .ok (table.bindAll (formals.map Formal.binding)) := by
  induction formals generalizing table with
  | nil => rfl
  | cons formal formals ih =>
      have hParts := List.forall_mem_cons.mp hFree
      have hNames := List.nodup_cons.mp hNames
      have hBound :
          table.declareVariable formal.binding =
            .ok (table.bind formal.binding) :=
        Symbols.declareVariable_of_isFree hParts.1
      unfold bindFormals
      rw [List.foldlM_cons]
      change
        (table.declareVariable formal.binding >>=
          fun next => bindFormals next formals) = _
      rw [hBound]
      apply ih (table.bind formal.binding) hNames.2
      intro other hOther
      have hOtherFree := Symbols.isFree_iff.mp (hParts.2 _ hOther)
      apply Symbols.isFree_iff.mpr
      intro binding hBinding
      rw [Symbols.visible_bind] at hBinding
      rcases List.mem_cons.mp hBinding with rfl | hOld
      · intro hSame
        exact
          hNames.1 (List.mem_map.mpr ⟨other, hOther, hSame.symm⟩)
      · exact hOtherFree binding hOld

end Analysis

end OnePass

------------------------------------------------------------
-- Function Bodies
------------------------------------------------------------

namespace OnePass

namespace Symbols

/- The table in which one more function is known. -/
def withFunction
    (table : Symbols)
    (signature : Signature) : Symbols :=
  { table with functions := table.functions.append signature }

/-
  The table inside a new function, before any statement: the
  function is known, and its formals are in a new scope.
-/
def inside
    (table : Symbols)
    (signature : Signature)
    (formals : List Formal) : Symbols :=
  ((table.withFunction signature).enter
    signature).openScope.bindAll
      (formals.map Formal.binding)

@[simp] theorem depth_inside
    (table : Symbols)
    (signature : Signature)
    (formals : List Formal) :
    (table.inside signature formals).depth =
      table.depth + 1 := by
  rw [inside, depth_bindAll]
  rfl

@[simp] theorem outer_inside
    (table : Symbols)
    (signature : Signature)
    (formals : List Formal) :
    (table.inside signature formals).outer = table.outer := by
  have hDepth :
      0 <
        ((table.withFunction signature).enter
          signature).openScope.depth :=
    Nat.succ_pos _
  rw [inside, outer_bindAll hDepth]
  rfl

@[simp] theorem visible_inside
    (table : Symbols)
    (signature : Signature)
    (formals : List Formal) :
    (table.inside signature formals).visible =
      (formals.map Formal.binding).reverse ++
        table.visible := by
  rw [inside, visible_bindAll]
  rfl

@[simp] theorem functions_inside
    (table : Symbols)
    (signature : Signature)
    (formals : List Formal) :
    (table.inside signature formals).functions =
      table.functions.append signature := by
  rw [inside, functions_bindAll]
  rfl

@[simp] theorem current?_inside
    (table : Symbols)
    (signature : Signature)
    (formals : List Formal) :
    (table.inside signature formals).current? =
      some signature := by
  rw [inside, current?_bindAll]
  rfl

end Symbols

namespace Analysis

/-
  The formals have different names, which are free and not
  the name of the function.
-/
def FormalsFit
    (table : Symbols)
    (name : Identifier)
    (formals : List Formal) : Prop :=
  (formals.map (·.name.name)).Nodup ∧
    ∀ formal ∈ formals,
      formal.name.name ≠ name.name ∧
        table.isFree formal.name.name = true

section Declaring

variable {state : State}
variable {returns : Ty}
variable {name : Identifier}
variable {formals : List Formal}

/- The formals fit exactly if no conflict is found. -/
theorem formalsFit_iff
    {table : Symbols} :
    FormalsFit table name formals ↔
      firstConflict?
          (fun candidate =>
            candidate = name.name || !table.isFree candidate)
          formals =
        none := by
  rw [firstConflict?_eq_none_iff]
  simp [FormalsFit]

theorem declareFunction_of_formalsFit
    (hNew : state.symbols.isFunction name.name = false)
    (hFormals : FormalsFit state.symbols name formals) :
    declareFunction state returns name formals =
      .ok { state with
        symbols :=
          state.symbols.inside
            (signatureOf returns name formals) formals } := by
  have hDeclare :
      state.symbols.declareFunction
          (signatureOf returns name formals) =
        .ok
          (state.symbols.withFunction
            (signatureOf returns name formals)) := by
    unfold Symbols.declareFunction Functions.declare
    rw [if_neg]
    · rfl
    · change ¬ state.symbols.isFunction name.name = true
      simp [hNew]
  have hBind :=
    bindFormals_eq_ok
      ((state.symbols.withFunction
        (signatureOf returns name formals)).enter
          (signatureOf returns name formals)).openScope
      formals hFormals.1
      (fun formal hFormal => (hFormals.2 formal hFormal).2)
  unfold declareFunction
  simp only [formalsFit_iff.mp hFormals, hDeclare]
  change
    (do
      let symbols ← guarded (bindFormals _ formals)
      return { state with symbols }) = _
  rw [hBind]
  rfl

/- A function that is known must not be declared again. -/
theorem declareFunction_of_isFunction
    (hKnown : state.symbols.isFunction name.name = true)
    (hFormals : FormalsFit state.symbols name formals) :
    declareFunction state returns name formals =
      .error (.fault (.functionRedeclared name.name)) := by
  have hDeclare :
      state.symbols.declareFunction
          (signatureOf returns name formals) =
        .error (.functionRedeclared name.name) := by
    unfold Symbols.declareFunction Functions.declare
    rw [if_pos]
    · rfl
    · exact hKnown
  unfold declareFunction
  simp only [formalsFit_iff.mp hFormals, hDeclare]
  rfl

theorem declareFunction_of_not_formalsFit
    (hFormals : ¬ FormalsFit state.symbols name formals) :
    ∃ formal : Identifier,
      declareFunction state returns name formals =
        reject (.redefinition formal.name) formal.span := by
  rw [formalsFit_iff] at hFormals
  rcases Option.ne_none_iff_exists'.mp hFormals with
    ⟨formal, hConflict⟩
  refine ⟨formal, ?_⟩
  unfold declareFunction
  simp only [hConflict]

end Declaring

end Analysis

end OnePass
