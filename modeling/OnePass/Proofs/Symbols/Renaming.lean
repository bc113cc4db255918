import Mathlib.Logic.Function.Basic
import OnePass.Symbols.Basic

/-
  Other names for variables and functions.

  A renaming keeps different names different, and keeps the
  names of the library and of the entry point. A table whose
  names are changed answers for the new name what it
  answered for the old one.

  Key definitions include:
    * `Renaming`
    * `Functions.rename`
    * `Symbols.rename`
    * `Concur`

  Main declarations:
    * `Functions.get?_rename`
    * `Symbols.lookup_rename`
    * `Symbols.concur_declareVariable`
    * `Symbols.concur_declareFunction`
-/

------------------------------------------------------------
-- Renamings
------------------------------------------------------------

namespace OnePass

/-
  A change of names. Names that have a meaning of their own
  are kept.
-/
structure Renaming where
  apply : String → String
  injective : Function.Injective apply
  entryPoint :
    apply Signature.entryPoint.name =
      Signature.entryPoint.name
  library :
    ∀ signature ∈ Functions.library,
      apply signature.name = signature.name

namespace Renaming

/- Every name is kept. -/
def identity : Renaming where
  apply := id
  injective := Function.injective_id
  entryPoint := rfl
  library _ _ := rfl

@[simp] theorem apply_inj
    (names : Renaming)
    {first second : String} :
    names.apply first = names.apply second ↔
      first = second :=
  names.injective.eq_iff

end Renaming

/- A variable under its new name. -/
def Binding.rename
    (names : Renaming)
    (binding : Binding) : Binding :=
  { binding with name := names.apply binding.name }

/- A signature under its new name. -/
def Signature.rename
    (names : Renaming)
    (signature : Signature) : Signature :=
  { signature with name := names.apply signature.name }

/- Only the entry point is renamed to the entry point. -/
@[simp] theorem Signature.isEntryPoint_rename
    (names : Renaming)
    (signature : Signature) :
    (signature.rename names).isEntryPoint =
      signature.isEntryPoint := by
  rcases signature with ⟨name, returns, parameters⟩
  have hName :
      names.apply name = "main" ↔ name = "main" := by
    have hMain : names.apply "main" = "main" :=
      names.entryPoint
    constructor
    · intro hNew
      exact names.injective (hNew.trans hMain.symm)
    · intro hOld
      rw [hOld, hMain]
  simp [isEntryPoint, entryPoint, rename, hName]

/- The rule that was broken, with the new name in it. -/
def Fault.rename
    (names : Renaming) : Fault → Fault
| functionRedeclared name =>
    .functionRedeclared (names.apply name)
| variableVisible name =>
    .variableVisible (names.apply name)
| outerScopeClosed => .outerScopeClosed
| noOpenLoop => .noOpenLoop
| widenedNonNumeral => .widenedNonNumeral

end OnePass

------------------------------------------------------------
-- Functions
------------------------------------------------------------

namespace OnePass

namespace Functions

variable (names : Renaming)
variable (table : Functions)

/- The same functions under their new names. -/
def rename : Functions where
  signatures := table.signatures.map (·.rename names)
  index :=
    table.index.map fun entry =>
      (names.apply entry.1, entry.2)
  libraryCount := table.libraryCount

/- A new name has the position of the old one. -/
theorem lookup_rename
    (name : String) :
    (table.rename names).index.lookup
        (names.apply name) =
      table.index.lookup name := by
  unfold rename
  simp only
  induction table.index with
  | nil => rfl
  | cons entry index ih =>
      rw [List.map_cons, List.lookup_cons,
        names.injective.beq_eq, ih, ← List.lookup_cons]

@[simp] theorem contains_rename
    (name : String) :
    (table.rename names).contains (names.apply name) =
      table.contains name := by
  unfold contains
  rw [lookup_rename]

@[simp] theorem get?_rename
    (name : String) :
    (table.rename names).get? (names.apply name) =
      (table.get? name).map (·.rename names) := by
  unfold get?
  rw [lookup_rename]
  cases table.index.lookup name with
  | none => rfl
  | some position => exact List.getElem?_map ..

theorem append_rename
    (signature : Signature) :
    (table.append signature).rename names =
      (table.rename names).append
        (signature.rename names) := by
  simp [rename, append, Signature.rename]

@[simp] theorem declared_rename :
    (table.rename names).declared =
      table.declared.map (·.rename names) :=
  List.map_drop.symm

/- The library keeps its names. -/
@[simp] theorem withLibrary_rename :
    withLibrary.rename names = withLibrary := by
  have hPrint : names.apply "print" = "print" :=
    names.library ⟨"print", .void, [.string]⟩
      (by decide)
  have hPrinti : names.apply "printi" = "printi" :=
    names.library ⟨"printi", .void, [.int]⟩ (by decide)
  simp [withLibrary, library, empty, append, rename,
    Signature.rename, hPrint, hPrinti]

end Functions

end OnePass

------------------------------------------------------------
-- Symbol Tables
------------------------------------------------------------

namespace OnePass

namespace Symbols

variable (names : Renaming)
variable (table : Symbols)

/- The same variables and functions under their new names. -/
def rename : Symbols where
  blocks :=
    table.blocks.map (List.map (·.rename names))
  outer := table.outer.map (·.rename names)
  functions := table.functions.rename names
  current? := table.current?.map (·.rename names)

@[simp] theorem initial_rename :
    initial.rename names = initial := by
  simp [initial, rename]

theorem visible_rename :
    (table.rename names).visible =
      table.visible.map (·.rename names) := by
  simp [visible, rename, List.map_flatten]

@[simp] theorem lookup_rename
    (name : String) :
    (table.rename names).lookup (names.apply name) =
      (table.lookup name).map (·.rename names) := by
  unfold lookup
  rw [visible_rename, List.find?_map]
  congr 2
  funext binding
  simp [Binding.rename]

@[simp] theorem isFree_rename
    (name : String) :
    (table.rename names).isFree (names.apply name) =
      table.isFree name := by
  simp [isFree]

@[simp] theorem isFunction_rename
    (name : String) :
    (table.rename names).isFunction
        (names.apply name) =
      table.isFunction name :=
  table.functions.contains_rename names name

@[simp] theorem signature?_rename
    (name : String) :
    (table.rename names).signature?
        (names.apply name) =
      (table.signature? name).map (·.rename names) :=
  table.functions.get?_rename names name

theorem bind_rename
    (binding : Binding) :
    (table.bind binding).rename names =
      (table.rename names).bind
        (binding.rename names) := by
  unfold bind
  cases hBlocks : table.blocks with
  | nil => simp [rename, hBlocks]
  | cons scope blocks => simp [rename, hBlocks]

end Symbols

end OnePass

------------------------------------------------------------
-- Outcomes
------------------------------------------------------------

namespace OnePass

section Outcomes

variable {ε ε' α α' β β' : Type}

/- Both outcomes are answers, or both are errors. -/
inductive Concur
    (Reason : ε → ε' → Prop)
    (Answer : α → α' → Prop) :
    Except ε α → Except ε' α' → Prop where
  | ok
      {left : α}
      {right : α'}
      (hAnswer : Answer left right) :
      Concur Reason Answer (.ok left) (.ok right)
  | error
      {left : ε}
      {right : ε'}
      (hReason : Reason left right) :
      Concur Reason Answer (.error left) (.error right)

theorem Concur.bind
    {Reason : ε → ε' → Prop}
    {Answer : α → α' → Prop}
    {Answer' : β → β' → Prop}
    {first : Except ε α}
    {first' : Except ε' α'}
    {next : α → Except ε β}
    {next' : α' → Except ε' β'}
    (hFirst : Concur Reason Answer first first')
    (hNext :
      ∀ answer answer',
        Answer answer answer' →
          Concur Reason Answer' (next answer)
            (next' answer')) :
    Concur Reason Answer' (first >>= next)
      (first' >>= next') := by
  cases hFirst with
  | ok hAnswer => exact hNext _ _ hAnswer
  | error hReason => exact .error hReason

end Outcomes

namespace Symbols

variable (names : Renaming)
variable (table : Symbols)

/- The same outcome of an operation, under new names. -/
abbrev ConcurRenamed :
    Except Fault Symbols → Except Fault Symbols → Prop :=
  Concur
    (fun old new => new = old.rename names)
    (fun old new => new = old.rename names)

theorem concur_closeScope :
    ConcurRenamed names table.closeScope
      (table.rename names).closeScope := by
  unfold closeScope
  cases hBlocks : table.blocks with
  | nil =>
      simp only [rename, hBlocks, List.map_nil]
      exact .error rfl
  | cons scope blocks =>
      simp only [rename, hBlocks, List.map_cons]
      exact .ok rfl

theorem concur_declareVariable
    (binding : Binding) :
    ConcurRenamed names (table.declareVariable binding)
      ((table.rename names).declareVariable
        (binding.rename names)) := by
  have hFree :
      (table.rename names).isFree
          (binding.rename names).name =
        table.isFree binding.name :=
    table.isFree_rename names binding.name
  unfold declareVariable
  rw [hFree]
  split
  · exact .ok (table.bind_rename names binding).symm
  · exact .error rfl

theorem concur_declareFunction
    (signature : Signature) :
    ConcurRenamed names (table.declareFunction signature)
      ((table.rename names).declareFunction
        (signature.rename names)) := by
  have hContains :
      (table.rename names).functions.contains
          (signature.rename names).name =
        table.functions.contains signature.name :=
    table.functions.contains_rename names signature.name
  have hAppend :=
    table.functions.append_rename names signature
  unfold declareFunction Functions.declare
  rw [hContains]
  split
  · exact .error rfl
  · apply Concur.ok
    simp only [rename, hAppend]

end Symbols

end OnePass
