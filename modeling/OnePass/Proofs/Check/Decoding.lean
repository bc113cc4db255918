import Mathlib.Data.Set.Function
import OnePass.Proofs.Check.Framing

/-
  Reading a summary back.

  A summary is written with four kinds of separators and no
  way to escape them: line feeds between functions, a blank
  after a name, parentheses around the parameters, and
  commas between them. None of them is in a name of a type,
  nor in a name that a source can give to a function. So the
  parts are found by cutting at the separators, and nothing
  is lost in a summary.

  Key definitions include:
    * `Ty.ofName?`, `Ty.ofList?`
    * `Signature.ofLine?`
    * `Check.ofSummary?`

  Main declarations:
    * `Ty.ofList?_intercalate`
    * `Signature.ofLine?_render`
    * `Check.ofSummary?_summary`
    * `summary_determines_signatures`
-/

------------------------------------------------------------
-- Types
------------------------------------------------------------

namespace OnePass

namespace Ty

/- The type of that name. -/
def ofName? (text : List Char) : Option Ty :=
  [int, byte, bool, string, void].find? fun ty =>
    ty.name.toList = text

/- The types whose names are separated by commas. -/
def ofList? (text : List Char) : Option (List Ty) :=
  if text.isEmpty then
    some []
  else
    (text.splitOn ',').mapM ofName?

@[simp] theorem ofName?_name
    (ty : Ty) :
    ofName? ty.name.toList = some ty := by
  cases ty <;> decide

end Ty

/- Items that are read one by one. -/
theorem mapM_map_eq_some
    {α β : Type}
    {write : α → β}
    {read? : β → Option α}
    {items : List α}
    (hItems :
      ∀ item ∈ items, read? (write item) = some item) :
    (items.map write).mapM read? = some items := by
  induction items with
  | nil => rfl
  | cons item items ih =>
      rcases List.forall_mem_cons.mp hItems with
        ⟨hItem, hLater⟩
      simp [hItem, ih hLater]

namespace Ty

/- The names of types are read back. -/
theorem ofList?_intercalate
    (types : List Ty) :
    ofList? (",".intercalate (types.map name)).toList =
      some types := by
  cases types with
  | nil => rfl
  | cons first types =>
      have hFull :
          (",".intercalate
              ((first :: types).map name)).toList.isEmpty =
            false := by
        have hFirst : first.name.toList ≠ [] := by
          cases first <;> decide
        cases types <;> simp [hFirst]
      have hSplit :
          (",".intercalate
                ((first :: types).map name)).toList.splitOn
              ',' =
            (first :: types).map (·.name.toList) := by
        rw [String.toList_intercalate, List.map_map]
        apply List.splitOn_intercalate ','
        · rw [List.forall_mem_map]
          intro ty _
          exact notMem_name rfl ty
        · exact List.cons_ne_nil _ _
      unfold ofList?
      rw [hFull, hSplit]
      exact mapM_map_eq_some fun ty _ => ofName?_name ty

/- Written lists of types are all different. -/
theorem renderList_injective :
    Function.Injective renderList := by
  intro types types' hSame
  have hInside :
      ",".intercalate (types.map name) =
        ",".intercalate (types'.map name) := by
    unfold renderList at hSame
    simpa using hSame
  have hRead := ofList?_intercalate types
  rw [hInside, ofList?_intercalate] at hRead
  exact (Option.some.inj hRead).symm

end Ty

end OnePass

------------------------------------------------------------
-- Signatures
------------------------------------------------------------

namespace OnePass

namespace Signature

/- The signature of that form, as in `f (INT,BYTE)->VOID`. -/
def ofLine? (line : List Char) : Option Signature :=
  match line.splitOn ' ' with
  | [name, prototype] =>
      match prototype.splitOn ')' with
      | ['(' :: types, '-' :: '>' :: result] => do
          let parameters ← Ty.ofList? types
          let returns ← Ty.ofName? result
          return ⟨String.ofList name, returns, parameters⟩
      | _ => none
  | _ => none

/- A text with one separator is cut into two. -/
theorem splitOn_eq_pair
    {separator : Char}
    {first second : List Char}
    (hFirst : separator ∉ first)
    (hSecond : separator ∉ second) :
    (first ++ separator :: second).splitOn separator =
      [first, second] := by
  rw [List.splitOn_append_cons_self_of_not_mem hFirst,
    List.splitOn_eq_singleton hSecond]

/- A signature is read back. -/
theorem ofLine?_render
    {signature : Signature}
    (hNamed : signature.IsNamed) :
    ofLine? signature.render.toList = some signature := by
  rcases signature with ⟨name, returns, parameters⟩
  let types :=
    (",".intercalate (parameters.map Ty.name)).toList
  let result := returns.name.toList
  have hRender :
      (render ⟨name, returns, parameters⟩).toList =
        name.toList ++
          ' ' ::
            ('(' :: types ++ ')' :: '-' :: '>' :: result) := by
    simp [render, Ty.renderList, types, result]
  have hName : ' ' ∉ name.toList := by
    intro hBlank
    cases Pattern.isAlphanum_of_mem_word hNamed _ hBlank
  have hBlankTypes : ' ' ∉ types :=
    Ty.notMem_intercalate rfl (by decide) parameters
  have hParenTypes : ')' ∉ types :=
    Ty.notMem_intercalate rfl (by decide) parameters
  have hBlankResult : ' ' ∉ result :=
    Ty.notMem_name rfl returns
  have hParenResult : ')' ∉ result :=
    Ty.notMem_name rfl returns
  have hLine :
      (render ⟨name, returns, parameters⟩).toList.splitOn
          ' ' =
        [name.toList,
          '(' :: types ++ ')' :: '-' :: '>' :: result] := by
    rw [hRender]
    apply splitOn_eq_pair hName
    simp [hBlankTypes, hBlankResult]
  have hPrototype :
      ('(' :: types ++ ')' :: '-' :: '>' :: result).splitOn
          ')' =
        ['(' :: types, '-' :: '>' :: result] := by
    apply splitOn_eq_pair
    · simp [hParenTypes]
    · simp [hParenResult]
  have hRead : Ty.ofList? types = some parameters :=
    Ty.ofList?_intercalate parameters
  have hReturns : Ty.ofName? result = some returns :=
    Ty.ofName?_name returns
  unfold ofLine?
  simp only [hLine, hPrototype, hRead, hReturns,
    String.ofList_toList]
  rfl

end Signature

end OnePass

------------------------------------------------------------
-- Summaries
------------------------------------------------------------

namespace OnePass

namespace Check

/- The signatures that a summary lists, line by line. -/
def ofSummary? (text : String) : Option (List Signature) :=
  (text.toList.splitOn '\n').dropLast.mapM Signature.ofLine?

/- A summary is read back. -/
theorem ofSummary?_summary
    {signatures : List Signature}
    (hNamed : ∀ signature ∈ signatures, signature.IsNamed) :
    ofSummary? (summary signatures) = some signatures := by
  unfold ofSummary?
  rw [(hasLines_summary hNamed).splitOn_eq,
    List.dropLast_concat, List.map_map]
  apply mapM_map_eq_some
  intro signature hSignature
  exact Signature.ofLine?_render (hNamed signature hSignature)

end Check

/-
  What is in a summary can be read back from it: every name,
  every type that is returned, and all parameters in order.
  The functions of every accepted source are among those
  that can be read back.
-/
theorem summary_determines_signatures :
    (∀ signatures : List Signature,
      (∀ signature ∈ signatures, signature.IsNamed) →
        Check.ofSummary? (Check.summary signatures) =
          some signatures) ∧
      (∀ source signatures,
        analyzeText source = .ok signatures →
          ∀ signature ∈ signatures, signature.IsNamed) ∧
        Set.InjOn Check.summary
            {signatures |
              ∀ signature ∈ signatures,
                signature.IsNamed} ∧
          Set.InjOn Signature.render
              {signature | signature.IsNamed} ∧
            Function.Injective Ty.renderList := by
  refine
    ⟨fun _ => Check.ofSummary?_summary,
      fun _ _ => isNamed_of_analyzeText_ok, ?_, ?_,
      Ty.renderList_injective⟩
  · intro signatures hNamed signatures' hNamed' hSame
    have hRead := Check.ofSummary?_summary hNamed
    rw [hSame, Check.ofSummary?_summary hNamed'] at hRead
    exact (Option.some.inj hRead).symm
  · intro signature hNamed signature' hNamed' hSame
    have hRead := Signature.ofLine?_render hNamed
    rw [hSame, Signature.ofLine?_render hNamed'] at hRead
    exact (Option.some.inj hRead).symm

/- Functions with several parameters, and with none. -/
def twoSignatures : List Signature :=
  [⟨"sum2", .int, [.byte, .int, .byte]⟩, .entryPoint]

theorem isNamed_twoSignatures :
    ∀ signature ∈ twoSignatures, signature.IsNamed := by
  have hWord :
      ∀ first rest,
        first.isAlpha = true →
          rest.all Char.isAlphanum = true →
            first :: rest ∈ Pattern.word := by
    intro first rest hFirst hRest
    exact
      Pattern.cons_mem_oneOf_mul_iff.mpr
        ⟨hFirst,
          Pattern.mem_run_iff.mpr (List.all_eq_true.mp hRest)⟩
  intro signature hSignature
  rcases List.mem_pair.mp hSignature with rfl | rfl
  · exact hWord 's' ['u', 'm', '2'] rfl rfl
  · exact hWord 'm' ['a', 'i', 'n'] rfl rfl

/- They are read back from their summary. -/
theorem summary_determines_twoSignatures :
    Check.summary twoSignatures =
        "sum2 (BYTE,INT,BYTE)->INT\nmain ()->VOID\n" ∧
      Check.ofSummary?
          "sum2 (BYTE,INT,BYTE)->INT\nmain ()->VOID\n" =
        some twoSignatures := by
  have hSummary :
      Check.summary twoSignatures =
        "sum2 (BYTE,INT,BYTE)->INT\nmain ()->VOID\n" := by
    decide
  have hRead :=
    summary_determines_signatures.1 twoSignatures
      isNamed_twoSignatures
  rw [hSummary] at hRead
  exact ⟨hSummary, hRead⟩

end OnePass
