import Mathlib.Data.List.Nodup
import OnePass.Proofs.Symbols.Functions

/-
  A table of functions and the declarations that were tried.

  Functions are declared one after the other. A name that is
  in use is refused, and then the table stays as it was. So
  a name stands for the first function that was tried under
  it, and what is declared besides the library are those
  functions whose names were new when they were tried.

  Main declarations:
    * `Functions.attempt`, `Functions.attemptAll`
    * `Functions.succeeding`
    * `Functions.Positioned`, `Functions.positioned_append`
    * `Functions.get?_attempt`, `Functions.get?_attemptAll`
    * `Functions.Registers`
    * `functions_register_attempts`
-/

------------------------------------------------------------
-- Attempts
------------------------------------------------------------

namespace OnePass

namespace Functions

/- Declare a function, or leave the table as it was. -/
def attempt
    (table : Functions)
    (signature : Signature) : Functions :=
  match table.declare signature with
  | .ok next => next
  | .error _ => table

/- Try to declare functions one after the other. -/
def attemptAll
    (table : Functions)
    (attempts : List Signature) : Functions :=
  attempts.foldl attempt table

/- The attempts that succeed, in order. -/
def succeeding
    (table : Functions) : List Signature → List Signature
| [] => []
| signature :: attempts =>
    match table.declare signature with
    | .ok next => signature :: next.succeeding attempts
    | .error _ => table.succeeding attempts

variable {table : Functions}
variable {signature : Signature}

@[simp] theorem attemptAll_cons
    (attempts : List Signature) :
    table.attemptAll (signature :: attempts) =
      (table.attempt signature).attemptAll attempts :=
  rfl

/- A function with a new name is appended. -/
theorem declare_of_new
    (hNew : table.contains signature.name = false) :
    table.declare signature = .ok (table.append signature) := by
  simp [declare, hNew]

/- A name that is in use is refused. -/
theorem declare_of_known
    (hKnown : table.contains signature.name = true) :
    table.declare signature =
      .error (.functionRedeclared signature.name) := by
  simp [declare, hKnown]

/- An attempt appends a new function or changes nothing. -/
theorem attempt_cases
    (table : Functions)
    (signature : Signature) :
    table.contains signature.name = false ∧
        table.attempt signature = table.append signature ∨
      table.contains signature.name = true ∧
        table.attempt signature = table := by
  cases hContains : table.contains signature.name with
  | false =>
      refine .inl ⟨rfl, ?_⟩
      rw [attempt, declare_of_new hContains]
  | true =>
      refine .inr ⟨rfl, ?_⟩
      rw [attempt, declare_of_known hContains]

/- What new functions keep is kept by all attempts. -/
theorem attemptAll_preserves
    {P : Functions → Prop}
    (hAppend :
      ∀ table signature,
        P table → table.contains signature.name = false →
          P (table.append signature))
    (hTable : P table)
    (attempts : List Signature) :
    P (table.attemptAll attempts) := by
  induction attempts generalizing table with
  | nil => exact hTable
  | cons signature attempts ih =>
      rw [attemptAll_cons]
      apply ih
      rcases table.attempt_cases signature with
        ⟨hNew, hAttempt⟩ | ⟨-, hAttempt⟩
      · rw [hAttempt]
        exact hAppend table signature hTable hNew
      · rw [hAttempt]
        exact hTable

theorem indexed_attemptAll
    (hIndexed : table.Indexed)
    (attempts : List Signature) :
    (table.attemptAll attempts).Indexed :=
  attemptAll_preserves (fun _ _ => indexed_append) hIndexed
    attempts

/- The attempts that succeed are appended. -/
theorem attemptAll_eq_appendAll
    (table : Functions)
    (attempts : List Signature) :
    table.attemptAll attempts =
      table.appendAll (table.succeeding attempts) := by
  induction attempts generalizing table with
  | nil => rfl
  | cons signature attempts ih =>
      rw [attemptAll_cons, ih, succeeding, attempt]
      cases hContains : table.contains signature.name with
      | false =>
          rw [declare_of_new hContains]
          rfl
      | true => rw [declare_of_known hContains]

end Functions

end OnePass

------------------------------------------------------------
-- Positions
------------------------------------------------------------

namespace OnePass

namespace Functions

/- A name leads to the position of its function. -/
def Positioned (table : Functions) : Prop :=
  ∀ name position,
    table.index.lookup name = some position ↔
      table.signatures[position]?.map Signature.name =
        some name

variable {table : Functions}
variable {new : Signature}

theorem Positioned.lt_length
    (hPositioned : table.Positioned)
    {name : String}
    {position : Nat}
    (hLookup : table.index.lookup name = some position) :
    position < table.signatures.length := by
  have hName := (hPositioned name position).mp hLookup
  rcases Option.map_eq_some_iff.mp hName with
    ⟨signature, hAt, -⟩
  exact (List.getElem?_eq_some_iff.mp hAt).1

/- One position cannot be that of two functions. -/
theorem Positioned.distinct
    (hPositioned : table.Positioned) :
    (table.signatures.map Signature.name).Nodup := by
  rw [List.nodup_iff_getElem?_ne_getElem?]
  intro first second hOrder hBound hSame
  rw [List.length_map] at hBound
  have hSecond :
      table.signatures[second]?.map Signature.name =
        some (table.signatures[second]).name := by
    rw [List.getElem?_eq_getElem hBound, Option.map_some]
  rw [List.getElem?_map, List.getElem?_map, hSecond] at hSame
  have hLookup := (hPositioned _ _).mpr hSame
  rw [(hPositioned _ _).mpr hSecond] at hLookup
  cases hLookup
  exact Nat.lt_irrefl _ hOrder

/-
  The last position is that of the new function, and none of
  the earlier ones is.
-/
theorem positioned_append
    (hPositioned : table.Positioned)
    (hNew : table.contains new.name = false) :
    (table.append new).Positioned := by
  have hAbsent : table.index.lookup new.name = none := by
    simpa [contains] using hNew
  intro name position
  rw [lookup_append]
  change _ ↔ (table.signatures ++ [new])[position]?.map _ = _
  rcases Nat.lt_trichotomy position
      table.signatures.length with hOld | rfl | hBeyond
  · rw [List.getElem?_append_left hOld, ← hPositioned]
    by_cases hName : name = new.name
    · have hElsewhere : table.signatures.length ≠ position :=
        Nat.ne_of_gt hOld
      simp [hName, hAbsent, hElsewhere]
    · simp [hName]
  · rw [List.getElem?_concat_length, Option.map_some]
    by_cases hName : name = new.name
    · simp [hName]
    · have hNone :
          table.index.lookup name ≠
            some table.signatures.length := by
        intro hLookup
        exact
          Nat.lt_irrefl _ (hPositioned.lt_length hLookup)
      simp [hName, hNone, Ne.symm hName]
  · have hNone :
        (table.signatures ++ [new])[position]? = none := by
      simp only [List.getElem?_eq_none_iff, List.length_append,
        List.length_singleton]
      omega
    have hLookup :
        table.index.lookup name ≠ some position := by
      intro hLookup
      have := hPositioned.lt_length hLookup
      omega
    rw [hNone, Option.map_none]
    by_cases hName : name = new.name
    · simp [hName, Nat.ne_of_lt hBeyond]
    · simp [hName, hLookup]

theorem positioned_withLibrary : withLibrary.Positioned := by
  have hEmpty : empty.Positioned := by
    intro name position
    simp [empty]
  have hPrint :
      (empty.append ⟨"print", .void, [.string]⟩).Positioned :=
    positioned_append hEmpty rfl
  exact
    (positioned_append hPrint (by decide) :
      (library.foldl append empty).Positioned)

end Functions

end OnePass

------------------------------------------------------------
-- Answers
------------------------------------------------------------

namespace OnePass

namespace Functions

variable {table : Functions}

/- A name is in use exactly if a function is found. -/
theorem Indexed.contains_eq_isSome
    (hIndexed : table.Indexed)
    (name : String) :
    table.contains name = (table.get? name).isSome := by
  rw [Bool.eq_iff_iff, hIndexed.contains_iff,
    Option.isSome_iff_exists]
  simp only [hIndexed.get?_eq_some_iff]

/- A name that is in use keeps its function. -/
theorem get?_attempt
    (hIndexed : table.Indexed)
    (signature : Signature)
    (name : String) :
    (table.attempt signature).get? name =
      (table.get? name).or
        ([signature].find? (·.name = name)) := by
  rcases table.attempt_cases signature with
    ⟨hNew, hAttempt⟩ | ⟨hKnown, hAttempt⟩
  · rw [hAttempt]
    by_cases hName : name = signature.name
    · subst hName
      rw [hIndexed.contains_eq_isSome,
        Option.isSome_eq_false_iff,
        Option.isNone_iff_eq_none] at hNew
      rw [get?_append_self, hNew]
      simp
    · rw [get?_append_of_ne hIndexed hName]
      simp [Ne.symm hName]
  · rw [hAttempt]
    by_cases hName : name = signature.name
    · subst hName
      rw [hIndexed.contains_eq_isSome] at hKnown
      rw [Option.or_of_isSome hKnown]
    · simp [Ne.symm hName]

/- The first function that is tried under a name stays. -/
theorem get?_attemptAll
    (hIndexed : table.Indexed)
    (attempts : List Signature)
    (name : String) :
    (table.attemptAll attempts).get? name =
      (table.get? name).or
        (attempts.find? (·.name = name)) := by
  induction attempts generalizing table with
  | nil => exact Option.or_none.symm
  | cons signature attempts ih =>
      have hAttempt : (table.attempt signature).Indexed :=
        indexed_attemptAll hIndexed [signature]
      rw [attemptAll_cons, ih hAttempt,
        get?_attempt hIndexed, Option.or_assoc,
        ← List.find?_append, List.singleton_append]

theorem get?_withLibrary
    (name : String) :
    withLibrary.get? name =
      library.find? (·.name = name) := by
  have hTable :
      empty.attemptAll library =
        { withLibrary with libraryCount := 0 } := by
    decide
  have hFind := get?_attemptAll indexed_empty library name
  rw [hTable] at hFind
  exact hFind

end Functions

end OnePass

------------------------------------------------------------
-- What A Table Registers
------------------------------------------------------------

namespace OnePass

namespace Functions

/- What a table holds and answers, by what was tried. -/
structure Registers
    (table : Functions)
    (attempts : List Signature) : Prop where
  /- No two functions have one name. -/
  distinct : (table.signatures.map Signature.name).Nodup
  /- The index leads to the functions of a name, and only there. -/
  positioned :
    ∀ name position,
      table.index.lookup name = some position ↔
        table.signatures[position]?.map Signature.name =
          some name
  /- No position is outside of the table. -/
  inside :
    ∀ name position,
      table.index.lookup name = some position →
        position < table.signatures.length
  /- A name stands for what was first tried under it. -/
  first :
    ∀ name,
      table.get? name =
        (library ++ attempts).find? (·.name = name)
  /- It stands for the same after any later attempts. -/
  kept :
    ∀ name signature,
      table.get? name = some signature →
        ∀ later,
          (table.attemptAll later).get? name =
            some signature
  /- The functions of the library keep their prototypes. -/
  print :
    table.get? "print" = some ⟨"print", .void, [.string]⟩
  printi :
    table.get? "printi" = some ⟨"printi", .void, [.int]⟩
  /- The library comes first, then what was declared. -/
  listed : table.signatures = library ++ table.declared
  /- What is declared are the attempts that succeeded. -/
  declared : table.declared = withLibrary.succeeding attempts
  /- An attempt succeeds exactly if its name is new. -/
  succeeds_iff :
    ∀ before signature after,
      attempts = before ++ signature :: after →
        ((∃ next,
            (withLibrary.attemptAll before).declare signature =
              .ok next) ↔
          ∀ earlier ∈ library ++ before,
            earlier.name ≠ signature.name)

theorem get?_attempted
    (attempts : List Signature)
    (name : String) :
    (withLibrary.attemptAll attempts).get? name =
      (library ++ attempts).find? (·.name = name) := by
  rw [get?_attemptAll indexed_withLibrary, get?_withLibrary,
    List.find?_append]

theorem declare_eq_ok_iff_new
    (before : List Signature)
    (signature : Signature) :
    (∃ next,
        (withLibrary.attemptAll before).declare signature =
          .ok next) ↔
      ∀ earlier ∈ library ++ before,
        earlier.name ≠ signature.name := by
  have hIndexed :=
    indexed_attemptAll indexed_withLibrary before
  have hNew :
      (withLibrary.attemptAll before).contains
            signature.name = false ↔
        ∀ earlier ∈ library ++ before,
          earlier.name ≠ signature.name := by
    rw [hIndexed.contains_eq_isSome, get?_attempted]
    simp only [Option.isSome_eq_false_iff,
      Option.isNone_iff_eq_none, List.find?_eq_none,
      decide_eq_true_eq, ne_eq]
  rw [← hNew]
  cases hContains :
      (withLibrary.attemptAll before).contains
        signature.name with
  | false => simp [declare_of_new hContains]
  | true => simp [declare_of_known hContains]

end Functions

open Functions

/-
  Whatever functions are tried, one after the other, the
  table with the library registers those with new names.
-/
theorem functions_register_attempts
    (attempts : List Signature) :
    (Functions.withLibrary.attemptAll attempts).Registers
      attempts := by
  have hIndexed :=
    indexed_attemptAll indexed_withLibrary attempts
  have hPositioned :
      (withLibrary.attemptAll attempts).Positioned :=
    attemptAll_preserves (fun _ _ => positioned_append)
      positioned_withLibrary attempts
  constructor
  · exact hPositioned.distinct
  · exact hPositioned
  · intro name position hLookup
    exact hPositioned.lt_length hLookup
  · exact get?_attempted attempts
  · intro name signature hFound later
    rw [get?_attemptAll hIndexed, hFound, Option.some_or]
  · rw [get?_attempted]
    rfl
  · rw [get?_attempted]
    rfl
  · rw [attemptAll_eq_appendAll, declared_appendAll,
      signatures_appendAll]
    rfl
  · rw [attemptAll_eq_appendAll, declared_appendAll]
  · intro before signature after _
    exact declare_eq_ok_iff_new before signature

end OnePass
