import OnePass.Symbols.Functions

/-
  What the table of functions answers.

  The index of the table leads exactly to the functions that
  are listed in it: a name is in use if a listed function
  has it, and then that function is found. This holds of the
  table with the library alone, and is kept when a function
  with a new name is appended.

  Main declarations:
    * `Functions.Indexed`
    * `Functions.indexed_append`
    * `Functions.indexed_withLibrary`
    * `Functions.OverLibrary`
-/

------------------------------------------------------------
-- Indexed Tables
------------------------------------------------------------

namespace OnePass

namespace Functions

/- The index leads to the listed functions and no others. -/
structure Indexed (table : Functions) : Prop where
  contains_iff :
    ∀ name,
      table.contains name = true ↔
        ∃ signature ∈ table.signatures, signature.name = name
  get?_eq_some_iff :
    ∀ name signature,
      table.get? name = some signature ↔
        signature ∈ table.signatures ∧ signature.name = name

section Append

variable {table : Functions}
variable {new : Signature}

theorem lookup_append
    (name : String) :
    (table.append new).index.lookup name =
      if name = new.name then
        some table.signatures.length
      else
        table.index.lookup name := by
  unfold append
  rw [List.lookup_cons]
  by_cases hName : name = new.name
  · simp [hName]
  · have hDiffers : (name == new.name) = false :=
      beq_false_of_ne hName
    rw [hDiffers, if_neg hName]

theorem contains_append
    (name : String) :
    (table.append new).contains name = true ↔
      name = new.name ∨ table.contains name = true := by
  unfold contains
  rw [lookup_append]
  by_cases hName : name = new.name
  · simp [hName]
  · simp [hName]

theorem get?_append_self :
    (table.append new).get? new.name = some new := by
  unfold get?
  rw [lookup_append, if_pos rfl]
  exact List.getElem?_concat_length

/- The positions of the other functions do not change. -/
theorem get?_append_of_ne
    (hIndexed : table.Indexed)
    {name : String}
    (hName : name ≠ new.name) :
    (table.append new).get? name = table.get? name := by
  unfold get?
  rw [lookup_append, if_neg hName]
  cases hLookup : table.index.lookup name with
  | none => rfl
  | some position =>
      have hContains : table.contains name = true := by
        unfold contains
        rw [hLookup]
        rfl
      obtain ⟨old, hListed, hOld⟩ :=
        (hIndexed.contains_iff name).mp hContains
      have hFound :=
        (hIndexed.get?_eq_some_iff name old).mpr
          ⟨hListed, hOld⟩
      unfold get? at hFound
      rw [hLookup] at hFound
      have hAt : table.signatures[position]? = some old :=
        hFound
      have hBound : position < table.signatures.length :=
        (List.getElem?_eq_some_iff.mp hAt).1
      change
        (table.signatures ++ [new])[position]? =
          table.signatures[position]?
      exact List.getElem?_append_left hBound

/- A function with a new name is found, and the others too. -/
theorem indexed_append
    (hIndexed : table.Indexed)
    (hNew : table.contains new.name = false) :
    (table.append new).Indexed where
  contains_iff name := by
    rw [contains_append, hIndexed.contains_iff]
    constructor
    · rintro (hName | ⟨old, hListed, hOld⟩)
      · exact
          ⟨new, List.mem_append_right _ List.mem_cons_self,
            hName.symm⟩
      · exact ⟨old, List.mem_append_left _ hListed, hOld⟩
    · rintro ⟨signature, hListed, hName⟩
      rcases List.mem_append.mp hListed with hOld | hLast
      · exact .inr ⟨signature, hOld, hName⟩
      · rw [List.mem_singleton.mp hLast] at hName
        exact .inl hName.symm
  get?_eq_some_iff name signature := by
    by_cases hName : name = new.name
    · subst hName
      rw [get?_append_self]
      constructor
      · intro hSome
        cases hSome
        exact
          ⟨List.mem_append_right _ List.mem_cons_self, rfl⟩
      · rintro ⟨hListed, hSame⟩
        rcases List.mem_append.mp hListed with hOld | hLast
        · have hContains :=
            (hIndexed.contains_iff new.name).mpr
              ⟨signature, hOld, hSame⟩
          rw [hNew] at hContains
          cases hContains
        · rw [List.mem_singleton.mp hLast]
    · rw [get?_append_of_ne hIndexed hName,
        hIndexed.get?_eq_some_iff]
      constructor
      · rintro ⟨hListed, hSame⟩
        exact ⟨List.mem_append_left _ hListed, hSame⟩
      · rintro ⟨hListed, hSame⟩
        rcases List.mem_append.mp hListed with hOld | hLast
        · exact ⟨hOld, hSame⟩
        · rw [List.mem_singleton.mp hLast] at hSame
          exact absurd hSame.symm hName

end Append

/- A table to which functions are appended one by one. -/
def appendAll
    (table : Functions)
    (signatures : List Signature) : Functions :=
  signatures.foldl append table

theorem signatures_appendAll
    (table : Functions)
    (signatures : List Signature) :
    (table.appendAll signatures).signatures =
      table.signatures ++ signatures := by
  induction signatures generalizing table with
  | nil => exact (List.append_nil _).symm
  | cons signature signatures ih =>
      change
        ((table.append signature).appendAll
          signatures).signatures = _
      rw [ih]
      exact List.append_assoc _ _ _

theorem libraryCount_appendAll
    (table : Functions)
    (signatures : List Signature) :
    (table.appendAll signatures).libraryCount =
      table.libraryCount := by
  induction signatures generalizing table with
  | nil => rfl
  | cons signature signatures ih =>
      change
        ((table.append signature).appendAll
          signatures).libraryCount = _
      rw [ih]
      rfl

/- What was appended to the library is what is declared. -/
theorem declared_appendAll
    (signatures : List Signature) :
    (withLibrary.appendAll signatures).declared =
      signatures := by
  unfold declared
  rw [signatures_appendAll, libraryCount_appendAll]
  exact List.drop_left

theorem appendAll_concat
    (table : Functions)
    (signatures : List Signature)
    (signature : Signature) :
    table.appendAll (signatures ++ [signature]) =
      (table.appendAll signatures).append signature :=
  List.foldl_append

/- The table holds the library and what was declared. -/
def OverLibrary (table : Functions) : Prop :=
  table = withLibrary.appendAll table.declared

namespace OverLibrary

variable {table : Functions}
variable (hTable : table.OverLibrary)
variable (signature : Signature)

include hTable

theorem append_eq :
    table.append signature =
      withLibrary.appendAll
        (table.declared ++ [signature]) := by
  rw [appendAll_concat, ← hTable]

theorem declared_append :
    (table.append signature).declared =
      table.declared ++ [signature] := by
  rw [hTable.append_eq, declared_appendAll]

theorem append : (table.append signature).OverLibrary := by
  unfold OverLibrary
  rw [hTable.declared_append]
  exact hTable.append_eq signature

end OverLibrary

theorem overLibrary_appendAll
    (signatures : List Signature) :
    (withLibrary.appendAll signatures).OverLibrary := by
  unfold OverLibrary
  rw [declared_appendAll]

theorem indexed_empty : empty.Indexed where
  contains_iff name := by simp [empty, contains]
  get?_eq_some_iff name signature := by simp [empty, get?]

theorem indexed_withLibrary : withLibrary.Indexed := by
  have hPrint :
      (empty.append ⟨"print", .void, [.string]⟩).Indexed :=
    indexed_append indexed_empty rfl
  have hBoth :
      (library.foldl append empty).Indexed :=
    indexed_append hPrint (by decide)
  exact ⟨hBoth.contains_iff, hBoth.get?_eq_some_iff⟩

end Functions

end OnePass
