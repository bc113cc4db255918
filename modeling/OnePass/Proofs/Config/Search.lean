import OnePass.Config.Files
import OnePass.Proofs.Files.Places

/-
  The search for a configuration file.

  A search goes up from a place and ends at the first
  directory that has an entry of the usual name, whatever
  that entry is. What it comes to is decided by this entry
  alone, for any decoder. No file is changed on the way.

  Main declarations:
    * `Config.Loads`, `Config.exists_loads`
    * `Config.Settles`, `Config.exists_settles`
    * `Config.run_nearestTo_eq`
    * `Config.IsNearest`
    * `Config.find?_eq_some_iff_isNearest`
-/

------------------------------------------------------------
-- Loading
------------------------------------------------------------

namespace OnePass

namespace Config

open Files (Entry Place Tree)

/-
  What is loaded from an entry that is shown by a path, or
  from nothing. A directory cannot be read, nor can bytes
  that are not those of a text. The decoder has the last
  word on a text.
-/
inductive Loads
    (decode : String → Option Config)
    (path : String)
    (content? : Option Entry) :
    Except Failure Config → Prop where
  | unreadable
      (hEntry :
        ∀ text : String, content? ≠ some (.file text.toUTF8)) :
      Loads decode path content? (.error (.unreadable path))
  | malformed {text : String}
      (hEntry : content? = some (.file text.toUTF8))
      (hText : decode text = none) :
      Loads decode path content? (.error (.malformed path))
  | loaded {text : String} {config : Config}
      (hEntry : content? = some (.file text.toUTF8))
      (hText : decode text = some config) :
      Loads decode path content? (.ok config)

section Loads

variable {decode : String → Option Config}
variable {path : String}
variable {content? : Option Entry}

theorem Loads.unique
    {first second : Except Failure Config}
    (hFirst : Loads decode path content? first)
    (hSecond : Loads decode path content? second) :
    first = second := by
  cases hFirst with
  | unreadable hNone =>
      cases hSecond with
      | unreadable => rfl
      | malformed hEntry => exact absurd hEntry (hNone _)
      | loaded hEntry => exact absurd hEntry (hNone _)
  | malformed hEntry hText =>
      cases hSecond with
      | unreadable hNone => exact absurd hEntry (hNone _)
      | malformed => rfl
      | loaded hOther hLoaded =>
          rw [Tree.text_eq_of_file_eq hEntry hOther,
            hLoaded] at hText
          cases hText
  | loaded hEntry hText =>
      cases hSecond with
      | unreadable hNone => exact absurd hEntry (hNone _)
      | malformed hOther hMalformed =>
          rw [Tree.text_eq_of_file_eq hEntry hOther,
            hMalformed] at hText
          cases hText
      | loaded hOther hLoaded =>
          rw [Tree.text_eq_of_file_eq hEntry hOther,
            hLoaded] at hText
          cases hText
          rfl

end Loads

section Runs

variable (decode : String → Option Config)
variable (tree : Tree)
variable (workingDirectory : List String)
variable (input : ByteArray)

/- A file is read without changing anything. -/
theorem exists_loads
    (place : Place) :
    ∃ outcome,
      (readFrom decode (Tree.host workingDirectory input)
          place).run tree =
        (outcome, tree) ∧
        Loads decode place.shown
          (tree.entryAt? workingDirectory place) outcome := by
  unfold readFrom
  rw [Tree.run_bind tree
    (Tree.run_text? tree workingDirectory input place)]
  cases hText : tree.text? workingDirectory place with
  | none =>
      refine ⟨.error (.unreadable place.shown), ?_, ?_⟩
      · simp only [Tree.display_host]
        rfl
      · refine .unreadable fun text hEntry => ?_
        rw [← Tree.text?_eq_some_iff, hText] at hEntry
        cases hEntry
  | some text =>
      have hEntry := (Tree.text?_eq_some_iff ..).mp hText
      cases hDecoded : decode text with
      | none =>
          refine
            ⟨.error (.malformed place.shown), ?_,
              .malformed hEntry hDecoded⟩
          simp only [hDecoded, Tree.display_host]
          rfl
      | some config =>
          refine ⟨.ok config, ?_, .loaded hEntry hDecoded⟩
          simp only [hDecoded]
          rfl

end Runs

end Config

end OnePass

------------------------------------------------------------
-- Searching
------------------------------------------------------------

namespace OnePass

namespace Config

open Files (Place Tree)

theorem isName_fileName : Files.Path.IsName fileName := by
  decide

/- The directory of a place has an entry of the usual name. -/
def holds
    (tree : Tree)
    (workingDirectory : List String)
    (place : Place) : Bool :=
  (tree.entryIn? workingDirectory place fileName).isSome

/-
  What a search comes to that ends at a place, or that ends
  without one.
-/
inductive Settles
    (decode : String → Option Config)
    (tree : Tree)
    (workingDirectory : List String) :
    Option Place → Except Failure (Option Found) → Prop where
  | nowhere :
      Settles decode tree workingDirectory none (.ok none)
  | found {place : Place} {config : Config}
      (hLoads :
        Loads decode (place.child fileName).shown
          (tree.entryIn? workingDirectory place fileName)
          (.ok config)) :
      Settles decode tree workingDirectory (some place)
        (.ok (some { config, directory := place }))
  | failed {place : Place} {failure : Failure}
      (hLoads :
        Loads decode (place.child fileName).shown
          (tree.entryIn? workingDirectory place fileName)
          (.error failure)) :
      Settles decode tree workingDirectory (some place)
        (.error failure)

namespace Settles

variable {decode : String → Option Config}
variable {tree other : Tree}
variable {workingDirectory : List String}

/- A search comes to nothing only if it finds no place. -/
theorem eq_none_iff
    {place? : Option Place}
    {result : Except Failure (Option Found)}
    (hSettles :
      Settles decode tree workingDirectory place? result) :
    result = .ok none ↔ place? = none := by
  cases hSettles with
  | nowhere => simp
  | found hLoads => simp
  | failed hLoads => simp

/- The entry at the place decides alone. -/
theorem unique
    {place? : Option Place}
    {first second : Except Failure (Option Found)}
    (hEntry :
      ∀ place ∈ place?,
        other.entryIn? workingDirectory place fileName =
          tree.entryIn? workingDirectory place fileName)
    (hFirst :
      Settles decode tree workingDirectory place? first)
    (hSecond :
      Settles decode other workingDirectory place? second) :
    second = first := by
  cases hFirst with
  | nowhere =>
      cases hSecond
      rfl
  | found hLoads =>
      rw [← hEntry _ rfl] at hLoads
      cases hSecond with
      | found hOther =>
          cases hLoads.unique hOther
          rfl
      | failed hOther => cases hLoads.unique hOther
  | failed hLoads =>
      rw [← hEntry _ rfl] at hLoads
      cases hSecond with
      | found hOther => cases hLoads.unique hOther
      | failed hOther =>
          cases hLoads.unique hOther
          rfl

end Settles

section Runs

variable (decode : String → Option Config)
variable (tree : Tree)
variable (workingDirectory : List String)
variable (input : ByteArray)

/- Whether something stands in a directory. -/
theorem run_present_child
    (place : Place) :
    ((Tree.host workingDirectory input).present
        (place.child fileName)).run tree =
      (holds tree workingDirectory place, tree) := by
  rw [Tree.run_present,
    Tree.isSome_find?_child _ _ _ isName_fileName]
  rfl

/- A search ends where there is an entry. -/
theorem exists_settles_of_holds
    {place : Place}
    (hHolds : holds tree workingDirectory place = true) :
    ∃ result,
      (nearestTo decode (Tree.host workingDirectory input)
          place).run tree =
        (result, tree) ∧
        Settles decode tree workingDirectory (some place)
          result := by
  unfold nearestTo
  rw [Tree.run_bind tree
    (run_present_child tree workingDirectory input place),
    if_pos hHolds]
  rcases exists_loads decode tree workingDirectory input
      (place.child fileName) with
    ⟨outcome, hRun, hLoads⟩
  rw [Tree.entryAt?_child _ _ _ isName_fileName] at hLoads
  rw [Tree.run_bind tree hRun]
  cases outcome with
  | ok config => exact ⟨_, rfl, .found hLoads⟩
  | error failure => exact ⟨_, rfl, .failed hLoads⟩

/- Otherwise it goes on with the place above. -/
theorem run_nearestTo_of_not_holds
    {place : Place}
    (hHolds : holds tree workingDirectory place = false) :
    (nearestTo decode (Tree.host workingDirectory input)
        place).run tree =
      match place.parent? with
      | none => (.ok none, tree)
      | some parent =>
          (nearestTo decode (Tree.host workingDirectory input)
            parent).run tree := by
  rw [nearestTo, Tree.run_bind tree
    (run_present_child tree workingDirectory input place)]
  simp only [hHolds, Bool.false_eq_true, if_false]
  split
  · next hParent =>
      rw [hParent]
      rfl
  · next parent hParent => rw [hParent]

/- A search changes nothing and ends at the first entry. -/
theorem exists_settles
    (start : Place) :
    ∃ result,
      (nearestTo decode (Tree.host workingDirectory input)
          start).run tree =
        (result, tree) ∧
        Settles decode tree workingDirectory
          (start.lineage.find? (holds tree workingDirectory))
          result := by
  fun_induction Place.lineage start with
  | case1 place hParent =>
      cases hHolds : holds tree workingDirectory place with
      | true =>
          simpa [hHolds] using
            exists_settles_of_holds decode tree
              workingDirectory input hHolds
      | false =>
          rw [run_nearestTo_of_not_holds _ _ _ _ hHolds,
            hParent]
          refine ⟨.ok none, rfl, ?_⟩
          simpa [hHolds] using Settles.nowhere
  | case2 place parent hParent hLess ih =>
      cases hHolds : holds tree workingDirectory place with
      | true =>
          simpa [hHolds] using
            exists_settles_of_holds decode tree
              workingDirectory input hHolds
      | false =>
          rw [run_nearestTo_of_not_holds _ _ _ _ hHolds,
            hParent]
          simpa [hHolds] using ih

variable {decode}
variable {tree}
variable {other : Tree}
variable {workingDirectory}

/- Only the entry at which a search ends matters. -/
theorem run_nearestTo_eq
    {start : Place}
    {result : Except Failure (Option Found)}
    (hRun :
      (nearestTo decode (Tree.host workingDirectory input)
          start).run tree =
        (result, tree))
    (hFind :
      start.lineage.find? (holds other workingDirectory) =
        start.lineage.find? (holds tree workingDirectory))
    (hEntry :
      ∀ place ∈
          start.lineage.find? (holds tree workingDirectory),
        other.entryIn? workingDirectory place fileName =
          tree.entryIn? workingDirectory place fileName) :
    (nearestTo decode (Tree.host workingDirectory input)
        start).run other =
      (result, other) := by
  rcases exists_settles decode tree workingDirectory input
      start with
    ⟨first, hFirst, hSettles⟩
  rcases exists_settles decode other workingDirectory input
      start with
    ⟨second, hSecond, hOther⟩
  rw [hFind] at hOther
  have hSame : first = result := by
    rw [hFirst] at hRun
    exact congrArg Prod.fst hRun
  rw [hSecond, hSettles.unique hEntry hOther, hSame]

end Runs

end Config

end OnePass

------------------------------------------------------------
-- The Nearest Directory
------------------------------------------------------------

namespace OnePass

namespace Config

open Files (Place Tree)

/-
  Of all places on the way up from the start whose directory
  has an entry of the usual name, this is the nearest.
-/
structure IsNearest
    (tree : Tree)
    (workingDirectory : List String)
    (start found : Place) : Prop where
  onTheWay : found ∈ start.lineage
  present : holds tree workingDirectory found = true
  first :
    ∀ place ∈ start.lineage,
      holds tree workingDirectory place = true →
        place.names <+: found.names

section Nearest

variable {tree : Tree}
variable {workingDirectory : List String}
variable {start found : Place}

theorem isNearest_of_find?
    (hFound :
      start.lineage.find? (holds tree workingDirectory) =
        some found) :
    IsNearest tree workingDirectory start found := by
  rcases List.find?_eq_some_iff_append.mp hFound with
    ⟨hHolds, nearer, farther, hLineage, hNearer⟩
  have hMem : found ∈ start.lineage := by simp [hLineage]
  refine ⟨hMem, hHolds, ?_⟩
  intro place hPlace hOther
  have hLengths := start.pairwise_lineage
  rw [hLineage, List.pairwise_append,
    List.pairwise_cons] at hLengths
  have hCases := hPlace
  rw [hLineage, List.mem_append, List.mem_cons] at hCases
  rcases hCases with hIn | rfl | hIn
  · have hNone := hNearer place hIn
    simp [hOther] at hNone
  · exact List.prefix_rfl
  · have hLess := hLengths.2.1.1 place hIn
    exact
      List.prefix_of_prefix_length_le
        (Place.names_prefix_of_mem_lineage hPlace)
        (Place.names_prefix_of_mem_lineage hMem)
        (Nat.le_of_lt hLess)

/- The nearest directory is the one that a search ends at. -/
theorem find?_eq_some_iff_isNearest :
    start.lineage.find? (holds tree workingDirectory) =
        some found ↔
      IsNearest tree workingDirectory start found := by
  refine ⟨isNearest_of_find?, ?_⟩
  intro hNearest
  cases hFirst :
      start.lineage.find?
        (holds tree workingDirectory) with
  | none =>
      have hNone := List.find?_eq_none.mp hFirst
      exact
        absurd hNearest.present (hNone found hNearest.onTheWay)
  | some other =>
      have hOther := isNearest_of_find? hFirst
      have hNames : other.names = found.names := by
        have hUp :=
          hNearest.first other hOther.onTheWay hOther.present
        have hDown :=
          hOther.first found hNearest.onTheWay hNearest.present
        exact hUp.eq_of_length_le hDown.length_le
      rw [Place.eq_of_names_eq hOther.onTheWay
        hNearest.onTheWay hNames]

end Nearest

end Config

end OnePass
