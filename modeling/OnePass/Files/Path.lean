/-
  Paths as text.

  A path is cut at its slashes. Going up from a path looks at
  its text only: the last name is taken away, even if it is
  two dots. A part that is empty, or a single dot, stays
  where it is and is no name, unless a dot starts the path.

  Key definitions include:
    * `Files.Path.parts`
    * `Files.Path.names`
    * `Files.Path.child`
    * `Files.Path.parent?`
-/

------------------------------------------------------------
-- Parts And Names
------------------------------------------------------------

namespace OnePass

namespace Files

namespace Path

/- The path starts from the root of all files. -/
def isRooted (path : String) : Bool :=
  path.toList.head? = some '/'

/- The texts between the slashes of a path. -/
def parts (path : String) : List String :=
  (path.toList.splitOn '/').map String.ofList

/- The path with these parts. -/
def ofParts (parts : List String) : String :=
  "/".intercalate parts

/- A part that stays where it is. -/
def isIdle (part : String) : Bool :=
  part = "" || part = "."

/- The names of parts, the first of which starts the path. -/
def namesOf : List String → List String
| [] => []
| first :: rest =>
    let later := rest.filter (!isIdle ·)
    if first = "" then later else first :: later

/- The names along a path. -/
def names (path : String) : List String :=
  namesOf (parts path)

end Path

end Files

end OnePass

------------------------------------------------------------
-- Down And Up
------------------------------------------------------------

namespace OnePass

namespace Files

namespace Path

/- The path of something in a directory. -/
def child (path name : String) : String :=
  if path = "" || path.toList.getLast? = some '/' then
    path ++ name
  else
    path ++ "/" ++ name

/- Parts without the idle ones at their end. -/
def trimmed (parts : List String) : List String :=
  (parts.reverse.dropWhile isIdle).reverse

/-
  The path without its last name, if it has one. What is left
  of a path from the root still starts there.
-/
def parent? (path : String) : Option String :=
  match parts path with
  | [] => none
  | first :: rest =>
      let kept := trimmed rest
      let left := trimmed kept.dropLast
      if !kept.isEmpty then
        if first = "" && left.isEmpty then
          some "/"
        else
          some (ofParts (first :: left))
      else if first = "" then
        none
      else
        some ""

end Path

end Files

end OnePass

------------------------------------------------------------
-- Going Up Comes To An End
------------------------------------------------------------

namespace OnePass

namespace Files

namespace Path

/- No part has a slash in it. -/
theorem slash_notMem_parts
    {path part : String}
    (hPart : part ∈ parts path) :
    '/' ∉ part.toList := by
  have hCut :
      ∀ text : List Char,
        ∀ piece ∈ text.splitOn '/', '/' ∉ piece := by
    intro text
    induction text with
    | nil => simp
    | cons char text ih =>
        rw [List.splitOn_cons_eq_if_modifyHead]
        split
        · simpa using ih
        · next hOther =>
            cases hPieces : text.splitOn '/' with
            | nil => simp
            | cons first pieces =>
                rw [hPieces] at ih
                simp only [List.modifyHead_cons,
                  List.mem_cons, forall_eq_or_imp, not_or,
                  beq_iff_eq] at ih hOther ⊢
                exact ⟨⟨Ne.symm hOther, ih.1⟩, ih.2⟩
  rcases List.mem_map.mp hPart with ⟨piece, hPiece, rfl⟩
  rw [String.toList_ofList]
  exact hCut _ piece hPiece

/- Parts that are put together are taken apart again. -/
theorem parts_ofParts
    {pieces : List String}
    (hPieces : ∀ piece ∈ pieces, '/' ∉ piece.toList)
    (hSome : pieces ≠ []) :
    parts (ofParts pieces) = pieces := by
  have hSplit :
      (['/'].intercalate (pieces.map String.toList)).splitOn
          '/' =
        pieces.map String.toList := by
    apply List.splitOn_intercalate '/'
    · intro piece hPiece
      rcases List.mem_map.mp hPiece with ⟨part, hPart, rfl⟩
      exact hPieces part hPart
    · simpa using hSome
  have hText :
      (ofParts pieces).toList =
        ['/'].intercalate (pieces.map String.toList) := by
    rw [ofParts, String.toList_intercalate]
    rfl
  rw [parts, hText, hSplit, List.map_map]
  simp [Function.comp_def]

/- Parts are idle ones at the end of their trimmed form. -/
theorem trimmed_append
    (pieces : List String) :
    ∃ idle,
      pieces = trimmed pieces ++ idle ∧
        ∀ part ∈ idle, isIdle part = true := by
  refine ⟨(pieces.reverse.takeWhile isIdle).reverse, ?_, ?_⟩
  · rw [trimmed, ← List.reverse_append,
      List.takeWhile_append_dropWhile, List.reverse_reverse]
  · intro part hPart
    exact
      List.all_eq_true.mp List.all_takeWhile part
        (List.mem_reverse.mp hPart)

/- Trimming takes no name away. -/
theorem filter_trimmed
    (pieces : List String) :
    (trimmed pieces).filter (!isIdle ·) =
      pieces.filter (!isIdle ·) := by
  rcases trimmed_append pieces with ⟨idle, hPieces, hIdle⟩
  have hNone : idle.filter (!isIdle ·) = [] := by
    rw [List.filter_eq_nil_iff]
    intro part hPart
    simp [hIdle part hPart]
  rw [hPieces, List.filter_append, hNone, List.append_nil,
    ← hPieces]

/- What is left after trimming ends with a name. -/
theorem trimmed_eq_concat
    {pieces : List String}
    (hSome : trimmed pieces ≠ []) :
    ∃ before last,
      trimmed pieces = before ++ [last] ∧
        isIdle last = false := by
  cases hBack : pieces.reverse.dropWhile isIdle with
  | nil => simp [trimmed, hBack] at hSome
  | cons last back =>
      have hLast :=
        List.head?_dropWhile_not isIdle pieces.reverse
      rw [hBack] at hLast
      refine ⟨back.reverse, last, ?_, by simpa using hLast⟩
      rw [trimmed, hBack, List.reverse_cons]

theorem mem_of_mem_trimmed
    {pieces : List String}
    {part : String}
    (hPart : part ∈ trimmed pieces) :
    part ∈ pieces := by
  rcases trimmed_append pieces with ⟨idle, hPieces, -⟩
  rw [hPieces]
  exact List.mem_append_left _ hPart

/-
  What going up can do. A path with one name, which starts
  it, becomes empty. From any other path the last part that
  is a name is taken away, and the root stays the root.
-/
theorem parent?_cases
    {path parent : String}
    (hParent : parent? path = some parent) :
    ∃ first rest,
      parts path = first :: rest ∧
        ((first ≠ "" ∧ rest.filter (!isIdle ·) = [] ∧
            parent = "") ∨
          ∃ tail last,
            rest.filter (!isIdle ·) =
                tail.filter (!isIdle ·) ++ [last] ∧
              parts parent = first :: tail ∧
                (first = "" → tail ≠ [])) := by
  unfold parent? at hParent
  cases hParts : parts path with
  | nil => simp [hParts] at hParent
  | cons first rest =>
      refine ⟨first, rest, rfl, ?_⟩
      simp only [hParts] at hParent
      rw [← filter_trimmed rest]
      by_cases hKept : trimmed rest = []
      · simp only [hKept] at hParent ⊢
        by_cases hFirst : first = ""
        · simp [hFirst] at hParent
        · refine .inl ⟨hFirst, rfl, ?_⟩
          simpa [hFirst] using hParent
      · rcases trimmed_eq_concat hKept with
          ⟨before, last, hConcat, hLast⟩
        have hFull : (before ++ [last]).isEmpty = false := by
          simp
        have hNames :
            (before ++ [last]).filter (!isIdle ·) =
              (trimmed before).filter (!isIdle ·) ++
                [last] := by
          simp [filter_trimmed, hLast]
        rw [hConcat, List.dropLast_concat, hFull] at hParent
        simp only [Bool.not_false, if_true] at hParent
        rw [hConcat, hNames]
        refine .inr ?_
        by_cases hRoot : first = "" ∧ trimmed before = []
        · rw [hRoot.1, hRoot.2] at hParent ⊢
          simp only [decide_true, List.isEmpty_nil,
            Bool.and_self, if_true,
            Option.some.injEq] at hParent
          subst hParent
          exact ⟨[""], last, rfl, rfl, by simp⟩
        · have hPieces :
              ∀ piece ∈ first :: trimmed before,
                '/' ∉ piece.toList := by
            intro piece hPiece
            have hMem : piece ∈ parts path := by
              rw [hParts]
              rcases List.mem_cons.mp hPiece with
                rfl | hLater
              · exact List.mem_cons_self ..
              · apply List.mem_cons_of_mem
                apply mem_of_mem_trimmed
                rw [hConcat]
                exact
                  List.mem_append_left _
                    (mem_of_mem_trimmed hLater)
            exact slash_notMem_parts hMem
          have hText :
              parent = ofParts (first :: trimmed before) := by
            simpa [hRoot] using hParent.symm
          refine ⟨trimmed before, last, rfl, ?_, ?_⟩
          · rw [hText,
              parts_ofParts hPieces (List.cons_ne_nil _ _)]
          · intro hFirst hNone
            exact hRoot ⟨hFirst, hNone⟩

/- Going up takes the last name away. -/
theorem names_of_parent?
    {path parent : String}
    (hParent : parent? path = some parent) :
    names path ≠ [] ∧
      names parent = (names path).dropLast := by
  rcases parent?_cases hParent with
    ⟨first, rest, hParts,
      ⟨hFirst, hRest, rfl⟩ |
        ⟨tail, last, hRest, hTail, -⟩⟩
  · have hNames : names path = [first] := by
      rw [names, hParts, namesOf, hRest, if_neg hFirst]
    rw [hNames]
    exact ⟨List.cons_ne_nil _ _, rfl⟩
  · have hNames : names path = names parent ++ [last] := by
      rw [names, names, hParts, hTail, namesOf, namesOf,
        hRest]
      split
      · rfl
      · rfl
    rw [hNames]
    exact ⟨by simp, by simp⟩

end Path

end Files

end OnePass
