import Mathlib.Data.List.Infix
import Mathlib.Data.List.Nodup
import OnePass.Files.Tree

/-
  Where places lead.

  The text of a path may have more slashes and dots in it
  than it needs. What is in a directory is found by the names
  along its path alone, and it depends on nothing but which
  names lead to directories. Going up from a place keeps its
  origin and runs through all beginnings of its names.

  Main declarations:
    * `Files.Path.parts_child`
    * `Files.Tree.directory?`, `Files.Tree.home?`
    * `Files.Tree.walk_concat`, `Files.Tree.find?_child`
    * `Files.Tree.entryAt?`, `Files.Tree.entryIn?`
    * `Files.Tree.run_bind`
    * `Files.Place.lineage`
    * `Files.Place.map_names_lineage`
-/

------------------------------------------------------------
-- The Text Of Paths
------------------------------------------------------------

namespace OnePass

namespace Files

namespace Path

/- A name that something in a directory can have. -/
structure IsName (name : String) : Prop where
  active : isIdle name = false
  inside : name ≠ ".."
  whole : '/' ∉ name.toList

instance (name : String) : Decidable (IsName name) :=
  decidable_of_iff
    (isIdle name = false ∧ name ≠ ".." ∧ '/' ∉ name.toList)
    ⟨fun ⟨hActive, hInside, hWhole⟩ =>
        ⟨hActive, hInside, hWhole⟩,
      fun ⟨hActive, hInside, hWhole⟩ =>
        ⟨hActive, hInside, hWhole⟩⟩

theorem IsName.ne_empty
    {name : String}
    (hName : IsName name) :
    name ≠ "" := by
  rintro rfl
  cases hName.active

/- The names of a path are the parts that are not idle. -/
theorem filter_namesOf
    (pieces : List String) :
    (namesOf pieces).filter (!isIdle ·) =
      pieces.filter (!isIdle ·) := by
  cases pieces with
  | nil => rfl
  | cons first rest =>
      simp only [namesOf]
      split
      · next hFirst =>
          subst hFirst
          simp [isIdle]
      · rw [List.filter_cons, List.filter_cons]
        simp

section Child

variable (path : String)
variable {name : String}
variable (hName : IsName name)

include hName

theorem parts_name :
    parts name = [name] := by
  rw [parts, List.splitOn_eq_singleton hName.whole]
  simp

theorem isRooted_name :
    isRooted name = false := by
  have hHead : name.toList.head? ≠ some '/' := by
    intro hHead
    exact hName.whole (List.mem_of_mem_head? hHead)
  simpa [isRooted] using hHead

/-
  The parts of a path into a directory end with the name, and
  the names in front of it are those of the directory.
-/
theorem parts_child :
    ∃ before,
      parts (child path name) = before ++ [name] ∧
        before.filter (!isIdle ·) =
          (names path).filter (!isIdle ·) := by
  rw [names, filter_namesOf]
  unfold child
  by_cases hEmpty : path = ""
  · subst hEmpty
    refine ⟨[], ?_, by decide⟩
    simpa using parts_name hName
  · have hLine : name.toList.splitOn '/' = [name.toList] :=
      List.splitOn_eq_singleton hName.whole
    by_cases hSlash : path.toList.getLast? = some '/'
    -- The empty part after the last slash makes room for it.
    · rcases List.getLast?_eq_some_iff.mp hSlash with
        ⟨front, hFront⟩
      refine
        ⟨(front.splitOn '/').map String.ofList, ?_, ?_⟩
      · simp only [hSlash, decide_true, Bool.or_true, if_true]
        rw [parts, String.toList_append, hFront,
          List.append_assoc, List.singleton_append,
          List.splitOn_append_cons_self, hLine]
        simp
      · rw [parts, hFront, List.splitOn_append_cons_self]
        simp [isIdle]
    · refine ⟨parts path, ?_, rfl⟩
      simp only [hEmpty, hSlash, decide_false, Bool.or_false,
        Bool.false_eq_true, if_false]
      have hText :
          (path ++ "/" ++ name).toList =
            path.toList ++ '/' :: name.toList := by
        simp
      rw [parts, hText, List.splitOn_append_cons_self, hLine]
      simp [parts]

theorem isRooted_child :
    isRooted (child path name) = isRooted path := by
  by_cases hEmpty : path = ""
  · subst hEmpty
    have hHere : isRooted "" = false := by decide
    rw [hHere]
    simpa [child] using isRooted_name hName
  · have hSome : path.toList ≠ [] := by simpa using hEmpty
    rcases List.exists_cons_of_ne_nil hSome with
      ⟨first, rest, hText⟩
    unfold child isRooted
    split
    · simp [hText]
    · simp [hText]

theorem child_ne_empty :
    child path name ≠ "" := by
  have hSome := hName.ne_empty
  unfold child
  split
  · simp [hSome]
  · simp [hSome]

end Child

/- A slash that starts a path is an empty first part. -/
theorem isRooted_iff_parts
    {path first : String}
    {rest : List String}
    (hParts : parts path = first :: rest) :
    isRooted path = true ↔ first = "" ∧ rest ≠ [] := by
  unfold isRooted
  unfold parts at hParts
  cases hText : path.toList with
  | nil =>
      rw [hText, List.splitOn_nil] at hParts
      cases hParts
      simp
  | cons char text =>
      rw [hText, List.splitOn_cons_eq_if_modifyHead] at hParts
      have hLater := List.splitOn_ne_nil '/' text
      by_cases hSlash : char = '/'
      · simp only [hSlash, beq_self_eq_true, if_true,
          List.map_cons, List.cons.injEq] at hParts
        simp [hSlash, ← hParts.1, ← hParts.2, hLater]
      · rcases List.exists_cons_of_ne_nil hLater with
          ⟨piece, pieces, hPieces⟩
        simp only [beq_iff_eq, hSlash, if_false, hPieces,
          List.modifyHead_cons, List.map_cons,
          String.ofList_cons, List.cons.injEq] at hParts
        have hFirst : first ≠ "" := by
          rw [← hParts.1, ne_eq, ← String.toList_inj]
          simp
        simp [hSlash, hFirst]

/- The root stays the root on the way up. -/
theorem isRooted_of_parent?
    {path parent : String}
    (hParent : parent? path = some parent) :
    isRooted parent = isRooted path := by
  rcases parent?_cases hParent with
    ⟨first, rest, hParts,
      ⟨hFirst, -, rfl⟩ | ⟨tail, last, hRest, hTail, hRoot⟩⟩
  · have hHere : isRooted "" = false := by decide
    have hPath : ¬isRooted path = true := by
      rw [isRooted_iff_parts hParts]
      exact fun hBoth => hFirst hBoth.1
    rw [hHere]
    exact (Bool.eq_false_iff.mpr hPath).symm
  · have hSome : rest ≠ [] := by
      rintro rfl
      simp at hRest
    rw [Bool.eq_iff_iff, isRooted_iff_parts hParts,
      isRooted_iff_parts hTail]
    constructor
    · exact fun hBoth => ⟨hBoth.1, hSome⟩
    · exact fun hBoth => ⟨hBoth.1, hRoot hBoth.1⟩

/- There is no way up from a path without names only. -/
theorem names_eq_nil_of_parent?
    {path : String}
    (hParent : parent? path = none) :
    names path = [] := by
  unfold parent? at hParent
  unfold names
  cases hParts : parts path with
  | nil => rfl
  | cons first rest =>
      simp only [hParts] at hParent
      rw [namesOf, ← filter_trimmed rest]
      by_cases hKept : trimmed rest = []
      · by_cases hFirst : first = ""
        · simp [hKept, hFirst]
        · simp [hKept, hFirst] at hParent
      · have hFull : (trimmed rest).isEmpty = false := by
          simpa using hKept
        simp only [hFull, Bool.not_false, if_true] at hParent
        split at hParent
        · cases hParent
        · cases hParent

end Path

end Files

end OnePass

------------------------------------------------------------
-- Directories
------------------------------------------------------------

namespace OnePass

namespace Files

namespace Tree

/-
  The directory that names lead to. Everything on the way is
  a directory, too.
-/
def directory?
    (tree : Tree) :
    List String → List String → Option (List String)
| place, [] => if tree.isDirectory place then some place else none
| place, part :: parts =>
    if tree.isDirectory place then
      (tree.step? place part).bind (directory? tree · parts)
    else
      none

section Directories

variable {tree : Tree}
variable {place : List String}

theorem directory?_of_not
    (hPlace : tree.isDirectory place = false)
    (parts : List String) :
    tree.directory? place parts = none := by
  cases parts with
  | nil => simp [directory?, hPlace]
  | cons part parts => simp [directory?, hPlace]

/- One more name leads from one directory to the next. -/
theorem directory?_concat
    (parts : List String)
    (part : String) :
    tree.directory? place (parts ++ [part]) =
      (tree.directory? place parts).bind fun directory =>
        (tree.step? directory part).bind fun next =>
          if tree.isDirectory next then some next else none := by
  induction parts generalizing place with
  | nil =>
      simp only [List.nil_append, directory?]
      split
      · rfl
      · rfl
  | cons first parts ih =>
      simp only [List.cons_append, directory?]
      split
      · cases hNext : tree.step? place first with
        | none => rfl
        | some next => exact ih
      · rfl

theorem eq_of_directory?_nil
    {home : List String}
    (hHome : tree.directory? place [] = some home) :
    home = place := by
  simp only [directory?] at hHome
  split at hHome
  · cases hHome
    rfl
  · cases hHome

/- The last step to a directory is taken from another one. -/
theorem exists_step_of_directory?_concat
    {parts home : List String}
    {part : String}
    (hHome :
      tree.directory? place (parts ++ [part]) = some home) :
    ∃ here,
      tree.directory? place parts = some here ∧
        tree.step? here part = some home := by
  rw [directory?_concat] at hHome
  rcases Option.bind_eq_some_iff.mp hHome with
    ⟨here, hHere, hNext⟩
  rcases Option.bind_eq_some_iff.mp hNext with
    ⟨next, hStep, hKind⟩
  split at hKind
  · cases hKind
    exact ⟨here, hHere, hStep⟩
  · cases hKind

/- Idle parts lead nowhere else. -/
theorem directory?_idle
    {part : String}
    (hIdle : Path.isIdle part = true)
    (parts : List String) :
    tree.directory? place (part :: parts) =
      tree.directory? place parts := by
  cases hPlace : tree.isDirectory place with
  | false =>
      rw [directory?_of_not hPlace, directory?_of_not hPlace]
  | true => simp [directory?, step?, hPlace, hIdle]

theorem directory?_filter
    (parts : List String) :
    tree.directory? place (parts.filter (!Path.isIdle ·)) =
      tree.directory? place parts := by
  induction parts generalizing place with
  | nil => rfl
  | cons part parts ih =>
      cases hIdle : Path.isIdle part with
      | true =>
          rw [directory?_idle hIdle, ← ih]
          simp [hIdle]
      | false =>
          simp only [hIdle, Bool.not_false,
            List.filter_cons_of_pos, directory?, ih]

/- What leads to a directory leads through directories. -/
theorem isSome_directory?_of_prefix
    {parts longer : List String}
    (hPrefix : parts <+: longer)
    (hLonger : (tree.directory? place longer).isSome) :
    (tree.directory? place parts).isSome := by
  induction longer using List.reverseRecOn with
  | nil =>
      rw [List.prefix_nil.mp hPrefix]
      exact hLonger
  | append_singleton longer part ih =>
      rcases List.prefix_concat_iff.mp hPrefix with
        rfl | hShorter
      · exact hLonger
      · rcases Option.isSome_iff_exists.mp hLonger with
          ⟨home, hHome⟩
        rcases exists_step_of_directory?_concat hHome with
          ⟨here, hHere, -⟩
        apply ih hShorter
        rw [hHere]
        rfl

/- Without two dots, names are added to where they start. -/
theorem directory?_of_dots_notMem
    {parts directory : List String}
    (hDots : ".." ∉ parts)
    (hDirectory :
      tree.directory? place parts = some directory) :
    directory = place ++ parts.filter (!Path.isIdle ·) := by
  induction parts generalizing place with
  | nil => simpa using eq_of_directory?_nil hDirectory
  | cons part parts ih =>
      rw [List.mem_cons, not_or] at hDots
      rcases hDots with ⟨hPart, hLater⟩
      cases hIdle : Path.isIdle part with
      | true =>
          rw [directory?_idle hIdle] at hDirectory
          simpa [hIdle] using ih hLater hDirectory
      | false =>
          have hStep :
              tree.step? place part =
                some (place ++ [part]) := by
            simp [step?, hIdle, Ne.symm hPart]
          simp only [directory?, hStep,
            Option.bind_some] at hDirectory
          split at hDirectory
          · simpa [hIdle] using ih hLater hDirectory
          · cases hDirectory

theorem step?_name
    {name : String}
    (hName : Path.IsName name) :
    tree.step? place name = some (place ++ [name]) := by
  simp [step?, hName.active, hName.inside]

/-
  A path that ends with a name leads to what has this name in
  the directory that the path leads to before it.
-/
theorem walk_concat
    {name : String}
    (hName : Path.IsName name)
    (parts : List String) :
    tree.walk place (parts ++ [name]) =
      (tree.directory? place parts).bind fun directory =>
        if (tree.entry? (directory ++ [name])).isSome then
          some (directory ++ [name])
        else
          none := by
  induction parts generalizing place with
  | nil =>
      cases hPlace : tree.isDirectory place with
      | false => simp [walk, directory?, hPlace]
      | true =>
          simp only [List.nil_append, walk, directory?, hPlace,
            step?_name hName]
          cases hEntry : tree.entry? (place ++ [name]) with
          | none => simp [hEntry]
          | some entry => simp [hEntry]
  | cons part parts ih =>
      cases hPlace : tree.isDirectory place with
      | false => simp [walk, directory?, hPlace]
      | true =>
          simp only [List.cons_append, walk, directory?, hPlace]
          cases hNext : tree.step? place part with
          | none => simp
          | some next =>
              cases hEntry : tree.entry? next with
              | none =>
                  have hOther :
                      tree.isDirectory next = false := by
                    simp [isDirectory, hEntry]
                  simp [hEntry, directory?_of_not hOther]
              | some entry => simp [hEntry, ih]

end Directories

/-
  Recording an entry changes nothing else, if the way to it
  is there.
-/
theorem entry?_put_of_ne
    {tree : Tree}
    {names added : List String}
    (hOther : names ≠ added)
    (hKnown : names <+: added → (tree.entry? names).isSome)
    (entry : Entry) :
    Tree.entry? (tree.put added entry) names =
      tree.entry? names := by
  have hKey : (names == added) = false := by simpa using hOther
  unfold entry? at hKnown
  unfold entry? put
  simp only [List.lookup_cons, hKey, List.any_cons]
  cases hLookup : tree.entries.lookup names with
  | some recorded => rfl
  | none =>
      by_cases hPrefix : names <+: added
      · have hLeads := hKnown hPrefix
        simp only [hLookup] at hLeads
        split at hLeads
        · next hSome =>
            simp only [Bool.or_eq_true] at hSome ⊢
            rw [if_pos hSome, if_pos]
            exact hSome.imp_right .inr
        · cases hLeads
      · have hNot : names.isPrefixOf added = false := by
          simpa [← List.isPrefixOf_iff_prefix] using hPrefix
        simp only [hNot, Bool.false_or]

/- The directory that a place leads to. -/
def home?
    (tree : Tree)
    (workingDirectory : List String)
    (place : Place) : Option (List String) :=
  (tree.base? workingDirectory place).bind
    (tree.directory? · place.names)

/-
  What is found in the directory of a place: the text of its
  path does not matter beyond its origin and its names.
-/
theorem find?_child
    (tree : Tree)
    (workingDirectory : List String)
    (place : Place)
    {name : String}
    (hName : Path.IsName name) :
    tree.find? workingDirectory (place.child name) =
      (tree.home? workingDirectory place).bind
        fun directory =>
          if (tree.entry? (directory ++ [name])).isSome then
            some (directory ++ [name])
          else
            none := by
  cases place with
  | fromRoot names =>
      simp [find?, route?, home?, base?, Place.child,
        Place.origin, Place.parts, Place.names,
        walk_concat hName]
  | written path =>
      rcases Path.parts_child path hName with
        ⟨before, hParts, hNames⟩
      have hSome := Path.child_ne_empty path hName
      have hRooted := Path.isRooted_child path hName
      have hLead (base : List String) :
          tree.directory? base before =
            tree.directory? base (Path.names path) := by
        rw [← directory?_filter, hNames, directory?_filter]
      have hRoute :
          tree.route? workingDirectory
              (.written (Path.child path name)) =
            (tree.base? workingDirectory
              (.written path)).map (·, before ++ [name]) := by
        simp [route?, base?, Place.origin, Place.parts, hSome,
          hRooted, hParts]
      rw [find?, Place.child, hRoute, home?]
      cases tree.base? workingDirectory (.written path) with
      | none => rfl
      | some base =>
          simp [walk_concat hName, hLead, Place.names]

/- What stands at a place. -/
def entryAt?
    (tree : Tree)
    (workingDirectory : List String)
    (place : Place) : Option Entry :=
  (tree.find? workingDirectory place).bind tree.entry?

/- What has a name in the directory of a place. -/
def entryIn?
    (tree : Tree)
    (workingDirectory : List String)
    (place : Place)
    (name : String) : Option Entry :=
  (tree.home? workingDirectory place).bind fun directory =>
    tree.entry? (directory ++ [name])

section Entries

variable (tree : Tree)
variable (workingDirectory : List String)
variable (place : Place)

theorem entryAt?_child
    {name : String}
    (hName : Path.IsName name) :
    tree.entryAt? workingDirectory (place.child name) =
      tree.entryIn? workingDirectory place name := by
  rw [entryAt?, find?_child tree workingDirectory place hName,
    entryIn?]
  cases tree.home? workingDirectory place with
  | none => rfl
  | some directory =>
      cases hEntry : tree.entry? (directory ++ [name]) with
      | none => simp [hEntry]
      | some entry => simp [hEntry]

/- Something stands where the names lead to in a directory. -/
theorem isSome_find?_child
    {name : String}
    (hName : Path.IsName name) :
    (tree.find? workingDirectory
        (place.child name)).isSome =
      (tree.entryIn? workingDirectory place name).isSome := by
  rw [find?_child tree workingDirectory place hName, entryIn?]
  cases tree.home? workingDirectory place with
  | none => rfl
  | some directory =>
      cases hEntry : tree.entry? (directory ++ [name]) with
      | none => simp [hEntry]
      | some entry => simp [hEntry]

theorem bytes?_eq_some_iff
    {bytes : ByteArray} :
    tree.bytes? workingDirectory place = some bytes ↔
      tree.entryAt? workingDirectory place =
        some (.file bytes) := by
  unfold bytes? entryAt?
  cases tree.find? workingDirectory place with
  | none => simp
  | some names =>
      simp only [Option.bind_eq_bind, Option.bind_some]
      split
      · next contents hEntry => simp [hEntry]
      · next hEntry =>
          constructor
          · intro hNone
            cases hNone
          · intro hFile
            exact absurd hFile (hEntry bytes)

end Entries

end Tree

end Files

end OnePass

------------------------------------------------------------
-- Trees As Hosts
------------------------------------------------------------

namespace OnePass

namespace Files

/- How a place in a tree is shown. -/
def Place.shown : Place → String
| fromRoot names => "/".intercalate names
| written path => path

namespace Tree

/- The bytes of a text are read back as this text only. -/
theorem fromUTF8?_eq_some_iff
    {bytes : ByteArray}
    {text : String} :
    String.fromUTF8? bytes = some text ↔
      bytes = text.toUTF8 := by
  unfold String.fromUTF8?
  constructor
  · intro hText
    split at hText
    · cases hText
      rfl
    · cases hText
  · rintro rfl
    have hValid : text.toUTF8.IsValidUTF8 :=
      text.isValidUTF8
    rw [dif_pos hValid]
    rfl

/- A file has one text only. -/
theorem text_eq_of_file_eq
    {content? : Option Entry}
    {first second : String}
    (hFirst : content? = some (.file first.toUTF8))
    (hSecond : content? = some (.file second.toUTF8)) :
    first = second := by
  rw [hFirst] at hSecond
  exact String.toByteArray_inj.mp (by simpa using hSecond)

variable (tree : Tree)
variable (workingDirectory : List String)
variable (input : ByteArray)
variable (place : Place)

/- The text of a file at a place, if there is one. -/
def text? : Option String :=
  (tree.bytes? workingDirectory place).bind
    String.fromUTF8?

theorem text?_eq_some_iff
    {text : String} :
    tree.text? workingDirectory place = some text ↔
      tree.entryAt? workingDirectory place =
        some (.file text.toUTF8) := by
  simp [text?, Option.bind_eq_some_iff,
    fromUTF8?_eq_some_iff, bytes?_eq_some_iff]

/- What comes after a step that leaves the tree as it is. -/
theorem run_bind
    {α β : Type}
    {first : StateM Tree α}
    {answer : α}
    (hFirst : first.run tree = (answer, tree))
    (next : α → StateM Tree β) :
    (first >>= next).run tree = (next answer).run tree := by
  rw [StateT.run_bind, hFirst]
  rfl

theorem run_workingDirectory :
    (host workingDirectory input).workingDirectory.run tree =
      (workingDirectory, tree) :=
  rfl

theorem run_present :
    ((host workingDirectory input).present place).run tree =
      ((tree.find? workingDirectory place).isSome, tree) :=
  rfl

theorem run_text? :
    ((host workingDirectory input).text? place).run tree =
      (tree.text? workingDirectory place, tree) :=
  rfl

theorem run_inputText? :
    (host workingDirectory input).inputText?.run tree =
      (String.fromUTF8? input, tree) :=
  rfl

@[simp] theorem display_host :
    (host workingDirectory input).display place =
      place.shown := by
  cases place with
  | fromRoot names => exact String.empty_append ..
  | written path => rfl

end Tree

end Files

end OnePass

------------------------------------------------------------
-- Going Up
------------------------------------------------------------

namespace OnePass

namespace Files

namespace Place

/- Going up keeps where the names start. -/
theorem origin_of_parent?
    {place parent : Place}
    (hParent : place.parent? = some parent) :
    parent.origin = place.origin := by
  cases place with
  | fromRoot names =>
      simp only [parent?] at hParent
      split at hParent
      · cases hParent
      · cases hParent
        rfl
  | written path =>
      rcases Option.map_eq_some_iff.mp hParent with
        ⟨text, hText, rfl⟩
      simp only [origin, Path.isRooted_of_parent? hText]

/- There is no way up from a place without names only. -/
theorem names_eq_nil_of_parent?
    {place : Place}
    (hParent : place.parent? = none) :
    place.names = [] := by
  cases place with
  | fromRoot names =>
      simpa [parent?, Place.names] using hParent
  | written path =>
      apply Path.names_eq_nil_of_parent?
      simpa [parent?] using hParent

/- The places on the way up from a place, itself included. -/
def lineage (place : Place) : List Place :=
  match hParent : place.parent? with
  | none => [place]
  | some parent =>
      have := length_names_of_parent? hParent
      place :: lineage parent
termination_by place.names.length

/-
  On the way up the names are all beginnings of those of the
  place, from the longest to the shortest.
-/
theorem map_names_lineage
    (place : Place) :
    place.lineage.map names = place.names.inits.reverse := by
  fun_induction lineage place with
  | case1 place hParent =>
      simp [names_eq_nil_of_parent? hParent]
  | case2 place parent hParent hLess ih =>
      rcases names_of_parent? hParent with ⟨hSome, hNames⟩
      rw [List.map_cons, ih, hNames]
      nth_rewrite 1 3 [← List.dropLast_concat_getLast hSome]
      rw [List.inits_append]
      simp

theorem origin_of_mem_lineage
    {place ancestor : Place}
    (hMem : ancestor ∈ place.lineage) :
    ancestor.origin = place.origin := by
  fun_induction lineage place with
  | case1 place hParent =>
      rw [List.mem_singleton.mp hMem]
  | case2 place parent hParent hLess ih =>
      rcases List.mem_cons.mp hMem with rfl | hLater
      · rfl
      · rw [ih hLater, origin_of_parent? hParent]

section Lineage

variable {place ancestor : Place}

theorem names_prefix_of_mem_lineage
    (hMem : ancestor ∈ place.lineage) :
    ancestor.names <+: place.names := by
  have hNames := List.mem_map_of_mem (f := names) hMem
  rwa [map_names_lineage, List.mem_reverse, List.mem_inits]
    at hNames

/- Every beginning of the names leads to a place on the way. -/
theorem exists_mem_lineage
    {parts : List String}
    (hParts : parts <+: place.names) :
    ∃ ancestor ∈ place.lineage, ancestor.names = parts := by
  rw [← List.mem_map, map_names_lineage, List.mem_reverse,
    List.mem_inits]
  exact hParts

end Lineage

/- Names are lost on the way up, one at a time. -/
theorem pairwise_lineage
    (place : Place) :
    place.lineage.Pairwise fun lower upper =>
      upper.names.length < lower.names.length := by
  fun_induction lineage place with
  | case1 place hParent => exact List.pairwise_singleton ..
  | case2 place parent hParent hLess ih =>
      refine List.pairwise_cons.mpr ⟨?_, ih⟩
      intro upper hUpper
      have hLength :=
        (names_prefix_of_mem_lineage hUpper).length_le
      omega

/- No two places on the way up have the same names. -/
theorem eq_of_names_eq
    {place first second : Place}
    (hFirst : first ∈ place.lineage)
    (hSecond : second ∈ place.lineage)
    (hNames : first.names = second.names) :
    first = second := by
  have hNodup : (place.lineage.map names).Nodup := by
    refine List.pairwise_map.mpr ?_
    refine place.pairwise_lineage.imp ?_
    intro lower upper hLess hSame
    rw [hSame] at hLess
    exact Nat.lt_irrefl _ hLess
  exact
    List.inj_on_of_nodup_map hNodup hFirst hSecond hNames

end Place

/- Places on the way up start where the place does. -/
theorem Tree.base?_of_mem_lineage
    {place ancestor : Place}
    (hMem : ancestor ∈ place.lineage)
    (tree : Tree)
    (workingDirectory : List String) :
    tree.base? workingDirectory ancestor =
      tree.base? workingDirectory place := by
  simp only [base?, Place.origin_of_mem_lineage hMem]

theorem Tree.home?_of_mem_lineage
    {tree : Tree}
    {workingDirectory base : List String}
    {place ancestor : Place}
    (hMem : ancestor ∈ place.lineage)
    (hBase : tree.base? workingDirectory place = some base) :
    tree.home? workingDirectory ancestor =
      tree.directory? base ancestor.names := by
  rw [home?, base?_of_mem_lineage hMem, hBase,
    Option.bind_some]

end Files

end OnePass
