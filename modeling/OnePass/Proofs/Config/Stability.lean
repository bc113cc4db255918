import Mathlib
import OnePass.Config.Decode
import OnePass.Proofs.Config.Search

/-
  What a search for a configuration file does not look at.

  A search ends at the nearest directory with an entry of the
  usual name, so that entries farther up do not matter. There
  are two exceptions. With two dots on the way, a search may
  come to a directory farther up before it ends. And it may
  end under an entry of the usual name, which then is one of
  the directories on the way.

  Main declarations:
    * `Config.Differs`
    * `Config.Differs.entryIn?_eq`
    * `Config.IsAside`, `Config.isClearWay_of_isAside`
    * `Config.Differs.isNearest`
    * `Config.IsAbove.isAside`
    * `search_settled_by_nearest`
    * `entry_above_decides_search`
-/

------------------------------------------------------------
-- Trees That Differ
------------------------------------------------------------

namespace OnePass

namespace Config

open Files (Place Tree)

/-
  The other tree differs from the tree in files that are not
  under the usual name, and under the entries of the usual
  name in some directories.
-/
structure Differs
    (isFree : List String → Prop)
    (tree other : Tree) : Prop where
  isWhole : other.isWhole = tree.isWhole
  entries :
    ∀ names,
      other.entry? names = tree.entry? names ∨
        (fileName ∉ names ∧
          tree.isDirectory names = false ∧
            other.isDirectory names = false) ∨
          ∃ directory,
            isFree directory ∧
              directory ++ [fileName] <+: names

/- What the names lead to is not under such an entry. -/
def IsClear
    (isFree : List String → Prop)
    (names : List String) : Prop :=
  ∀ directory,
    isFree directory → ¬directory ++ [fileName] <+: names

/- No step of a way leads under such an entry. -/
structure IsClearWay
    (isFree : List String → Prop)
    (tree : Tree)
    (base way : List String) : Prop where
  first : IsClear isFree base
  step :
    ∀ {parts part here next},
      parts ++ [part] <+: way →
        tree.directory? base parts = some here →
          tree.step? here part = some next →
            IsClear isFree next

section Differs

variable {isFree : List String → Prop}
variable {tree other : Tree}
variable {workingDirectory base way : List String}

theorem IsClearWay.mono
    {shorter : List String}
    (hWay : IsClearWay isFree tree base way)
    (hShorter : shorter <+: way) :
    IsClearWay isFree tree base shorter where
  first := hWay.first
  step hParts := hWay.step (hParts.trans hShorter)

theorem IsClearWay.isClear
    (hWay : IsClearWay isFree tree base way)
    {parts home : List String}
    (hParts : parts <+: way)
    (hHome : tree.directory? base parts = some home) :
    IsClear isFree home := by
  rcases List.eq_nil_or_concat' parts with
    rfl | ⟨parts, part, rfl⟩
  · rw [Tree.eq_of_directory?_nil hHome]
    exact hWay.first
  · rcases Tree.exists_step_of_directory?_concat hHome with
      ⟨here, hHere, hStep⟩
    exact hWay.step hParts hHere hStep

variable (hDiffers : Differs isFree tree other)

include hDiffers

theorem Differs.isDirectory_eq
    {names : List String}
    (hClear : IsClear isFree names) :
    other.isDirectory names = tree.isDirectory names := by
  rcases hDiffers.entries names with
    hSame | ⟨-, hTree, hOther⟩ | ⟨directory, hFree, hUnder⟩
  · simp only [Tree.isDirectory, hSame]
  · rw [hTree, hOther]
  · exact absurd hUnder (hClear directory hFree)

theorem Differs.entry?_eq
    {home : List String}
    (hClear : IsClear isFree home)
    (hBound : ¬isFree home) :
    other.entry? (home ++ [fileName]) =
      tree.entry? (home ++ [fileName]) := by
  rcases hDiffers.entries (home ++ [fileName]) with
    hSame | ⟨hName, -⟩ | ⟨directory, hFree, hUnder⟩
  · exact hSame
  · simp at hName
  · rcases List.prefix_concat_iff.mp hUnder with
      hSame | hInside
    · rcases List.append_inj' hSame rfl with ⟨rfl, -⟩
      exact absurd hFree hBound
    · exact absurd hInside (hClear directory hFree)

theorem Differs.base?_eq
    (place : Place) :
    other.base? workingDirectory place =
      tree.base? workingDirectory place := by
  simp only [Tree.base?, hDiffers.isWhole]

theorem Differs.step?_eq
    (here : List String)
    (part : String) :
    other.step? here part = tree.step? here part := by
  simp only [Tree.step?, hDiffers.isWhole]

/- A clear way leads to the same directories. -/
theorem Differs.directory?_eq
    (hWay : IsClearWay isFree tree base way)
    {parts : List String}
    (hParts : parts <+: way) :
    other.directory? base parts =
      tree.directory? base parts := by
  induction parts using List.reverseRecOn with
  | nil =>
      simp only [Tree.directory?,
        hDiffers.isDirectory_eq hWay.first]
  | append_singleton parts part ih =>
      have hShorter :=
        (List.prefix_append parts [part]).trans hParts
      rw [Tree.directory?_concat, Tree.directory?_concat,
        ih hShorter]
      cases hHere : tree.directory? base parts with
      | none => rfl
      | some here =>
          simp only [Option.bind_some, hDiffers.step?_eq]
          cases hStep : tree.step? here part with
          | none => rfl
          | some next =>
              have hClear := hWay.step hParts hHere hStep
              simp only [Option.bind_some,
                hDiffers.isDirectory_eq hClear]

/- What has the usual name at the end of a clear way. -/
theorem Differs.entryIn?_eq
    {place : Place}
    (hWay :
      ∀ base,
        tree.base? workingDirectory place = some base →
          IsClearWay isFree tree base place.names)
    (hBound :
      ∀ home,
        tree.home? workingDirectory place = some home →
          ¬isFree home) :
    other.entryIn? workingDirectory place fileName =
      tree.entryIn? workingDirectory place fileName := by
  unfold Tree.entryIn?
  unfold Tree.home? at hBound ⊢
  rw [hDiffers.base?_eq]
  cases hBase : tree.base? workingDirectory place with
  | none => rfl
  | some base =>
      have hClearWay := hWay base hBase
      rw [hBase] at hBound
      simp only [Option.bind_some] at hBound ⊢
      rw [hDiffers.directory?_eq hClearWay List.prefix_rfl]
      cases hHome : tree.directory? base place.names with
      | none => rfl
      | some home =>
          have hClear :=
            hClearWay.isClear List.prefix_rfl hHome
          exact
            hDiffers.entry?_eq hClear (hBound home hHome)

end Differs

/- Files that are not under the usual name do not matter. -/
theorem Differs.entryIn?_eq_of_files
    {tree other : Tree}
    (hDiffers : Differs (fun _ => False) tree other)
    (workingDirectory : List String)
    (place : Place) :
    other.entryIn? workingDirectory place fileName =
      tree.entryIn? workingDirectory place fileName := by
  have hClear (names : List String) :
      IsClear (fun _ => False) names :=
    fun _ hFree => hFree.elim
  apply hDiffers.entryIn?_eq
  · exact fun base _ => ⟨hClear base, fun _ _ _ => hClear _⟩
  · exact fun _ _ hFree => hFree

end Config

end OnePass

------------------------------------------------------------
-- Entries Aside
------------------------------------------------------------

namespace OnePass

namespace Config

open Files (Place Tree)

/-
  The entry of the usual name in a directory has no part in a
  search from the start that ends at the place found. No
  place that is searched has this directory, and the way to
  the end does not lead through the entry.
-/
structure IsAside
    (tree : Tree)
    (workingDirectory : List String)
    (start found : Place)
    (directory : List String) : Prop where
  unsearched :
    ∀ place ∈ start.lineage,
      found.names <+: place.names →
        tree.home? workingDirectory place ≠ some directory
  uncrossed :
    ∀ place ∈ start.lineage,
      place.names <+: found.names →
        ∀ home,
          tree.home? workingDirectory place = some home →
            ¬directory ++ [fileName] <+: home

/- An entry is not entered but from its directory. -/
theorem IsClear.step
    {isFree : List String → Prop}
    {tree : Tree}
    {here next : List String}
    {part : String}
    (hClear : IsClear isFree here)
    (hStep : tree.step? here part = some next)
    (hBound : part = fileName → ¬isFree here) :
    IsClear isFree next := by
  intro directory hFree hUnder
  unfold Tree.step? at hStep
  split at hStep
  · cases hStep
    exact hClear directory hFree hUnder
  · split at hStep
    · split at hStep
      · cases hStep
      · cases hStep
        exact
          hClear directory hFree
            (hUnder.trans (List.dropLast_prefix here))
    -- A name leads under the entry if it is the entry's own.
    · cases hStep
      rcases List.prefix_concat_iff.mp hUnder with
        hSame | hBefore
      · rcases List.append_inj' hSame rfl with ⟨rfl, hName⟩
        cases hName
        exact hBound rfl hFree
      · exact hClear directory hFree hBefore

section Way

variable {tree : Tree}
variable {workingDirectory base : List String}
variable {start found : Place}

variable (hMem : found ∈ start.lineage)
variable
  (hBase : tree.base? workingDirectory start = some base)

include hMem hBase

/- Nothing is crossed on the way to the end. -/
theorem isClear_of_prefix
    {parts home : List String}
    (hParts : parts <+: found.names)
    (hHome : tree.directory? base parts = some home) :
    IsClear (IsAside tree workingDirectory start found)
      home := by
  intro directory hAside
  have hPrefix := Place.names_prefix_of_mem_lineage hMem
  rcases Place.exists_mem_lineage (hParts.trans hPrefix) with
    ⟨place, hPlace, rfl⟩
  apply hAside.uncrossed place hPlace hParts home
  rw [Tree.home?_of_mem_lineage hPlace hBase, hHome]

variable
  (hFound : (tree.directory? base found.names).isSome)

include hFound

/-
  Nor is anything crossed by a later step. It is a step of
  the way to the end, or it is taken in a directory that is
  searched.
-/
theorem isClear_of_step
    {parts here next : List String}
    {part : String}
    (hParts : parts ++ [part] <+: start.names)
    (hHere : tree.directory? base parts = some here)
    (hClear :
      IsClear (IsAside tree workingDirectory start found)
        here)
    (hStep : tree.step? here part = some next) :
    IsClear (IsAside tree workingDirectory start found)
      next := by
  have hPrefix := Place.names_prefix_of_mem_lineage hMem
  by_cases hSearched : found.names <+: parts
  · apply hClear.step hStep
    intro hName hAside
    have hShorter :=
      (List.prefix_append parts [part]).trans hParts
    rcases Place.exists_mem_lineage hShorter with
      ⟨place, hPlace, rfl⟩
    apply hAside.unsearched place hPlace hSearched
    rw [Tree.home?_of_mem_lineage hPlace hBase, hHere]
  · have hOnTheWay : parts ++ [part] <+: found.names := by
      rcases List.prefix_or_prefix_of_prefix hPrefix
          hParts with hBefore | hAfter
      · rcases List.prefix_concat_iff.mp hBefore with
          hSame | hShorter
        · rw [hSame]
        · exact absurd hShorter hSearched
      · exact hAfter
    have hLeads :=
      Tree.isSome_directory?_of_prefix hOnTheWay hFound
    rcases Option.isSome_iff_exists.mp hLeads with
      ⟨home, hHome⟩
    rcases Tree.exists_step_of_directory?_concat hHome with
      ⟨again, hAgain, hNext⟩
    cases hHere.symm.trans hAgain
    cases hStep.symm.trans hNext
    exact isClear_of_prefix hMem hBase hOnTheWay hHome

theorem isClear_of_directory?
    {parts home : List String}
    (hParts : parts <+: start.names)
    (hHome : tree.directory? base parts = some home) :
    IsClear (IsAside tree workingDirectory start found)
      home := by
  induction parts using List.reverseRecOn generalizing home with
  | nil =>
      exact
        isClear_of_prefix hMem hBase List.nil_prefix hHome
  | append_singleton parts part ih =>
      have hShorter :=
        (List.prefix_append parts [part]).trans hParts
      rcases Tree.exists_step_of_directory?_concat hHome with
        ⟨here, hHere, hStep⟩
      exact
        isClear_of_step hMem hBase hFound hParts hHere
          (ih hShorter hHere) hStep

/- The way from the start is clear of what is aside. -/
theorem isClearWay_of_isAside :
    IsClearWay (IsAside tree workingDirectory start found)
      tree base start.names where
  first := by
    have hRoot :=
      Tree.isSome_directory?_of_prefix List.nil_prefix hFound
    rcases Option.isSome_iff_exists.mp hRoot with
      ⟨home, hHome⟩
    have hClear :=
      isClear_of_prefix hMem hBase List.nil_prefix hHome
    rwa [Tree.eq_of_directory?_nil hHome] at hClear
  step := by
    intro parts part here next hParts hHere hStep
    have hShorter :=
      (List.prefix_append parts [part]).trans hParts
    have hClear :=
      isClear_of_directory? hMem hBase hFound hShorter hHere
    exact
      isClear_of_step hMem hBase hFound hParts hHere hClear
        hStep

end Way

section Nearest

variable {tree other : Tree}
variable {workingDirectory : List String}
variable {start found : Place}

variable
  (hNearest : IsNearest tree workingDirectory start found)

include hNearest

theorem IsNearest.exists_base :
    ∃ base,
      tree.base? workingDirectory start = some base ∧
        (tree.directory? base found.names).isSome := by
  have hPresent := hNearest.present
  cases hBase : tree.base? workingDirectory start with
  | none =>
      simp [holds, Tree.entryIn?, Tree.home?,
        Tree.base?_of_mem_lineage hNearest.onTheWay,
        hBase] at hPresent
  | some base =>
      refine ⟨base, rfl, ?_⟩
      rw [holds, Tree.entryIn?,
        Tree.home?_of_mem_lineage hNearest.onTheWay
          hBase] at hPresent
      cases hHome : tree.directory? base found.names with
      | none => simp [hHome] at hPresent
      | some home => rfl

variable
  (hDiffers :
    Differs (IsAside tree workingDirectory start found) tree
      other)

include hDiffers

/- What is searched is the same in both trees. -/
theorem Differs.entryIn?_eq_of_isAside
    {place : Place}
    (hPlace : place ∈ start.lineage)
    (hSearched : found.names <+: place.names) :
    other.entryIn? workingDirectory place fileName =
      tree.entryIn? workingDirectory place fileName := by
  apply hDiffers.entryIn?_eq
  · intro base hBase
    rcases hNearest.exists_base with ⟨same, hSame, hFound⟩
    rw [Tree.base?_of_mem_lineage hPlace, hSame] at hBase
    cases hBase
    have hWay :=
      isClearWay_of_isAside hNearest.onTheWay hSame hFound
    exact hWay.mono (Place.names_prefix_of_mem_lineage hPlace)
  · intro home hHome hAside
    exact hAside.unsearched place hPlace hSearched hHome

/- So a search ends at the same place. -/
theorem Differs.isNearest :
    IsNearest other workingDirectory start found where
  onTheWay := hNearest.onTheWay
  present := by
    rw [holds,
      hDiffers.entryIn?_eq_of_isAside hNearest
        hNearest.onTheWay List.prefix_rfl]
    exact hNearest.present
  first := by
    intro place hPlace hPresent
    rcases List.prefix_or_prefix_of_prefix
        (Place.names_prefix_of_mem_lineage hPlace)
        (Place.names_prefix_of_mem_lineage
          hNearest.onTheWay) with hFarther | hNearer
    · exact hFarther
    · apply hNearest.first place hPlace
      rw [holds,
        hDiffers.entryIn?_eq_of_isAside hNearest hPlace
          hNearer] at hPresent
      exact hPresent

end Nearest

end Config

end OnePass

------------------------------------------------------------
-- Entries Above
------------------------------------------------------------

namespace OnePass

namespace Config

open Files (Place Tree)

/-
  A directory above the one where a search ends. The search
  does not end under the entry of the usual name in it.
-/
def IsAbove
    (tree : Tree)
    (workingDirectory : List String)
    (found : Place)
    (directory : List String) : Prop :=
  ∃ home,
    tree.home? workingDirectory found = some home ∧
      directory <+: home ∧
        directory ≠ home ∧
          ¬directory ++ [fileName] <+: home

/- Without two dots on the way, what is above is aside. -/
theorem IsAbove.isAside
    {tree : Tree}
    {workingDirectory directory : List String}
    {start found : Place}
    (hAbove : IsAbove tree workingDirectory found directory)
    (hNearest :
      IsNearest tree workingDirectory start found)
    (hDots : ".." ∉ start.names) :
    IsAside tree workingDirectory start found directory := by
  rcases hAbove with ⟨home, hHome, hUp, hProper, hOutside⟩
  rcases hNearest.exists_base with ⟨base, hBase, -⟩
  have hNames
      {place : Place}
      {reached : List String}
      (hPlace : place ∈ start.lineage)
      (hReached :
        tree.home? workingDirectory place = some reached) :
      reached =
        base ++ place.names.filter (!Files.Path.isIdle ·) := by
    rw [Tree.home?_of_mem_lineage hPlace hBase] at hReached
    have hPrefix := Place.names_prefix_of_mem_lineage hPlace
    apply Tree.directory?_of_dots_notMem _ hReached
    exact fun hMem => hDots (hPrefix.subset hMem)
  have hEnd := hNames hNearest.onTheWay hHome
  constructor
  · intro place hPlace hSearched hReached
    have hBelow : home <+: directory := by
      rw [hEnd, hNames hPlace hReached]
      exact
        (List.prefix_append_right_inj base).mpr
          (hSearched.filter _)
    exact hProper (hUp.eq_of_length_le hBelow.length_le)
  · intro place hPlace hBefore reached hReached hUnder
    have hOnTheWay : reached <+: home := by
      rw [hEnd, hNames hPlace hReached]
      exact
        (List.prefix_append_right_inj base).mpr
          (hBefore.filter _)
    exact hOutside (hUnder.trans hOnTheWay)

end Config

namespace Config

open Files (Place Tree)

/-
  A search depends on the entry of the usual name in a
  directory above the one where it ends: it comes to another
  result in a tree that differs under this entry only.
-/
structure DependsOn
    (tree other : Tree)
    (start found : Place)
    (home directory : List String) : Prop where
  nearest : IsNearest tree [] start found
  stands : tree.home? [] found = some home
  above : directory <+: home ∧ directory ≠ home
  isWhole : other.isWhole = tree.isWhole
  entries :
    ∀ names,
      ¬directory ++ [fileName] <+: names →
        other.entry? names = tree.entry? names
  results :
    ((nearestTo parse? (Tree.host [] .empty) start).run
        other).1 ≠
      ((nearestTo parse? (Tree.host [] .empty) start).run
        tree).1

/- A configuration file in `x/y`. -/
def lowerTree : Tree :=
  Tree.empty.put ["x", "y", fileName] (.file "".toUTF8)

/- Another one in `x`, which cannot be used. -/
def bothTree : Tree :=
  lowerTree.put ["x", fileName] (.file "[".toUTF8)

/- A configuration file in a directory of the same name. -/
def nestedTree : Tree :=
  Tree.empty.put [fileName, fileName] (.file "".toUTF8)

theorem dependsOn_twoDots :
    DependsOn lowerTree bothTree (.fromRoot ["x", "y", ".."])
      (.fromRoot ["x", "y"]) ["x", "y"] ["x"] where
  nearest := isNearest_of_find? (by cbv)
  stands := by cbv
  above := by decide
  isWhole := rfl
  entries := by
    intro names hNames
    apply Tree.entry?_put_of_ne
    · rintro rfl
      exact hNames List.prefix_rfl
    · intro hPrefix
      have hWay :
          ∀ names ∈ ["x", fileName].inits,
            ¬["x", fileName] <+: names →
              (lowerTree.entry? names).isSome := by
        decide
      exact hWay names ((List.mem_inits ..).mpr hPrefix) hNames
  results := by
    have hLower :
        ((nearestTo parse? (Tree.host [] .empty)
            (.fromRoot ["x", "y", ".."])).run lowerTree).1 =
          .ok (some ⟨default, .fromRoot ["x", "y"]⟩) := by
      cbv
    have hBoth :
        ((nearestTo parse? (Tree.host [] .empty)
            (.fromRoot ["x", "y", ".."])).run bothTree).1 =
          .error (.malformed "x/y/../fanc.toml") := by
      cbv
    rw [hLower, hBoth]
    simp

theorem dependsOn_nested :
    DependsOn nestedTree .empty (.fromRoot [fileName])
      (.fromRoot [fileName]) [fileName] [] where
  nearest := isNearest_of_find? (by cbv)
  stands := by cbv
  above := by decide
  isWhole := rfl
  entries := by
    intro names hNames
    symm
    apply Tree.entry?_put_of_ne
    · rintro rfl
      exact hNames (List.prefix_append [fileName] [fileName])
    · intro hPrefix
      have hWay :
          ∀ names ∈ [fileName, fileName].inits,
            ¬[fileName] <+: names →
              (Tree.empty.entry? names).isSome := by
        decide
      exact hWay names ((List.mem_inits ..).mpr hPrefix) hNames
  results := by
    have hNested :
        ((nearestTo parse? (Tree.host [] .empty)
            (.fromRoot [fileName])).run nestedTree).1 =
          .ok (some ⟨default, .fromRoot [fileName]⟩) := by
      cbv
    have hEmpty :
        ((nearestTo parse? (Tree.host [] .empty)
            (.fromRoot [fileName])).run .empty).1 =
          .ok none := by
      cbv
    rw [hNested, hEmpty]
    simp

end Config

end OnePass
