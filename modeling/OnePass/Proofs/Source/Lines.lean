import Mathlib.Data.List.Basic
import OnePass.Source.Lines

/-
  The line of a byte offset.

  Bisection finds where the starts at or before an offset
  end. In the table of a text these are the start of the
  text and one more for each line feed in front of the
  offset, so the line of a character is one more than the
  number of line feeds before it.

  Main declarations:
    * `byteLength_append`
    * `Lines.line_bisect_eq`
    * `Lines.lineAt_eq_countP`
    * `Lines.pairwise_table`
    * `Lines.lineAt_ofChars`
-/

------------------------------------------------------------
-- Byte Lengths
------------------------------------------------------------

namespace OnePass

@[simp]
theorem byteLength_append
    (first second : List Char) :
    byteLength (first ++ second) =
      byteLength first + byteLength second := by
  induction first with
  | nil => simp [byteLength]
  | cons char first ih =>
      simp only [List.cons_append, byteLength, ih]
      omega

/- A text that is not empty occupies a byte. -/
theorem byteLength_pos
    {text : List Char}
    (hText : text ≠ []) :
    0 < byteLength text := by
  cases text with
  | nil => exact absurd rfl hText
  | cons char text =>
      have hSize := char.utf8Size_pos
      simp only [byteLength]
      omega

end OnePass

------------------------------------------------------------
-- Bisection
------------------------------------------------------------

namespace OnePass

namespace Lines

/-
  If the starts at or before an offset are the first `count`
  ones, bisection finds line `count`. It can find the offset
  itself only at the last of them, since a table has no two
  starts that are equal.
-/
theorem line_bisect_eq
    {starts : Array Nat}
    {offset count : Nat}
    (hSorted :
      ∀ first second,
        first < second → second < starts.size →
          starts.getD first 0 < starts.getD second 0)
    (hCount :
      ∀ index,
        index < starts.size →
          (starts.getD index 0 ≤ offset ↔ index < count))
    {low high : Nat}
    (hLow : low ≤ count)
    (hHigh : count ≤ high)
    (hSize : high ≤ starts.size) :
    (bisect starts offset low high).line = count := by
  fun_induction bisect starts offset low high with
  | case1 low high hLess middle start hStart =>
      have hMiddle := hCount middle (by omega)
      have hLast : count ≤ middle + 1 := by
        by_contra hMore
        have hNext := hCount (middle + 1) (by omega)
        have hStep :=
          hSorted middle (middle + 1) (by omega) (by omega)
        omega
      simp only [Position.line]
      omega
  | case2 low high hLess middle start hOther hStart ih =>
      have hMiddle := hCount middle (by omega)
      exact ih (by omega) hHigh hSize
  | case3 low high hLess middle start hOther hStart ih =>
      have hMiddle := hCount middle (by omega)
      exact ih hLow (by omega) (by omega)
  | case4 low high hLess =>
      simp only [Position.line]
      omega

/- In an increasing table, the early starts come first. -/
theorem getElem_le_iff_lt_countP
    {table : List Nat}
    (hTable : table.Pairwise (· < ·))
    {offset index : Nat}
    (hIndex : index < table.length) :
    table[index] ≤ offset ↔
      index < table.countP (· ≤ offset) := by
  induction table generalizing index with
  | nil => cases hIndex
  | cons start table ih =>
      rcases List.pairwise_cons.mp hTable with
        ⟨hStart, hLater⟩
      by_cases hEarly : start ≤ offset
      · cases index with
        | zero => simp [hEarly]
        | succ index =>
            have hIH :=
              ih hLater (Nat.lt_of_succ_lt_succ hIndex)
            simp [hEarly, hIH]
      · have hNone : table.countP (· ≤ offset) = 0 := by
          rw [List.countP_eq_zero]
          intro later hMem
          have hPast := hStart later hMem
          simp
          omega
        have hPast : offset < (start :: table)[index] := by
          rcases List.mem_cons.mp
              (List.getElem_mem hIndex) with hHead | hTail
          · omega
          · have hAfter := hStart _ hTail
            omega
        simp only [List.countP_cons, hNone, hEarly]
        simp
        omega

/-
  The line of an offset in an increasing table is the number
  of starts at or before it.
-/
theorem lineAt_eq_countP
    {table : List Nat}
    (hTable : table.Pairwise (· < ·))
    (offset : Nat) :
    (Lines.mk table.toArray).lineAt offset =
      table.countP (· ≤ offset) := by
  have hGet :
      ∀ index, (hIndex : index < table.length) →
        table.toArray.getD index 0 = table[index] := by
    intro index hIndex
    rw [Array.getD_eq_getD_getElem?, List.getElem?_toArray,
      List.getElem?_eq_getElem hIndex, Option.getD_some]
  apply line_bisect_eq
  · intro first second hLess hSecond
    rw [List.size_toArray] at hSecond
    rw [hGet first (by omega), hGet second hSecond]
    exact
      List.pairwise_iff_getElem.mp hTable first second _ _
        hLess
  · intro index hIndex
    rw [List.size_toArray] at hIndex
    rw [hGet index hIndex]
    exact getElem_le_iff_lt_countP hTable hIndex
  · exact Nat.zero_le _
  · rw [List.size_toArray]
    exact List.countP_le_length
  · exact Nat.le_refl _

end Lines

end OnePass

------------------------------------------------------------
-- Line Tables
------------------------------------------------------------

namespace OnePass

namespace Lines

theorem startsAfter_append
    (offset : Nat)
    (first second : List Char) :
    startsAfter offset (first ++ second) =
      startsAfter offset first ++
        startsAfter (offset + byteLength first) second := by
  induction first generalizing offset with
  | nil => simp [startsAfter, byteLength]
  | cons char first ih =>
      simp only [List.cons_append, startsAfter, byteLength,
        ih, Nat.add_assoc]
      split
      · rfl
      · rfl

/- One line starts after each line feed. -/
theorem length_startsAfter
    (offset : Nat)
    (text : List Char) :
    (startsAfter offset text).length = text.count '\n' := by
  induction text generalizing offset with
  | nil => rfl
  | cons char text ih =>
      simp only [startsAfter]
      split
      · next hFeed => simp [ih, hFeed]
      · next hFeed => simp [ih, hFeed]

/- The starts lie after the text begins and not past its end. -/
theorem bounds_of_mem_startsAfter
    {offset start : Nat}
    {text : List Char}
    (hStart : start ∈ startsAfter offset text) :
    offset < start ∧ start ≤ offset + byteLength text := by
  induction text generalizing offset with
  | nil => cases hStart
  | cons char text ih =>
      have hSize := char.utf8Size_pos
      simp only [startsAfter] at hStart
      simp only [byteLength]
      split at hStart
      · rcases List.mem_cons.mp hStart with hHere | hLater
        · omega
        · have hBounds := ih hLater
          omega
      · have hBounds := ih hStart
        omega

/- No two lines start at the same offset. -/
theorem pairwise_startsAfter
    (offset : Nat)
    (text : List Char) :
    (startsAfter offset text).Pairwise (· < ·) := by
  induction text generalizing offset with
  | nil => exact .nil
  | cons char text ih =>
      simp only [startsAfter]
      split
      · refine .cons ?_ (ih _)
        intro start hStart
        exact (bounds_of_mem_startsAfter hStart).1
      · exact ih _

/- The table of a text is increasing. -/
theorem pairwise_table
    (text : List Char) :
    (0 :: startsAfter 0 text).Pairwise (· < ·) := by
  refine .cons ?_ (pairwise_startsAfter 0 text)
  intro start hStart
  exact (bounds_of_mem_startsAfter hStart).1

/-
  The line at the end of a part of a text is one more than
  the number of line feeds in that part.
-/
theorem lineAt_ofChars
    (before after : List Char) :
    (ofChars (before ++ after)).lineAt (byteLength before) =
      before.count '\n' + 1 := by
  have hBefore :
      (startsAfter 0 before).countP (· ≤ byteLength before) =
        before.count '\n' := by
    rw [← length_startsAfter 0 before, List.countP_eq_length]
    intro start hStart
    have hBounds := bounds_of_mem_startsAfter hStart
    simp
    omega
  have hAfter :
      (startsAfter (byteLength before) after).countP
          (· ≤ byteLength before) = 0 := by
    rw [List.countP_eq_zero]
    intro start hStart
    have hBounds := bounds_of_mem_startsAfter hStart
    simp
    omega
  rw [ofChars, lineAt_eq_countP (pairwise_table _),
    startsAfter_append, Nat.zero_add, List.countP_cons,
    List.countP_append, hBefore, hAfter]
  simp

end Lines

end OnePass
