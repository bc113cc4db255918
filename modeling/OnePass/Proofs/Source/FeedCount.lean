import OnePass.Proofs.Source.Lines

/-
  Lines are counted by line feeds.

  In UTF-8 the byte of a line feed occurs in the encoding of
  a line feed and in no other. So the table of line starts,
  which is made from characters, answers for every byte
  offset, also for one inside a character or past the end of
  the text: the line is one more than the number of line
  feeds among the bytes before the offset.

  Main declarations:
    * `feed_notMem_encoding`
    * `Lines.countP_startsAfter`
    * `lineAt_counts_feeds`
-/

------------------------------------------------------------
-- Bytes Of A Text
------------------------------------------------------------

namespace OnePass

/- The byte of a line feed. -/
def feedByte : UInt8 := 10

theorem encoding_feed :
    String.utf8EncodeChar '\n' = [feedByte] := by
  decide

/- No other character has the byte of a line feed in it. -/
theorem feed_notMem_encoding
    {char : Char}
    (hChar : char ≠ '\n') :
    feedByte ∉ String.utf8EncodeChar char := by
  intro hMem
  have hCode : char.val.toNat ≠ 10 := by
    intro hCode
    exact hChar (Char.toNat_inj.mp hCode)
  revert hMem
  -- All bytes but the only one of a short character are at
  -- least 128.
  fun_cases String.utf8EncodeChar char
  all_goals
    simp [feedByte, ← UInt8.toNat_inj]
    omega

/- The bytes of a text are those of its characters. -/
theorem toList_toUTF8
    (text : String) :
    text.toUTF8.data.toList =
      text.toList.flatMap String.utf8EncodeChar := by
  rw [String.toUTF8_eq_toByteArray, ← String.utf8Encode_toList,
    List.utf8Encode, List.toList_data_toByteArray]

end OnePass

------------------------------------------------------------
-- Starts And Line Feeds
------------------------------------------------------------

namespace OnePass

namespace Lines

/-
  A line starts at or before an offset for each line feed in
  the bytes in front of the offset.
-/
theorem countP_startsAfter
    (base offset : Nat)
    (text : List Char) :
    (startsAfter base text).countP (· ≤ offset) =
      ((text.flatMap String.utf8EncodeChar).take
        (offset - base)).count feedByte := by
  induction text generalizing base with
  | nil => simp [startsAfter]
  | cons char text ih =>
      have hRest :
          offset - base - char.utf8Size =
            offset - (base + char.utf8Size) := by
        omega
      rw [List.flatMap_cons, List.take_append,
        List.count_append, String.length_utf8EncodeChar,
        hRest, ← ih]
      simp only [startsAfter]
      split
      · next hFeed =>
          subst hFeed
          have hSize : '\n'.utf8Size = 1 := by decide
          rw [encoding_feed, hSize, List.countP_cons]
          by_cases hPast : base + 1 ≤ offset
          · rw [List.take_of_length_le]
            · simp [hPast]
              omega
            · simp
              omega
          · have hNone : offset - base = 0 := by omega
            simp [hPast, hNone]
      · next hOther =>
          have hNone :
              ((String.utf8EncodeChar char).take
                (offset - base)).count feedByte = 0 := by
            rw [List.count_eq_zero]
            intro hMem
            exact
              feed_notMem_encoding hOther
                (List.mem_of_mem_take hMem)
          rw [hNone, Nat.zero_add]

end Lines

/-
  For every offset, also past the end of the source, the line
  found by bisection is one more than the number of line
  feeds among the bytes before the offset. The table that is
  searched is increasing, and no offset is on line zero.
-/
theorem lineAt_counts_feeds
    (source : String) :
    (∀ offset,
      (Lines.ofChars source.toList).lineAt offset =
        1 + (source.toUTF8.data.toList.take offset).count
          feedByte) ∧
      (Lines.ofChars source.toList).starts.toList.Pairwise
          (· < ·) ∧
        ∀ offset,
          (Lines.ofChars source.toList).lineAt offset ≠ 0 := by
  have hCount :
      ∀ offset,
        (Lines.ofChars source.toList).lineAt offset =
          1 + (source.toUTF8.data.toList.take offset).count
            feedByte := by
    intro offset
    rw [Lines.ofChars,
      Lines.lineAt_eq_countP (Lines.pairwise_table _),
      List.countP_cons, Lines.countP_startsAfter,
      toList_toUTF8, Nat.sub_zero]
    simp
    omega
  refine ⟨hCount, Lines.pairwise_table _, ?_⟩
  intro offset
  rw [hCount]
  omega

/- An offset on a line start, on a line feed and past the end. -/
example :
    [2, 4, 99].map (Lines.ofChars "a\nbc\n\nd".toList).lineAt =
      [2, 2, 4] := by
  cbv

end OnePass
