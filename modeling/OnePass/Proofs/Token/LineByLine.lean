import Mathlib.Data.List.Find
import OnePass.Proofs.Token.Printing

/-
  Text is cut line by line.

  Of the pieces, only a run of blanks goes past a line feed,
  and of such a run each blank may be skipped by itself. So
  what stands in front of a line feed is cut as if nothing
  followed, up to the error if there is one, and what stands
  after it is cut as if it were a source of its own, at its
  place.

  Main declarations:
    * `Piece.front_append_feed`
    * `comesApart`
    * `Span.shift`, `Token.shift`, `Diagnostic.shift`
    * `tokenizeFrom_shift`, `tokenizeFrom_part`
    * `tokenize_append_feed`
-/

------------------------------------------------------------
-- Pieces In Front Of A Line Feed
------------------------------------------------------------

namespace OnePass

namespace Piece

variable {first : Char}

theorem takeWhile_append_feed
    (Holds : Char → Bool)
    (hFeed : Holds '\n' = false)
    (rest after : List Char) :
    (rest ++ '\n' :: after).takeWhile Holds =
      rest.takeWhile Holds := by
  induction rest with
  | nil => simp [hFeed]
  | cons char rest ih =>
      rw [List.cons_append, List.takeWhile_cons,
        List.takeWhile_cons, ih]

theorem itemsLength_append_feed
    (rest after : List Char) :
    itemsLength (rest ++ '\n' :: after) =
      itemsLength rest := by
  fun_induction itemsLength rest with
  | case1 => rfl
  | case2 => rfl
  | case3 char rest hEscaped ih =>
      simp only [List.cons_append, itemsLength, hEscaped,
        if_true, ih]
  | case4 char rest hEscaped =>
      simp only [List.cons_append, itemsLength, hEscaped]
      rfl
  | case5 char rest hSlash hPlain ih =>
      rw [List.cons_append, itemsLength, if_pos hPlain, ih]
      exact hSlash
  | case6 char rest hSlash hPlain =>
      rw [List.cons_append, itemsLength, if_neg hPlain]
      exact hSlash

/- What stands at a place is not changed by what follows. -/
theorem head?_drop_append_feed
    (char : Char)
    (hChar : char ≠ '\n')
    {rest : List Char}
    {count : Nat}
    (hCount : count ≤ rest.length)
    (after : List Char) :
    ((rest ++ '\n' :: after).drop count).head? = some char ↔
      (rest.drop count).head? = some char := by
  rw [List.drop_append_of_le_length hCount]
  cases rest.drop count with
  | nil => simp [hChar.symm]
  | cons next later => rfl

theorem prefix_append_feed
    {part rest : List Char}
    (hPart : '\n' ∉ part)
    (after : List Char) :
    part <+: rest ++ '\n' :: after ↔ part <+: rest := by
  constructor
  · intro hLong
    have hRest := List.prefix_append rest ('\n' :: after)
    rcases List.prefix_or_prefix_of_prefix hLong hRest with
      hShort | ⟨more, hMore⟩
    · exact hShort
    · rw [← hMore, List.prefix_append_right_inj] at hLong
      cases more with
      | nil =>
          rw [← hMore, List.append_nil]
      | cons char more =>
          have hChar := (List.cons_prefix_cons.mp hLong).1
          rw [← hMore, hChar] at hPart
          simp at hPart
  · intro hShort
    exact hShort.trans (List.prefix_append _ _)

/- No symbol goes past the end of a line. -/
theorem symbolKind?_append_feed
    (text after : List Char) :
    symbolKind? (text ++ '\n' :: after) =
      symbolKind? text := by
  unfold symbolKind?
  apply List.find?_congr
  intro kind hKind
  have hFeed : '\n' ∉ kind.text.toList := by
    intro hFeed
    have hBlank := Kind.isBlank_of_mem_symbol hKind hFeed
    exact absurd hBlank (by decide)
  rw [Bool.eq_iff_iff, List.isPrefixOf_iff_prefix,
    List.isPrefixOf_iff_prefix]
  exact prefix_append_feed hFeed after

/- What starts no run of blanks ends with its line. -/
theorem front_append_feed
    (hBlank : isBlank first = false)
    (rest after : List Char) :
    front first (rest ++ '\n' :: after) =
      front first rest := by
  have hQuote :=
    head?_drop_append_feed '"' (by decide)
      (Pattern.itemsLength_le rest) after
  have hSlash :=
    head?_drop_append_feed '/' (by decide)
      (Nat.zero_le rest.length) after
  have hWord :=
    takeWhile_append_feed Char.isAlphanum rfl rest after
  have hDigits :=
    takeWhile_append_feed Char.isDigit rfl rest after
  have hLine :=
    takeWhile_append_feed (!endsLine ·) rfl rest after
  have hSymbol := symbolKind?_append_feed (first :: rest) after
  rw [List.drop_zero, List.drop_zero] at hSlash
  rw [List.cons_append] at hSymbol
  unfold front
  simp only [hBlank, Bool.false_eq_true, if_false, hWord,
    hDigits, hLine, hSymbol, hQuote, hSlash,
    itemsLength_append_feed]

/- A piece lies within the text. -/
theorem front_le
    (first : Char)
    (rest : List Char) :
    (front first rest).2 ≤ rest.length := by
  fun_cases front first rest with
  | case1 hBlank => exact (List.takeWhile_prefix _).length_le
  | case2 hBlank hAlpha word =>
      exact (List.takeWhile_prefix _).length_le
  | case3 hBlank hAlpha hZero => exact Nat.zero_le _
  | case4 hBlank hAlpha hZero hDigit =>
      exact (List.takeWhile_prefix _).length_le
  | case5 hBlank hAlpha hZero hDigit hQuote items hString =>
      simp only [Bool.and_eq_true, decide_eq_true_eq]
        at hString
      rcases List.head?_eq_some_iff.mp hString.2 with
        ⟨later, hLater⟩
      have hLength := congrArg List.length hLater
      rw [List.length_drop, List.length_cons] at hLength
      change itemsLength rest + 1 ≤ rest.length
      omega
  | case6 hBlank hAlpha hZero hDigit hQuote items hOpen =>
      exact Pattern.itemsLength_le rest
  | case7 hBlank hAlpha hZero hDigit hQuote hComment =>
      exact (List.takeWhile_prefix _).length_le
  | case8 hBlank hAlpha hZero hDigit hQuote hComment kind
      hKind =>
      have hFits := List.find?_some hKind
      have hLength :=
        (List.isPrefixOf_iff_prefix.mp hFits).length_le
      rw [List.length_cons, String.length_toList] at hLength
      change kind.text.length - 1 ≤ rest.length
      omega
  | case9 hBlank hAlpha hZero hDigit hQuote hComment hNone =>
      exact Nat.zero_le _

end Piece

end OnePass

------------------------------------------------------------
-- Texts In Front Of A Line Feed
------------------------------------------------------------

namespace OnePass

open Piece

variable {lines : Lines}
variable {first : Char}
variable {rest after : List Char}

/-
  Wherever it stands, `text` is cut first, and then what
  follows the line feed after it.
-/
def ComesApart
    (lines : Lines)
    (text after : List Char) : Prop :=
  ∀ offset,
    tokenizeFrom lines offset (text ++ '\n' :: after) =
      (do
        let tokens ← tokenizeFrom lines offset text
        let later ←
          tokenizeFrom lines (offset + (byteLength text + 1))
            after
        return tokens ++ later)

theorem comesApart_nil : ComesApart lines [] after := by
  intro offset
  rw [List.nil_append, tokenizeFrom_blank rfl, tokenizeFrom]
  exact (bind_pure _).symm

theorem comesApart_blank
    (hBlank : isBlank first)
    (hRest : ComesApart lines rest after) :
    ComesApart lines (first :: rest) after := by
  intro offset
  rw [List.cons_append, tokenizeFrom_blank hBlank,
    tokenizeFrom_blank hBlank, hRest,
    byteLength_cons first rest, Nat.add_assoc,
    ← Nat.add_assoc (byteLength [first])]

theorem comesApart_piece
    (hBlank : isBlank first = false)
    (hRest :
      ComesApart lines (rest.drop (front first rest).2)
        after) :
    ComesApart lines (first :: rest) after := by
  intro offset
  have hExtra := front_le first rest
  have hBytes :
      byteLength (first :: rest) =
        byteLength (first :: rest.take (front first rest).2) +
          byteLength (rest.drop (front first rest).2) := by
    rw [← byteLength_append, List.cons_append,
      List.take_append_drop]
  rw [List.cons_append, tokenizeFrom, tokenizeFrom,
    front_append_feed hBlank, hBytes]
  rcases hFront : front first rest with ⟨piece, extra⟩
  rw [hFront] at hExtra hRest
  dsimp only at hExtra hRest ⊢
  rw [List.take_append_of_le_length hExtra,
    List.drop_append_of_le_length hExtra, hRest]
  cases piece with
  | gap => simp only [Nat.add_assoc]
  | token kind =>
      simp only [Nat.add_assoc, bind_assoc, pure_bind,
        List.cons_append]
  | unrecognized => rfl

theorem comesApart
    (lines : Lines)
    (text after : List Char) :
    ComesApart lines text after := by
  induction hLength : text.length using Nat.strong_induction_on
    generalizing text with
  | h length ih =>
      cases text with
      | nil => exact comesApart_nil
      | cons first rest =>
          rw [← hLength] at ih
          by_cases hBlank : isBlank first = true
          · apply comesApart_blank hBlank
            exact ih _ (Nat.lt_succ_self _) rest rfl
          · apply comesApart_piece (eq_false_of_ne_true hBlank)
            exact
              ih _ (length_drop_lt_length_cons _ _ _) _ rfl

end OnePass

------------------------------------------------------------
-- Texts At Another Place
------------------------------------------------------------

namespace OnePass

/- The extent, so many bytes and lines further on. -/
def Span.shift
    (bytes lines : Nat)
    (span : Span) : Span where
  start := span.start + bytes
  stop := span.stop + bytes
  line := span.line + lines

def Token.shift
    (bytes lines : Nat)
    (token : Token) : Token :=
  { token with span := token.span.shift bytes lines }

def Diagnostic.shift
    (bytes lines : Nat) :
    Diagnostic → Diagnostic
| .located cause line span =>
    .located cause (line + lines) (span.shift bytes lines)
| .missingMain => .missingMain

/- What a cut gives, so many bytes and lines further on. -/
def shifted
    (bytes lines : Nat) :
    Except Diagnostic (List Token) →
      Except Diagnostic (List Token)
| .ok tokens => .ok (tokens.map (Token.shift bytes lines))
| .error finding => .error (finding.shift bytes lines)

theorem shifted_zero
    (result : Except Diagnostic (List Token)) :
    shifted 0 0 result = result := by
  cases result with
  | ok tokens => exact congrArg _ (List.map_id tokens)
  | error finding =>
      cases finding with
      | located cause line span => rfl
      | missingMain => rfl

theorem shifted_cons
    (bytes lines : Nat)
    (token : Token)
    (result : Except Diagnostic (List Token)) :
    shifted bytes lines
        (do
          let later ← result
          return token :: later) =
      (do
        let later ← shifted bytes lines result
        return token.shift bytes lines :: later) := by
  cases result with
  | ok later => rfl
  | error finding => rfl

/-
  The lines of a text that stands so many bytes further on
  are counted on from so many lines.
-/
def CountsOn
    (table other : Lines)
    (bytes lines offset : Nat)
    (text : List Char) : Prop :=
  ∀ part,
    part <+: text →
      table.lineAt (offset + byteLength part + bytes) =
        other.lineAt (offset + byteLength part) + lines

namespace CountsOn

variable {table other : Lines}
variable {bytes lines offset : Nat}

theorem here
    {text : List Char}
    (hLines : CountsOn table other bytes lines offset text) :
    table.lineAt (offset + bytes) =
      other.lineAt offset + lines :=
  hLines [] List.nil_prefix

theorem later
    {first second : List Char}
    (hLines :
      CountsOn table other bytes lines offset
        (first ++ second)) :
    CountsOn table other bytes lines
      (offset + byteLength first) second := by
  intro part hPart
  have hWhole :=
    hLines (first ++ part)
      ((List.prefix_append_right_inj first).mpr hPart)
  rw [byteLength_append, ← Nat.add_assoc] at hWhole
  exact hWhole

end CountsOn

/- A text is cut in the same way wherever it stands. -/
theorem tokenizeFrom_shift
    {table other : Lines}
    {bytes lines offset : Nat}
    {text : List Char}
    (hLines : CountsOn table other bytes lines offset text) :
    tokenizeFrom table (offset + bytes) text =
      shifted bytes lines (tokenizeFrom other offset text) := by
  fun_induction tokenizeFrom other offset text with
  | case1 offset =>
      rw [tokenizeFrom]
      rfl
  | case2 offset first rest extra text stop hFront ih =>
      rw [← List.take_append_drop extra rest] at hLines
      rw [tokenizeFrom, hFront, ← ih hLines.later]
      dsimp only
      rw [Nat.add_right_comm]
  | case3 offset first rest extra text stop span kind hFront
      ih =>
      have hHere := hLines.here
      rw [← List.take_append_drop extra rest] at hLines
      rw [tokenizeFrom, hFront, shifted_cons,
        ← ih hLines.later]
      dsimp only
      rw [Nat.add_right_comm, hHere]
      rfl
  | case4 offset first rest extra text stop span hFront =>
      rw [tokenizeFrom, hFront]
      dsimp only
      rw [Nat.add_right_comm, hLines.here]
      rfl

end OnePass

------------------------------------------------------------
-- Whole Sources
------------------------------------------------------------

namespace OnePass

/- A part of a source has the lines of the part before it. -/
theorem countsOn_ofChars
    (before text after : List Char) :
    CountsOn (.ofChars (before ++ (text ++ after)))
      (.ofChars text) (byteLength before) (before.count '\n')
      0 text := by
  intro part hPart
  rcases hPart with ⟨later, hText⟩
  have hTable :=
    Lines.lineAt_ofChars (before ++ part) (later ++ after)
  have hOther := Lines.lineAt_ofChars part later
  rw [byteLength_append, List.count_append,
    List.append_assoc, ← List.append_assoc part, hText]
    at hTable
  rw [hText] at hOther
  rw [Nat.zero_add, hOther, Nat.add_comm, hTable]
  omega

/- A part of a source is cut as a source of its own. -/
theorem tokenizeFrom_part
    (before text after : List Char) :
    tokenizeFrom (.ofChars (before ++ (text ++ after)))
        (byteLength before) text =
      shifted (byteLength before) (before.count '\n')
        (tokenizeFrom (.ofChars text) 0 text) := by
  have hPart :=
    tokenizeFrom_shift (countsOn_ofChars before text after)
  rwa [Nat.zero_add] at hPart

/-
  Text before and after a line feed is cut as two sources
  are, the second one at its place. If the first one cannot
  be cut, its error is reported whatever follows.
-/
theorem tokenize_append_feed
    (first second : String) :
    tokenize (first ++ "\n" ++ second) =
      (do
        let tokens ← tokenize first
        let later ←
          shifted (byteLength first.toList + 1)
            (first.toList.count '\n' + 1) (tokenize second)
        return tokens ++ later) := by
  have hText :
      (first ++ "\n" ++ second).toList =
        first.toList ++ '\n' :: second.toList := by
    rw [String.toList_append, String.toList_append,
      List.append_assoc]
    rfl
  have hFirst :
      tokenizeFrom
          (.ofChars (first.toList ++ '\n' :: second.toList))
          0 first.toList =
        tokenizeFrom (.ofChars first.toList) 0
          first.toList :=
    (tokenizeFrom_part [] _ _).trans (shifted_zero _)
  have hSecond :=
    tokenizeFrom_part (first.toList ++ ['\n'])
      second.toList []
  have hBytes :
      byteLength (first.toList ++ ['\n']) =
        byteLength first.toList + 1 :=
    byteLength_append _ _
  have hCount :
      (first.toList ++ ['\n']).count '\n' =
        first.toList.count '\n' + 1 :=
    List.count_append
  rw [List.append_nil, List.append_assoc, hBytes, hCount]
    at hSecond
  unfold tokenize
  rw [hText, comesApart, Nat.zero_add, hFirst, ← hSecond]
  rfl

end OnePass
