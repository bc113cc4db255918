import OnePass.Proofs.Token.Pattern

/-
  Pieces are longest matches.

  The piece at the front of a text is the longest start of it
  that fits any pattern, and a text is unrecognized only if
  no start of it fits one. Which patterns come into question
  is told by the first character; within each family the
  longest match is found by one scan.

  Main declarations:
    * `Pattern.Longest`
    * `Pattern.Unmatched`
    * `Piece.Stands`
    * `Piece.front_stands`
    * `Piece.front_of_longest`
-/

------------------------------------------------------------
-- Longest Matches
------------------------------------------------------------

namespace OnePass

namespace Pattern

/- A text fits a pattern, and no longer one does. -/
structure Longest (text after : List Char) : Prop where
  fits : text ∈ lexeme
  longest :
    ∀ longer,
      longer <+: text ++ after →
        longer ∈ lexeme →
          longer.length ≤ text.length

/- There is one longest match, also in a part of a text. -/
theorem Longest.eq_of_append
    {text after text' after' rest : List Char}
    (hText : Longest text after)
    (hText' : Longest text' after')
    (hRest : rest <+: after)
    (hWhole : text' ++ after' = text ++ rest) :
    text' = text ∧ after' = rest := by
  have hLe : text'.length ≤ text.length := by
    apply hText.longest text' _ hText'.fits
    have hPart : text' <+: text ++ rest :=
      hWhole ▸ List.prefix_append _ _
    exact
      hPart.trans
        ((List.prefix_append_right_inj text).mpr hRest)
  have hGe : text.length ≤ text'.length := by
    apply hText'.longest text _ hText.fits
    rw [hWhole]
    exact List.prefix_append _ _
  exact List.append_inj hWhole (Nat.le_antisymm hLe hGe)

/- No pattern fits a start of the text. -/
def Unmatched (text : List Char) : Prop :=
  ∀ start, start <+: text → start ≠ [] → start ∉ lexeme

variable {first : Char}
variable {rest : List Char}
variable {extra : Nat}

theorem longest_cons
    (hExtra : extra ≤ rest.length)
    (hFits : first :: rest.take extra ∈ family first)
    (hLongest :
      ∀ more,
        more <+: rest →
          first :: more ∈ family first →
            more.length ≤ extra) :
    Longest (first :: rest.take extra) (rest.drop extra) where
  fits := cons_mem_lexeme_iff.mpr hFits
  longest longer hLonger hLexeme := by
    rw [List.cons_append, List.take_append_drop] at hLonger
    cases longer with
    | nil => exact Nat.zero_le _
    | cons char more =>
        rcases List.cons_prefix_cons.mp hLonger with
          ⟨hFirst, hMore⟩
        rw [hFirst, cons_mem_lexeme_iff] at hLexeme
        have hLength := hLongest more hMore hLexeme
        rw [List.length_cons, List.length_cons,
          List.length_take_of_le hExtra]
        omega

theorem unmatched_cons
    (hNone :
      ∀ more, more <+: rest → first :: more ∉ family first) :
    Unmatched (first :: rest) := by
  intro start hStart hFull hLexeme
  cases start with
  | nil => exact hFull rfl
  | cons char more =>
      rcases List.cons_prefix_cons.mp hStart with
        ⟨hFirst, hMore⟩
      rw [hFirst, cons_mem_lexeme_iff] at hLexeme
      exact hNone more hMore hLexeme

end Pattern

end OnePass

------------------------------------------------------------
-- Runs
------------------------------------------------------------

namespace OnePass

namespace Pattern

open Piece

variable {first : Char}
variable {Holds : Char → Bool}

theorem take_length_takeWhile
    (rest : List Char) :
    rest.take (rest.takeWhile Holds).length =
      rest.takeWhile Holds :=
  (List.prefix_iff_eq_take.mp
    (List.takeWhile_prefix Holds)).symm

/- No run of a class is longer than the first scan of it. -/
theorem length_le_length_takeWhile
    {more rest : List Char}
    (hMore : more <+: rest)
    (hHolds : ∀ char ∈ more, Holds char) :
    more.length ≤ (rest.takeWhile Holds).length := by
  rcases hMore with ⟨after, hRest⟩
  rw [← hRest, List.takeWhile_append_of_pos hHolds,
    List.length_append]
  omega

/- A family of runs is cut by scanning its class. -/
theorem longest_run
    (hFamily :
      ∀ more,
        first :: more ∈ family first ↔
          ∀ char ∈ more, Holds char)
    (rest : List Char) :
    Longest
      (first :: rest.take (rest.takeWhile Holds).length)
      (rest.drop (rest.takeWhile Holds).length) := by
  apply longest_cons
  · exact (List.takeWhile_prefix Holds).length_le
  · rw [take_length_takeWhile, hFamily]
    exact List.all_eq_true.mp List.all_takeWhile
  · intro more hMore hFits
    exact
      length_le_length_takeWhile hMore
        ((hFamily more).mp hFits)

theorem mem_family_of_isBlank
    (hBlank : isBlank first)
    (more : List Char) :
    first :: more ∈ family first ↔
      ∀ char ∈ more, isBlank char := by
  rw [family_of_isBlank hBlank, blanks,
    cons_mem_oneOf_mul_iff, mem_run_iff]
  exact and_iff_right hBlank

theorem mem_family_of_isAlpha
    (hAlpha : first.isAlpha)
    (more : List Char) :
    first :: more ∈ family first ↔
      ∀ char ∈ more, char.isAlphanum := by
  rw [family_of_isAlpha hAlpha, word,
    cons_mem_oneOf_mul_iff, mem_run_iff]
  exact and_iff_right hAlpha

theorem mem_family_zero
    (more : List Char) :
    '0' :: more ∈ family '0' ↔ more = [] := by
  have hFamily : family '0' = number := rfl
  rw [hFamily, number, Language.mem_add, mem_singleton_iff,
    cons_mem_oneOf_mul_iff]
  simp

theorem mem_family_of_isDigit
    (hDigit : first.isDigit)
    (hZero : first ≠ '0')
    (more : List Char) :
    first :: more ∈ family first ↔
      ∀ char ∈ more, char.isDigit := by
  rw [family_of_isDigit hDigit, number, Language.mem_add,
    mem_singleton_iff, cons_mem_oneOf_mul_iff, mem_run_iff]
  simp [hDigit, hZero]

end Pattern

end OnePass

------------------------------------------------------------
-- Strings
------------------------------------------------------------

namespace OnePass

namespace Pattern

open Piece
open scoped Computability

variable {one items : List Char}

theorem mem_item_iff :
    one ∈ item ↔
      (∃ char, isPlain char ∧ one = [char]) ∨
        ∃ char, isEscaped char ∧ one = ['\\', char] := by
  rw [item, Language.mem_add]
  apply or_congr Iff.rfl
  rw [Language.mem_mul]
  constructor
  · intro hEscape
    rcases hEscape with
      ⟨slash, hSlash, only, ⟨char, hChar, hOnly⟩, hOne⟩
    rw [mem_singleton_iff.mp hSlash, hOnly] at hOne
    exact ⟨char, hChar, hOne.symm⟩
  · intro hEscape
    rcases hEscape with ⟨char, hChar, hOne⟩
    exact ⟨['\\'], rfl, [char], ⟨char, hChar, rfl⟩, hOne.symm⟩

/- An item is counted in full. -/
theorem itemsLength_append_item
    (hOne : one ∈ item)
    (rest : List Char) :
    itemsLength (one ++ rest) =
      one.length + itemsLength rest := by
  rcases mem_item_iff.mp hOne with
    ⟨char, hPlain, hOne⟩ | ⟨char, hEscaped, hOne⟩
  · have hSlash : char ≠ '\\' := by
      intro hSlash
      rw [hSlash] at hPlain
      exact absurd hPlain (by decide)
    rw [hOne, List.singleton_append, itemsLength, hPlain,
      if_pos rfl, List.length_singleton, Nat.add_comm]
    exact hSlash
  · rw [hOne]
    simp [itemsLength, hEscaped, Nat.add_comm]

/- Complete items are counted in full. -/
theorem itemsLength_append
    (hItems : items ∈ item∗)
    (rest : List Char) :
    itemsLength (items ++ rest) =
      items.length + itemsLength rest := by
  rcases hItems with ⟨chunks, hChunks, hEach⟩
  rw [hChunks]
  clear hChunks
  induction chunks with
  | nil => simp
  | cons chunk chunks ih =>
      rw [List.forall_mem_cons] at hEach
      rw [List.flatten_cons, List.append_assoc,
        itemsLength_append_item hEach.1, ih hEach.2,
        List.length_append]
      omega

/- What is counted is made of complete items. -/
theorem take_itemsLength_mem
    (rest : List Char) :
    rest.take (itemsLength rest) ∈ item∗ := by
  fun_induction itemsLength rest with
  | case3 char rest hEscaped ih =>
      have hItem : ['\\', char] ∈ item :=
        mem_item_iff.mpr (.inr ⟨char, hEscaped, rfl⟩)
      exact append_mem_kstar hItem ih
  | case5 char rest hSlash hPlain ih =>
      have hItem : [char] ∈ item :=
        mem_item_iff.mpr (.inl ⟨char, hPlain, rfl⟩)
      exact append_mem_kstar hItem ih
  | _ => exact Language.nil_mem_kstar _

theorem itemsLength_le
    (rest : List Char) :
    itemsLength rest ≤ rest.length := by
  fun_induction itemsLength rest with
  | case3 char rest hEscaped ih =>
      simp only [List.length_cons]
      omega
  | case5 char rest hSlash hPlain ih =>
      simp only [List.length_cons]
      omega
  | _ => exact Nat.zero_le _

/- Items do not go past the end of a line. -/
theorem feed_notMem_items
    (hItems : items ∈ item∗) :
    '\n' ∉ items := by
  rcases hItems with ⟨chunks, hChunks, hEach⟩
  rw [hChunks, List.mem_flatten]
  intro hFeed
  rcases hFeed with ⟨chunk, hChunk, hFeed⟩
  rcases mem_item_iff.mp (hEach chunk hChunk) with
    ⟨char, hPlain, hOne⟩ | ⟨char, hEscaped, hOne⟩
  · rw [hOne, List.mem_singleton] at hFeed
    rw [← hFeed] at hPlain
    exact absurd hPlain (by decide)
  · rw [hOne] at hFeed
    simp only [List.mem_cons, List.not_mem_nil, or_false]
      at hFeed
    rcases hFeed with hSlash | hFeed
    · exact absurd hSlash (by decide)
    · rw [← hFeed] at hEscaped
      exact absurd hEscaped (by decide)

theorem mem_family_quote
    (more : List Char) :
    '"' :: more ∈ family '"' ↔
      ∃ items ∈ item∗,
        items ≠ [] ∧ more = items ++ ['"'] := by
  rw [family_quote, string, cons_mem_singleton_mul_iff,
    and_iff_right rfl, mem_nil_mul_iff, Language.mem_mul]
  constructor
  · intro hMore
    rcases hMore with ⟨items, hItems, quote, hQuote, hMore⟩
    rw [mem_singleton_iff.mp hQuote] at hMore
    have hLe : item * item∗ ≤ item∗ := mul_kstar_le_kstar
    refine ⟨items, hLe hItems, ?_, hMore.symm⟩
    intro hEmpty
    rcases Language.mem_mul.mp hItems with
      ⟨one, hOne, later, -, hEq⟩
    rw [hEmpty, List.append_eq_nil_iff] at hEq
    rw [hEq.1] at hOne
    simp [mem_item_iff] at hOne
  · intro hMore
    rcases hMore with ⟨items, hItems, hFull, hMore⟩
    refine ⟨items, ?_, ['"'], rfl, hMore.symm⟩
    cases items with
    | nil => exact absurd rfl hFull
    | cons first items =>
        rcases cons_mem_kstar hItems with
          ⟨head, tail, hEq, hHead, hTail⟩
        rw [hEq]
        exact Language.append_mem_mul hHead hTail

/-
  The scan over the items after a quote decides whether a
  string starts there, and how long it is.
-/
theorem mem_family_quote_iff
    {more rest : List Char}
    (hMore : more <+: rest) :
    '"' :: more ∈ family '"' ↔
      0 < itemsLength rest ∧
        (rest.drop (itemsLength rest)).head? = some '"' ∧
          more.length = itemsLength rest + 1 := by
  rw [mem_family_quote]
  constructor
  · intro hString
    rcases hString with ⟨items, hItems, hFull, hEq⟩
    rcases hMore with ⟨after, hRest⟩
    have hCut : rest = items ++ '"' :: after := by
      rw [← hRest, hEq]
      simp
    have hStop : itemsLength ('"' :: after) = 0 := rfl
    have hLength : itemsLength rest = items.length := by
      rw [hCut, itemsLength_append hItems, hStop,
        Nat.add_zero]
    rw [hLength, hCut, List.drop_left, hEq]
    simp [List.length_pos_iff.mpr hFull]
  · intro hScan
    rcases hScan with ⟨hSome, hQuote, hLength⟩
    refine
      ⟨rest.take (itemsLength rest),
        take_itemsLength_mem rest, ?_, ?_⟩
    · intro hEmpty
      have hLe := itemsLength_le rest
      have hTaken := congrArg List.length hEmpty
      rw [List.length_take_of_le hLe, List.length_nil]
        at hTaken
      omega
    · rw [List.prefix_iff_eq_take.mp hMore, hLength,
        List.take_add_one, ← List.head?_drop, hQuote]
      rfl

end Pattern

end OnePass

------------------------------------------------------------
-- Symbols and Comments
------------------------------------------------------------

namespace OnePass

namespace Pattern

open Piece

variable {first : Char}
variable {rest : List Char}

theorem mem_comment_iff
    {text : List Char} :
    text ∈ comment ↔
      ∃ body,
        text = '/' :: '/' :: body ∧
          ∀ char ∈ body, !endsLine char := by
  rw [comment, Language.mem_mul]
  constructor
  · intro hText
    rcases hText with ⟨slashes, hSlashes, body, hBody, hText⟩
    rw [mem_singleton_iff.mp hSlashes] at hText
    exact ⟨body, hText.symm, mem_run_iff.mp hBody⟩
  · intro hText
    rcases hText with ⟨body, hText, hBody⟩
    exact
      ⟨['/', '/'], rfl, body, mem_run_iff.mpr hBody,
        hText.symm⟩

/- Symbols are listed with the longer ones first. -/
theorem length_le_of_symbolKind?
    {kind other : Kind}
    (hKind : symbolKind? rest = some kind)
    (hOther : other ∈ Kind.symbols)
    (hFits : other.text.toList <+: rest) :
    other.text.toList.length ≤ kind.text.toList.length := by
  have hSorted :
      Kind.symbols.Pairwise
        (fun earlier later =>
          later.text.toList.length ≤
            earlier.text.toList.length) := by
    decide
  rcases List.find?_eq_some_iff_append.mp hKind with
    ⟨-, earlier, later, hSymbols, hMissed⟩
  rw [hSymbols, List.pairwise_append, List.pairwise_cons]
    at hSorted
  rw [hSymbols, List.mem_append, List.mem_cons] at hOther
  rcases hOther with hEarlier | hHere | hLater
  · have hFails := hMissed other hEarlier
    rw [List.isPrefixOf_iff_prefix.mpr hFits] at hFails
    cases hFails
  · rw [hHere]
  · exact hSorted.2.1.1 other hLater

/- A comment is cut by scanning for the end of its line. -/
theorem longest_comment
    (rest : List Char) :
    let scan := ('/' :: rest).takeWhile (!endsLine ·)
    '/' :: ('/' :: rest).take scan.length ∈ comment ∧
      Longest ('/' :: ('/' :: rest).take scan.length)
        (('/' :: rest).drop scan.length) := by
  intro scan
  have hScan :
      scan = '/' :: rest.takeWhile (!endsLine ·) := rfl
  have hComment :
      '/' :: ('/' :: rest).take scan.length ∈ comment := by
    rw [take_length_takeWhile, mem_comment_iff]
    refine ⟨_, rfl, ?_⟩
    exact List.all_eq_true.mp List.all_takeWhile
  refine ⟨hComment, ?_⟩
  apply longest_cons
  · exact (List.takeWhile_prefix _).length_le
  · exact .inl hComment
  · intro more hMore hFits
    rcases hFits with hOther | ⟨kind, hSymbol, hText⟩
    · rcases mem_comment_iff.mp hOther with
        ⟨body, hText, hBody⟩
      rcases List.cons.inj hText with ⟨-, hSlash⟩
      apply length_le_length_takeWhile hMore
      rw [hSlash, List.forall_mem_cons]
      exact ⟨rfl, hBody⟩
    · have hShort :
          ∀ kind ∈ Kind.symbols,
            kind.text.toList.length ≤ 2 := by
        decide
      have hLength := hShort kind hSymbol
      rw [← hText, List.length_cons] at hLength
      rw [hScan, List.length_cons]
      omega

/- Where no comment starts, only symbols fit. -/
theorem exists_symbol_of_mem_family
    {more : List Char}
    (hOther : family first = comment + symbol)
    (hComment :
      (first = '/' && rest.head? = some '/') = false)
    (hMore : more <+: rest)
    (hFits : first :: more ∈ family first) :
    ∃ kind ∈ Kind.symbols,
      first :: more = kind.text.toList := by
  rw [hOther] at hFits
  rcases hFits with hText | hSymbol
  · rcases mem_comment_iff.mp hText with ⟨body, hText, -⟩
    rcases List.cons.inj hText with ⟨hFirst, hSlash⟩
    rcases hMore with ⟨after, hRest⟩
    rw [hSlash] at hRest
    rw [hFirst, ← hRest] at hComment
    simp at hComment
  · exact hSymbol

/- A symbol is cut by looking for the first one that fits. -/
theorem longest_symbol
    {kind : Kind}
    (hOther : family first = comment + symbol)
    (hComment :
      (first = '/' && rest.head? = some '/') = false)
    (hKind : symbolKind? (first :: rest) = some kind) :
    first :: rest.take (kind.text.length - 1) =
        kind.text.toList ∧
      Longest (first :: rest.take (kind.text.length - 1))
        (rest.drop (kind.text.length - 1)) := by
  have hSymbol := List.mem_of_find?_eq_some hKind
  have hFound := List.find?_some hKind
  have hFits := List.isPrefixOf_iff_prefix.mp hFound
  have hPositive :
      ∀ kind ∈ Kind.symbols, 0 < kind.text.toList.length := by
    decide
  have hLength := hPositive kind hSymbol
  rw [← String.length_toList]
  have hText :
      first :: rest.take (kind.text.toList.length - 1) =
        kind.text.toList := by
    rw [← List.take_succ_cons, Nat.sub_add_cancel hLength]
    exact (List.prefix_iff_eq_take.mp hFits).symm
  refine ⟨hText, ?_⟩
  apply longest_cons
  · have hWithin := hFits.length_le
    rw [List.length_cons] at hWithin
    omega
  · rw [hOther, hText]
    exact .inr ⟨kind, hSymbol, rfl⟩
  · intro more hMore hFits
    rcases exists_symbol_of_mem_family hOther hComment hMore
      hFits with ⟨other, hListed, hOtherText⟩
    have hStarts : other.text.toList <+: first :: rest := by
      rw [← hOtherText]
      exact List.cons_prefix_cons.mpr ⟨rfl, hMore⟩
    have hLonger :=
      length_le_of_symbolKind? hKind hListed hStarts
    rw [← hOtherText, List.length_cons] at hLonger
    omega

end Pattern

end OnePass

------------------------------------------------------------
-- Pieces
------------------------------------------------------------

namespace OnePass

namespace Piece

open Pattern

/-
  A piece is what it is said to be, where `text` stands in
  front of `after`.
-/
inductive Stands : Piece → List Char → List Char → Prop
| gap
    {text after : List Char}
    (hText : text ∈ blanks + comment)
    (hLongest : Longest text after) :
    Stands .gap text after
| token
    {kind : Kind}
    {text after : List Char}
    (hWins : kind.Wins text)
    (hLongest : Longest text after) :
    Stands (.token kind) text after
| unrecognized
    {text after : List Char}
    (hLine : '\n' ∉ text)
    (hNone : Unmatched (text ++ after)) :
    Stands .unrecognized text after

variable {first : Char}
variable {rest : List Char}

theorem stands_blanks
    (hBlank : isBlank first)
    (rest : List Char) :
    Stands .gap
      (first :: rest.take (rest.takeWhile isBlank).length)
      (rest.drop (rest.takeWhile isBlank).length) := by
  have hLongest :=
    longest_run (mem_family_of_isBlank hBlank) rest
  have hFits := cons_mem_lexeme_iff.mp hLongest.fits
  rw [family_of_isBlank hBlank] at hFits
  exact .gap (.inl hFits) hLongest

theorem stands_word
    (hAlpha : first.isAlpha)
    (rest : List Char) :
    let word := rest.takeWhile Char.isAlphanum
    Stands
      (.token (wordKind (String.ofList (first :: word))))
      (first :: rest.take word.length)
      (rest.drop word.length) := by
  intro word
  have hLongest :=
    longest_run (mem_family_of_isAlpha hAlpha) rest
  have hFits := cons_mem_lexeme_iff.mp hLongest.fits
  rw [family_of_isAlpha hAlpha] at hFits
  have hWins := Kind.wins_wordKind hFits
  apply Stands.token _ hLongest
  rwa [take_length_takeWhile] at hWins ⊢

theorem stands_zero
    (rest : List Char) :
    Stands (.token .number) ('0' :: rest.take 0)
      (rest.drop 0) := by
  have hFits : '0' :: rest.take 0 ∈ family '0' := .inl rfl
  apply Stands.token
  · exact Kind.wins_of_ne_identifier (by decide) hFits
  · apply longest_cons (Nat.zero_le _) hFits
    intro more hMore hNumber
    rw [(mem_family_zero more).mp hNumber, List.length_nil]

theorem stands_number
    (hDigit : first.isDigit)
    (hZero : first ≠ '0')
    (rest : List Char) :
    Stands (.token .number)
      (first ::
        rest.take (rest.takeWhile Char.isDigit).length)
      (rest.drop (rest.takeWhile Char.isDigit).length) := by
  have hLongest :=
    longest_run (mem_family_of_isDigit hDigit hZero) rest
  have hFits := cons_mem_lexeme_iff.mp hLongest.fits
  rw [family_of_isDigit hDigit] at hFits
  exact
    .token (Kind.wins_of_ne_identifier (by decide) hFits)
      hLongest

theorem stands_string
    (hItems : 0 < itemsLength rest)
    (hQuote :
      (rest.drop (itemsLength rest)).head? = some '"') :
    Stands (.token .string)
      ('"' :: rest.take (itemsLength rest + 1))
      (rest.drop (itemsLength rest + 1)) := by
  have hWithin : itemsLength rest + 1 ≤ rest.length := by
    have hDrop := List.length_pos_of_mem
      (List.mem_of_head? hQuote)
    rw [List.length_drop] at hDrop
    omega
  have hFits :
      '"' :: rest.take (itemsLength rest + 1) ∈
        family '"' := by
    apply (mem_family_quote_iff (List.take_prefix _ _)).mpr
    exact ⟨hItems, hQuote, List.length_take_of_le hWithin⟩
  apply Stands.token
  · exact Kind.wins_of_ne_identifier (by decide) hFits
  · apply longest_cons hWithin hFits
    intro more hMore hString
    have hScan := (mem_family_quote_iff hMore).mp hString
    exact Nat.le_of_eq hScan.2.2

theorem stands_openString
    (hOpen :
      ¬(0 < itemsLength rest &&
        (rest.drop (itemsLength rest)).head? =
          some '"')) :
    Stands .unrecognized
      ('"' :: rest.take (itemsLength rest))
      (rest.drop (itemsLength rest)) := by
  apply Stands.unrecognized
  · rw [List.mem_cons, not_or]
    exact
      ⟨by decide,
        feed_notMem_items (take_itemsLength_mem rest)⟩
  · rw [List.cons_append, List.take_append_drop]
    apply unmatched_cons
    intro more hMore hString
    apply hOpen
    have hScan := (mem_family_quote_iff hMore).mp hString
    simp [hScan.1, hScan.2.1]

theorem stands_comment
    (rest : List Char) :
    let scan := ('/' :: rest).takeWhile (!endsLine ·)
    Stands .gap ('/' :: ('/' :: rest).take scan.length)
      (('/' :: rest).drop scan.length) := by
  intro scan
  rcases longest_comment rest with ⟨hComment, hLongest⟩
  exact .gap (.inr hComment) hLongest

section Symbols

variable
  (hOther : family first = comment + symbol)
  (hComment :
    (first = '/' && rest.head? = some '/') = false)

include hOther hComment

theorem stands_symbol
    {kind : Kind}
    (hKind : symbolKind? (first :: rest) = some kind) :
    Stands (.token kind)
      (first :: rest.take (kind.text.length - 1))
      (rest.drop (kind.text.length - 1)) := by
  rcases longest_symbol hOther hComment hKind with
    ⟨hText, hLongest⟩
  have hSymbol := List.mem_of_find?_eq_some hKind
  have hFixed : kind ∈ Kind.fixed :=
    List.mem_append_right _ hSymbol
  have hClass : kind ≠ .identifier := by
    intro hIdentifier
    rw [hIdentifier] at hSymbol
    exact absurd hSymbol (by decide)
  apply Stands.token _ hLongest
  apply Kind.wins_of_ne_identifier hClass
  exact (Kind.mem_pattern_of_fixed hFixed).mpr hText

theorem stands_unknown
    (hBlank : isBlank first = false)
    (hNone : symbolKind? (first :: rest) = none) :
    Stands .unrecognized (first :: rest.take 0)
      (rest.drop 0) := by
  apply Stands.unrecognized
  · rw [List.take_zero, List.mem_singleton]
    intro hFeed
    rw [← hFeed] at hBlank
    exact absurd hBlank (by decide)
  · rw [List.cons_append, List.take_append_drop]
    apply unmatched_cons
    intro more hMore hFits
    rcases exists_symbol_of_mem_family hOther hComment hMore
      hFits with ⟨kind, hSymbol, hText⟩
    have hStarts : kind.text.toList <+: first :: rest := by
      rw [← hText]
      exact List.cons_prefix_cons.mpr ⟨rfl, hMore⟩
    have hMissed := List.find?_eq_none.mp hNone kind hSymbol
    exact hMissed (List.isPrefixOf_iff_prefix.mpr hStarts)

end Symbols

/- The front of a text is its longest match. -/
theorem front_stands
    (first : Char)
    (rest : List Char) :
    (front first rest).1.Stands
      (first :: rest.take (front first rest).2)
      (rest.drop (front first rest).2) := by
  fun_cases front first rest with
  | case1 hBlank => exact stands_blanks hBlank rest
  | case2 hBlank hAlpha word => exact stands_word hAlpha rest
  | case3 hBlank hAlpha hZero =>
      rw [hZero]
      exact stands_zero rest
  | case4 hBlank hAlpha hZero hDigit =>
      exact stands_number hDigit hZero rest
  | case5 hBlank hAlpha hZero hDigit hQuote items hString =>
      simp only [Bool.and_eq_true, decide_eq_true_eq]
        at hString
      rw [hQuote]
      exact stands_string hString.1 hString.2
  | case6 hBlank hAlpha hZero hDigit hQuote items hOpen =>
      rw [hQuote]
      exact stands_openString hOpen
  | case7 hBlank hAlpha hZero hDigit hQuote hComment =>
      simp only [Bool.and_eq_true, decide_eq_true_eq]
        at hComment
      rcases List.head?_eq_some_iff.mp hComment.2 with
        ⟨body, hRest⟩
      rw [hComment.1, hRest]
      exact stands_comment body
  | case8 hBlank hAlpha hZero hDigit hQuote hComment kind
      hKind =>
      simp only [Bool.not_eq_true] at *
      have hOther :=
        family_of_other hBlank hAlpha hDigit hQuote
      exact stands_symbol hOther hComment hKind
  | case9 hBlank hAlpha hZero hDigit hQuote hComment hNone =>
      simp only [Bool.not_eq_true] at *
      have hOther :=
        family_of_other hBlank hAlpha hDigit hQuote
      exact stands_unknown hOther hComment hBlank hNone

theorem stands_of_front
    {piece : Piece}
    {extra : Nat}
    (hFront : front first rest = (piece, extra)) :
    piece.Stands (first :: rest.take extra)
      (rest.drop extra) := by
  have hStands := front_stands first rest
  rwa [hFront] at hStands

/-
  A longest match is the front of its text, whatever part of
  the following text is left.
-/
theorem front_of_longest
    {first : Char}
    {tail after rest : List Char}
    (hLongest : Longest (first :: tail) after)
    (hRest : rest <+: after) :
    (front first (tail ++ rest)).1 ≠ .unrecognized ∧
      (tail ++ rest).drop (front first (tail ++ rest)).2 =
        rest := by
  rcases hFront : front first (tail ++ rest) with
    ⟨piece, extra⟩
  have hStands := stands_of_front hFront
  have hWhole :
      first :: (tail ++ rest).take extra ++
          (tail ++ rest).drop extra =
        first :: tail ++ rest := by
    rw [List.cons_append, List.take_append_drop,
      List.cons_append]
  cases hStands with
  | gap hText hOther =>
      have hSame := hLongest.eq_of_append hOther hRest hWhole
      exact ⟨by simp, hSame.2⟩
  | token hWins hOther =>
      have hSame := hLongest.eq_of_append hOther hRest hWhole
      exact ⟨by simp, hSame.2⟩
  | unrecognized hLine hNone =>
      rw [hWhole] at hNone
      exact
        absurd hLongest.fits
          (hNone _ (List.prefix_append _ _)
            (List.cons_ne_nil _ _))

end Piece

end OnePass
