import OnePass.Proofs.Token.Tiling

/-
  Cutting a text undoes printing it.

  Lexemes are printed one after the other, with a spacing
  after each but the last. A spacing starts with a blank, and
  no token that is printed can take up a blank: a word or a
  number ends in front of it, a string has ended before it,
  and no symbol holds one. So each lexeme is the longest
  match where it was printed, and each spacing is skipped.

  Main declarations:
    * `tokenizeFrom_separator`
    * `tokenizeFrom_token`
    * `Lexeme`, `Spacing`
    * `Lexeme.longest`
    * `printed`, `placed`
    * `tokenize_printed`
-/

------------------------------------------------------------
-- Gaps
------------------------------------------------------------

namespace OnePass

open Piece Pattern
open scoped Computability

variable {lines : Lines}
variable {offset : Nat}
variable {char : Char}
variable {text gap rest : List Char}

theorem byteLength_cons
    (char : Char)
    (text : List Char) :
    byteLength (char :: text) =
      byteLength [char] + byteLength text :=
  byteLength_append [char] text

theorem tokenizeFrom_of_gap
    {extra : Nat}
    (hFront : front char rest = (.gap, extra)) :
    tokenizeFrom lines offset (char :: rest) =
      tokenizeFrom lines
        (offset + byteLength (char :: rest.take extra))
        (rest.drop extra) := by
  rw [tokenizeFrom, hFront]

theorem front_of_isBlank
    (hBlank : isBlank char)
    (rest : List Char) :
    front char rest =
      (.gap, (rest.takeWhile isBlank).length) := by
  unfold front
  rw [if_pos hBlank]

/- Of a run of blanks, one may be skipped by itself. -/
theorem tokenizeFrom_blank
    (hBlank : isBlank char) :
    tokenizeFrom lines offset (char :: rest) =
      tokenizeFrom lines (offset + byteLength [char])
        rest := by
  rw [tokenizeFrom_of_gap (front_of_isBlank hBlank rest)]
  cases rest with
  | nil => rfl
  | cons next rest =>
      by_cases hNext : isBlank next = true
      · rw [tokenizeFrom_of_gap (front_of_isBlank hNext rest),
          List.takeWhile_cons_of_pos hNext, List.length_cons,
          List.take_succ_cons, List.drop_succ_cons,
          byteLength_cons char, Nat.add_assoc]
      · rw [List.takeWhile_cons_of_neg hNext]
        rfl

/- A comment is skipped up to the end of its line. -/
theorem tokenizeFrom_comment
    (hComment : text ∈ comment)
    (hEnd : endsLine char) :
    tokenizeFrom lines offset (text ++ char :: rest) =
      tokenizeFrom lines (offset + byteLength text)
        (char :: rest) := by
  rcases mem_comment_iff.mp hComment with
    ⟨body, hText, hBody⟩
  have hScan :
      ('/' :: body ++ char :: rest).takeWhile
          (!endsLine ·) =
        '/' :: body := by
    rw [List.takeWhile_append_of_pos, List.takeWhile_cons,
      hEnd]
    · simp
    · exact List.forall_mem_cons.mpr ⟨rfl, hBody⟩
  have hFront :
      front '/' ('/' :: body ++ char :: rest) =
        (.gap, ('/' :: body).length) := by
    have hSlashes :
        front '/' ('/' :: body ++ char :: rest) =
          (.gap,
            (('/' :: body ++ char :: rest).takeWhile
              (!endsLine ·)).length) := rfl
    rw [hSlashes, hScan]
  rw [hText]
  change
    tokenizeFrom lines offset
      ('/' :: ('/' :: body ++ char :: rest)) = _
  rw [tokenizeFrom_of_gap hFront, List.take_left,
    List.drop_left]

/- What separates tokens is skipped. -/
theorem tokenizeFrom_separator
    (hGap : gap ∈ separator) :
    tokenizeFrom lines offset (gap ++ rest) =
      tokenizeFrom lines (offset + byteLength gap) rest := by
  rcases hGap with ⟨chunks, hChunks, hEach⟩
  rw [hChunks]
  clear hChunks
  induction chunks generalizing offset with
  | nil => rfl
  | cons chunk chunks ih =>
      rw [List.forall_mem_cons] at hEach
      rw [List.flatten_cons, List.append_assoc,
        byteLength_append, ← Nat.add_assoc, ← ih hEach.2]
      rcases hEach.1 with ⟨blank, hBlank, hChunk⟩ | hLine
      · rw [hChunk]
        exact tokenizeFrom_blank hBlank
      · rcases hLine with
          ⟨text, hText, stop, ⟨last, hLast, hStop⟩, hChunk⟩
        dsimp only at hChunk
        have hBlank := isBlank_of_endsLine hLast
        rw [← hChunk, hStop, List.append_assoc,
          byteLength_append, ← Nat.add_assoc]
        exact
          (tokenizeFrom_comment hText hLast).trans
            (tokenizeFrom_blank hBlank)

end OnePass

------------------------------------------------------------
-- Tokens
------------------------------------------------------------

namespace OnePass

open Piece Pattern

variable {lines : Lines}
variable {offset : Nat}
variable {kind : Kind}
variable {text after : List Char}

theorem Pattern.nil_notMem_oneOf_mul
    {Holds : Char → Bool}
    {language : Language Char} :
    [] ∉ oneOf Holds * language := by
  intro hNil
  rcases hNil with ⟨head, ⟨char, -, hHead⟩, tail, -, hEq⟩
  rw [hHead] at hEq
  cases hEq

/- No token is empty. -/
theorem Kind.nil_notMem_pattern
    (kind : Kind) :
    [] ∉ kind.pattern := by
  intro hNil
  rcases kind.mem_fixed_or_class with
    hFixed | hIdentifier | hNumber | hString
  · have hTexts :
        ∀ kind ∈ fixed, kind.text.toList ≠ [] := by
      decide
    exact
      hTexts kind hFixed
        ((mem_pattern_of_fixed hFixed).mp hNil).symm
  · rw [hIdentifier] at hNil
    exact nil_notMem_oneOf_mul hNil
  · rw [hNumber] at hNil
    rcases hNil with hZero | hPositive
    · cases hZero
    · exact nil_notMem_oneOf_mul hPositive
  · rw [hString] at hNil
    rcases hNil with ⟨quote, hQuote, more, -, hEq⟩
    rw [mem_singleton_iff.mp hQuote] at hEq
    cases hEq

/- No token starts like a comment. -/
theorem Kind.slashes_notMem_pattern
    (body : List Char) :
    '/' :: '/' :: body ∉ kind.pattern := by
  intro hText
  by_cases hKind : kind = .identifier
  · rw [hKind] at hText
    exact absurd (isAlpha_of_mem_word hText) (by decide)
  · rcases first_of_mem_pattern hKind hText with
      ⟨hFixed, hFits⟩ | ⟨-, hDigit⟩ | ⟨-, hQuote⟩
    · have hNone :
          ∀ kind ∈ fixed,
            kind.text.toList.take 2 ≠ ['/', '/'] := by
        decide
      apply hNone kind hFixed
      rw [← hFits]
      rfl
    · exact absurd hDigit (by decide)
    · exact absurd hQuote (by decide)

/- No token is a gap. -/
theorem Kind.notMem_gap
    (hText : text ∈ kind.pattern)
    (hNonempty : text ≠ []) :
    text ∉ blanks + comment := by
  intro hGap
  cases text with
  | nil => exact hNonempty rfl
  | cons first tail =>
      rcases hGap with hBlanks | hComment
      · have hBlank := (cons_mem_oneOf_mul_iff.mp hBlanks).1
        simp [Kind.isBlank_of_mem_pattern hText] at hBlank
      · rcases mem_comment_iff.mp hComment with
          ⟨body, hSlashes, -⟩
        rw [hSlashes] at hText
        exact slashes_notMem_pattern body hText

/- Two kinds with a right to the same text are the same. -/
theorem Kind.Wins.unique
    {other : Kind}
    (hKind : kind.Wins text)
    (hOther : other.Wins text) :
    kind = other := by
  rcases hKind.2 other hOther.1 with hSame | hWord
  · exact hSame.symm
  · rcases hOther.2 kind hKind.1 with hSame | hWord'
    · exact hSame
    · rw [hWord, hWord']

/- The longest match at the front is cut off as a token. -/
theorem tokenizeFrom_token
    (hNonempty : text ≠ [])
    (hWins : kind.Wins text)
    (hLongest : Longest text after) :
    tokenizeFrom lines offset (text ++ after) =
      (do
        let later ←
          tokenizeFrom lines (offset + byteLength text) after
        return ⟨kind, String.ofList text,
          ⟨offset, offset + byteLength text,
            lines.lineAt offset⟩⟩ :: later) := by
  cases text with
  | nil => exact absurd rfl hNonempty
  | cons first tail =>
      rcases hFront : front first (tail ++ after) with
        ⟨piece, extra⟩
      have hStands := stands_of_front hFront
      have hWhole :
          first :: (tail ++ after).take extra ++
              (tail ++ after).drop extra =
            first :: tail ++ after := by
        rw [List.cons_append, List.take_append_drop,
          List.cons_append]
      rw [List.cons_append, tokenizeFrom, hFront]
      dsimp only
      cases hStands with
      | gap hText hOther =>
          rcases hLongest.eq_of_append hOther
            (List.prefix_refl _) hWhole with ⟨hSame, -⟩
          rw [hSame] at hText
          exact absurd hText (Kind.notMem_gap hWins.1 hNonempty)
      | token hOtherWins hOther =>
          rcases hLongest.eq_of_append hOther
            (List.prefix_refl _) hWhole with ⟨hSame, hRest⟩
          rw [hSame] at hOtherWins
          rw [hSame, hRest, hOtherWins.unique hWins]
      | unrecognized hLine hNone =>
          rw [hWhole] at hNone
          exact
            absurd hLongest.fits
              (hNone _ (List.prefix_append _ _) hNonempty)

end OnePass

------------------------------------------------------------
-- Tokens In Front Of Blanks
------------------------------------------------------------

namespace OnePass

open Piece Pattern

variable {kind : Kind}
variable {first blank : Char}
variable {tail after : List Char}

theorem Pattern.isAlphanum_of_isBlank
    (hBlank : isBlank blank) :
    blank.isAlphanum = false := by
  rcases class_of_isBlank hBlank with ⟨hAlpha, hDigit, -⟩
  unfold Char.isAlphanum
  rw [hAlpha, hDigit]
  rfl

/- No symbol holds a blank. -/
theorem Kind.isBlank_of_mem_symbol
    (hSymbol : kind ∈ symbols)
    {char : Char}
    (hChar : char ∈ kind.text.toList) :
    isBlank char = false := by
  have hNone :
      ∀ kind ∈ symbols,
        kind.text.toList.all fun char => !isBlank char := by
    decide
  have hKind := List.all_eq_true.mp (hNone kind hSymbol)
  simpa using hKind char hChar

/- No token goes on with a blank after a token. -/
theorem Kind.blank_notMem_lexeme
    (hText : first :: tail ∈ kind.pattern)
    (hBlank : isBlank blank) :
    first :: (tail ++ blank :: after) ∉ lexeme := by
  intro hLonger
  have hToken : first :: tail ∈ lexeme :=
    .inr (.inr ⟨kind, hText⟩)
  have hMem : blank ∈ tail ++ blank :: after := by simp
  rw [cons_mem_lexeme_iff] at hLonger hToken
  have hFirst := isBlank_of_mem_pattern hText
  by_cases hAlpha : first.isAlpha = true
  · rw [mem_family_of_isAlpha hAlpha] at hLonger
    have hWord := hLonger blank hMem
    simp [isAlphanum_of_isBlank hBlank] at hWord
  by_cases hZero : first = '0'
  · rw [hZero, mem_family_zero] at hLonger
    simp at hLonger
  by_cases hDigit : first.isDigit = true
  · rw [mem_family_of_isDigit hDigit hZero] at hLonger
    have hNumber := hLonger blank hMem
    simp [class_of_isBlank hBlank] at hNumber
  by_cases hQuote : first = '"'
  · -- A string ends at its first quote that is not escaped.
    rw [hQuote] at hLonger hToken
    have hShort :=
      (mem_family_quote_iff
        (List.prefix_append tail (blank :: after))).mp hToken
    have hLong :=
      (mem_family_quote_iff (List.prefix_refl _)).mp hLonger
    have hLength := hShort.2.2.trans hLong.2.2.symm
    rw [List.length_append, List.length_cons] at hLength
    omega
  · simp only [Bool.not_eq_true] at hAlpha hDigit
    rw [family_of_other hFirst hAlpha hDigit hQuote]
      at hLonger
    rcases hLonger with hComment | ⟨other, hSymbol, hEq⟩
    · rcases mem_comment_iff.mp hComment with
        ⟨body, hSlashes, -⟩
      rcases List.cons.inj hSlashes with ⟨hSlash, hRest⟩
      cases tail with
      | nil =>
          rw [(List.cons.inj hRest).1] at hBlank
          exact absurd hBlank (by decide)
      | cons second tail =>
          rw [hSlash, (List.cons.inj hRest).1] at hText
          exact slashes_notMem_pattern tail hText
    · have hClear : isBlank blank = false := by
        apply isBlank_of_mem_symbol hSymbol
        rw [← hEq]
        exact List.mem_cons_of_mem _ hMem
      simp [hBlank] at hClear

/- In front of a blank, or of nothing, a token is whole. -/
theorem Kind.longest_of_blank
    (hText : first :: tail ∈ kind.pattern)
    (hAfter : ∀ char ∈ after.head?, isBlank char) :
    Longest (first :: tail) after where
  fits := .inr (.inr ⟨kind, hText⟩)
  longest longer hLonger hLexeme := by
    by_contra hLength
    have hPart : first :: tail <+: longer :=
      List.prefix_of_prefix_length_le
        (List.prefix_append _ _) hLonger (by omega)
    rcases hPart with ⟨more, hMore⟩
    rw [← hMore, List.prefix_append_right_inj] at hLonger
    rw [← hMore] at hLexeme hLength
    cases more with
    | nil => simp at hLength
    | cons blank more =>
        rcases hLonger with ⟨later, hLater⟩
        have hBlank : isBlank blank :=
          hAfter blank (by rw [← hLater]; rfl)
        exact blank_notMem_lexeme hText hBlank hLexeme

end OnePass

------------------------------------------------------------
-- Printing
------------------------------------------------------------

namespace OnePass

open Piece Pattern

/-
  A kind and a text of it, the way it may be printed. The
  words that are keywords are no identifiers.
-/
structure Lexeme where
  kind : Kind
  text : List Char
  fits : text ∈ kind.pattern
  isFree :
    kind = .identifier →
      ∀ keyword ∈ Kind.keywords, text ≠ keyword.text.toList

/-
  What is printed between two lexemes: a blank, and then any
  blanks, and comments with the ends of their lines.
-/
structure Spacing where
  text : List Char
  fits : text ∈ oneOf isBlank * separator

/- The lexemes, with a spacing after each but the last. -/
def printed
    (spacing : Nat → Spacing) :
    List Lexeme → List Char
| [] => []
| [lexeme] => lexeme.text
| lexeme :: next :: later =>
    lexeme.text ++ (spacing 0).text ++
      printed (fun index => spacing (index + 1))
        (next :: later)

/-
  The tokens of the lexemes, each at the place where it is
  printed after `before`.
-/
def placed
    (spacing : Nat → Spacing)
    (before : List Char) :
    List Lexeme → List Token
| [] => []
| lexeme :: later =>
    ⟨lexeme.kind, String.ofList lexeme.text,
        spanAfter before lexeme.text⟩ ::
      placed (fun index => spacing (index + 1))
        (before ++ lexeme.text ++ (spacing 0).text) later

namespace Lexeme

theorem nonempty
    (lexeme : Lexeme) :
    lexeme.text ≠ [] := by
  intro hText
  apply lexeme.kind.nil_notMem_pattern
  rw [← hText]
  exact lexeme.fits

theorem wins
    (lexeme : Lexeme) :
    lexeme.kind.Wins lexeme.text := by
  have hFits := lexeme.fits
  have hNonempty := lexeme.nonempty
  cases hText : lexeme.text with
  | nil => exact absurd hText hNonempty
  | cons first tail =>
      rw [hText] at hFits
      by_cases hKind : lexeme.kind = .identifier
      · refine ⟨hFits, ?_⟩
        intro other hOther
        by_cases hIdentifier : other = .identifier
        · exact .inr hIdentifier
        · rw [hKind] at hFits
          rcases Kind.mem_keywords_of_mem_word hIdentifier
            hFits hOther with ⟨hKeyword, hSame⟩
          rw [← hText] at hSame
          exact
            absurd hSame (lexeme.isFree hKind other hKeyword)
      · exact Kind.wins_of_ne_identifier hKind hFits

theorem longest
    (lexeme : Lexeme)
    {after : List Char}
    (hAfter : ∀ char ∈ after.head?, isBlank char) :
    Longest lexeme.text after := by
  have hFits := lexeme.fits
  have hNonempty := lexeme.nonempty
  cases hText : lexeme.text with
  | nil => exact absurd hText hNonempty
  | cons first tail =>
      rw [hText] at hFits
      exact Kind.longest_of_blank hFits hAfter

end Lexeme

namespace Spacing

theorem mem_separator
    (spacing : Spacing) :
    spacing.text ∈ separator := by
  rcases spacing.fits with ⟨head, hHead, tail, hTail, hText⟩
  rw [← hText]
  exact append_mem_kstar (.inl hHead) hTail

theorem isBlank_head
    (spacing : Spacing)
    (after : List Char) :
    ∀ char ∈ (spacing.text ++ after).head?,
      isBlank char := by
  rcases spacing.fits with
    ⟨head, ⟨blank, hBlank, hHead⟩, tail, -, hText⟩
  intro char hChar
  rw [← hText, hHead] at hChar
  rw [← Option.some.inj hChar]
  exact hBlank

end Spacing

/- A lexeme in front of a blank is cut off at its place. -/
theorem tokenizeFrom_lexeme
    (before : List Char)
    (lexeme : Lexeme)
    {after : List Char}
    (hAfter : ∀ char ∈ after.head?, isBlank char) :
    tokenizeFrom (.ofChars (before ++ (lexeme.text ++ after)))
        (byteLength before) (lexeme.text ++ after) =
      (do
        let later ←
          tokenizeFrom
            (.ofChars (before ++ (lexeme.text ++ after)))
            (byteLength (before ++ lexeme.text)) after
        return ⟨lexeme.kind, String.ofList lexeme.text,
          spanAfter before lexeme.text⟩ :: later) := by
  rw [tokenizeFrom_token lexeme.nonempty lexeme.wins
      (lexeme.longest hAfter),
    Lines.lineAt_ofChars, ← byteLength_append]
  rfl

/-
  The lexemes are cut off one by one; `before` takes up what
  has been cut.
-/
theorem tokenizeFrom_printed
    (spacing : Nat → Spacing)
    (before : List Char)
    (lexemes : List Lexeme) :
    tokenizeFrom (.ofChars (before ++ printed spacing lexemes))
        (byteLength before) (printed spacing lexemes) =
      .ok (placed spacing before lexemes) := by
  fun_induction printed spacing lexemes
    generalizing before with
  | case1 spacing =>
      rw [tokenizeFrom]
      rfl
  | case2 spacing lexeme =>
      have hEnd :
          ∀ char ∈ ([] : List Char).head?, isBlank char := by
        simp
      have hLast := tokenizeFrom_lexeme before lexeme hEnd
      rw [List.append_nil, tokenizeFrom] at hLast
      exact hLast
  | case3 spacing lexeme next later ih =>
      have hBlank := (spacing 0).isBlank_head
        (printed (fun index => spacing (index + 1))
          (next :: later))
      have hLater :=
        ih (before ++ lexeme.text ++ (spacing 0).text)
      rw [List.append_assoc, List.append_assoc] at hLater
      rw [List.append_assoc,
        tokenizeFrom_lexeme before lexeme hBlank,
        tokenizeFrom_separator (spacing 0).mem_separator,
        ← byteLength_append, hLater]
      rfl

/-
  Printed lexemes are cut into their tokens: each kind and
  text, with the extent and the line where it was printed.
-/
theorem tokenize_printed
    (spacing : Nat → Spacing)
    (lexemes : List Lexeme) :
    tokenize (String.ofList (printed spacing lexemes)) =
      .ok (placed spacing [] lexemes) := by
  unfold tokenize
  rw [String.toList_ofList]
  exact tokenizeFrom_printed spacing [] lexemes

/- A keyword or symbol has one text only. -/
def Lexeme.fixed
    (kind : Kind)
    (hFixed : kind ∈ Kind.fixed) : Lexeme where
  kind
  text := kind.text.toList
  fits := (Kind.mem_pattern_of_fixed hFixed).mpr rfl
  isFree hKind := by
    rw [hKind] at hFixed
    exact absurd hFixed (by decide)

/- The identifier `b1`. -/
def Lexeme.b1 : Lexeme where
  kind := .identifier
  text := ['b', '1']
  fits :=
    cons_mem_oneOf_mul_iff.mpr
      ⟨by decide,
        mem_run_iff.mpr
          (List.forall_mem_singleton.mpr (by decide))⟩
  isFree _ := by decide

/- A blank, a comment with the end of its line, a blank. -/
def Spacing.commented : Spacing where
  text := [' ', '/', '/', ' ', 'n', '\n', ' ']
  fits := by
    have hLine :
        ['/', '/', ' ', 'n', '\n'] ∈
          oneOf isBlank + comment * oneOf endsLine :=
      .inr
        ⟨['/', '/', ' ', 'n'],
          mem_comment_iff.mpr ⟨_, rfl, by simp [endsLine]⟩,
          ['\n'],
          ⟨'\n', by decide, rfl⟩, rfl⟩
    have hBlank :
        [' '] ∈ oneOf isBlank + comment * oneOf endsLine :=
      .inl ⟨' ', by decide, rfl⟩
    rw [cons_mem_oneOf_mul_iff]
    exact
      ⟨by decide,
        append_mem_kstar hLine
          (append_mem_kstar hBlank
            (Language.nil_mem_kstar _))⟩

/-
  A keyword, a comment up to the end of its line, and a name
  on the second line. The name is one identifier, although
  the suffix of a byte stands at its start.
-/
theorem tokenize_printed_commented :
    tokenize "int // n\n b1" =
      .ok
        [⟨.kwInt, "int", ⟨0, 3, 1⟩⟩,
          ⟨.identifier, "b1", ⟨10, 12, 2⟩⟩] :=
  tokenize_printed (fun _ => .commented)
    [.fixed .kwInt (by decide), .b1]

end OnePass
