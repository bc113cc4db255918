import Mathlib.Computability.Language
import OnePass.Token.Lexer

/-
  The patterns of tokens, blanks and comments.

  Each kind of token has a regular language of texts, given
  here by union, concatenation and iteration and without
  regard to how a text is cut. The first character of a text
  tells which patterns it may fit, and apart from the words
  that are also identifiers no text fits two kinds.

  Main declarations:
    * `Kind.pattern`
    * `Pattern.lexeme`
    * `Pattern.separator`
    * `Pattern.cons_mem_lexeme_iff`
    * `Kind.eq_of_mem_pattern`
-/

------------------------------------------------------------
-- Regular Languages
------------------------------------------------------------

namespace OnePass

namespace Pattern

open scoped Computability

/- The texts of one character of a class. -/
def oneOf (Holds : Char → Bool) : Language Char :=
  fun text => ∃ char, Holds char ∧ text = [char]

/- The texts of any number of characters of a class. -/
def run (Holds : Char → Bool) : Language Char :=
  (oneOf Holds)∗

variable {Holds : Char → Bool}
variable {language : Language Char}
variable {first : Char}
variable {text more : List Char}

theorem mem_singleton_iff :
    text ∈ ({more} : Language Char) ↔ text = more :=
  Iff.rfl

theorem append_mem_kstar
    (hText : text ∈ language)
    (hMore : more ∈ language∗) :
    text ++ more ∈ language∗ := by
  have hLe : language * language∗ ≤ language∗ :=
    mul_kstar_le_kstar
  exact hLe (Language.append_mem_mul hText hMore)

theorem mem_run_iff :
    text ∈ run Holds ↔ ∀ char ∈ text, Holds char := by
  constructor
  · intro hText
    rcases hText with ⟨chunks, hChunks, hHolds⟩
    intro char hChar
    rw [hChunks, List.mem_flatten] at hChar
    rcases hChar with ⟨chunk, hChunk, hChar⟩
    rcases hHolds chunk hChunk with ⟨only, hOnly, hEq⟩
    rw [hEq, List.mem_singleton] at hChar
    rwa [hChar]
  · intro hHolds
    induction text with
    | nil => exact Language.nil_mem_kstar _
    | cons first text ih =>
        rw [List.forall_mem_cons] at hHolds
        have hFirst : [first] ∈ oneOf Holds :=
          ⟨first, hHolds.1, rfl⟩
        exact append_mem_kstar hFirst (ih hHolds.2)

theorem cons_mem_oneOf_mul_iff :
    first :: text ∈ oneOf Holds * language ↔
      Holds first ∧ text ∈ language := by
  rw [Language.mem_mul]
  constructor
  · intro hText
    rcases hText with
      ⟨head, ⟨char, hHolds, hHead⟩, tail, hTail, hEq⟩
    rw [hHead, List.singleton_append] at hEq
    rcases List.cons.inj hEq with ⟨hFirst, hRest⟩
    rw [← hFirst, ← hRest]
    exact ⟨hHolds, hTail⟩
  · intro hText
    exact
      ⟨[first], ⟨first, hText.1, rfl⟩, text, hText.2, rfl⟩

theorem cons_mem_singleton_mul_iff
    {only : Char}
    {rest : List Char} :
    first :: text ∈
        ({only :: rest} : Language Char) * language ↔
      first = only ∧ text ∈ {rest} * language := by
  rw [Language.mem_mul, Language.mem_mul]
  constructor
  · intro hText
    rcases hText with ⟨head, hHead, tail, hTail, hEq⟩
    rw [mem_singleton_iff.mp hHead, List.cons_append] at hEq
    rcases List.cons.inj hEq with ⟨hFirst, hRest⟩
    exact ⟨hFirst.symm, rest, rfl, tail, hTail, hRest⟩
  · intro hText
    rcases hText with ⟨hFirst, head, hHead, tail, hTail, hEq⟩
    rw [mem_singleton_iff.mp hHead] at hEq
    rw [hFirst, ← hEq]
    exact ⟨only :: rest, rfl, tail, hTail, rfl⟩

theorem mem_nil_mul_iff :
    text ∈ ({[]} : Language Char) * language ↔
      text ∈ language := by
  have hOne : ({[]} : Language Char) = 1 := rfl
  rw [hOne, one_mul]

/- What a text of an iterated pattern starts with. -/
theorem cons_mem_kstar
    (hText : first :: text ∈ language∗) :
    ∃ head tail,
      text = head ++ tail ∧
        first :: head ∈ language ∧ tail ∈ language∗ := by
  rcases Language.mem_kstar_iff_exists_nonempty.mp hText with
    ⟨chunks, hChunks, hEach⟩
  cases chunks with
  | nil => cases hChunks
  | cons chunk chunks =>
      rw [List.forall_mem_cons] at hEach
      rcases hEach with ⟨⟨hChunk, hFull⟩, hLater⟩
      cases chunk with
      | nil => exact absurd rfl hFull
      | cons char head =>
          rw [List.flatten_cons, List.cons_append] at hChunks
          rcases List.cons.inj hChunks with ⟨hFirst, hRest⟩
          rw [← hFirst] at hChunk
          refine ⟨head, chunks.flatten, hRest, hChunk, ?_⟩
          apply Language.join_mem_kstar
          intro later hMem
          exact (hLater later hMem).1

end Pattern

end OnePass

------------------------------------------------------------
-- Patterns
------------------------------------------------------------

namespace OnePass

namespace Pattern

open Piece
open scoped Computability

def blanks : Language Char :=
  oneOf isBlank * run isBlank

/- A comment does not include the end of its line. -/
def comment : Language Char :=
  {['/', '/']} * run (!endsLine ·)

/- Words, keywords among them. -/
def word : Language Char :=
  oneOf Char.isAlpha * run Char.isAlphanum

/- Numbers have no leading zeros. -/
def number : Language Char :=
  {['0']} +
    oneOf (fun char => char.isDigit && char ≠ '0') *
      run Char.isDigit

/- A character of a string, or an escape. -/
def item : Language Char :=
  oneOf isPlain + {['\\']} * oneOf isEscaped

/- Strings are not empty. -/
def string : Language Char :=
  {['"']} * ((item * item∗) * {['"']})

end Pattern

/- The texts of a kind. -/
def Kind.pattern : Kind → Language Char
| .identifier => Pattern.word
| .number => Pattern.number
| .string => Pattern.string
| kind => {kind.text.toList}

namespace Pattern

open Piece
open scoped Computability

/- The texts that fit any pattern. -/
def lexeme : Language Char :=
  fun text =>
    text ∈ blanks ∨ text ∈ comment ∨
      ∃ kind : Kind, text ∈ kind.pattern

/- Blanks, and comments with the ends of their lines. -/
def separator : Language Char :=
  (oneOf isBlank + comment * oneOf endsLine)∗

/- At the end of a source a comment needs no end of line. -/
def trailer : Language Char :=
  separator * (1 + comment)

end Pattern

end OnePass

------------------------------------------------------------
-- Fixed Texts
------------------------------------------------------------

namespace OnePass

namespace Kind

open Piece Pattern

variable {kind other : Kind}
variable {first : Char}
variable {text : List Char}

/- The kinds with one text only. -/
def fixed : List Kind :=
  keywords ++ symbols

theorem mem_fixed_or_class
    (kind : Kind) :
    kind ∈ fixed ∨
      kind = .identifier ∨ kind = .number ∨
        kind = .string := by
  cases kind <;> decide

theorem mem_pattern_of_fixed
    (hFixed : kind ∈ fixed) :
    text ∈ kind.pattern ↔ text = kind.text.toList := by
  cases kind <;>
    first
    | exact Iff.rfl
    | exact absurd hFixed (by decide)

/- No two kinds have the same fixed text. -/
theorem eq_of_text_eq
    (hKind : kind ∈ fixed)
    (hOther : other ∈ fixed)
    (hText : kind.text.toList = other.text.toList) :
    kind = other := by
  have hDistinct :
      ∀ kind ∈ fixed, ∀ other ∈ fixed,
        kind.text.toList = other.text.toList →
          kind = other := by
    decide
  exact hDistinct kind hKind other hOther hText

/- Keywords are words. -/
theorem mem_word_of_keyword
    (hKeyword : kind ∈ keywords)
    (hText : first :: text = kind.text.toList) :
    first :: text ∈ word := by
  have hWords :
      ∀ kind ∈ keywords,
        kind.text.toList.head?.all Char.isAlpha ∧
          kind.text.toList.tail.all Char.isAlphanum := by
    decide
  have hWord := hWords kind hKeyword
  rw [← hText] at hWord
  apply cons_mem_oneOf_mul_iff.mpr
  rw [mem_run_iff]
  simpa using hWord

/- What a symbol starts with. -/
theorem first_of_symbol
    (hSymbol : kind ∈ symbols)
    (hText : first :: text = kind.text.toList) :
    isBlank first = false ∧ first.isAlpha = false ∧
      first.isDigit = false ∧ first ≠ '"' := by
  have hSymbols :
      ∀ kind ∈ symbols,
        kind.text.toList.head?.all fun first =>
          !isBlank first && !first.isAlpha &&
            !first.isDigit && first ≠ '"' := by
    decide
  have hFirst := hSymbols kind hSymbol
  rw [← hText] at hFirst
  simpa [and_assoc] using hFirst

end Kind

end OnePass

------------------------------------------------------------
-- First Characters
------------------------------------------------------------

namespace OnePass

namespace Pattern

open Piece

variable {first : Char}
variable {text : List Char}

theorem class_of_isBlank
    (hBlank : isBlank first) :
    first.isAlpha = false ∧ first.isDigit = false ∧
      first ≠ '"' := by
  unfold isBlank at hBlank
  simp only [Bool.or_eq_true, decide_eq_true_eq] at hBlank
  rcases hBlank with ((hChar | hChar) | hChar) | hChar
  all_goals
    rw [hChar]
    decide

theorem isAlpha_of_isDigit
    (hDigit : first.isDigit) :
    first.isAlpha = false := by
  simp only [Char.isDigit, Bool.and_eq_true,
    decide_eq_true_eq, ge_iff_le,
    UInt32.le_iff_toNat_le] at hDigit
  change
    48 ≤ first.val.toNat ∧ first.val.toNat ≤ 57 at hDigit
  apply Bool.eq_false_iff.mpr
  intro hAlpha
  change
    (decide (65 ≤ first.val ∧ first.val ≤ 90) ||
      (97 ≤ first.val && first.val ≤ 122)) = true
    at hAlpha
  simp only [Bool.or_eq_true, Bool.and_eq_true,
    decide_eq_true_eq, UInt32.le_iff_toNat_le] at hAlpha
  change
    (65 ≤ first.val.toNat ∧ first.val.toNat ≤ 90) ∨
      97 ≤ first.val.toNat ∧ first.val.toNat ≤ 122
    at hAlpha
  omega

/- The texts of all symbols. -/
def symbol : Language Char :=
  fun text => ∃ kind ∈ Kind.symbols, text = kind.text.toList

/- The patterns of the texts that start with a character. -/
def family (first : Char) : Language Char :=
  if isBlank first then blanks
  else if first.isAlpha then word
  else if first.isDigit then number
  else if first = '"' then string
  else comment + symbol

theorem family_of_isBlank
    (hBlank : isBlank first) :
    family first = blanks := by
  simp [family, hBlank]

theorem family_of_isAlpha
    (hAlpha : first.isAlpha) :
    family first = word := by
  have hBlank : ¬isBlank first := by
    intro hBlank
    simp [class_of_isBlank hBlank] at hAlpha
  simp [family, hBlank, hAlpha]

theorem family_of_isDigit
    (hDigit : first.isDigit) :
    family first = number := by
  have hBlank : ¬isBlank first := by
    intro hBlank
    simp [class_of_isBlank hBlank] at hDigit
  simp [family, hBlank, isAlpha_of_isDigit hDigit, hDigit]

theorem family_quote :
    family '"' = string := by
  rfl

theorem family_of_other
    (hBlank : isBlank first = false)
    (hAlpha : first.isAlpha = false)
    (hDigit : first.isDigit = false)
    (hQuote : first ≠ '"') :
    family first = comment + symbol := by
  simp [family, hBlank, hAlpha, hDigit, hQuote]

/- Words start with a letter. -/
theorem isAlpha_of_mem_word
    (hWord : first :: text ∈ word) :
    first.isAlpha :=
  (cons_mem_oneOf_mul_iff.mp hWord).1

/- Numbers start with a digit. -/
theorem isDigit_of_mem_number
    (hNumber : first :: text ∈ number) :
    first.isDigit := by
  rcases hNumber with hZero | hPositive
  · rcases List.cons.inj hZero with ⟨hFirst, -⟩
    rw [hFirst]
    rfl
  · have hFirst := (cons_mem_oneOf_mul_iff.mp hPositive).1
    simp only [Bool.and_eq_true] at hFirst
    exact hFirst.1

/- The first character tells which patterns a text may fit. -/
theorem cons_mem_lexeme_iff :
    first :: text ∈ lexeme ↔
      first :: text ∈ family first := by
  constructor
  · intro hLexeme
    rcases hLexeme with hBlanks | hComment | ⟨kind, hKind⟩
    · have hFirst := (cons_mem_oneOf_mul_iff.mp hBlanks).1
      rwa [family_of_isBlank hFirst]
    · have hFirst :=
        (cons_mem_singleton_mul_iff.mp hComment).1
      rw [hFirst] at hComment ⊢
      exact .inl hComment
    · rcases kind.mem_fixed_or_class with
        hFixed | hIdentifier | hNumber | hString
      · have hText := (Kind.mem_pattern_of_fixed hFixed).mp hKind
        rcases List.mem_append.mp hFixed with
          hKeyword | hSymbol
        · have hWord :=
            Kind.mem_word_of_keyword hKeyword hText
          rwa [family_of_isAlpha (isAlpha_of_mem_word hWord)]
        · rcases Kind.first_of_symbol hSymbol hText with
            ⟨hBlank, hAlpha, hDigit, hQuote⟩
          rw [family_of_other hBlank hAlpha hDigit hQuote]
          exact .inr ⟨kind, hSymbol, hText⟩
      · rw [hIdentifier] at hKind
        rwa [family_of_isAlpha (isAlpha_of_mem_word hKind)]
      · rw [hNumber] at hKind
        rwa [family_of_isDigit (isDigit_of_mem_number hKind)]
      · rw [hString] at hKind
        have hFirst :=
          (cons_mem_singleton_mul_iff.mp hKind).1
        rw [hFirst] at hKind ⊢
        exact hKind
  · intro hFamily
    unfold family at hFamily
    split at hFamily
    · exact .inl hFamily
    split at hFamily
    · exact .inr (.inr ⟨.identifier, hFamily⟩)
    split at hFamily
    · exact .inr (.inr ⟨.number, hFamily⟩)
    split at hFamily
    · exact .inr (.inr ⟨.string, hFamily⟩)
    rcases hFamily with hComment | ⟨kind, hSymbol, hText⟩
    · exact .inr (.inl hComment)
    · have hFixed : kind ∈ Kind.fixed :=
        List.mem_append_right _ hSymbol
      exact
        .inr (.inr
          ⟨kind, (Kind.mem_pattern_of_fixed hFixed).mpr hText⟩)

end Pattern

end OnePass

------------------------------------------------------------
-- Kinds
------------------------------------------------------------

namespace OnePass

namespace Kind

open Piece Pattern

variable {kind other : Kind}
variable {first : Char}
variable {text : List Char}

/- What a fixed text starts with. -/
theorem first_of_fixed
    (hFixed : kind ∈ fixed)
    (hText : first :: text = kind.text.toList) :
    first.isDigit = false ∧ first ≠ '"' := by
  rcases List.mem_append.mp hFixed with hKeyword | hSymbol
  · have hWord := mem_word_of_keyword hKeyword hText
    have hAlpha := isAlpha_of_mem_word hWord
    constructor
    · apply Bool.eq_false_iff.mpr
      intro hDigit
      simp [isAlpha_of_isDigit hDigit] at hAlpha
    · intro hQuote
      rw [hQuote] at hAlpha
      cases hAlpha
  · exact (first_of_symbol hSymbol hText).2.2

/- What the texts of a kind other than words start with. -/
theorem first_of_mem_pattern
    (hKind : kind ≠ .identifier)
    (hText : first :: text ∈ kind.pattern) :
    (kind ∈ fixed ∧ first :: text = kind.text.toList) ∨
      (kind = .number ∧ first.isDigit) ∨
        kind = .string ∧ first = '"' := by
  rcases kind.mem_fixed_or_class with
    hFixed | hIdentifier | hNumber | hString
  · exact
      .inl ⟨hFixed, (mem_pattern_of_fixed hFixed).mp hText⟩
  · exact absurd hIdentifier hKind
  · rw [hNumber] at hText
    exact .inr (.inl ⟨hNumber, isDigit_of_mem_number hText⟩)
  · rw [hString] at hText
    have hFirst := (cons_mem_singleton_mul_iff.mp hText).1
    exact .inr (.inr ⟨hString, hFirst⟩)

/- No token starts with a blank. -/
theorem isBlank_of_mem_pattern
    (hText : first :: text ∈ kind.pattern) :
    isBlank first = false := by
  apply Bool.eq_false_iff.mpr
  intro hBlank
  rcases class_of_isBlank hBlank with
    ⟨hAlpha, hDigit, hQuote⟩
  by_cases hKind : kind = .identifier
  · rw [hKind] at hText
    simp [isAlpha_of_mem_word hText] at hAlpha
  · rcases first_of_mem_pattern hKind hText with
      ⟨hFixed, hFits⟩ | ⟨-, hFirst⟩ | ⟨-, hFirst⟩
    · rcases List.mem_append.mp hFixed with
        hKeyword | hSymbol
      · have hWord := mem_word_of_keyword hKeyword hFits
        simp [isAlpha_of_mem_word hWord] at hAlpha
      · simp [first_of_symbol hSymbol hFits] at hBlank
    · simp [hFirst] at hDigit
    · exact hQuote hFirst

/- Apart from identifiers a text fits one kind at most. -/
theorem eq_of_mem_pattern
    (hKind : kind ≠ .identifier)
    (hOther : other ≠ .identifier)
    (hText : first :: text ∈ kind.pattern)
    (hSame : first :: text ∈ other.pattern) :
    kind = other := by
  have hQuote : '"'.isDigit = false := rfl
  rcases first_of_mem_pattern hKind hText with
    ⟨hFixed, hFits⟩ | ⟨hNumber, hDigit⟩ | ⟨hString, hFirst⟩
  · have hStart := first_of_fixed hFixed hFits
    rcases first_of_mem_pattern hOther hSame with
      ⟨hFixed', hFits'⟩ | ⟨-, hDigit⟩ | ⟨-, hFirst⟩
    · exact eq_of_text_eq hFixed hFixed' (hFits ▸ hFits')
    · simp [hDigit] at hStart
    · exact absurd hFirst hStart.2
  · rcases first_of_mem_pattern hOther hSame with
      ⟨hFixed, hFits⟩ | ⟨hNumber', -⟩ | ⟨-, hFirst⟩
    · simp [first_of_fixed hFixed hFits] at hDigit
    · rw [hNumber, hNumber']
    · rw [hFirst, hQuote] at hDigit
      cases hDigit
  · rcases first_of_mem_pattern hOther hSame with
      ⟨hFixed, hFits⟩ | ⟨-, hDigit⟩ | ⟨hString', -⟩
    · exact absurd hFirst (first_of_fixed hFixed hFits).2
    · rw [hFirst, hQuote] at hDigit
      cases hDigit
    · rw [hString, hString']

/- A word is an identifier or a keyword. -/
theorem mem_keywords_of_mem_word
    (hKind : kind ≠ .identifier)
    (hWord : first :: text ∈ word)
    (hText : first :: text ∈ kind.pattern) :
    kind ∈ keywords ∧ first :: text = kind.text.toList := by
  have hAlpha := isAlpha_of_mem_word hWord
  rcases first_of_mem_pattern hKind hText with
    ⟨hFixed, hFits⟩ | ⟨-, hDigit⟩ | ⟨-, hFirst⟩
  · rcases List.mem_append.mp hFixed with
      hKeyword | hSymbol
    · exact ⟨hKeyword, hFits⟩
    · simp [first_of_symbol hSymbol hFits] at hAlpha
  · simp [isAlpha_of_isDigit hDigit] at hAlpha
  · rw [hFirst] at hAlpha
    cases hAlpha

/-
  A kind has the right to a text: the text fits no other
  kind but identifiers.
-/
def Wins (kind : Kind) (text : List Char) : Prop :=
  text ∈ kind.pattern ∧
    ∀ other,
      text ∈ other.pattern →
        other = kind ∨ other = .identifier

theorem wins_of_ne_identifier
    (hKind : kind ≠ .identifier)
    (hText : first :: text ∈ kind.pattern) :
    kind.Wins (first :: text) := by
  refine ⟨hText, ?_⟩
  intro other hOther
  by_cases hIdentifier : other = .identifier
  · exact .inr hIdentifier
  · exact
      .inl (eq_of_mem_pattern hIdentifier hKind hOther hText)

/- The kind of a word is a keyword if one is written so. -/
theorem wins_wordKind
    (hWord : first :: text ∈ word) :
    (wordKind (String.ofList (first :: text))).Wins
      (first :: text) := by
  unfold wordKind
  cases hFind :
      keywords.find?
        (·.text = String.ofList (first :: text)) with
  | some kind =>
      have hKeyword := List.mem_of_find?_eq_some hFind
      have hText := List.find?_some hFind
      have hKind : kind ≠ .identifier := by
        intro hIdentifier
        rw [hIdentifier] at hKeyword
        exact absurd hKeyword (by decide)
      have hFixed : kind ∈ fixed :=
        List.mem_append_left _ hKeyword
      apply wins_of_ne_identifier hKind
      rw [mem_pattern_of_fixed hFixed]
      rw [decide_eq_true_eq] at hText
      rw [hText, String.toList_ofList]
  | none =>
      refine ⟨hWord, ?_⟩
      intro other hOther
      by_cases hIdentifier : other = .identifier
      · exact .inr hIdentifier
      · rcases mem_keywords_of_mem_word hIdentifier hWord
          hOther with ⟨hKeyword, hText⟩
        have hMissed := List.find?_eq_none.mp hFind other hKeyword
        rw [hText, String.ofList_toList] at hMissed
        simp at hMissed

end Kind

end OnePass
