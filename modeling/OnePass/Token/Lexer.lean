import OnePass.Diagnostic
import OnePass.Source.Lines
import OnePass.Token.Basic

/-
  From source text to tokens.

  The text is cut from left to right into pieces: tokens,
  and gaps made of blanks and comments. Each piece is the
  longest one that can start where it stands. A word is a
  keyword if it is written like one, and an identifier
  otherwise. The first text that starts no piece ends the
  cut and is reported.

  Key definitions include:
    * `Piece`
    * `Piece.front`
    * `tokenize`
-/

------------------------------------------------------------
-- Character Classes
------------------------------------------------------------

namespace OnePass

namespace Piece

/- Space, tab, carriage return and line feed. -/
def isBlank (char : Char) : Bool :=
  char = ' ' || char = '\t' || char = '\r' || char = '\n'

/- A comment runs up to the end of its line. -/
def endsLine (char : Char) : Bool :=
  char = '\r' || char = '\n'

/- What may stand in a string without an escape. -/
def isPlain (char : Char) : Bool :=
  !(endsLine char || char = '"' || char = '\\')

/- What may follow the backslash of an escape. -/
def isEscaped (char : Char) : Bool :=
  char = 'r' || char = 'n' || char = 't' || char = '"' ||
    char = '\\'

end Piece

end OnePass

------------------------------------------------------------
-- Pieces
------------------------------------------------------------

namespace OnePass

/- What the text at hand starts with. -/
inductive Piece where
  | gap
  | token (kind : Kind)
  | unrecognized
deriving DecidableEq, Repr

namespace Piece

/- The kind of a word. -/
def wordKind (word : String) : Kind :=
  (Kind.keywords.find? (·.text = word)).getD .identifier

/- The longest symbol that starts `text`. -/
def symbolKind? (text : List Char) : Option Kind :=
  Kind.symbols.find? (·.text.toList.isPrefixOf text)

/-
  Number of characters in the longest run of complete
  string items at the start of a text. An item is a plain
  character or an escape.
-/
def itemsLength : List Char → Nat
| [] => 0
| '\\' :: text =>
    match text with
    | [] => 0
    | char :: rest =>
        if isEscaped char then itemsLength rest + 2 else 0
| char :: rest =>
    if isPlain char then itemsLength rest + 1 else 0

/-
  The piece that starts with `first`, and how many
  characters of the following text belong to it. An
  unrecognized piece that starts with a quote extends over
  the complete items after it.
-/
def front
    (first : Char)
    (rest : List Char) : Piece × Nat :=
  if isBlank first then
    (.gap, (rest.takeWhile isBlank).length)
  else if first.isAlpha then
    let word := rest.takeWhile Char.isAlphanum
    (.token (wordKind (String.ofList (first :: word))),
      word.length)
  else if first = '0' then
    (.token .number, 0)
  else if first.isDigit then
    (.token .number, (rest.takeWhile Char.isDigit).length)
  else if first = '"' then
    let items := itemsLength rest
    if 0 < items && (rest.drop items).head? = some '"' then
      (.token .string, items + 1)
    else
      (.unrecognized, items)
  else if first = '/' && rest.head? = some '/' then
    (.gap, (rest.takeWhile (!endsLine ·)).length)
  else
    match symbolKind? (first :: rest) with
    | some kind => (.token kind, kind.text.length - 1)
    | none => (.unrecognized, 0)

end Piece

end OnePass

------------------------------------------------------------
-- Tokenization
------------------------------------------------------------

namespace OnePass

/- What is left after a piece is shorter than the text. -/
theorem length_drop_lt_length_cons
    (first : Char)
    (rest : List Char)
    (extra : Nat) :
    (rest.drop extra).length < (first :: rest).length := by
  rw [List.length_drop, List.length_cons]
  exact Nat.lt_succ_of_le (Nat.sub_le rest.length extra)

/-
  The tokens of a text that stands at byte `offset` of a
  source with the given lines. A token is on the line where
  it starts.
-/
def tokenizeFrom
    (lines : Lines)
    (offset : Nat) :
    List Char → Except Diagnostic (List Token)
| [] => .ok []
| first :: rest =>
    let (piece, extra) := Piece.front first rest
    let text := first :: rest.take extra
    let stop := offset + byteLength text
    let span : Span := ⟨offset, stop, lines.lineAt offset⟩
    match piece with
    | .gap => tokenizeFrom lines stop (rest.drop extra)
    | .token kind => do
        let later ← tokenizeFrom lines stop (rest.drop extra)
        return ⟨kind, String.ofList text, span⟩ :: later
    | .unrecognized => .error (.pointAt .lexical span)
termination_by text => text.length
decreasing_by
  all_goals exact length_drop_lt_length_cons _ _ _

/- The tokens of a source, or its first unrecognized text. -/
def tokenize
    (source : String) : Except Diagnostic (List Token) :=
  tokenizeFrom (.ofChars source.toList) 0 source.toList

end OnePass
