import OnePass.Toml.Reader

/-
  Strings.

  A string is basic, with escapes, or literal, without; and
  it stands on one line, or between triple quotes on any
  number of lines. A multi-line string loses the line end
  that directly follows its opening quotes. It may hold one
  or two quotes in a row, also just before the closing ones.

  Key definitions include:
    * `Toml.Reader.basicString`
    * `Toml.Reader.literalString`
    * `Toml.Reader.anyString`
-/

------------------------------------------------------------
-- Escapes
------------------------------------------------------------

namespace OnePass

namespace Toml

/- The single quote. -/
def apostrophe : Char := Char.ofNat 0x27

/- The value of a hexadecimal digit. -/
def hexValue (digit : Char) : Nat :=
  if digit.isDigit then
    digit.toNat - '0'.toNat
  else
    digit.toLower.toNat - 'a'.toNat + 10

/- A hexadecimal digit. -/
def isHexDigit (char : Char) : Bool :=
  char.isDigit || ('a' ≤ char && char ≤ 'f') ||
    ('A' ≤ char && char ≤ 'F')

/- The number that digits in a base denote. -/
def numberOf
    (base : Nat)
    (digits : List Char) : Nat :=
  digits.foldl
    (fun number digit => base * number + hexValue digit) 0

namespace Reader

/- A character given by its number, which has to be one. -/
def codePoint (count : Nat) : Reader Char := do
  let number := numberOf 16 (← exactly isHexDigit count)
  if Nat.isValidChar number then
    return Char.ofNat number
  else
    failure

/- An escape, from its backslash on. -/
def escape : Reader Char := do
  char '\\'
  match ← satisfy fun _ => true with
  | 'b' => return '\x08'
  | 't' => return '\t'
  | 'n' => return '\n'
  | 'f' => return '\x0c'
  | 'r' => return '\r'
  | '"' => return '"'
  | '\\' => return '\\'
  | 'u' => codePoint 4
  | 'U' => codePoint 8
  | _ => failure

end Reader

end Toml

end OnePass

------------------------------------------------------------
-- Strings On One Line
------------------------------------------------------------

namespace OnePass

namespace Toml

/- What a basic string may hold without an escape. -/
def isBasic (char : Char) : Bool :=
  isPrintable char && char != '"' && char != '\\'

/- What a literal string may hold. -/
def isLiteral (char : Char) : Bool :=
  isPrintable char && char != apostrophe

namespace Reader

/- A basic string on one line. -/
def basicString : Reader String := do
  char '"'
  let body ← many (satisfy isBasic <|> escape)
  char '"'
  return String.ofList body

/- A literal string on one line. -/
def literalString : Reader String := do
  char apostrophe
  let body ← run isLiteral
  char apostrophe
  return String.ofList body

end Reader

end Toml

end OnePass

------------------------------------------------------------
-- Strings On Many Lines
------------------------------------------------------------

namespace OnePass

namespace Toml

namespace Reader

/- One or two quotes inside a multi-line string. -/
def innerQuotes (quote : Char) : Reader (List Char) := do
  let quotes ← run (· = quote)
  if quotes.isEmpty || 2 < quotes.length then
    failure
  else
    return quotes

/-
  The closing quotes of a multi-line string, with up to two
  quotes before them that belong to the string.
-/
def closingQuotes (quote : Char) : Reader (List Char) := do
  let quotes ← run (· = quote)
  if 3 ≤ quotes.length && quotes.length ≤ 5 then
    return quotes.drop 3
  else
    failure

/- A multi-line string with the given quotes and items. -/
def multiline
    (quote : Char)
    (item : Reader (List Char)) : Reader String := do
  let _ ← exactly (· = quote) 3
  let _ ← optional newline
  let body ← many (item <|> innerQuotes quote)
  let last ← closingQuotes quote
  return String.ofList (body.flatten ++ last)

/- A line end inside a string, which is always a line feed. -/
def innerNewline : Reader (List Char) := do
  newline
  return ['\n']

/-
  A backslash at the end of a line. It removes the line end
  and all blanks and line ends after it.
-/
def lineContinuation : Reader (List Char) := do
  char '\\'
  blanks
  newline
  let blank : Reader Unit := do
    let _ ← satisfy isBlank
  let _ ← many (blank <|> newline)
  return []

/- A basic string on many lines. -/
def multilineBasicString : Reader String :=
  multiline '"'
    ((do return [← satisfy isBasic]) <|> lineContinuation <|>
      (do return [← escape]) <|> innerNewline)

/- A literal string on many lines. -/
def multilineLiteralString : Reader String :=
  multiline apostrophe
    ((do return [← satisfy isLiteral]) <|> innerNewline)

/- A string of any form. -/
def anyString : Reader String :=
  multilineBasicString <|> basicString <|>
    multilineLiteralString <|> literalString

end Reader

end Toml

end OnePass
