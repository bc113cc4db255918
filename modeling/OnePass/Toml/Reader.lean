/-
  Reading characters.

  A reader takes what it reads off the front of a text, or
  fails. A reader that fails takes nothing, so that another
  one can be tried. What is wrong with a document is not
  reported, only that something is.

  Key definitions include:
    * `Toml.Reader`
    * `Toml.Reader.many`
    * `Toml.Reader.lineRest`
    * `Toml.Reader.gap`
-/

------------------------------------------------------------
-- Readers
------------------------------------------------------------

namespace OnePass

namespace Toml

/- A reader of a value of type `α`. -/
abbrev Reader : Type → Type := StateT (List Char) Option

namespace Reader

variable {α : Type}

/- The next character, which is not read. -/
def peek : Reader (Option Char) := do
  return (← get).head?

/- Read one character of a class. -/
def satisfy (accepts : Char → Bool) : Reader Char := do
  match ← get with
  | char :: rest =>
      if accepts char then
        set rest
        return char
      else
        failure
  | [] => failure

/- Read the given character. -/
def char (expected : Char) : Reader Unit := do
  let _ ← satisfy (· = expected)

/- Read the given characters. -/
def word (expected : String) : Reader Unit :=
  expected.toList.forM char

/- Read the longest run of characters of a class. -/
def run (accepts : Char → Bool) : Reader (List Char) := do
  let text ← get
  set (text.dropWhile accepts)
  return text.takeWhile accepts

/- Read exactly so many characters of a class. -/
def exactly
    (accepts : Char → Bool)
    (count : Nat) : Reader (List Char) :=
  (List.replicate count ()).mapM fun _ => satisfy accepts

/- Nothing is left to read. -/
def finished : Reader Unit := do
  if (← get).isEmpty then
    return ()
  else
    failure

/- The characters that a reader takes. -/
def taken (reader : Reader α) : Reader (List Char) := do
  let before ← get
  let _ ← reader
  let after ← get
  return before.take (before.length - after.length)

end Reader

end Toml

end OnePass

------------------------------------------------------------
-- Repetition
------------------------------------------------------------

namespace OnePass

namespace Toml

namespace Reader

variable {α : Type}

/-
  Read items until one fails, at most one for each character
  of the first argument.
-/
def manyWithin
    (item : Reader α) :
    List Char → Reader (List α)
| [] => return []
| _ :: bound => do
    match ← optional item with
    | none => return []
    | some first =>
        return first :: (← manyWithin item bound)

/-
  Read items until one fails. An item takes at least one
  character, so that the text bounds their number.
-/
def many (item : Reader α) : Reader (List α) := do
  manyWithin item (← get)

/- Read one or more items with a character between them. -/
def separatedBy
    (separator : Char)
    (item : Reader α) : Reader (List α) := do
  let first ← item
  let later ← many do
    char separator
    item
  return first :: later

end Reader

end Toml

end OnePass

------------------------------------------------------------
-- Blanks, Comments And Line Ends
------------------------------------------------------------

namespace OnePass

namespace Toml

/- A character beyond the ASCII range. -/
def isBeyondAscii (char : Char) : Bool :=
  0x80 ≤ char.toNat

/- What may stand in a comment: anything but controls. -/
def isPrintable (char : Char) : Bool :=
  char = '\t' || isBeyondAscii char ||
    (0x20 ≤ char.toNat && char.toNat ≤ 0x7e)

/- Space and tab. -/
def isBlank (char : Char) : Bool :=
  char = ' ' || char = '\t'

namespace Reader

/- Blanks, if there are any. -/
def blanks : Reader Unit := do
  let _ ← run isBlank

/- A line feed, or a carriage return and a line feed. -/
def newline : Reader Unit :=
  char '\n' <|> word "\r\n"

/- A comment, up to the end of its line. -/
def comment : Reader Unit := do
  char '#'
  let _ ← run isPrintable

/- What may follow the last thing on a line. -/
def lineRest : Reader Unit := do
  blanks
  let _ ← optional comment
  newline <|> finished

/- Blanks, line ends and comments, if there are any. -/
def gap : Reader Unit := do
  let blank : Reader Unit := do
    let _ ← satisfy isBlank
  let commentLine : Reader Unit := do
    comment
    newline
  let _ ← many (blank <|> newline <|> commentLine)

end Reader

end Toml

end OnePass
