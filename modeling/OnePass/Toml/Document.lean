import OnePass.Toml.Datetime
import OnePass.Toml.Table

/-
  Reading a document.

  A document is read line by line. A header chooses the
  table that the following keys are added to; before the
  first header that is the document itself.

  Key definitions include:
    * `Toml.Reader.value`
    * `Toml.Reader.line`
    * `Toml.read?`
-/

------------------------------------------------------------
-- Keys
------------------------------------------------------------

namespace OnePass

namespace Toml

/- What a key may hold without quotes. -/
def isBare (char : Char) : Bool :=
  char.isAlphanum || char = '-' || char = '_'

/-
  Keys have fewer parts than this, and arrays and tables
  are nested less deeply.
-/
def depthLimit : Nat := 80

namespace Reader

/- A key without quotes. -/
def bareKey : Reader String := do
  let key ← run isBare
  if key.isEmpty then
    failure
  else
    return String.ofList key

/- One part of a key, with blanks around it. -/
def keyPart : Reader String := do
  blanks
  let key ← basicString <|> literalString <|> bareKey
  blanks
  return key

/- A key: the names before the last dot, and the last name. -/
def key : Reader (List String × String) := do
  let parts ← separatedBy '.' keyPart
  match parts.getLast? with
  | some last =>
      if parts.length < depthLimit then
        return (parts.dropLast, last)
      else
        failure
  | none => failure

end Reader

end Toml

end OnePass

------------------------------------------------------------
-- Values
------------------------------------------------------------

namespace OnePass

namespace Toml

namespace Reader

/- A value that holds no other values. -/
def scalar : Reader Value :=
  (do return .string (← anyString)) <|>
    (do return .datetime (← datetime)) <|>
    (do return .float (← float)) <|>
    (do return .integer (← integer)) <|>
    (do
      word "true"
      return .boolean true) <|>
    (do
      word "false"
      return .boolean false)

/- An array. A comma may follow the last value. -/
def array (value : Reader Value) : Reader Value := do
  let item : Reader Value := do
    gap
    let found ← value
    gap
    return found
  char '['
  let items ← optional (separatedBy ',' item)
  if items.isSome then
    let _ ← optional (char ',')
  gap
  char ']'
  return .array (items.getD [])

/- A key and its value. -/
def pair
    (value : Reader Value) :
    Reader ((List String × String) × Value) := do
  let name ← key
  char '='
  blanks
  return (name, ← value)

/- A table in braces, which stands on one line. -/
def inlineTable (value : Reader Value) : Reader Value := do
  let item := do
    let found ← pair value
    blanks
    return found
  char '\x7b'
  let items ← optional (separatedBy ',' item)
  blanks
  char '\x7d'
  let entries : Option Entries :=
    (items.getD []).foldlM
      (fun entries ((path, key), found) =>
        entries.insert key found path)
      []
  match entries with
  | some entries => return .table .inline entries
  | none => failure

/- A value with at most so many levels of other values. -/
def valueWithin : Nat → Reader Value
| 0 => scalar
| levels + 1 =>
    scalar <|> array (valueWithin levels) <|>
      inlineTable (valueWithin levels)

/- A value. -/
def value : Reader Value :=
  valueWithin (depthLimit - 1)

end Reader

end Toml

end OnePass

------------------------------------------------------------
-- Documents
------------------------------------------------------------

namespace OnePass

namespace Toml

/- A document that is read up to some line. -/
structure Progress where
  document : Entries
  /- The names of the last header. -/
  current : List String

namespace Reader

/- Go on with a changed document, if the change is allowed. -/
def proceed
    (current : List String)
    (document : Option Entries) : Reader Progress :=
  match document with
  | some document => return { document, current }
  | none => failure

/- The header of a table, or of one more table of an array. -/
def header (progress : Progress) : Reader Progress := do
  char '['
  let element ← optional (char '[')
  let (path, key) ← key
  let names := path ++ [key]
  char ']'
  match element with
  | some _ =>
      char ']'
      lineRest
      proceed names (progress.document.openElement names)
  | none =>
      lineRest
      proceed names (progress.document.openTable names)

/- A key with its value, which go into the current table. -/
def assignment (progress : Progress) : Reader Progress := do
  let ((path, key), found) ← pair value
  lineRest
  proceed progress.current
    (progress.document.descend
      (Entries.insert key found path) progress.current)

/- A line, without the blanks that it starts with. -/
def line (progress : Progress) : Reader Progress := do
  match ← peek with
  | some '#' | some '\n' | some '\r' =>
      lineRest
      return progress
  | some '[' => header progress
  | _ => assignment progress

/- Lines, at most one for each character of the argument. -/
def linesWithin :
    List Char → Progress → Reader Progress
| [], progress => return progress
| _ :: bound, progress => do
    blanks
    if (← get).isEmpty then
      return progress
    else
      linesWithin bound (← line progress)

/- A whole document, with or without a byte order mark. -/
def document : Reader Entries := do
  let _ ← optional (char '\ufeff')
  let progress ← linesWithin (← get) ⟨[], []⟩
  finished
  return progress.document

end Reader

/- The entries of a document, if the text is one. -/
def read? (text : String) : Option Entries :=
  (Reader.document text.toList).map Prod.fst

end Toml

end OnePass
