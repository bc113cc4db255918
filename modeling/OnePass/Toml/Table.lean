import OnePass.Toml.Value

/-
  Growing tables.

  A key is given once, and a table is defined once. A header
  may go through any table that is not complete, and may
  define a table that so far is only implied. A dotted key
  may go through tables that have no header, and may only
  add to a table that dotted keys brought about. The last
  table of an array stands for the array.

  Key definitions include:
    * `Toml.Entries.insert`
    * `Toml.Entries.descend`
    * `Toml.Entries.openTable`
    * `Toml.Entries.openElement`
-/

------------------------------------------------------------
-- Entries
------------------------------------------------------------

namespace OnePass

namespace Toml

namespace Entries

/- Add an entry at the end. -/
def add
    (entries : Entries)
    (key : String)
    (value : Value) : Entries :=
  entries ++ [(key, value)]

/- Give a present key another value. -/
def replace
    (entries : Entries)
    (key : String)
    (value : Value) : Entries :=
  entries.map fun (name, old) =>
    (name, if name = key then value else old)

/- Change the last table of an array of tables. -/
def changeLast
    (change : Entries → Option Entries)
    (elements : List Entries) : Option Value := do
  let last ← elements.getLast?
  return .tables (elements.dropLast ++ [← change last])

end Entries

end Toml

end OnePass

------------------------------------------------------------
-- Keys
------------------------------------------------------------

namespace OnePass

namespace Toml

namespace Entries

/- Add an entry whose key is not present. -/
def addNew
    (entries : Entries)
    (key : String)
    (value : Value) : Option Entries :=
  match entries.lookup key with
  | none => some (entries.add key value)
  | some _ => none

/-
  Add an entry under a dotted key, given as the names before
  the last dot and the last name.
-/
def insert
    (key : String)
    (value : Value) :
    List String → Entries → Option Entries
| [], entries => entries.addNew key value
| name :: path, entries =>
    match entries.lookup name with
    | none => do
        let inner ← insert key value path []
        return entries.add name (.table .dotted inner)
    | some (.table .dotted inner) => do
        let changed ← insert key value path inner
        return entries.replace name (.table .dotted changed)
    | some (.table .implied inner) =>
        if path.isEmpty then
          none
        else do
          let changed ← insert key value path inner
          return entries.replace name (.table .implied changed)
    | some (.tables elements) =>
        if path.isEmpty then
          none
        else do
          let changed ←
            changeLast (insert key value path) elements
          return entries.replace name changed
    | some _ => none

end Entries

end Toml

end OnePass

------------------------------------------------------------
-- Headers
------------------------------------------------------------

namespace OnePass

namespace Toml

namespace Entries

/-
  Change the table that the names of a header lead to. The
  tables on the way that are not there yet are implied.
-/
def descend
    (change : Entries → Option Entries) :
    List String → Entries → Option Entries
| [], entries => change entries
| name :: path, entries =>
    match entries.lookup name with
    | none => do
        let inner ← descend change path []
        return entries.add name (.table .implied inner)
    | some (.table .inline _) => none
    | some (.table origin inner) => do
        let changed ← descend change path inner
        return entries.replace name (.table origin changed)
    | some (.tables elements) => do
        let changed ←
          changeLast (descend change path) elements
        return entries.replace name changed
    | some _ => none

/- Define a table under its last name. -/
def defineTable
    (key : String)
    (entries : Entries) : Option Entries :=
  match entries.lookup key with
  | none => some (entries.add key (.table .header []))
  | some (.table .implied inner) =>
      some (entries.replace key (.table .header inner))
  | some _ => none

/- Append an empty table to an array of tables. -/
def defineElement
    (key : String)
    (entries : Entries) : Option Entries :=
  match entries.lookup key with
  | none => some (entries.add key (.tables [[]]))
  | some (.tables elements) =>
      some (entries.replace key (.tables (elements ++ [[]])))
  | some _ => none

/- Define the table that a header names. -/
def openTable
    (path : List String)
    (entries : Entries) : Option Entries := do
  let key ← path.getLast?
  descend (defineTable key) path.dropLast entries

/- Append a table to the array that a header names. -/
def openElement
    (path : List String)
    (entries : Entries) : Option Entries := do
  let key ← path.getLast?
  descend (defineElement key) path.dropLast entries

end Entries

end Toml

end OnePass
