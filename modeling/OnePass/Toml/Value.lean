/-
  Values of a configuration document.

  The format is TOML. A table remembers how it came about,
  because that decides in which ways it may still be
  extended. Numbers with a fraction, dates and times are
  kept as they are written.

  Key definitions include:
    * `Toml.Origin`
    * `Toml.Value`
    * `Toml.Entries`
-/

------------------------------------------------------------
-- Values
------------------------------------------------------------

namespace OnePass

namespace Toml

/- How a table came about. -/
inductive Origin where
  /- It is written in braces, and is complete. -/
  | inline
  /- It has a header of its own. -/
  | header
  /- It only stands on the way to another header. -/
  | implied
  /- It only stands on the way to a dotted key. -/
  | dotted
deriving DecidableEq, Repr

inductive Value where
  | string (text : String)
  | integer (number : Int)
  | float (written : String)
  | boolean (truth : Bool)
  | datetime (written : String)
  /- An array in brackets. -/
  | array (items : List Value)
  | table (origin : Origin) (entries : List (String × Value))
  /- An array of tables, each under a header, in order. -/
  | tables (elements : List (List (String × Value)))
deriving Repr

/- The entries of a table, in the order of their keys. -/
abbrev Entries : Type := List (String × Value)

end Toml

end OnePass
