import OnePass.Symbols.Signature

/-
  The table of functions.

  Functions are kept in the order of their declaration and
  are never removed or declared again. The library functions
  come first. An index leads from a name to the position of
  its signature.

  Key definitions include:
    * `Functions`
    * `Functions.withLibrary`
    * `Functions.declare`
    * `Functions.get?`
    * `Functions.declared`
-/

------------------------------------------------------------
-- Function Tables
------------------------------------------------------------

namespace OnePass

structure Functions where
  /- All functions, in order of declaration. -/
  signatures : List Signature
  /- The position of each name, the newest first. -/
  index : List (String × Nat)
  /- How many functions belong to the library. -/
  libraryCount : Nat
deriving DecidableEq, Repr

namespace Functions

/- The table without any function. -/
def empty : Functions where
  signatures := []
  index := []
  libraryCount := 0

/- A function of this name is declared. -/
def contains
    (table : Functions)
    (name : String) : Bool :=
  (table.index.lookup name).isSome

/- The function of this name. -/
def get?
    (table : Functions)
    (name : String) : Option Signature := do
  let position ← table.index.lookup name
  table.signatures[position]?

/- Append a function to the table, whatever its name. -/
def append
    (table : Functions)
    (signature : Signature) : Functions where
  signatures := table.signatures ++ [signature]
  index :=
    (signature.name, table.signatures.length) :: table.index
  libraryCount := table.libraryCount

/- Declare a function whose name is not in use. -/
def declare
    (table : Functions)
    (signature : Signature) : Except Fault Functions :=
  if table.contains signature.name then
    .error (.functionRedeclared signature.name)
  else
    .ok (table.append signature)

/- The declared functions without those of the library. -/
def declared (table : Functions) : List Signature :=
  table.signatures.drop table.libraryCount

end Functions

end OnePass

------------------------------------------------------------
-- The Library
------------------------------------------------------------

namespace OnePass

namespace Functions

/- The functions that every program may call. -/
def library : List Signature :=
  [⟨"print", .void, [.string]⟩, ⟨"printi", .void, [.int]⟩]

/- The table of a program that has no function yet. -/
def withLibrary : Functions :=
  { library.foldl append empty with
    libraryCount := library.length }

end Functions

end OnePass
