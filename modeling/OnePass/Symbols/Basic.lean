import OnePass.Diagnostic
import OnePass.Symbols.Functions

/-
  Variables in scope, functions, and the function at hand.

  Variables live in nested scopes. A name that is visible in
  any open scope cannot be declared again, so there is at
  most one visible variable of each name. The outer scope is
  a field of its own, so that it can never be closed.
  Functions have names of their own, in a flat table.

  Key definitions include:
    * `Binding`
    * `Symbols`
    * `Symbols.visible`
    * `Symbols.lookup`
    * `Symbols.declareVariable`
    * `Symbols.Operation`
-/

------------------------------------------------------------
-- Symbol Tables
------------------------------------------------------------

namespace OnePass

/- A variable or a formal parameter. -/
structure Binding where
  name : String
  ty : Ty
  isConst : Bool
deriving DecidableEq, Repr

/- The variables of one scope, the newest first. -/
abbrev Scope : Type := List Binding

structure Symbols where
  /- The open scopes inside the outer one, innermost first. -/
  blocks : List Scope
  /- The scope that is always open. -/
  outer : Scope
  functions : Functions
  /- The function whose body is being read. -/
  current? : Option Signature
deriving DecidableEq, Repr

namespace Symbols

/- No variable, the library functions, no function at hand. -/
def initial : Symbols where
  blocks := []
  outer := []
  functions := .withLibrary
  current? := none

/- Number of open scopes inside the outer one. -/
def depth (table : Symbols) : Nat :=
  table.blocks.length

end Symbols

end OnePass

------------------------------------------------------------
-- Scopes
------------------------------------------------------------

namespace OnePass

namespace Symbols

/- Open a scope. -/
def openScope (table : Symbols) : Symbols :=
  { table with blocks := [] :: table.blocks }

/- Close the innermost scope and forget its variables. -/
def closeScope
    (table : Symbols) : Except Fault Symbols :=
  match table.blocks with
  | [] => .error .outerScopeClosed
  | _ :: blocks => .ok { table with blocks }

end Symbols

end OnePass

------------------------------------------------------------
-- Variables
------------------------------------------------------------

namespace OnePass

namespace Symbols

/- All visible variables, innermost and newest first. -/
def visible (table : Symbols) : List Binding :=
  table.blocks.flatten ++ table.outer

/- The visible variable of this name. -/
def lookup
    (table : Symbols)
    (name : String) : Option Binding :=
  table.visible.find? (·.name = name)

/- A variable of this name is visible. -/
def isVisible
    (table : Symbols)
    (name : String) : Bool :=
  (table.lookup name).isSome

/-
  No variable of this name is visible. Functions do not
  matter here.
-/
def isFree
    (table : Symbols)
    (name : String) : Bool :=
  (table.lookup name).isNone

/- The visible variable of this name is const. -/
def isConst
    (table : Symbols)
    (name : String) : Bool :=
  (table.lookup name).any Binding.isConst

/- The type of the visible variable of this name. -/
def typeOf?
    (table : Symbols)
    (name : String) : Option Ty :=
  (table.lookup name).map Binding.ty

/- The type of a variable that is used as a value. -/
def valueType
    (table : Symbols)
    (name : String)
    (span : Span) : Except Diagnostic Ty :=
  match table.lookup name with
  | some binding => .ok binding.ty
  | none => .error (.pointAt (.undefinedVariable name) span)

/- Add a variable to the innermost scope. -/
def bind
    (table : Symbols)
    (binding : Binding) : Symbols :=
  match table.blocks with
  | [] => { table with outer := binding :: table.outer }
  | scope :: blocks =>
      { table with blocks := (binding :: scope) :: blocks }

/- Declare a variable whose name is not visible. -/
def declareVariable
    (table : Symbols)
    (binding : Binding) : Except Fault Symbols :=
  if table.isFree binding.name then
    .ok (table.bind binding)
  else
    .error (.variableVisible binding.name)

end Symbols

end OnePass

------------------------------------------------------------
-- Functions
------------------------------------------------------------

namespace OnePass

namespace Symbols

/- A function of this name is declared. -/
def isFunction
    (table : Symbols)
    (name : String) : Bool :=
  table.functions.contains name

/- The function of this name. -/
def signature?
    (table : Symbols)
    (name : String) : Option Signature :=
  table.functions.get? name

/- What the function of this name returns. -/
def returnType?
    (table : Symbols)
    (name : String) : Option Ty :=
  (table.signature? name).map Signature.returns

/- Declare a function whose name is not in use. -/
def declareFunction
    (table : Symbols)
    (signature : Signature) : Except Fault Symbols := do
  let functions ← table.functions.declare signature
  return { table with functions }

/- The body of a function is about to be read. -/
def enter
    (table : Symbols)
    (signature : Signature) : Symbols :=
  { table with current? := some signature }

/- No body of a function is being read. -/
def leave (table : Symbols) : Symbols :=
  { table with current? := none }

end Symbols

end OnePass

------------------------------------------------------------
-- Histories
------------------------------------------------------------

namespace OnePass

namespace Symbols

/- A change of a symbol table. -/
inductive Operation where
  | openScope
  | closeScope
  | declareVariable (binding : Binding)
  | declareFunction (signature : Signature)
  | enter (signature : Signature)
  | leave
deriving DecidableEq, Repr

/- Carry out one change. -/
def apply
    (table : Symbols) :
    Operation → Except Fault Symbols
| .openScope => .ok table.openScope
| .closeScope => table.closeScope
| .declareVariable binding => table.declareVariable binding
| .declareFunction signature =>
    table.declareFunction signature
| .enter signature =>
    .ok (table.enter signature)
| .leave => .ok table.leave

/- Carry out changes one after the other. -/
def applyAll
    (table : Symbols)
    (operations : List Operation) :
    Except Fault Symbols :=
  operations.foldlM apply table

end Symbols

end OnePass
