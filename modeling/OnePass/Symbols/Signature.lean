import OnePass.Ty

/-
  Function signatures.

  Key definitions include:
    * `Signature`
    * `Signature.render`
    * `Signature.isEntryPoint`
-/

------------------------------------------------------------
-- Signatures
------------------------------------------------------------

namespace OnePass

/- The name and the prototype of a function. -/
structure Signature where
  name : String
  returns : Ty
  parameters : List Ty
deriving DecidableEq, Repr

namespace Signature

/- The form shown in summaries, as in `f (INT,BYTE)->VOID`. -/
def render (signature : Signature) : String :=
  signature.name ++ " " ++
    Ty.renderList signature.parameters ++ "->" ++
    signature.returns.name

/- The function at which a program starts. -/
def entryPoint : Signature where
  name := "main"
  returns := .void
  parameters := []

/- This is the function at which a program starts. -/
def isEntryPoint (signature : Signature) : Bool :=
  signature = entryPoint

end Signature

end OnePass
