import OnePass.Analysis.State
import OnePass.Event

/-
  The effects of statements and declarations.

  Each event is checked against the state and, if nothing is
  wrong, yields the next state. All checks of an event come
  before its effects.

  Key definitions include:
    * `Analysis.declareFunction`
    * `Analysis.declare`
    * `Analysis.assign`
    * `Analysis.step`
-/

------------------------------------------------------------
-- Functions
------------------------------------------------------------

namespace OnePass

namespace Analysis

/-
  A function name is new among functions, and no variable of
  that name is visible.
-/
def requireNewFunction
    (state : State)
    (name : Identifier) : Except Stop Unit :=
  if state.symbols.isFunction name.name ||
      !state.symbols.isFree name.name then
    reject (.redefinition name.name) name.span
  else
    .ok ()

/-
  The first formal, from the left, whose name is taken or
  was used by an earlier formal.
-/
def firstConflict?
    (taken : String → Bool) :
    List Formal → Option Identifier
| [] => none
| formal :: formals =>
    if taken formal.name.name then
      some formal.name
    else
      firstConflict?
        (fun name => name = formal.name.name || taken name)
        formals

/- The signature that a declaration states. -/
def signatureOf
    (returns : Ty)
    (name : Identifier)
    (formals : List Formal) : Signature where
  name := name.name
  returns := returns
  parameters := formals.map Formal.ty

/- Declare the formals of a function. -/
def bindFormals
    (symbols : Symbols)
    (formals : List Formal) : Except Fault Symbols :=
  formals.foldlM
    (fun symbols formal =>
      symbols.declareVariable
        ⟨formal.name.name, formal.ty, formal.isConst⟩)
    symbols

/-
  Declare a function, enter its body and open the scope of
  its formals. A formal may not have the name of the
  function, of a visible variable or of an earlier formal.
-/
def declareFunction
    (state : State)
    (returns : Ty)
    (name : Identifier)
    (formals : List Formal) : Except Stop State :=
  let taken := fun candidate =>
    candidate = name.name ||
      !state.symbols.isFree candidate
  match firstConflict? taken formals with
  | some formal =>
      reject (.redefinition formal.name) formal.span
  | none => do
      let signature := signatureOf returns name formals
      let known ←
        guarded (state.symbols.declareFunction signature)
      let inside := (known.enter signature).openScope
      let symbols ← guarded (bindFormals inside formals)
      return { state with symbols }

/- Close the scope of the formals and leave the body. -/
def closeFunction (state : State) : Except Stop State := do
  let outside ← guarded state.symbols.closeScope
  return { state with symbols := outside.leave }

end Analysis

end OnePass

------------------------------------------------------------
-- Scopes And Loops
------------------------------------------------------------

namespace OnePass

namespace Analysis

/- Close the innermost scope. -/
def closeScope (state : State) : Except Stop State := do
  return { state with symbols := ← guarded state.symbols.closeScope }

/- The innermost loop body is complete. -/
def closeLoop (state : State) : Except Stop State :=
  match state.loops with
  | 0 => .error (.fault .noOpenLoop)
  | loops + 1 => .ok { state with loops }

/- A jump that only makes sense inside a loop. -/
def requireLoop
    (state : State)
    (cause : Cause)
    (span : Span) : Except Stop Unit :=
  if state.loops = 0 then
    reject cause span
  else
    .ok ()

end Analysis

end OnePass

------------------------------------------------------------
-- Variables
------------------------------------------------------------

namespace OnePass

namespace Analysis

/- A variable name is not visible yet. -/
def requireFree
    (state : State)
    (name : Identifier) : Except Stop Unit :=
  if state.symbols.isFree name.name then
    .ok ()
  else
    reject (.redefinition name.name) name.span

/- The first value of a variable fits, and a const has one. -/
def requireInitializer
    (isConst : Bool)
    (ty : Ty)
    (name : Identifier)
    (initializer : Option (Typed Ty))
    (span : Span) : Except Stop Unit :=
  match initializer with
  | some value => requireCast value.ty ty span
  | none =>
      if isConst then
        reject (.constWithoutInitializer name.name) span
      else
        .ok ()

/- Declare a variable in the innermost scope. -/
def declare
    (state : State)
    (isConst : Bool)
    (ty : Ty)
    (name : Identifier)
    (initializer : Option (Typed Ty))
    (span : Span) : Except Stop State := do
  requireInitializer isConst ty name initializer span
  let symbols ←
    guarded
      (state.symbols.declareVariable ⟨name.name, ty, isConst⟩)
  return { state with symbols }

/-
  A variable is visible, is not const, and may hold the new
  value. The first two findings point at the name, on the
  line where the statement ends.
-/
def assign
    (state : State)
    (name : Identifier)
    (value : Typed Ty)
    (span : Span) : Except Stop Unit :=
  match state.symbols.lookup name.name with
  | none =>
      .error (.finding
        (.located (.undefinedVariable name.name)
          span.line name.span))
  | some binding =>
      if binding.isConst then
        .error (.finding
          (.located (.constReassignment name.name)
            span.line name.span))
      else
        requireCast value.ty binding.ty span

end Analysis

end OnePass

------------------------------------------------------------
-- Returns
------------------------------------------------------------

namespace OnePass

namespace Analysis

/- What the function at hand returns. -/
def returnType
    (state : State)
    (span : Span) : Except Stop Ty :=
  match state.current? with
  | some signature => .ok signature.returns
  | none => reject .typeMismatch span

/- A function without a result returns. -/
def returnVoid
    (state : State)
    (span : Span) : Except Stop Unit := do
  if (← returnType state span) = .void then
    return ()
  else
    reject .typeMismatch span

/- A function with a result returns a value. -/
def returnValue
    (state : State)
    (value : Typed Ty)
    (span : Span) : Except Stop Unit := do
  let returns ← returnType state span
  if returns.isVoid || value.ty.isVoid then
    reject .typeMismatch span
  else
    requireCast value.ty returns span

end Analysis

end OnePass

------------------------------------------------------------
-- Events
------------------------------------------------------------

namespace OnePass

namespace Analysis

/- The function at which a program starts is declared. -/
def requireEntryPoint (state : State) : Except Stop Unit :=
  let main? :=
    state.symbols.signature? Signature.entryPoint.name
  if main?.any Signature.isEntryPoint then
    .ok ()
  else
    .error (.finding .missingMain)

/- The state after an event. -/
def step
    (state : State) :
    EffectEvent Ty → Except Stop State
| .functionHeader _ name => do
    requireNewFunction state name
    return state
| .functionSignature returns name formals =>
    declareFunction state returns name formals
| .functionEnd _ => closeFunction state
| .openScope =>
    .ok { state with symbols := state.symbols.openScope }
| .closeScope => closeScope state
| .openLoop => .ok { state with loops := state.loops + 1 }
| .closeLoop => closeLoop state
| .condition value => do
    requireCast value.ty .bool value.span
    return state
| .declarationStart _ _ name => do
    requireFree state name
    return state
| .declaration isConst ty name initializer span =>
    declare state isConst ty name initializer span
| .assignment name value span => do
    assign state name value span
    return state
| .returnVoid span => do
    returnVoid state span
    return state
| .returnValue value span => do
    returnValue state value span
    return state
| .breakStatement span => do
    requireLoop state .unexpectedBreak span
    return state
| .continueStatement span => do
    requireLoop state .unexpectedContinue span
    return state
| .programEnd => do
    requireEntryPoint state
    return state

end Analysis

end OnePass
