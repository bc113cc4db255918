import OnePass.Source.Span
import OnePass.Ty

/-
  Findings about a checked program.

  A check stops at its first finding. All findings but one
  have a place: a span to point at, and the line that the
  one-line form names. The two are kept apart because a
  finding about an assignment is reported on the line where
  the statement ends while it points at the assigned name.

  Key definitions include:
    * `Cause`
    * `Diagnostic`
    * `Diagnostic.message`
    * `Diagnostic.code`
    * `Diagnostic.kind`
-/

------------------------------------------------------------
-- Causes
------------------------------------------------------------

namespace OnePass

/- What is wrong at a place of the program. -/
inductive Cause where
  | lexical
  | malformed
  | undefinedVariable (name : String)
  | undefinedFunction (name : String)
  | redefinition (name : String)
  | typeMismatch
  | prototypeMismatch (name : String) (expected : List Ty)
  | constReassignment (name : String)
  | constWithoutInitializer (name : String)
  | byteOutOfRange (literal : String)
  | unexpectedBreak
  | unexpectedContinue
deriving DecidableEq, Repr

namespace Cause

/- The one-line form, without the line number. -/
def text : Cause → String
| lexical => "lexical error"
| malformed => "syntax error"
| undefinedVariable name =>
    "variable " ++ name ++ " is not defined"
| undefinedFunction name =>
    "function " ++ name ++ " is not defined"
| redefinition name =>
    "identifier " ++ name ++ " is already defined"
| typeMismatch => "type mismatch"
| prototypeMismatch name expected =>
    "prototype mismatch, function " ++ name ++
      " expects arguments " ++ Ty.renderList expected
| constReassignment _ =>
    "trying to assign to a const variable"
| constWithoutInitializer _ =>
    "const variables must be initialized"
| byteOutOfRange literal =>
    "byte value " ++ literal ++ " out of range"
| unexpectedBreak => "unexpected break statement"
| unexpectedContinue => "unexpected continue statement"

/- The name of the class of findings. -/
def kind : Cause → String
| lexical => "LexicalError"
| malformed => "SyntaxError"
| undefinedVariable _ => "UndefinedIdentifier"
| undefinedFunction _ => "UndefinedFunction"
| redefinition _ => "DuplicateOrConflictingDefinition"
| typeMismatch => "TypeMismatch"
| prototypeMismatch _ _ => "PrototypeMismatch"
| constReassignment _ => "ConstReassignment"
| constWithoutInitializer _ => "ConstWithoutInitializer"
| byteOutOfRange _ => "ByteOutOfRange"
| unexpectedBreak => "UnexpectedBreak"
| unexpectedContinue => "UnexpectedContinue"

/- The stable code of the class of findings. -/
def code : Cause → String
| lexical => "fanc::lexer"
| malformed => "fanc::parser"
| undefinedVariable _ =>
    "fanc::semantic::undefined_identifier"
| undefinedFunction _ =>
    "fanc::semantic::undefined_function"
| redefinition _ => "fanc::semantic::redefinition"
| typeMismatch => "fanc::semantic::type_mismatch"
| prototypeMismatch _ _ =>
    "fanc::semantic::prototype_mismatch"
| constReassignment _ =>
    "fanc::semantic::const_reassignment"
| constWithoutInitializer _ =>
    "fanc::semantic::const_without_initializer"
| byteOutOfRange _ => "fanc::semantic::byte_out_of_range"
| unexpectedBreak => "fanc::semantic::unexpected_break"
| unexpectedContinue =>
    "fanc::semantic::unexpected_continue"

/- The words written beside the marked source text. -/
def label : Cause → String
| lexical => "unrecognized input"
| malformed => "unexpected token"
| undefinedVariable _ => "no visible variable with this name"
| undefinedFunction _ => "called here"
| redefinition _ => "conflicting definition"
| typeMismatch => "mismatched type"
| prototypeMismatch _ _ =>
    "arguments do not match the declaration"
| constReassignment _ => "variable is declared const"
| constWithoutInitializer _ => "missing initializer"
| byteOutOfRange _ => "literal too large"
| unexpectedBreak | unexpectedContinue => "not inside a loop"

/- Advice, where there is any. -/
def help : Cause → Option String
| byteOutOfRange _ =>
    some "byte literals must lie in 0..=255"
| _ => none

end Cause

end OnePass

------------------------------------------------------------
-- Diagnostics
------------------------------------------------------------

namespace OnePass

/- The finding that ends a check. -/
inductive Diagnostic where
  /- Something is wrong at a place of the program. -/
  | located (cause : Cause) (line : Nat) (span : Span)
  /- The complete program lacks its entry point. -/
  | missingMain
deriving DecidableEq, Repr

/- A piece of source text to point at, with a remark. -/
structure Label where
  text : String
  span : Span
deriving DecidableEq, Repr

namespace Diagnostic

/- A finding that names the line of the span it points at. -/
def pointAt
    (cause : Cause)
    (span : Span) : Diagnostic :=
  located cause span.line span

/- The one-line form. -/
def message : Diagnostic → String
| located cause line _ =>
    "line " ++ toString line ++ ": " ++ cause.text
| missingMain => "Program has no 'void main()' function"

/- The name of the class of findings. -/
def kind : Diagnostic → String
| located cause _ _ => cause.kind
| missingMain => "MissingMain"

/- The stable code of the class of findings. -/
def code : Diagnostic → String
| located cause _ _ => cause.code
| missingMain => "fanc::semantic::missing_main"

/- Advice, where there is any. -/
def help : Diagnostic → Option String
| located cause _ _ => cause.help
| missingMain => none

/- The line that the one-line form names. -/
def line? : Diagnostic → Option Nat
| located _ line _ => some line
| missingMain => none

/- The source text that the finding points at. -/
def span? : Diagnostic → Option Span
| located _ _ span => some span
| missingMain => none

/- The marked source text: one mark, unless there is no place. -/
def labels : Diagnostic → List Label
| located cause _ span => [⟨cause.label, span⟩]
| missingMain => []

end Diagnostic

end OnePass
