import Mathlib.Logic.Equiv.Basic
import OnePass.Proofs.Analysis.Correspondence

/-
  The analysis does not depend on the choice of names.

  If the names in a program are changed so that different
  names stay different, the analysis finds the same
  functions under their new names, or the same thing wrong
  at the same place.

  Key definitions include:
    * `Token.rename`
    * `Analysis.Stop.rename`
    * `Renaming.exchange`

  Main declarations:
    * `analyze_rename`
-/

------------------------------------------------------------
-- Programs Under New Names
------------------------------------------------------------

namespace OnePass

/- The token with its new text, if it is a name. -/
def Token.rename
    (names : Renaming)
    (token : Token) : Token :=
  if token.kind = .identifier then
    { token with text := names.apply token.text }
  else
    token

/- The finding about the new name, at the same place. -/
def Diagnostic.rename
    (names : Renaming) : Diagnostic → Diagnostic
| located cause line span =>
    .located (cause.rename names) line span
| missingMain => .missingMain

/- The same stop, with the new name in it. -/
def Analysis.Stop.rename
    (names : Renaming) : Stop → Stop
| finding diagnostic => .finding (diagnostic.rename names)
| fault misuse => .fault (misuse.rename names)

namespace Renaming

variable (names : Renaming)

/- New names, and every place as it was. -/
def inPlace : Analysis.Correspondence where
  toRenaming := names
  Place := Eq
  cover hLeft hRight := congrArg₂ Span.cover hLeft hRight
  afterLast hPlace := by
    cases hPlace
    rfl
  noToken := rfl

/- A program corresponds to itself under new names. -/
theorem tokens_inPlace
    (tokens : List Token) :
    names.inPlace.Tokens tokens
      (tokens.map (·.rename names)) := by
  induction tokens with
  | nil => exact .nil
  | cons token tokens ih =>
      rw [List.map_cons]
      by_cases hName : token.kind = .identifier
      · have hRenamed :
            token.rename names =
              { token with
                text := names.apply token.text } :=
          if_pos hName
        rw [hRenamed]
        refine .cons rfl rfl (fun _ => rfl) ?_ ih
        intro hNumber
        rw [hName] at hNumber
        cases hNumber
      · have hRenamed : token.rename names = token :=
          if_neg hName
        rw [hRenamed]
        refine .cons rfl rfl ?_ (fun _ _ => rfl) ih
        intro hIdentifier
        exact absurd hIdentifier hName

/- Where places are kept, the new name is all that changes. -/
theorem eq_rename_of_stops
    {stop stop' : Analysis.Stop}
    (hStops : names.inPlace.Stops stop stop') :
    stop' = stop.rename names := by
  cases hStops with
  | located hLine hSpan =>
      cases hLine
      cases hSpan
      rfl
  | missingMain => rfl
  | fault => rfl

end Renaming

/-
  To change the names in a program is to change the names in
  the result of its analysis.
-/
theorem analyze_rename
    (names : Renaming)
    (tokens : List Token) :
    analyze (tokens.map (·.rename names)) =
      match analyze tokens with
      | .ok signatures =>
          .ok (signatures.map (·.rename names))
      | .error stop => .error (stop.rename names) := by
  have hConcur :=
    Analysis.Correspondence.concur_analyze
      (names.tokens_inPlace tokens)
  generalize analyze (tokens.map (·.rename names)) = renamed
    at hConcur ⊢
  generalize analyze tokens = original at hConcur ⊢
  cases hConcur with
  | ok hSignatures =>
      rw [hSignatures]
      rfl
  | error hStops =>
      rw [names.eq_rename_of_stops hStops]

end OnePass

------------------------------------------------------------
-- Exchanged Names
------------------------------------------------------------

namespace OnePass

/- Two names are exchanged, and all others are kept. -/
def Renaming.exchange
    (first second : String)
    (hKept :
      ∀ name ∈ ["main", "print", "printi"],
        name ≠ first ∧ name ≠ second) : Renaming where
  apply := Equiv.swap first second
  injective := (Equiv.swap first second).injective
  entryPoint := by
    have hMain := hKept "main" (by decide)
    exact Equiv.swap_apply_of_ne_of_ne hMain.1 hMain.2
  library signature hSignature := by
    have hNames :
        signature.name ∈ ["main", "print", "printi"] := by
      apply List.mem_cons_of_mem
      exact List.mem_map_of_mem (f := (·.name)) hSignature
    have hName := hKept signature.name hNames
    exact Equiv.swap_apply_of_ne_of_ne hName.1 hName.2

/-
  With `f` and `g` exchanged, the analysis of
  `void f(int g) { return; } void main() { f(true); }`
  finds the same mismatch in the call of `g`.
-/
theorem analyze_exchanged :
    analyze
        (List.map
          (Token.rename
            (.exchange "f" "g" (by decide)))
          [⟨.kwVoid, "void", ⟨0, 4, 1⟩⟩,
            ⟨.identifier, "f", ⟨5, 6, 1⟩⟩,
            ⟨.leftParen, "(", ⟨6, 7, 1⟩⟩,
            ⟨.kwInt, "int", ⟨7, 10, 1⟩⟩,
            ⟨.identifier, "g", ⟨11, 12, 1⟩⟩,
            ⟨.rightParen, ")", ⟨12, 13, 1⟩⟩,
            ⟨.leftBrace, "\x7b", ⟨14, 15, 1⟩⟩,
            ⟨.kwReturn, "return", ⟨16, 22, 1⟩⟩,
            ⟨.semicolon, ";", ⟨22, 23, 1⟩⟩,
            ⟨.rightBrace, "\x7d", ⟨24, 25, 1⟩⟩,
            ⟨.kwVoid, "void", ⟨26, 30, 2⟩⟩,
            ⟨.identifier, "main", ⟨31, 35, 2⟩⟩,
            ⟨.leftParen, "(", ⟨35, 36, 2⟩⟩,
            ⟨.rightParen, ")", ⟨36, 37, 2⟩⟩,
            ⟨.leftBrace, "\x7b", ⟨38, 39, 2⟩⟩,
            ⟨.identifier, "f", ⟨40, 41, 2⟩⟩,
            ⟨.leftParen, "(", ⟨41, 42, 2⟩⟩,
            ⟨.kwTrue, "true", ⟨42, 46, 2⟩⟩,
            ⟨.rightParen, ")", ⟨46, 47, 2⟩⟩,
            ⟨.semicolon, ";", ⟨47, 48, 2⟩⟩,
            ⟨.rightBrace, "\x7d", ⟨49, 50, 2⟩⟩]) =
      .error
        (.finding
          (.located (.prototypeMismatch "g" [.int]) 2
            ⟨40, 47, 2⟩)) := by
  rw [analyze_rename]
  rfl

end OnePass
