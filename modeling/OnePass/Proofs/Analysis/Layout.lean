import OnePass.Proofs.Analysis.Correspondence

/-
  The analysis does not depend on the layout of a program.

  What the analysis reads of a program are the kinds of its
  tokens, the names, and the digits of bytes. Two programs
  that have these in common declare the same functions, or
  the same thing is wrong with both, wherever their tokens
  stand and however the other tokens are written.

  Key definitions include:
    * `outline`
    * `Analysis.Stop.unplaced`

  Main declarations:
    * `analyze_eq_of_outline_eq`
-/

------------------------------------------------------------
-- Outlines
------------------------------------------------------------

namespace OnePass

open Grammar (headKind)

/-
  The text of the token is read: it is a name, or the digits
  of a byte.
-/
def textMatters
    (token : Token)
    (rest : List Token) : Bool :=
  token.kind = .identifier ||
    (token.kind = .number &&
      headKind rest = some .byteSuffix)

/- The kinds of tokens, with the texts that are read. -/
def outline : List Token → List (Kind × Option String)
| [] => []
| token :: rest =>
    (token.kind,
      if textMatters token rest then
        some token.text
      else
        none) :: outline rest

/- The first kinds of equal outlines are equal. -/
theorem headKind_eq_of_outline_eq
    {left right : List Token}
    (hOutlines : outline left = outline right) :
    headKind left = headKind right := by
  cases left with
  | nil =>
      cases right with
      | nil => rfl
      | cons second rights => cases hOutlines
  | cons first lefts =>
      cases right with
      | nil => cases hOutlines
      | cons second rights =>
          have hKinds := (List.cons.inj hOutlines).1
          have hKind : first.kind = second.kind :=
            (Prod.mk.inj hKinds).1
          exact congrArg some hKind

/- A text that is read in one program is read in the other. -/
theorem text_eq_of_outline_eq
    {left right : Token}
    {lefts rights : List Token}
    (hOutlines :
      outline (left :: lefts) = outline (right :: rights))
    (hMatters : textMatters left lefts = true) :
    left.text = right.text := by
  obtain ⟨hFirst, hRest⟩ := List.cons.inj hOutlines
  obtain ⟨hKind, hText⟩ := Prod.mk.inj hFirst
  have hSame :
      textMatters right rights = textMatters left lefts := by
    unfold textMatters
    rw [hKind, headKind_eq_of_outline_eq hRest]
  rw [hSame, if_pos hMatters, if_pos hMatters] at hText
  exact Option.some.inj hText

end OnePass

------------------------------------------------------------
-- Programs Of The Same Outline
------------------------------------------------------------

namespace OnePass

/- What is wrong, at no place. -/
def Diagnostic.unplaced : Diagnostic → Diagnostic
| located cause _ _ => .pointAt cause .blank
| missingMain => .missingMain

/- Why an analysis stops, but not where. -/
def Analysis.Stop.unplaced : Stop → Stop
| finding diagnostic => .finding diagnostic.unplaced
| fault misuse => .fault misuse

namespace Analysis

/- The same names, and places that have nothing in common. -/
def Correspondence.anywhere : Correspondence where
  toRenaming := .identity
  Place _ _ := True
  cover _ _ := trivial
  afterLast _ := trivial
  noToken := trivial

open Correspondence (anywhere)

/- Programs of the same outline correspond. -/
theorem tokens_of_outline_eq
    {left right : List Token}
    (hOutlines : outline left = outline right) :
    anywhere.Tokens left right := by
  induction left generalizing right with
  | nil =>
      cases right with
      | nil => exact .nil
      | cons second rights => cases hOutlines
  | cons first lefts ih =>
      cases right with
      | nil => cases hOutlines
      | cons second rights =>
          obtain ⟨hFirst, hRest⟩ := List.cons.inj hOutlines
          have hKind : first.kind = second.kind :=
            (Prod.mk.inj hFirst).1
          refine .cons hKind trivial ?_ ?_ (ih hRest)
          · intro hName
            have hMatters : textMatters first lefts = true := by
              simp [textMatters, hName]
            exact
              (text_eq_of_outline_eq hOutlines hMatters).symm
          · intro hNumber hSuffix
            have hMatters : textMatters first lefts = true := by
              simp [textMatters, hNumber, hSuffix]
            exact text_eq_of_outline_eq hOutlines hMatters

/- Without the places, corresponding stops are the same. -/
theorem unplaced_eq_of_stops
    {stop stop' : Stop}
    (hStops : anywhere.Stops stop stop') :
    stop.unplaced = stop'.unplaced := by
  cases hStops with
  | @located cause place place' span span' hLine hSpan =>
      cases cause with
      | _ => rfl
  | missingMain => rfl
  | @fault fault =>
      cases fault with
      | _ => rfl

end Analysis

/-
  The outline of a program decides what it declares or what
  is wrong with it.
-/
theorem analyze_eq_of_outline_eq
    (left right : List Token)
    (hOutlines : outline left = outline right) :
    (analyze left).mapError Analysis.Stop.unplaced =
      (analyze right).mapError Analysis.Stop.unplaced := by
  have hConcur :=
    Analysis.Correspondence.concur_analyze
      (Analysis.tokens_of_outline_eq hOutlines)
  generalize analyze left = first at hConcur ⊢
  generalize analyze right = second at hConcur ⊢
  cases hConcur with
  | ok hSignatures =>
      rw [hSignatures]
      exact congrArg Except.ok (List.map_id _).symm
  | error hStops =>
      exact
        congrArg Except.error
          (Analysis.unplaced_eq_of_stops hStops)

/-
  The program `void main() { printi(1b, x); }` with every
  token on a line of its own, and the words and symbols in
  it written as `?`, does not know `x` either.
-/
theorem analyze_spread :
    (analyze
          [⟨.kwVoid, "?", ⟨0, 1, 1⟩⟩,
            ⟨.identifier, "main", ⟨2, 6, 2⟩⟩,
            ⟨.leftParen, "?", ⟨7, 8, 3⟩⟩,
            ⟨.rightParen, "?", ⟨9, 10, 4⟩⟩,
            ⟨.leftBrace, "?", ⟨11, 12, 5⟩⟩,
            ⟨.identifier, "printi", ⟨13, 19, 6⟩⟩,
            ⟨.leftParen, "?", ⟨20, 21, 7⟩⟩,
            ⟨.number, "1", ⟨22, 23, 8⟩⟩,
            ⟨.byteSuffix, "?", ⟨24, 25, 9⟩⟩,
            ⟨.comma, "?", ⟨26, 27, 10⟩⟩,
            ⟨.identifier, "x", ⟨28, 29, 11⟩⟩,
            ⟨.rightParen, "?", ⟨30, 31, 12⟩⟩,
            ⟨.semicolon, "?", ⟨32, 33, 13⟩⟩,
            ⟨.rightBrace, "?", ⟨34, 35, 14⟩⟩]).mapError
        Analysis.Stop.unplaced =
      .error
        (.finding
          (.located (.undefinedVariable "x") 0 .blank)) := by
  rw [analyze_eq_of_outline_eq _
    [⟨.kwVoid, "void", ⟨0, 4, 1⟩⟩,
      ⟨.identifier, "main", ⟨5, 9, 1⟩⟩,
      ⟨.leftParen, "(", ⟨9, 10, 1⟩⟩,
      ⟨.rightParen, ")", ⟨10, 11, 1⟩⟩,
      ⟨.leftBrace, "\x7b", ⟨12, 13, 1⟩⟩,
      ⟨.identifier, "printi", ⟨14, 20, 1⟩⟩,
      ⟨.leftParen, "(", ⟨20, 21, 1⟩⟩,
      ⟨.number, "1", ⟨21, 22, 1⟩⟩,
      ⟨.byteSuffix, "b", ⟨22, 23, 1⟩⟩,
      ⟨.comma, ",", ⟨23, 24, 1⟩⟩,
      ⟨.identifier, "x", ⟨25, 26, 1⟩⟩,
      ⟨.rightParen, ")", ⟨26, 27, 1⟩⟩,
      ⟨.semicolon, ";", ⟨27, 28, 1⟩⟩,
      ⟨.rightBrace, "\x7d", ⟨29, 30, 1⟩⟩]
    (by decide)]
  rfl

end OnePass
