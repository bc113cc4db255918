import OnePass.Proofs.Analysis.Refusal
import OnePass.Proofs.Token.Tiling

/-
  The line that a finding is reported on.

  The one-line form of a finding names the line of the span
  that the finding points at, with one exception: what is
  wrong with the target of an assignment is reported on the
  line where the assignment ends. So the two lines differ
  only if an assignment is spread over several lines.

  Main declarations:
    * `line_of_finding`
-/

namespace OnePass

/-
  The line that a finding names is the line of the span that
  it points at, unless the last event is an assignment whose
  target is not known or is const: it points at the target,
  and names the line where the assignment ends.
-/
theorem line_of_finding
    (source : String)
    {cause : Cause}
    {line : Nat}
    {span : Span}
    (hFinding :
      analyzeText source =
        .error (.finding (.located cause line span))) :
    line = span.line ∨
      ∃ tokens sighting name value statement,
        tokenize source = .ok tokens ∧
          (Analysis.receiver.transcript tokens
              .initial).sightings.getLast? =
              some sighting ∧
            sighting.event =
                .effect (.assignment name value statement) ∧
              (cause = .undefinedVariable name.name ∨
                  cause = .constReassignment name.name) ∧
                line = statement.line ∧ span = name.span := by
  unfold analyzeText at hFinding
  cases hTokens : tokenize source with
  | error lexical =>
      rw [hTokens] at hFinding
      rcases unreadable_of_tokenize hTokens with
        ⟨place, -, -, -, rfl, -⟩
      cases hFinding
      exact .inl rfl
  | ok tokens =>
      rw [hTokens] at hFinding
      simp only [analyze] at hFinding
      split at hFinding
      · cases hFinding
      · next failure final hParse =>
          cases failure with
          | misfit misfit =>
              cases hFinding
              exact .inl rfl
          | refused stop =>
              cases hFinding
              rcases
                  Analysis.exists_refusal_of_refused
                    (congrArg Prod.fst hParse) with
                ⟨sighting, hLast, hRefusal⟩
              cases hRefusal with
              | pointAt => exact .inl rfl
              | assignment hEvent hCause =>
                  exact
                    .inr
                      ⟨tokens, sighting, _, _, _, rfl, hLast,
                        hEvent, hCause, rfl, rfl⟩

/-
  An assignment to an unknown variable: the variable is on
  the second line, and the statement ends on the third.
-/
def spreadAssignment : String :=
  "void main() \x7b\n x =\n 1;\n\x7d"

theorem analyzeText_spreadAssignment :
    analyzeText spreadAssignment =
      .error
        (.finding
          (.located (.undefinedVariable "x") 3
            ⟨15, 16, 2⟩)) := by
  decide +kernel

/- The third line is named, and the second pointed at. -/
theorem spreadAssignment_line_ne :
    ∃ cause line span,
      analyzeText spreadAssignment =
          .error (.finding (.located cause line span)) ∧
        line ≠ span.line :=
  ⟨_, _, _, analyzeText_spreadAssignment, by decide⟩

/- The third line is that of the assignment. -/
theorem spreadAssignment_line_of_statement :
    analyzeText spreadAssignment =
        .error
          (.finding
            (.located (.undefinedVariable "x") 3
              ⟨15, 16, 2⟩)) ∧
      ∃ tokens sighting name value statement,
        tokenize spreadAssignment = .ok tokens ∧
          (Analysis.receiver.transcript tokens
              .initial).sightings.getLast? =
              some sighting ∧
            sighting.event =
                .effect (.assignment name value statement) ∧
              3 = statement.line ∧
                ⟨15, 16, 2⟩ = name.span := by
  refine ⟨analyzeText_spreadAssignment, ?_⟩
  rcases
      line_of_finding spreadAssignment
        analyzeText_spreadAssignment with
    hSame |
      ⟨tokens, sighting, name, value, statement, hTokens,
        hLast, hEvent, -, hLine, hSpan⟩
  · cases hSame
  · exact
      ⟨tokens, sighting, name, value, statement, hTokens,
        hLast, hEvent, hLine, hSpan⟩

end OnePass
