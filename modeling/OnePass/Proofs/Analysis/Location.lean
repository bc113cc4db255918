import OnePass.Proofs.Analysis.Correspondence
import OnePass.Proofs.Token.Tiling

/-
  Where findings point.

  A token does not go past the end of its line, so the line
  that it is on is also the line that it ends on. This is
  kept when the extents of parts are put together, and so
  every finding points into the source, from one character
  to another, and its span names the line that it ends on.

  Main declarations:
    * `Kind.feed_notMem_pattern`
    * `Span.LiesIn`
    * `Analysis.Correspondence.within`
    * `finding_lies_in_source`
-/

------------------------------------------------------------
-- Tokens On One Line
------------------------------------------------------------

namespace OnePass

open Pattern
open scoped Computability

/- No token goes past the end of its line. -/
theorem Kind.feed_notMem_pattern
    {kind : Kind}
    {text : List Char}
    (hText : text ∈ kind.pattern) :
    '\n' ∉ text := by
  rcases kind.mem_fixed_or_class with
    hFixed | rfl | rfl | rfl
  · have hLines :
        ∀ kind ∈ Kind.fixed, '\n' ∉ kind.text.toList := by
      decide
    rw [(Kind.mem_pattern_of_fixed hFixed).mp hText]
    exact hLines kind hFixed
  · rcases hText with
      ⟨_, ⟨first, hFirst, rfl⟩, rest, hRest, rfl⟩
    intro hFeed
    rcases List.mem_cons.mp hFeed with rfl | hFeed
    · cases hFirst
    · cases mem_run_iff.mp hRest _ hFeed
  · rcases hText with
      hZero | ⟨_, ⟨first, hFirst, rfl⟩, rest, hRest, rfl⟩
    · rw [mem_singleton_iff.mp hZero]
      decide
    · intro hFeed
      rcases List.mem_cons.mp hFeed with rfl | hFeed
      · cases hFirst
      · cases mem_run_iff.mp hRest _ hFeed
  · have hStar : item * item∗ ≤ item∗ := mul_kstar_le_kstar
    rcases hText with
      ⟨_, rfl, _, ⟨items, hItems, _, rfl, rfl⟩, rfl⟩
    have hFeed := feed_notMem_items (hStar hItems)
    simp [hFeed]

end OnePass

------------------------------------------------------------
-- Spans In A Source
------------------------------------------------------------

namespace OnePass

theorem utf8ByteSize_eq_byteLength
    (text : List Char) :
    (String.ofList text).utf8ByteSize = byteLength text := by
  induction text with
  | nil => rfl
  | cons char text ih =>
      simp [byteLength, String.ofList_cons, ih]

/-
  A span goes from one character of a source to another that
  does not come before it, and names the line it ends on.
-/
structure Span.LiesIn
    (span : Span)
    (source : String) : Prop where
  start_le_stop : span.start ≤ span.stop
  start_valid :
    String.Pos.Raw.IsValid source ⟨span.start⟩
  line_of_stop :
    ∃ before after : String,
      source = before ++ after ∧
        before.utf8ByteSize = span.stop ∧
          span.line = before.toList.count '\n' + 1

namespace Span

variable {source : String}
variable {left right span : Span}

namespace LiesIn

theorem stop_valid
    (hSpan : span.LiesIn source) :
    String.Pos.Raw.IsValid source ⟨span.stop⟩ := by
  rcases hSpan.line_of_stop with
    ⟨before, after, hSource, hStop, -⟩
  rw [String.Pos.Raw.isValid_iff_exists_append]
  refine ⟨before, after, hSource, ?_⟩
  rw [← hStop]
  rfl

theorem stop_le
    (hSpan : span.LiesIn source) :
    span.stop ≤ source.utf8ByteSize := by
  rcases hSpan.line_of_stop with
    ⟨before, after, hSource, hStop, -⟩
  rw [hSource, String.utf8ByteSize_append, hStop]
  exact Nat.le_add_right _ _

/- The extent of two parts. -/
theorem cover
    (hLeft : left.LiesIn source)
    (hRight : right.LiesIn source) :
    (left.cover right).LiesIn source := by
  have hLeftOrder := hLeft.start_le_stop
  have hRightOrder := hRight.start_le_stop
  constructor
  · simp only [Span.cover]
    omega
  · simp only [Span.cover]
    rcases Nat.le_total left.start right.start with
      hFirst | hFirst
    · rw [Nat.min_eq_left hFirst]
      exact hLeft.start_valid
    · rw [Nat.min_eq_right hFirst]
      exact hRight.start_valid
  · simp only [Span.cover]
    by_cases hLast : left.stop ≤ right.stop
    · rw [Nat.max_eq_right hLast, if_pos hLast]
      exact hRight.line_of_stop
    · rw [Nat.max_eq_left (by omega), if_neg hLast]
      exact hLeft.line_of_stop

/- The place just after a span. -/
theorem afterLast
    (hSpan : span.LiesIn source) :
    (⟨span.stop, span.stop, span.line⟩ : Span).LiesIn
      source :=
  ⟨Nat.le_refl _, hSpan.stop_valid, hSpan.line_of_stop⟩

/- The place of the first character. -/
theorem noToken :
    (⟨0, 0, 1⟩ : Span).LiesIn source :=
  ⟨Nat.le_refl _, String.Pos.Raw.isValid_zero,
    "", source, by simp, rfl, rfl⟩

end LiesIn

/- A text that is on one line lies in the source. -/
theorem liesIn_of_text
    {before text after : List Char}
    (hSource : source.toList = before ++ text ++ after)
    (hText : '\n' ∉ text)
    (hStart : span.start = byteLength before)
    (hStop : span.stop = byteLength (before ++ text))
    (hLine : span.line = before.count '\n' + 1) :
    span.LiesIn source := by
  have hAll :
      source =
        String.ofList (before ++ text) ++
          String.ofList after := by
    rw [← String.ofList_append, ← hSource,
      String.ofList_toList]
  constructor
  · rw [hStart, hStop, byteLength_append]
    exact Nat.le_add_right _ _
  · rw [String.Pos.Raw.isValid_iff_exists_append]
    refine
      ⟨String.ofList before, String.ofList (text ++ after),
        ?_, ?_⟩
    · rw [hAll, ← String.ofList_append,
        ← String.ofList_append, List.append_assoc]
    · rw [hStart, ← utf8ByteSize_eq_byteLength]
      rfl
  · refine
      ⟨String.ofList (before ++ text), String.ofList after,
        hAll, ?_, ?_⟩
    · rw [hStop, utf8ByteSize_eq_byteLength]
    · rw [hLine, String.toList_ofList, List.count_append,
        List.count_eq_zero.mpr hText, Nat.add_zero]

end Span

/- Every token of a source lies in it. -/
theorem Tiling.liesIn
    {source : String}
    {tokens : List Token}
    (hTiling : Tiling source.toList tokens) :
    ∀ token ∈ tokens, token.span.LiesIn source := by
  intro token hToken
  rcases hTiling.placed token hToken with
    ⟨before, after, hSource, hStands⟩
  exact
    Span.liesIn_of_text hSource
      (Kind.feed_notMem_pattern hStands.wins.1)
      hStands.start hStands.stop hStands.line

end OnePass

------------------------------------------------------------
-- Places Of Findings
------------------------------------------------------------

namespace OnePass

namespace Analysis

namespace Correspondence

/- The same names, at places that lie in a source. -/
def within (source : String) : Correspondence where
  toRenaming := .identity
  Place span _ := span.LiesIn source
  cover := Span.LiesIn.cover
  afterLast := Span.LiesIn.afterLast
  noToken := Span.LiesIn.noToken

variable {source : String}

theorem tokens_within
    {tokens : List Token}
    (hTokens : ∀ token ∈ tokens, token.span.LiesIn source) :
    (within source).Tokens tokens tokens := by
  induction tokens with
  | nil => exact .nil
  | cons token tokens ih =>
      rcases List.forall_mem_cons.mp hTokens with
        ⟨hToken, hRest⟩
      exact
        .cons rfl hToken (fun _ => rfl) (fun _ _ => rfl)
          (ih hRest)

/- What an analysis stops at lies in the source. -/
theorem liesIn_of_stops
    {stop stop' : Stop}
    (hStops : (within source).Stops stop stop')
    {diagnostic : Diagnostic}
    {span : Span}
    (hFinding : stop = .finding diagnostic)
    (hSpan : diagnostic.span? = some span) :
    span.LiesIn source := by
  cases hStops with
  | located hLine hPlace =>
      cases hFinding
      cases hSpan
      exact hPlace
  | missingMain =>
      cases hFinding
      cases hSpan
  | fault => cases hFinding

end Correspondence

open Correspondence in
theorem liesIn_of_analyze
    {source : String}
    {tokens : List Token}
    (hTokens : ∀ token ∈ tokens, token.span.LiesIn source)
    {diagnostic : Diagnostic}
    {span : Span}
    (hFinding :
      analyze tokens = .error (.finding diagnostic))
    (hSpan : diagnostic.span? = some span) :
    span.LiesIn source := by
  have hConcur := concur_analyze (tokens_within hTokens)
  rw [hFinding] at hConcur
  cases hConcur with
  | error hStops => exact liesIn_of_stops hStops rfl hSpan

end Analysis

/-
  Every finding points into the source, from one character
  to another, and its span is on the line that it ends on.
-/
theorem finding_lies_in_source
    (source : String)
    {diagnostic : Diagnostic}
    {span : Span}
    (hFinding :
      analyzeText source = .error (.finding diagnostic))
    (hSpan : diagnostic.span? = some span) :
    span.start ≤ span.stop ∧
      span.stop ≤ source.utf8ByteSize ∧
        String.Pos.Raw.IsValid source ⟨span.start⟩ ∧
          String.Pos.Raw.IsValid source ⟨span.stop⟩ ∧
            ∃ before after : String,
              source = before ++ after ∧
                before.utf8ByteSize = span.stop ∧
                  span.line =
                    before.toList.count '\n' + 1 := by
  have hLies : span.LiesIn source := by
    unfold analyzeText at hFinding
    cases hTokens : tokenize source with
    | ok tokens =>
        rw [hTokens] at hFinding
        exact
          Analysis.liesIn_of_analyze
            (tiling_of_tokenize hTokens).liesIn hFinding
            hSpan
    | error lexical =>
        rw [hTokens] at hFinding
        cases hFinding
        rcases unreadable_of_tokenize hTokens with
          ⟨place, before, bad, after, rfl, hUnreadable⟩
        cases hSpan
        exact
          Span.liesIn_of_text hUnreadable.source_eq
            hUnreadable.marks.inLine hUnreadable.marks.start
            hUnreadable.marks.stop hUnreadable.marks.line
  exact
    ⟨hLies.start_le_stop, hLies.stop_le, hLies.start_valid,
      hLies.stop_valid, hLies.line_of_stop⟩

/-
  A sum over two lines, after a comment that has more bytes
  than characters.
-/
def spreadSum : String :=
  "// \u00e9\nvoid main() \x7b\n int x = 1 +\n  true;\n\x7d"

theorem spreadSum_lies_in_source :
    analyzeText spreadSum =
        .error
          (.finding (.located .typeMismatch 4 ⟨29, 39, 4⟩)) ∧
      29 ≤ 39 ∧
        39 ≤ spreadSum.utf8ByteSize ∧
          String.Pos.Raw.IsValid spreadSum ⟨29⟩ ∧
            String.Pos.Raw.IsValid spreadSum ⟨39⟩ ∧
              ∃ before after : String,
                spreadSum = before ++ after ∧
                  before.utf8ByteSize = 39 ∧
                    4 = before.toList.count '\n' + 1 := by
  have hFinding :
      analyzeText spreadSum =
        .error
          (.finding
            (.located .typeMismatch 4 ⟨29, 39, 4⟩)) := by
    decide +kernel
  exact
    ⟨hFinding, finding_lies_in_source spreadSum hFinding rfl⟩

end OnePass
