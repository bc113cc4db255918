import OnePass.Check
import OnePass.Proofs.Analysis.Quotation

/-
  What a check writes, line by line.

  No line feed and no carriage return gets into the one-line
  form of a finding or into the form of a signature: what is
  quoted in them has letters and digits only. So a finding
  takes one line, and a summary takes as many lines as the
  program has functions.

  Main declarations:
    * `IsLine`, `HasLines`
    * `HasLines.splitOn_eq`
    * `isLine_message_of_finding`
    * `Check.hasLines_summary`
    * `Check.FramesFinding`, `Check.FramesFunctions`
    * `check_frames_output`
-/

------------------------------------------------------------
-- Lines
------------------------------------------------------------

namespace OnePass

/- Nothing in the text starts a new line. -/
def IsLine (text : String) : Prop :=
  '\n' ∉ text.toList ∧ '\r' ∉ text.toList

instance (text : String) : Decidable (IsLine text) :=
  inferInstanceAs (Decidable (_ ∧ _))

@[simp] theorem isLine_append
    {first second : String} :
    IsLine (first ++ second) ↔
      IsLine first ∧ IsLine second := by
  simp only [IsLine, String.toList_append, List.mem_append,
    not_or]
  exact and_and_and_comm

/- Words around a text that takes one line. -/
theorem isLine_between
    {before text after : String}
    (hBefore : IsLine before)
    (hText : IsLine text)
    (hAfter : IsLine after) :
    IsLine (before ++ text ++ after) :=
  isLine_append.mpr
    ⟨isLine_append.mpr ⟨hBefore, hText⟩, hAfter⟩

theorem isLine_of_isAlphanum
    {text : String}
    (hText : ∀ char ∈ text.toList, char.isAlphanum = true) :
    IsLine text := by
  constructor
  · intro hFeed
    cases hText _ hFeed
  · intro hReturn
    cases hText _ hReturn

theorem isLine_toString
    (number : Nat) :
    IsLine (toString number) := by
  apply isLine_of_isAlphanum
  intro char hChar
  rw [Nat.toString_eq_repr, Nat.toList_repr] at hChar
  have hDigit :=
    Nat.isDigit_of_mem_toDigits (by decide) (by decide) hChar
  simp [Char.isAlphanum, hDigit]

/- The text is made of lines, with a line feed after each. -/
structure HasLines
    (text : String)
    (lines : List String) : Prop where
  text_eq : text = String.join (lines.map (· ++ "\n"))
  isLine : ∀ line ∈ lines, IsLine line

section Lines

variable {text : String}
variable {lines : List String}

/- There are as many line feeds as lines. -/
theorem HasLines.count_eq
    (hLines : HasLines text lines) :
    text.toList.count '\n' = lines.length := by
  rcases hLines with ⟨rfl, hLines⟩
  induction lines with
  | nil => rfl
  | cons line lines ih =>
      rcases List.forall_mem_cons.mp hLines with
        ⟨hLine, hLater⟩
      have hNone := List.count_eq_zero.mpr hLine.1
      have hFeed : "\n".toList.count '\n' = 1 := by decide
      rw [List.map_cons, String.join_cons,
        String.toList_append, String.toList_append,
        List.count_append, List.count_append, hNone, hFeed,
        ih hLater, List.length_cons]
      omega

/- The lines are what is between the line feeds. -/
theorem HasLines.splitOn_eq
    (hLines : HasLines text lines) :
    text.toList.splitOn '\n' =
      lines.map String.toList ++ [[]] := by
  rcases hLines with ⟨rfl, hLines⟩
  induction lines with
  | nil => rfl
  | cons line lines ih =>
      rcases List.forall_mem_cons.mp hLines with
        ⟨hLine, hLater⟩
      have hText :
          (String.join
              ((line :: lines).map (· ++ "\n"))).toList =
            line.toList ++
              '\n' ::
                (String.join
                  (lines.map (· ++ "\n"))).toList := by
        simp
      rw [hText,
        List.splitOn_append_cons_self_of_not_mem hLine.1,
        ih hLater]
      rfl

/- Carriage returns are nowhere. -/
theorem HasLines.return_notMem
    (hLines : HasLines text lines) :
    '\r' ∉ text.toList := by
  rcases hLines with ⟨rfl, hLines⟩
  simp only [String.toList_join, List.mem_flatMap,
    List.mem_map, not_exists, not_and]
  rintro _ ⟨line, hLine, rfl⟩
  rw [String.toList_append, List.mem_append, not_or]
  exact ⟨(hLines line hLine).2, by decide⟩

end Lines

end OnePass

------------------------------------------------------------
-- Forms On One Line
------------------------------------------------------------

namespace OnePass

namespace Ty

/- Types have names of letters. -/
theorem isAlphanum_name
    (ty : Ty) :
    ∀ char ∈ ty.name.toList, char.isAlphanum = true := by
  rw [← List.all_eq_true]
  cases ty <;> rfl

/- There are letters and commas between the parentheses. -/
theorem isAlphanum_or_comma
    (types : List Ty) :
    ∀ char ∈ (",".intercalate (types.map name)).toList,
      char.isAlphanum = true ∨ char = ',' := by
  induction types with
  | nil => simp
  | cons first types ih =>
      cases types with
      | nil =>
          intro char hChar
          simp only [List.map_cons, List.map_nil,
            String.intercalate_singleton] at hChar
          exact .inl (first.isAlphanum_name char hChar)
      | cons second types =>
          intro char hChar
          simp only [List.map_cons,
            String.intercalate_cons_cons,
            String.toList_append, List.mem_append] at hChar
          rcases hChar with (hFirst | hComma) | hLater
          · exact .inl (first.isAlphanum_name char hFirst)
          · exact .inr (List.mem_singleton.mp hComma)
          · exact ih char hLater

section Separators

variable {char : Char}
variable (hChar : char.isAlphanum = false)

include hChar

/- No separator is in the name of a type. -/
theorem notMem_name
    (ty : Ty) :
    char ∉ ty.name.toList := by
  intro hMem
  rw [ty.isAlphanum_name char hMem] at hChar
  cases hChar

/- No separator but the comma is between the types. -/
theorem notMem_intercalate
    (hComma : char ≠ ',')
    (types : List Ty) :
    char ∉ (",".intercalate (types.map name)).toList := by
  intro hMem
  rcases isAlphanum_or_comma types char hMem with
    hAlphanum | hSame
  · rw [hAlphanum] at hChar
    cases hChar
  · exact hComma hSame

end Separators

theorem isLine_name
    (ty : Ty) :
    IsLine ty.name :=
  isLine_of_isAlphanum ty.isAlphanum_name

theorem isLine_renderList
    (types : List Ty) :
    IsLine (renderList types) := by
  refine isLine_between ?_ ⟨?_, ?_⟩ ?_
  · decide
  · exact notMem_intercalate rfl (by decide) types
  · exact notMem_intercalate rfl (by decide) types
  · decide

end Ty

/- A signature takes one line. -/
theorem Signature.IsNamed.isLine_render
    {signature : Signature}
    (hNamed : signature.IsNamed) :
    IsLine signature.render := by
  have hName : IsLine signature.name :=
    isLine_of_isAlphanum
      (Pattern.isAlphanum_of_mem_word hNamed)
  have hPrototype :=
    Ty.isLine_renderList signature.parameters
  have hReturns := signature.returns.isLine_name
  have hBlank : IsLine " " := by decide
  have hArrow : IsLine "->" := by decide
  simp [Signature.render, hName, hBlank, hPrototype, hArrow,
    hReturns]

/- What is wrong takes one line, if what is quoted does. -/
theorem Cause.isLine_text
    {cause : Cause}
    (hQuoted : ∀ text ∈ cause.quoted?, IsLine text) :
    IsLine cause.text := by
  cases cause with
  | lexical => decide
  | malformed => decide
  | undefinedVariable name =>
      exact
        isLine_between (by decide) (hQuoted name rfl)
          (by decide)
  | undefinedFunction name =>
      exact
        isLine_between (by decide) (hQuoted name rfl)
          (by decide)
  | redefinition name =>
      exact
        isLine_between (by decide) (hQuoted name rfl)
          (by decide)
  | typeMismatch => decide
  | prototypeMismatch name expected =>
      refine
        isLine_append.mpr
          ⟨isLine_between ?_ (hQuoted name rfl) ?_,
            Ty.isLine_renderList expected⟩
      · decide
      · decide
  -- The name is known here, but it is not shown.
  | constReassignment name =>
      change IsLine "trying to assign to a const variable"
      decide
  | constWithoutInitializer name =>
      change IsLine "const variables must be initialized"
      decide
  | byteOutOfRange literal =>
      exact
        isLine_between (by decide) (hQuoted literal rfl)
          (by decide)
  | unexpectedBreak => decide
  | unexpectedContinue => decide

/- A finding takes one line. -/
theorem isLine_message_of_finding
    {source : String}
    {diagnostic : Diagnostic}
    (hFinding :
      analyzeText source = .error (.finding diagnostic)) :
    IsLine diagnostic.message := by
  cases diagnostic with
  | missingMain => decide
  | located cause line span =>
      have hCause : IsLine cause.text := by
        apply Cause.isLine_text
        intro text hText
        exact
          isLine_of_isAlphanum
            (isAlphanum_of_finding hFinding hText)
      exact
        isLine_append.mpr
          ⟨isLine_between (by decide) (isLine_toString line)
            (by decide), hCause⟩

end OnePass

------------------------------------------------------------
-- Output
------------------------------------------------------------

namespace OnePass

namespace Check

/-
  What is written about a program with a finding. In plain
  style the finding takes the only line; in fancy style it
  is reported elsewhere.
-/
structure FramesFinding
    (config : Config)
    (diagnostic : Diagnostic)
    (stdout : String)
    (report? : Option Report) : Prop where
  plain :
    config.style = .plain →
      stdout = diagnostic.message ++ "\n" ∧
        stdout.toList.count '\n' = 1 ∧
          stdout.toList.getLast? = some '\n' ∧
            '\r' ∉ stdout.toList ∧ report? = none
  fancy :
    config.style = .fancy →
      stdout = "" ∧
        report?.map Report.diagnostic = some diagnostic

/-
  What is written about a program that is accepted: nothing,
  or one line for each of its functions, in source order.
-/
structure FramesFunctions
    (config : Config)
    (functions : List Grammar.Function)
    (stdout : String)
    (report? : Option Report) : Prop where
  noReport : report? = none
  noSummary : config.summary = false → stdout = ""
  summary :
    config.summary = true →
      HasLines stdout (functions.map (·.signature.render)) ∧
        stdout.toList.count '\n' = functions.length ∧
          "main ()->VOID" ∈
            functions.map (·.signature.render)

theorem framesFinding
    {source : String}
    {diagnostic : Diagnostic}
    (hFinding :
      analyzeText source = .error (.finding diagnostic))
    (config : Config)
    (sourceName : String) :
    FramesFinding config diagnostic
      ((Outcome.rejected diagnostic).stdout config)
      ((Outcome.rejected diagnostic).report? config
        sourceName) where
  plain hPlain := by
    have hLines :
        HasLines (diagnostic.message ++ "\n")
          [diagnostic.message] := by
      constructor
      · simp
      · simpa using isLine_message_of_finding hFinding
    simp only [Outcome.stdout, Outcome.report?, hPlain]
    exact
      ⟨trivial, hLines.count_eq, by simp,
        hLines.return_notMem, trivial⟩
  fancy hFancy := by
    simp only [Outcome.stdout, Outcome.report?, hFancy]
    exact ⟨trivial, rfl⟩

/- A summary has a line for each signature. -/
theorem hasLines_summary
    {signatures : List Signature}
    (hNamed : ∀ signature ∈ signatures, signature.IsNamed) :
    HasLines (summary signatures)
      (signatures.map Signature.render) := by
  constructor
  · rw [summary, List.map_map]
    rfl
  · rw [List.forall_mem_map]
    intro signature hSignature
    exact (hNamed signature hSignature).isLine_render

theorem framesFunctions
    {signatures : List Signature}
    (hNamed : ∀ signature ∈ signatures, signature.IsNamed)
    {program : Grammar.Program}
    (hValid : program.Valid)
    (hSignatures : program.signatures = signatures)
    (config : Config)
    (sourceName : String) :
    FramesFunctions config program.functions
      ((Outcome.accepted signatures).stdout config)
      ((Outcome.accepted signatures).report? config
        sourceName) where
  noReport := rfl
  noSummary hSummary := by
    simp [Outcome.stdout, hSummary]
  summary hSummary := by
    have hForms :
        program.functions.map (·.signature.render) =
          signatures.map Signature.render := by
      rw [← hSignatures, Grammar.Program.signatures,
        List.map_map]
      rfl
    have hLines := hasLines_summary hNamed
    have hMain :
        Signature.entryPoint.render ∈
          signatures.map Signature.render := by
      rw [← hSignatures]
      exact List.mem_map_of_mem hValid.entryPoint
    simp only [Outcome.stdout, hSummary, if_true, hForms]
    refine ⟨hLines, ?_, hMain⟩
    rw [hLines.count_eq, ← hForms, List.length_map]

end Check

/- No source leads to a fault. -/
theorem analyzeText_ne_fault
    (source : String)
    (fault : Fault) :
    analyzeText source ≠ .error (.fault fault) := by
  intro hFault
  unfold analyzeText at hFault
  split at hFault
  · rcases analyze_eq_error_iff.mp hFault with
      ⟨failure, final, hRun, hFailure⟩
    cases failure with
    | misfit misfit => cases hFailure
    | refused stop =>
        have hStop : stop = .fault fault := hFailure
        have hVerdict :=
          isVerdict_of_parse (congrArg Prod.fst hRun)
        rw [hStop] at hVerdict
        exact hVerdict
  · cases hFault

/-
  Every check comes to an outcome. A finding is framed as
  one line or kept from standard output, and an accepted
  program is framed function by function.
-/
theorem check_frames_output
    (source sourceName : String)
    (config : Config) :
    ∃ outcome,
      Check.ofText source = .ok outcome ∧
        match outcome with
        | .rejected diagnostic =>
            analyzeText source =
                .error (.finding diagnostic) ∧
              Check.FramesFinding config diagnostic
                (outcome.stdout config)
                (outcome.report? config sourceName)
        | .accepted signatures =>
            analyzeText source = .ok signatures ∧
              ∃ tokens, ∃ program : Grammar.Program,
                tokenize source = .ok tokens ∧
                  program.IsTreeOf tokens ∧
                    Check.FramesFunctions config
                      program.functions
                      (outcome.stdout config)
                      (outcome.report? config
                        sourceName) := by
  cases hAnalysis : analyzeText source with
  | ok signatures =>
      have hOutcome :
          Check.ofText source =
            .ok (.accepted signatures) := by
        rw [Check.ofText, hAnalysis]
        rfl
      rcases exists_valid_of_analyzeText_ok hAnalysis with
        ⟨tokens, program, hTokens, hTree, hValid,
          hSignatures⟩
      exact
        ⟨.accepted signatures, hOutcome, rfl, tokens,
          program, hTokens, hTree,
          Check.framesFunctions
            (isNamed_of_analyzeText_ok hAnalysis) hValid
            hSignatures config sourceName⟩
  | error stop =>
      cases stop with
      | finding diagnostic =>
          have hOutcome :
              Check.ofText source =
                .ok (.rejected diagnostic) := by
            rw [Check.ofText, hAnalysis]
            rfl
          exact
            ⟨.rejected diagnostic, hOutcome, rfl,
              Check.framesFinding hAnalysis config
                sourceName⟩
      | fault fault =>
          exact
            absurd hAnalysis
              (analyzeText_ne_fault source fault)

end OnePass
