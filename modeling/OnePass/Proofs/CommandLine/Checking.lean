import OnePass.CommandLine.Run
import OnePass.Proofs.Check.Framing
import OnePass.Proofs.Config.Search

/-
  A check from its arguments to its response.

  The settings of a check are those of the file asked for,
  or of the nearest configuration file, or the default ones.
  Then the source is read, as a text in UTF-8. If either
  fails, nothing is written to standard output. What is
  written otherwise depends on the settings after the
  arguments have had their say. No file is ever changed.

  Main declarations:
    * `CommandLine.Governs`, `CommandLine.Reads`
    * `CommandLine.Shows`, `CommandLine.Answers`
    * `CommandLine.exists_governs`
    * `CommandLine.exists_reads`
    * `CommandLine.shows_checkResponse`
    * `CommandLine.exists_answers`
    * `check_answers_request`
-/

------------------------------------------------------------
-- Settings
------------------------------------------------------------

namespace OnePass

namespace CommandLine

open Config (Failure)
open Files (Place Tree)

/-
  The settings of a check, or why there are none, for a
  decoder of configuration files. A file that is asked for
  is the only one that counts.
-/
inductive Governs
    (decode : String → Option Config)
    (tree : Tree)
    (workingDirectory : List String) :
    Option String → Except Failure Config → Prop where
  | explicit {path : String} {outcome : Except Failure Config}
      (hLoads :
        Config.Loads decode path
          (tree.entryAt? workingDirectory (.written path))
          outcome) :
      Governs decode tree workingDirectory (some path)
        outcome
  | nearest {found : Place} {outcome : Except Failure Config}
      (hNearest :
        Config.IsNearest tree workingDirectory
          (.fromRoot workingDirectory) found)
      (hLoads :
        Config.Loads decode
          (found.child Config.fileName).shown
          (tree.entryIn? workingDirectory found
            Config.fileName)
          outcome) :
      Governs decode tree workingDirectory none outcome
  | default
      (hNone :
        ∀ place ∈ (Place.fromRoot workingDirectory).lineage,
          Config.holds tree workingDirectory place = false) :
      Governs decode tree workingDirectory none
        (.ok .default)

section Settings

variable {decode : String → Option Config}
variable {tree : Tree}
variable {workingDirectory : List String}

theorem Governs.unique
    {explicit? : Option String}
    {first second : Except Failure Config}
    (hFirst :
      Governs decode tree workingDirectory explicit? first)
    (hSecond :
      Governs decode tree workingDirectory explicit? second) :
    first = second := by
  cases hFirst with
  | explicit hLoads =>
      cases hSecond with
      | explicit hOther => exact hLoads.unique hOther
  | nearest hNearest hLoads =>
      cases hSecond with
      | nearest hAgain hOther =>
          have hFound :=
            Config.find?_eq_some_iff_isNearest.mpr hNearest
          rw [Config.find?_eq_some_iff_isNearest.mpr
            hAgain] at hFound
          cases hFound
          exact hLoads.unique hOther
      | default hNone =>
          have hPresent := hNearest.present
          rw [hNone _ hNearest.onTheWay] at hPresent
          cases hPresent
  | default hNone =>
      cases hSecond with
      | nearest hNearest =>
          have hPresent := hNearest.present
          rw [hNone _ hNearest.onTheWay] at hPresent
          cases hPresent
      | default => rfl

variable (decode tree workingDirectory)

/- The choice of the settings changes nothing. -/
theorem exists_governs
    (input : ByteArray)
    (explicit? : Option String) :
    ∃ chosen,
      (Config.choose decode
          (Tree.host workingDirectory input)
          explicit?).run tree =
        (chosen, tree) ∧
        Governs decode tree workingDirectory explicit?
          chosen := by
  cases explicit? with
  | some path =>
      rcases Config.exists_loads decode tree
          workingDirectory input (.written path) with
        ⟨outcome, hRun, hLoads⟩
      exact ⟨outcome, hRun, .explicit hLoads⟩
  | none =>
      rcases Config.exists_settles decode tree
          workingDirectory input
          (.fromRoot workingDirectory) with
        ⟨result, hRun, hSettles⟩
      have hSearch :
          (Config.nearest decode
              (Tree.host workingDirectory input)).run tree =
            (result, tree) := by
        rw [Config.nearest, Tree.run_bind tree
          (Tree.run_workingDirectory ..), hRun]
      unfold Config.choose
      rw [Tree.run_bind tree hSearch]
      cases hFound :
          (Place.fromRoot workingDirectory).lineage.find?
            (Config.holds tree workingDirectory) with
      | none =>
          rw [hFound] at hSettles
          cases hSettles
          refine ⟨.ok .default, rfl, .default ?_⟩
          simpa using hFound
      | some found =>
          have hNearest := Config.isNearest_of_find? hFound
          rw [hFound] at hSettles
          cases hSettles with
          | found hLoads =>
              exact ⟨_, rfl, .nearest hNearest hLoads⟩
          | failed hLoads =>
              exact ⟨_, rfl, .nearest hNearest hLoads⟩

end Settings

end CommandLine

end OnePass

------------------------------------------------------------
-- Sources
------------------------------------------------------------

namespace OnePass

namespace CommandLine

open Files (Tree)

/-
  The source of a check: a file with a text in UTF-8, or
  standard input with such a text.
-/
inductive Reads
    (tree : Tree)
    (workingDirectory : List String)
    (input : ByteArray) :
    Option String → Source → Prop where
  | file {path text : String}
      (hEntry :
        tree.entryAt? workingDirectory (.written path) =
          some (.file text.toUTF8)) :
      Reads tree workingDirectory input (some path)
        { name := path, text }
  | input {text : String}
      (hInput : input = text.toUTF8) :
      Reads tree workingDirectory input none
        { name := "<stdin>", text }

section Sources

variable {tree : Tree}
variable {workingDirectory : List String}
variable {input : ByteArray}

theorem Reads.unique
    {file? : Option String}
    {first second : Source}
    (hFirst :
      Reads tree workingDirectory input file? first)
    (hSecond :
      Reads tree workingDirectory input file? second) :
    first = second := by
  cases hFirst with
  | file hEntry =>
      cases hSecond with
      | file hOther =>
          rw [Tree.text_eq_of_file_eq hEntry hOther]
  | input hInput =>
      cases hSecond with
      | input hOther =>
          rw [hInput] at hOther
          rw [String.toByteArray_inj.mp hOther]

variable (tree workingDirectory input)

/- Reading a source changes nothing. -/
theorem exists_reads
    (file? : Option String) :
    ∃ outcome,
      (readSource (Tree.host workingDirectory input)
          file?).run tree =
        (outcome, tree) ∧
        match outcome with
        | .ok source =>
            Reads tree workingDirectory input file? source
        | .error _ =>
            ∀ source,
              ¬Reads tree workingDirectory input file?
                source := by
  unfold readSource
  cases file? with
  | some path =>
      rw [Tree.run_bind tree (Tree.run_text? ..)]
      cases hText :
          tree.text? workingDirectory (.written path) with
      | none =>
          refine ⟨_, rfl, ?_⟩
          intro source hReads
          cases hReads with
          | file hEntry =>
              rw [← Tree.text?_eq_some_iff, hText] at hEntry
              cases hEntry
      | some text =>
          have hEntry := (Tree.text?_eq_some_iff ..).mp hText
          exact ⟨_, rfl, .file hEntry⟩
  | none =>
      rw [Tree.run_bind tree (Tree.run_inputText? ..)]
      cases hText : String.fromUTF8? input with
      | none =>
          refine ⟨_, rfl, ?_⟩
          intro source hReads
          cases hReads with
          | input hInput =>
              rw [← Tree.fromUTF8?_eq_some_iff, hText] at hInput
              cases hInput
      | some text =>
          have hInput := Tree.fromUTF8?_eq_some_iff.mp hText
          exact ⟨_, rfl, .input hInput⟩

end Sources

end CommandLine

end OnePass

------------------------------------------------------------
-- Responses
------------------------------------------------------------

namespace OnePass

/- An accepted program has a function to summarize. -/
theorem Check.summary_ne_empty
    {source : String}
    {signatures : List Signature}
    (hAnalysis : analyzeText source = .ok signatures) :
    Check.summary signatures ≠ "" := by
  rcases exists_valid_of_analyzeText_ok hAnalysis with
    ⟨tokens, program, -, -, hValid, hSignatures⟩
  have hMain : Signature.entryPoint ∈ signatures := by
    rw [← hSignatures]
    exact hValid.entryPoint
  have hFeed : '\n' ∈ (Check.summary signatures).toList := by
    rw [Check.summary, String.toList_join, List.mem_flatMap]
    refine
      ⟨_, List.mem_map_of_mem hMain, ?_⟩
    simp
  intro hEmpty
  rw [hEmpty] at hFeed
  simp at hFeed

namespace CommandLine

/- The style asked for, or else the configured one. -/
def CheckRequest.UsesStyle
    (request : CheckRequest)
    (config : Config)
    (style : Style) : Prop :=
  request.style? = some style ∨
    request.style? = none ∧ config.style = style

theorem CheckRequest.exists_usesStyle
    (request : CheckRequest)
    (config : Config) :
    ∃ style, request.UsesStyle config style := by
  cases hAsked : request.style? with
  | some style => exact ⟨style, .inl hAsked⟩
  | none => exact ⟨config.style, .inr ⟨hAsked, rfl⟩⟩

theorem CheckRequest.UsesStyle.settings_eq
    {request : CheckRequest}
    {config : Config}
    {style : Style}
    (hStyle : request.UsesStyle config style) :
    (request.settings config).style = style := by
  rcases hStyle with hAsked | ⟨hNone, hConfigured⟩
  · simp [CheckRequest.settings, hAsked]
  · simp [CheckRequest.settings, hNone, hConfigured]

/-
  What a check answers about a source under settings. The
  functions of an accepted program are summarized if this is
  configured and not declined. A finding is shown on standard
  output in plain style, and reported in fancy style.
-/
structure Shows
    (request : CheckRequest)
    (config : Config)
    (source : Source)
    (response : Response) : Prop where
  accepted :
    ∀ signatures,
      analyzeText source.text = .ok signatures →
        response.exitCode = 0 ∧
          response.remark = .nothing ∧
            Check.summary signatures ≠ "" ∧
              response.stdout =
                if config.summary = true ∧
                    request.noSummary = false then
                  Check.summary signatures
                else
                  ""
  rejected :
    ∀ diagnostic style,
      analyzeText source.text =
          .error (.finding diagnostic) →
        request.UsesStyle config style →
          response.exitCode = 1 ∧
            match style with
            | .plain =>
                response.remark = .nothing ∧
                  response.stdout =
                    diagnostic.message ++ "\n"
            | .fancy =>
                response.remark =
                    .report ⟨diagnostic, source.name⟩ ∧
                  response.stdout = ""

theorem shows_checkResponse
    (request : CheckRequest)
    (config : Config)
    (verbosity : Nat)
    (source : Source) :
    Shows request config source
      (checkResponse (request.settings config) verbosity
        source) := by
  constructor
  · intro signatures hAnalysis
    have hOutcome :
        Check.ofText source.text =
          .ok (.accepted signatures) := by
      rw [Check.ofText, hAnalysis]
      rfl
    refine
      ⟨?_, ?_, Check.summary_ne_empty hAnalysis, ?_⟩
    · simp [checkResponse, hOutcome, Check.Outcome.isAccepted]
    · simp [checkResponse, hOutcome, Check.Outcome.report?]
    · simp [checkResponse, hOutcome, Check.Outcome.stdout,
        CheckRequest.settings]
  · intro diagnostic style hAnalysis hStyle
    have hOutcome :
        Check.ofText source.text =
          .ok (.rejected diagnostic) := by
      rw [Check.ofText, hAnalysis]
      rfl
    refine ⟨?_, ?_⟩
    · simp [checkResponse, hOutcome, Check.Outcome.isAccepted]
    · cases style with
      | plain =>
          simp [checkResponse, hOutcome, hStyle.settings_eq,
            Check.Outcome.stdout, Check.Outcome.report?]
      | fancy =>
          simp [checkResponse, hOutcome, hStyle.settings_eq,
            Check.Outcome.stdout, Check.Outcome.report?]

/- The exit status tells whether the source is accepted. -/
theorem Shows.exitCode_cases
    {request : CheckRequest}
    {config : Config}
    {source : Source}
    {response : Response}
    (hShows : Shows request config source response) :
    (response.exitCode = 0 ∧
        ∃ signatures,
          analyzeText source.text = .ok signatures) ∨
      (response.exitCode = 1 ∧
        ∀ signatures,
          analyzeText source.text ≠ .ok signatures) := by
  cases hAnalysis : analyzeText source.text with
  | ok signatures =>
      have hCode := (hShows.accepted signatures hAnalysis).1
      exact .inl ⟨hCode, signatures, rfl⟩
  | error stop =>
      cases stop with
      | finding diagnostic =>
          rcases request.exists_usesStyle config with
            ⟨style, hStyle⟩
          have hCode :=
            (hShows.rejected diagnostic style hAnalysis
              hStyle).1
          exact .inr ⟨hCode, fun signatures => nofun⟩
      | fault fault =>
          exact
            absurd hAnalysis
              (analyzeText_ne_fault source.text fault)

end CommandLine

end OnePass

------------------------------------------------------------
-- Checks
------------------------------------------------------------

namespace OnePass

namespace CommandLine

open Config (Failure)
open Files (Tree)

/-
  What a check answers under chosen settings. Without
  settings, or without a source, it fails.
-/
inductive Answers
    (tree : Tree)
    (workingDirectory : List String)
    (input : ByteArray)
    (request : CheckRequest) :
    Except Failure Config → Response → Prop where
  | unsettled {failure : Failure} :
      Answers tree workingDirectory input request
        (.error failure) (.failed failure.message)
  | unread {config : Config} {message : String}
      (hNone :
        ∀ source,
          ¬Reads tree workingDirectory input request.file?
            source) :
      Answers tree workingDirectory input request
        (.ok config) (.failed message)
  | checked
      {config : Config}
      {source : Source}
      {response : Response}
      (hReads :
        Reads tree workingDirectory input request.file?
          source)
      (hShows : Shows request config source response) :
      Answers tree workingDirectory input request
        (.ok config) response

section Answers

variable {tree : Tree}
variable {workingDirectory : List String}
variable {input : ByteArray}
variable {request : CheckRequest}
variable {chosen : Except Failure Config}
variable {response : Response}

variable
  (hAnswers :
    Answers tree workingDirectory input request chosen
      response)

include hAnswers

theorem Answers.exitCode_cases :
    response.exitCode = 0 ∨ response.exitCode = 1 := by
  cases hAnswers with
  | unsettled => exact .inr rfl
  | unread hNone => exact .inr rfl
  | checked hReads hShows =>
      exact
        hShows.exitCode_cases.imp And.left And.left

theorem Answers.exitCode_eq_zero_iff :
    response.exitCode = 0 ↔
      ∃ config source signatures,
        chosen = .ok config ∧
          Reads tree workingDirectory input request.file?
              source ∧
            analyzeText source.text = .ok signatures := by
  cases hAnswers with
  | unsettled => simp [Response.failed]
  | unread hNone =>
      constructor
      · exact fun hCode => by cases hCode
      · rintro ⟨_, source, _, _, hReads, _⟩
        exact absurd hReads (hNone source)
  | checked hReads hShows =>
      constructor
      · intro hCode
        rcases hShows.exitCode_cases with
          ⟨-, signatures, hAnalysis⟩ | ⟨hOne, -⟩
        · exact ⟨_, _, signatures, rfl, hReads, hAnalysis⟩
        · rw [hCode] at hOne
          cases hOne
      · rintro ⟨_, source, signatures, _, hAgain, hAnalysis⟩
        cases hReads.unique hAgain
        exact (hShows.accepted signatures hAnalysis).1

/- A check that fails writes nothing to standard output. -/
theorem Answers.stdout_eq_empty
    (hFails :
      (∃ failure, chosen = .error failure) ∨
        ∀ source,
          ¬Reads tree workingDirectory input request.file?
            source) :
    response.stdout = "" := by
  cases hAnswers with
  | unsettled => rfl
  | unread hNone => rfl
  | checked hReads hShows =>
      rcases hFails with ⟨failure, hFailure⟩ | hNone
      · cases hFailure
      · exact absurd hReads (hNone _)

theorem Answers.shows
    {config : Config}
    {source : Source}
    (hChosen : chosen = .ok config)
    (hSource :
      Reads tree workingDirectory input request.file?
        source) :
    Shows request config source response := by
  cases hAnswers with
  | unsettled => cases hChosen
  | unread hNone => exact absurd hSource (hNone source)
  | checked hReads hShows =>
      cases hChosen
      cases hReads.unique hSource
      exact hShows

end Answers

/- A check changes nothing. -/
theorem exists_answers
    (decode : String → Option Config)
    (tree : Tree)
    (workingDirectory : List String)
    (input : ByteArray)
    (request : CheckRequest)
    (verbosity : Nat) :
    ∃ chosen response,
      (check decode (Tree.host workingDirectory input)
          request verbosity).run tree =
        (response, tree) ∧
        Governs decode tree workingDirectory request.config?
            chosen ∧
          Answers tree workingDirectory input request chosen
            response := by
  rcases exists_governs decode tree workingDirectory input
      request.config? with
    ⟨chosen, hChoice, hGoverns⟩
  unfold check
  rw [Tree.run_bind tree hChoice]
  cases chosen with
  | error failure =>
      exact ⟨.error failure, _, rfl, hGoverns, .unsettled⟩
  | ok config =>
      rcases exists_reads tree workingDirectory input
          request.file? with
        ⟨outcome, hRun, hReads⟩
      simp only [Tree.run_bind tree hRun]
      cases outcome with
      | error message =>
          exact ⟨.ok config, _, rfl, hGoverns, .unread hReads⟩
      | ok source =>
          have hShows :=
            shows_checkResponse request config verbosity
              source
          exact
            ⟨.ok config, _, rfl, hGoverns,
              .checked hReads hShows⟩

end CommandLine

/-
  Every check has a response and changes no file. The files,
  their decoder and the arguments determine its settings. The
  exit status is 0 exactly if the settings can be loaded, the
  source can be read, and the program is accepted; otherwise
  it is 1. Without settings, or without a source, nothing is
  written to standard output.
-/
theorem check_answers_request
    (decode : String → Option Config)
    (tree : Files.Tree)
    (workingDirectory : List String)
    (input : ByteArray)
    (request : CommandLine.CheckRequest)
    (verbosity : Nat) :
    ∃ chosen response,
      (CommandLine.check decode
          (Files.Tree.host workingDirectory input) request
          verbosity).run tree =
        (response, tree) ∧
      (∀ outcome,
        CommandLine.Governs decode tree workingDirectory
            request.config? outcome ↔
          outcome = chosen) ∧
      (response.exitCode = 0 ∨ response.exitCode = 1) ∧
      (response.exitCode = 0 ↔
        ∃ config source signatures,
          chosen = .ok config ∧
            CommandLine.Reads tree workingDirectory input
                request.file? source ∧
              analyzeText source.text = .ok signatures) ∧
      ((∃ failure, chosen = .error failure) ∨
          (∀ source,
            ¬CommandLine.Reads tree workingDirectory input
              request.file? source) →
        response.stdout = "") ∧
      ∀ config source,
        chosen = .ok config →
          CommandLine.Reads tree workingDirectory input
              request.file? source →
            CommandLine.Shows request config source
              response := by
  rcases CommandLine.exists_answers decode tree
      workingDirectory input request verbosity with
    ⟨chosen, response, hRun, hGoverns, hAnswers⟩
  have hOnly :
      ∀ outcome,
        CommandLine.Governs decode tree workingDirectory
            request.config? outcome ↔
          outcome = chosen := by
    intro outcome
    constructor
    · exact fun hOther => hOther.unique hGoverns
    · rintro rfl
      exact hGoverns
  exact
    ⟨chosen, response, hRun, hOnly, hAnswers.exitCode_cases,
      hAnswers.exitCode_eq_zero_iff, hAnswers.stdout_eq_empty,
      fun _ _ => hAnswers.shows⟩

end OnePass
