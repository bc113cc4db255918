import OnePass.Analysis.Run
import OnePass.Config.Basic

/-
  Checking a program and showing the outcome.

  An accepted program is summarized by its functions, one to
  a line. A finding is shown either as one line on standard
  output, or as a report on standard error that names the
  source and marks the text at fault.

  Key definitions include:
    * `Check.Outcome`
    * `Check.ofText`
    * `Check.summary`
    * `Check.Report`
    * `Check.Outcome.stdout`
    * `Check.Outcome.report?`
-/

------------------------------------------------------------
-- Outcomes
------------------------------------------------------------

namespace OnePass

namespace Check

inductive Outcome where
  | accepted (signatures : List Signature)
  | rejected (diagnostic : Diagnostic)
deriving DecidableEq, Repr

namespace Outcome

/- The program is accepted. -/
def isAccepted : Outcome → Bool
| accepted _ => true
| rejected _ => false

/- The outcome of an analysis that ran into no fault. -/
def ofAnalysis :
    Except Analysis.Stop (List Signature) →
      Except Fault Outcome
| .ok signatures => .ok (accepted signatures)
| .error (.finding diagnostic) => .ok (rejected diagnostic)
| .error (.fault fault) => .error fault

end Outcome

/- Check a program. -/
def ofText
    (source : String) : Except Fault Outcome :=
  Outcome.ofAnalysis (analyzeText source)

end Check

end OnePass

------------------------------------------------------------
-- Standard Output
------------------------------------------------------------

namespace OnePass

namespace Check

/- The functions of a program, one to a line. -/
def summary (signatures : List Signature) : String :=
  String.join (signatures.map (·.render ++ "\n"))

/- What is written to standard output. -/
def Outcome.stdout
    (config : Config) : Outcome → String
| accepted signatures =>
    if config.summary then summary signatures else ""
| rejected diagnostic =>
    match config.style with
    | .plain => diagnostic.message ++ "\n"
    | .fancy => ""

end Check

end OnePass

------------------------------------------------------------
-- Reports
------------------------------------------------------------

namespace OnePass

namespace Check

/- A finding together with the name of the source. -/
structure Report where
  diagnostic : Diagnostic
  sourceName : String
deriving DecidableEq, Repr

namespace Report

/- The source that a report refers to, if it marks any text. -/
def filename (report : Report) : String :=
  if report.diagnostic.labels.isEmpty then
    ""
  else
    report.sourceName

/- A report as text. -/
def render (report : Report) : String :=
  let marks := report.diagnostic.labels.map fun label =>
    report.filename ++ ", bytes " ++
      toString label.span.start ++ " to " ++
      toString label.span.stop ++ ": " ++ label.text ++ "\n"
  let help := match report.diagnostic.help with
    | some advice => "help: " ++ advice ++ "\n"
    | none => ""
  report.diagnostic.code ++ "\n" ++
    report.diagnostic.message ++ "\n" ++
    String.join marks ++ help

end Report

/- What is reported on standard error. -/
def Outcome.report?
    (config : Config)
    (sourceName : String) : Outcome → Option Report
| accepted _ => none
| rejected diagnostic =>
    match config.style with
    | .plain => none
    | .fancy => some ⟨diagnostic, sourceName⟩

end Check

end OnePass
