import OnePass.Check
import OnePass.CommandLine.Request
import OnePass.Config.Decode
import OnePass.Config.Files
import OnePass.Journal

/-
  Carrying out a request.

  A check first finds its settings and then reads its
  source; if either fails, nothing is checked and nothing is
  written to standard output. No check changes a file.

  Key definitions include:
    * `CommandLine.Response`
    * `CommandLine.check`
    * `CommandLine.initialConfig`
    * `CommandLine.run`
-/

------------------------------------------------------------
-- Responses
------------------------------------------------------------

namespace OnePass

namespace CommandLine

/- What is written to standard error, apart from a journal. -/
inductive Remark where
  | nothing
  /- The request could not be carried out. -/
  | failure (message : String)
  /- The source has a finding. -/
  | report (report : Check.Report)
  /- The arguments make no sense. -/
  | usage
deriving DecidableEq, Repr

/- What a program leaves behind, apart from changed files. -/
structure Response where
  exitCode : UInt32
  stdout : String := ""
  remark : Remark := .nothing
  journal : List Journal.Entry := []
deriving Repr

namespace Response

/- The request could not be carried out. -/
def failed (message : String) : Response where
  exitCode := 1
  remark := .failure message

end Response

end CommandLine

end OnePass

------------------------------------------------------------
-- Texts
------------------------------------------------------------

namespace OnePass

namespace CommandLine

/- The name of the program. -/
def programName : String := "fanc"

/- The version of the program. -/
def programVersion : String := "0.1.0"

/- The version line of the program or of a command. -/
def versionText (command? : Option Command) : String :=
  let name := match command? with
    | some command => programName ++ "-" ++ command.name
    | none => programName
  name ++ " " ++ programVersion ++ "\n"

/- How the program is called. -/
def usageText : Option Command → String
| some .check =>
    "Usage: fanc check [OPTIONS] [FILE]\n\n" ++
      "Options:\n" ++
      "      --config <CONFIG>  Configuration file to use\n" ++
      "      --style <STYLE>    plain or fancy\n" ++
      "      --no-summary       Do not print the functions\n"
| some .init => "Usage: fanc init\n"
| some .help => "Usage: fanc help [COMMAND]\n"
| none =>
    "Usage: fanc [OPTIONS] <COMMAND>\n\n" ++
      "Commands:\n" ++
      "  check  Check a program and print its functions\n" ++
      "  init   Write a default fanc.toml\n" ++
      "  help   Print help\n\n" ++
      "Options:\n" ++
      "  -v, --verbose  Keep a journal (-vv for more)\n" ++
      "  -h, --help     Print help\n" ++
      "  -V, --version  Print version\n"

/- The answer to a request for a text, or to a mistake. -/
def Early.response : Early → Response
| version command? =>
    { exitCode := 0, stdout := versionText command? }
| help command? =>
    { exitCode := 0, stdout := usageText command? }
| usage => { exitCode := 2, remark := .usage }

end CommandLine

end OnePass

------------------------------------------------------------
-- Checks
------------------------------------------------------------

namespace OnePass

namespace CommandLine

open Files (Host)

/- The settings after the arguments have had their say. -/
def CheckRequest.settings
    (request : CheckRequest)
    (config : Config) : Config where
  style := request.style?.getD config.style
  summary := config.summary && !request.noSummary

/- The entries of a journal that a verbosity lets through. -/
def visibleEntries
    (verbosity : Nat)
    (entries : List Journal.Entry) : List Journal.Entry :=
  match verbosity with
  | 0 => []
  | 1 => entries.filter fun entry => entry.level ≠ .trace
  | _ => entries

/- A source with the name that it is reported under. -/
structure Source where
  name : String
  text : String
deriving DecidableEq, Repr

variable {m : Type → Type} [Monad m]

/- The source of a check, or why it cannot be read. -/
def readSource
    (host : Host m)
    (file? : Option String) : m (Except String Source) := do
  match file? with
  | some file =>
      match ← host.text? (.written file) with
      | some text => return .ok ⟨file, text⟩
      | none => return .error ("Failed to read " ++ file)
  | none =>
      match ← host.inputText? with
      | some text => return .ok ⟨"<stdin>", text⟩
      | none => return .error "Failed to read standard input"

/- The response to the check of a source. -/
def checkResponse
    (config : Config)
    (verbosity : Nat)
    (source : Source) : Response :=
  match Check.ofText source.text with
  | .error fault => .failed fault.message
  | .ok outcome =>
      { exitCode := if outcome.isAccepted then 0 else 1
        stdout := outcome.stdout config
        remark := match outcome.report? config source.name with
          | some report => .report report
          | none => .nothing
        journal :=
          visibleEntries verbosity
            (Journal.ofCheck source.name source.text) }

/- Check a program. -/
def check
    (decode : String → Option Config)
    (host : Host m)
    (request : CheckRequest)
    (verbosity : Nat) : m Response := do
  match ← Config.choose decode host request.config? with
  | .error failure => return .failed failure.message
  | .ok config =>
      match ← readSource host request.file? with
      | .error message => return .failed message
      | .ok source =>
          return checkResponse (request.settings config)
            verbosity source

end CommandLine

end OnePass

------------------------------------------------------------
-- The Program
------------------------------------------------------------

namespace OnePass

namespace CommandLine

open Files (Host)

variable {m : Type → Type} [Monad m]

/-
  Write a configuration file with the default settings into
  the working directory, unless something of that name is
  there.
-/
def initialConfig (host : Host m) : m Response := do
  let place := .written Config.fileName
  if ← host.present place then
    return .failed
      (Config.fileName ++
        " already exists in current directory")
  else
    match ← Config.writeTo host .default place with
    | .error failure => return .failed failure.message
    | .ok _ =>
        return {
          exitCode := 0
          stdout := "Created " ++ Config.fileName ++ "\n" }

/- Do what the arguments of the program ask for. -/
def run
    (host : Host m)
    (arguments : List String) : m Response := do
  match parse arguments with
  | .error early => return early.response
  | .ok (.check request verbosity) =>
      check Config.parse? host request verbosity
  | .ok (.init _) => initialConfig host

end CommandLine

end OnePass
