import OnePass.Config.Basic

/-
  What the arguments of a program ask for.

  Arguments are read from left to right. A request for the
  version or for help is answered as soon as it is met, and
  a mistake as soon as it is found, so that the first of
  them decides.

  Key definitions include:
    * `CommandLine.Command`
    * `CommandLine.CheckRequest`
    * `CommandLine.Request`
    * `CommandLine.parse`
-/

------------------------------------------------------------
-- Requests
------------------------------------------------------------

namespace OnePass

namespace CommandLine

/- The commands of the program. -/
inductive Command where
  | check
  | init
  | help
deriving DecidableEq, Repr

namespace Command

/- The command that a word names. -/
def ofName? : String → Option Command
| "check" | "c" => some check
| "init" => some init
| "help" => some help
| _ => none

/- The name of a command. -/
def name : Command → String
| check => "check"
| init => "init"
| help => "help"

end Command

/- A check, with what the arguments say about it. -/
structure CheckRequest where
  /- The source; standard input if it is not given. -/
  file? : Option String := none
  /- The configuration file to use instead of a search. -/
  config? : Option String := none
  /- The style that overrides the configured one. -/
  style? : Option Style := none
  /- No summary is wanted. -/
  noSummary : Bool := false
deriving DecidableEq, Repr

/- A request for a text, or a mistake in the arguments. -/
inductive Early where
  | version (command? : Option Command)
  | help (command? : Option Command)
  | usage
deriving DecidableEq, Repr

/- What the arguments ask for. -/
inductive Request where
  | check (request : CheckRequest) (verbosity : Nat)
  | init (verbosity : Nat)
deriving DecidableEq, Repr

end CommandLine

end OnePass

------------------------------------------------------------
-- Arguments
------------------------------------------------------------

namespace OnePass

namespace CommandLine

/- The form of an argument. -/
inductive Argument where
  /- A word, or a single dash. -/
  | word (text : String)
  /- After this, all arguments are words. -/
  | separator
  /- Two dashes and a name, and perhaps a value. -/
  | long (name : String) (value? : Option String)
  /- A dash and letters, each a flag of its own. -/
  | short (letters : List Char)
deriving DecidableEq, Repr

namespace Argument

/- The form of an argument. -/
def ofText (text : String) : Argument :=
  match text.toList with
  | ['-', '-'] => separator
  | '-' :: '-' :: rest =>
      let name := String.ofList (rest.takeWhile (· != '='))
      match rest.dropWhile (· != '=') with
      | _ :: value => long name (some (String.ofList value))
      | [] => long name none
  | '-' :: letter :: letters => short (letter :: letters)
  | _ => word text

end Argument

end CommandLine

end OnePass

------------------------------------------------------------
-- Flags Of Every Command
------------------------------------------------------------

namespace OnePass

namespace CommandLine

/-
  A flag that every command has: a greater verbosity, help
  or the version.
-/
def commonFlag
    (command? : Option Command)
    (verbosity : Nat) :
    String → Except Early Nat
| "verbose" => .ok (verbosity + 1)
| "help" => .error (.help command?)
| "version" => .error (.version command?)
| _ => .error .usage

/- The long name of a letter. -/
def letterName : Char → String
| 'v' => "verbose"
| 'h' => "help"
| 'V' => "version"
| _ => ""

/- Flags given by letters, from left to right. -/
def letterFlags
    (command? : Option Command)
    (verbosity : Nat)
    (letters : List Char) : Except Early Nat :=
  letters.foldlM
    (fun verbosity letter =>
      commonFlag command? verbosity (letterName letter))
    verbosity

end CommandLine

end OnePass

------------------------------------------------------------
-- Arguments Of A Check
------------------------------------------------------------

namespace OnePass

namespace CommandLine

namespace CheckRequest

/- Check a file; only one can be given, and it has a name. -/
def withFile
    (request : CheckRequest)
    (file : String) : Except Early CheckRequest :=
  if request.file?.isSome || file.isEmpty then
    .error .usage
  else
    .ok { request with file? := some file }

/- An option of a check that has a value is given once. -/
def withOption
    (request : CheckRequest)
    (name value : String) : Except Early CheckRequest :=
  match name with
  | "config" =>
      if request.config?.isSome || value.isEmpty then
        .error .usage
      else
        .ok { request with config? := some value }
  | "style" =>
      match request.style?, Style.ofName? value with
      | none, some style =>
          .ok { request with style? := some style }
      | _, _ => .error .usage
  | _ => .error .usage

/- No summary is wanted; this is said once. -/
def withoutSummary
    (request : CheckRequest) : Except Early CheckRequest :=
  if request.noSummary then
    .error .usage
  else
    .ok { request with noSummary := true }

end CheckRequest

/- The options of a check that have a value. -/
def checkOptions : List String := ["config", "style"]

/- The arguments of a check. -/
def parseCheck
    (request : CheckRequest)
    (verbosity : Nat) :
    List String → Except Early (CheckRequest × Nat)
| [] => .ok (request, verbosity)
| text :: rest =>
    match Argument.ofText text with
    | .word file => do
        parseCheck (← request.withFile file) verbosity rest
    | .separator => do
        let request ← rest.foldlM CheckRequest.withFile request
        return (request, verbosity)
    | .short letters => do
        let verbosity ←
          letterFlags (some .check) verbosity letters
        parseCheck request verbosity rest
    | .long name (some value) => do
        let request ← request.withOption name value
        parseCheck request verbosity rest
    | .long "no-summary" none => do
        parseCheck (← request.withoutSummary) verbosity rest
    | .long name none =>
        if name ∈ checkOptions then
          match rest with
          | next :: later =>
              match Argument.ofText next with
              | .word value => do
                  let request ← request.withOption name value
                  parseCheck request verbosity later
              | _ => .error .usage
          | [] => .error .usage
        else do
          let verbosity ←
            commonFlag (some .check) verbosity name
          parseCheck request verbosity rest

end CommandLine

end OnePass

------------------------------------------------------------
-- Arguments Of Other Commands
------------------------------------------------------------

namespace OnePass

namespace CommandLine

/- The arguments of a command that only has common flags. -/
def parseInit
    (verbosity : Nat) :
    List String → Except Early Nat
| [] => .ok verbosity
| text :: rest =>
    match Argument.ofText text with
    | .separator =>
        if rest.isEmpty then .ok verbosity else .error .usage
    | .short letters => do
        let verbosity ←
          letterFlags (some .init) verbosity letters
        parseInit verbosity rest
    | .long name none => do
        let verbosity ←
          commonFlag (some .init) verbosity name
        parseInit verbosity rest
    | _ => .error .usage

/- Help on the program, or on one of its commands. -/
def parseHelp : List String → Early
| [] => .help none
| [word] =>
    match Command.ofName? word with
    | some command => .help (some command)
    | none => .usage
| _ => .usage

/-
  The request that the arguments of the program make. A
  verbosity given after the command overrides one before it.
-/
def parseFrom
    (verbosity : Nat) :
    List String → Except Early Request
| [] => .error .usage
| text :: rest =>
    match Argument.ofText text with
    | .word word =>
        match Command.ofName? word with
        | some .check => do
            let (request, inner) ← parseCheck {} 0 rest
            return .check request
              (if inner = 0 then verbosity else inner)
        | some .init => do
            let inner ← parseInit 0 rest
            return .init (if inner = 0 then verbosity else inner)
        | some .help => .error (parseHelp rest)
        | none => .error .usage
    | .short letters => do
        parseFrom (← letterFlags none verbosity letters) rest
    | .long name none => do
        parseFrom (← commonFlag none verbosity name) rest
    | _ => .error .usage

/- The request that the arguments of the program make. -/
def parse (arguments : List String) : Except Early Request :=
  parseFrom 0 arguments

end CommandLine

end OnePass
