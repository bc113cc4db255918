import OnePass.Analysis.Run
import OnePass.Trace

/-
  The journal of a check.

  A journal tells, step by step, what a check reads and
  decides. It is made by watching the analysis, and so never
  changes the outcome.

  Key definitions include:
    * `Journal.Level`
    * `Journal.Entry`
    * `Journal.ofSighting`
    * `Journal.ofCheck`
-/

------------------------------------------------------------
-- Entries
------------------------------------------------------------

namespace OnePass

namespace Journal

/- How much detail an entry adds, the least detail last. -/
inductive Level where
  | trace
  | debug
  | info
deriving DecidableEq, Repr

namespace Level

/- The name of a level. -/
def name : Level → String
| trace => "TRACE"
| debug => "DEBUG"
| info => "INFO"

end Level

structure Entry where
  level : Level
  message : String
deriving DecidableEq, Repr

end Journal

end OnePass

------------------------------------------------------------
-- Events
------------------------------------------------------------

namespace OnePass

namespace Journal

open Analysis (State)

/- The entry for a finished body. -/
def bodyFinished
    (before : State)
    (span : Span) : List Entry :=
  match before.current? with
  | some signature =>
      [⟨.debug,
        "finished body of '" ++ signature.name ++
          "' at line " ++ toString span.line⟩]
  | none => []

/-
  The entries for an event that is not refused. The depth
  shown for a scope counts the scope itself.
-/
def ofAccepted
    (event : EffectEvent Ty)
    (before after : State) : List Entry :=
  match event with
  | .functionSignature returns name formals =>
      let signature :=
        Analysis.signatureOf returns name formals
      [⟨.debug, "declared function " ++ signature.render⟩]
  | .functionEnd span => bodyFinished before span
  | .openScope =>
      [⟨.trace,
        "entered scope at depth " ++ toString after.depth⟩]
  | .closeScope =>
      [⟨.trace,
        "leaving scope at depth " ++ toString before.depth⟩]
  | .openLoop =>
      [⟨.debug,
        "entered loop, depth " ++ toString after.loops⟩]
  | .closeLoop =>
      [⟨.debug, "left loop, depth " ++ toString after.loops⟩]
  | .programEnd =>
      [⟨.debug,
        "program accepted with " ++
          toString after.declared.length ++
          " user functions"⟩]
  | _ => []

/- The entries for an event, whether or not it is refused. -/
def ofAnnounced
    (tokenCount : Nat) :
    EffectEvent Ty → List Entry
| .functionHeader _ name =>
    [⟨.trace, "function header '" ++ name.name ++ "'"⟩]
| .programEnd =>
    [⟨.trace,
      "end of input after " ++ toString tokenCount ++
        " tokens"⟩]
| _ => []

/- All entries for what is seen of one event. -/
def ofSighting
    (tokenCount : Nat)
    (sighting : Sighting State Ty) : List Entry :=
  match sighting.event with
  | .value _ => []
  | .effect event =>
      ofAnnounced tokenCount event ++
        if sighting.accepted then
          ofAccepted event sighting.before sighting.after
        else
          []

end Journal

end OnePass

------------------------------------------------------------
-- Checks
------------------------------------------------------------

namespace OnePass

namespace Journal

open Analysis (State Stop)

/- The entries for source that was cut into tokens. -/
def ofTokens
    (source : String)
    (tokens : List Token) : List Entry :=
  let count := toString tokens.length
  let lines := (Lines.ofChars source.toList).count
  [⟨.trace,
      "tokenized " ++ count ++ " tokens over " ++
        toString lines ++ " lines"⟩,
    ⟨.debug, "lexed " ++ count ++ " tokens"⟩]

/- The entries for tokens that cannot be read on. -/
def ofMisfit (misfit : Parser.Misfit) : List Entry :=
  let tooDeep :=
    match misfit.obstacle with
    | .tooDeep =>
        [⟨.debug,
          "nesting deeper than " ++
            toString Parser.maxNesting ++ " levels"⟩]
    | .unexpected => []
  tooDeep ++
    [⟨.debug,
      "syntax error at line " ++ toString misfit.span.line ++
        " near '" ++ misfit.near ++ "'"⟩]

/- The last entry for a program with a finding. -/
def ofFinding
    (name : String)
    (diagnostic : Diagnostic) : Entry :=
  ⟨.info, name ++ ": rejected (" ++ diagnostic.kind ++ ")"⟩

/- The last entries of a run of the parser. -/
def ofOutcome
    (name : String)
    (outcome : Except (Parser.Failure Stop) Unit)
    (final : State) : List Entry :=
  match outcome with
  | .ok _ =>
      [⟨.info,
        name ++ ": " ++ toString final.declared.length ++
          " functions accepted"⟩]
  | .error (.misfit misfit) =>
      ofMisfit misfit ++
        [ofFinding name (.pointAt .malformed misfit.span)]
  | .error (.refused (.finding diagnostic)) =>
      [ofFinding name diagnostic]
  | .error (.refused (.fault _)) => []

/- The journal of the check of a named source. -/
def ofCheck
    (name source : String) : List Entry :=
  match tokenize source with
  | .error diagnostic => [ofFinding name diagnostic]
  | .ok tokens =>
      let receiver :=
        Analysis.receiver.watched (ofSighting tokens.length)
      let (outcome, final) :=
        parse receiver tokens ⟨.initial, #[]⟩
      ofTokens source tokens ++ final.records.toList ++
        ofOutcome name outcome final.state

end Journal

end OnePass
