/-
  The settings of a check.

  Key definitions include:
    * `Style`
    * `Config`
    * `Config.render`
-/

------------------------------------------------------------
-- Settings
------------------------------------------------------------

namespace OnePass

/- How a finding is shown. -/
inductive Style where
  /- One line on standard output. -/
  | plain
  /- A report over the source on standard error. -/
  | fancy
deriving DecidableEq, Repr

namespace Style

/- The word for a style in files and on the command line. -/
def name : Style → String
| plain => "plain"
| fancy => "fancy"

/- The style that a word names. -/
def ofName? (word : String) : Option Style :=
  [plain, fancy].find? (·.name = word)

end Style

/- A setting that is not given has the value shown here. -/
structure Config where
  style : Style := .plain
  /- Show the functions of an accepted program. -/
  summary : Bool := true
deriving DecidableEq, Repr

namespace Config

/- The settings of a check for which nothing is given. -/
def default : Config := {}

end Config

end OnePass

------------------------------------------------------------
-- Written Form
------------------------------------------------------------

namespace OnePass

namespace Config

/- The text of a configuration file with these settings. -/
def render (config : Config) : String :=
  "[diagnostics]\nstyle = \"" ++ config.style.name ++
    "\"\n\n[output]\nsummary = " ++
    (if config.summary then "true" else "false") ++ "\n"

end Config

end OnePass
