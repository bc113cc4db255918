import OnePass.Config.Basic
import OnePass.Files.Host

/-
  Configuration files.

  Settings are taken from the file that is asked for, or
  else from the nearest file of the usual name, going up
  from the working directory. The nearest one counts even if
  it cannot be used. Which settings a text stands for, if
  any, is left to a decoder.

  Key definitions include:
    * `Config.fileName`
    * `Config.Failure`
    * `Config.readFrom`
    * `Config.writeTo`
    * `Config.nearestTo`
    * `Config.nearest`
    * `Config.choose`
-/

------------------------------------------------------------
-- Reading And Writing
------------------------------------------------------------

namespace OnePass

namespace Config

open Files (Host Place)

/- The usual name of a configuration file. -/
def fileName : String := "fanc.toml"

/- Why a configuration file cannot be used. -/
inductive Failure where
  | unreadable (path : String)
  | malformed (path : String)
  | unwritable (path : String)
deriving DecidableEq, Repr

namespace Failure

/- The text shown for a failure. -/
def message : Failure → String
| unreadable path => "Failed to read " ++ path
| malformed path => "Failed to parse " ++ path
| unwritable path => "Failed to write " ++ path

end Failure

variable {m : Type → Type} [Monad m]

/- The settings in the file at a place. -/
def readFrom
    (decode : String → Option Config)
    (host : Host m)
    (place : Place) : m (Except Failure Config) := do
  match ← host.text? place with
  | none => return .error (.unreadable (host.display place))
  | some text =>
      match decode text with
      | none => return .error (.malformed (host.display place))
      | some config => return .ok config

/- Write the settings to a file at a place. -/
def writeTo
    (host : Host m)
    (config : Config)
    (place : Place) : m (Except Failure Unit) := do
  if ← host.store place config.render then
    return .ok ()
  else
    return .error (.unwritable (host.display place))

end Config

end OnePass

------------------------------------------------------------
-- Searching
------------------------------------------------------------

namespace OnePass

namespace Config

open Files (Host Place)

/- Settings together with the directory they were found in. -/
structure Found where
  config : Config
  directory : Place
deriving DecidableEq, Repr

variable {m : Type → Type} [Monad m]
variable (decode : String → Option Config)

/-
  The settings for a directory: those of the first directory
  that has a configuration file, going up from this one, or
  why that file cannot be used.
-/
def nearestTo
    (host : Host m)
    (directory : Place) :
    m (Except Failure (Option Found)) := do
  let file := directory.child fileName
  if ← host.present file then
    match ← readFrom decode host file with
    | .ok config => return .ok (some { config, directory })
    | .error failure => return .error failure
  else
    match hParent : directory.parent? with
    | none => return .ok none
    | some parent =>
        have := Place.length_names_of_parent? hParent
        nearestTo host parent
termination_by directory.names.length

/- The settings for the working directory. -/
def nearest
    (host : Host m) : m (Except Failure (Option Found)) := do
  nearestTo decode host
    (.fromRoot (← host.workingDirectory))

/-
  The settings of a check: those of the file asked for, or
  those for the working directory, or the default ones.
-/
def choose
    (host : Host m)
    (explicit? : Option String) :
    m (Except Failure Config) := do
  match explicit? with
  | some path => readFrom decode host (.written path)
  | none =>
      match ← nearest decode host with
      | .ok (some found) => return .ok found.config
      | .ok none => return .ok default
      | .error failure => return .error failure

end Config

end OnePass
