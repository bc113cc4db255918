import OnePass.Files.Path

/-
  The files around a program.

  A place is given either by the names that lead to it from
  the root of all files, or by a path as somebody wrote it,
  which is understood from the working directory unless it
  starts with a slash.

  Key definitions include:
    * `Files.Place`
    * `Files.Place.child`
    * `Files.Place.parent?`
    * `Files.Host`
    * `Files.Host.text?`
-/

------------------------------------------------------------
-- Places
------------------------------------------------------------

namespace OnePass

namespace Files

inductive Place where
  /- Names from the root. -/
  | fromRoot (names : List String)
  /- A path that is understood from the working directory. -/
  | written (path : String)
deriving DecidableEq, Repr

namespace Place

/- Where the names of a place start. -/
inductive Origin where
  | root
  /- The root, by the slash that starts a path. -/
  | slash
  | workingDirectory
deriving DecidableEq, Repr

/- Where the names of a place start. -/
def origin : Place → Origin
| fromRoot _ => .root
| written path =>
    if Path.isRooted path then .slash else .workingDirectory

/- What is followed to get to a place. -/
def parts : Place → List String
| fromRoot names => names
| written path => Path.parts path

/- The names along a place. -/
def names : Place → List String
| fromRoot names => names
| written path => Path.names path

/- The place of something in a directory. -/
def child (place : Place) (name : String) : Place :=
  match place with
  | fromRoot names => fromRoot (names ++ [name])
  | written path => written (Path.child path name)

/- The place without its last name, if it has one. -/
def parent? : Place → Option Place
| fromRoot names =>
    if names.isEmpty then
      none
    else
      some (fromRoot names.dropLast)
| written path => (Path.parent? path).map written

/- Going up takes the last name away. -/
theorem names_of_parent?
    {place parent : Place}
    (hParent : place.parent? = some parent) :
    place.names ≠ [] ∧
      parent.names = place.names.dropLast := by
  cases place with
  | fromRoot names =>
      simp only [parent?] at hParent
      split at hParent
      · cases hParent
      · next hSome =>
          cases hParent
          exact ⟨by simpa [Place.names] using hSome, rfl⟩
  | written path =>
      rcases Option.map_eq_some_iff.mp hParent with
        ⟨text, hText, rfl⟩
      exact Path.names_of_parent? hText

theorem length_names_of_parent?
    {place parent : Place}
    (hParent : place.parent? = some parent) :
    parent.names.length < place.names.length := by
  rcases names_of_parent? hParent with ⟨hSome, hNames⟩
  have hPos := List.length_pos_iff.mpr hSome
  rw [hNames, List.length_dropLast]
  omega

end Place

end Files

end OnePass

------------------------------------------------------------
-- Hosts
------------------------------------------------------------

namespace OnePass

namespace Files

/- What a program can do with files, in a monad `m`. -/
structure Host (m : Type → Type) where
  /- The working directory, as names from the root. -/
  workingDirectory : m (List String)
  /- How the root is shown. -/
  rootName : String
  /- Something stands at a place. -/
  present : Place → m Bool
  /- The bytes of the file at a place, if it can be read. -/
  bytes? : Place → m (Option ByteArray)
  /- Make a file with the given text, or replace one. -/
  store : Place → String → m Bool
  /- All bytes of standard input. -/
  input : m ByteArray

namespace Host

variable {m : Type → Type}

/- How a place is shown. -/
def display
    (host : Host m) : Place → String
| .fromRoot names => host.rootName ++ "/".intercalate names
| .written path => path

/- The text of the file at a place, if it is UTF-8. -/
def text?
    [Monad m]
    (host : Host m)
    (place : Place) : m (Option String) := do
  return (← host.bytes? place).bind String.fromUTF8?

/- All of standard input, if it is UTF-8. -/
def inputText?
    [Monad m]
    (host : Host m) : m (Option String) := do
  return String.fromUTF8? (← host.input)

end Host

end Files

end OnePass
