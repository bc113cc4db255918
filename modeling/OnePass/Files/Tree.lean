import OnePass.Files.Host

/-
  File trees as values.

  A tree records files and directories under the names that
  lead to them from the root. Whatever leads to a recorded
  entry is a directory. A tree may hold all files there are.
  Otherwise nothing outside its root can be reached.

  Key definitions include:
    * `Files.Tree`
    * `Files.Tree.entry?`
    * `Files.Tree.walk`
    * `Files.Tree.find?`
    * `Files.Tree.store`
    * `Files.Tree.host`
-/

------------------------------------------------------------
-- Trees
------------------------------------------------------------

namespace OnePass

namespace Files

inductive Entry where
  | file (contents : ByteArray)
  | directory

structure Tree where
  /- Recorded entries, the newest first. -/
  entries : List (List String × Entry)
  /- The root of the tree is the root of all files. -/
  isWhole : Bool := false

namespace Tree

/- The tree that has only its root. -/
def empty : Tree := { entries := [] }

/- What the names lead to. -/
def entry?
    (tree : Tree)
    (names : List String) : Option Entry :=
  match tree.entries.lookup names with
  | some entry => some entry
  | none =>
      let leadsOn := tree.entries.any fun (other, _) =>
        names.isPrefixOf other
      if names.isEmpty || leadsOn then
        some .directory
      else
        none

/- The names lead to a directory. -/
def isDirectory
    (tree : Tree)
    (names : List String) : Bool :=
  match tree.entry? names with
  | some .directory => true
  | _ => false

/- Record an entry. -/
def put
    (tree : Tree)
    (names : List String)
    (entry : Entry) : Tree :=
  { tree with entries := (names, entry) :: tree.entries }

end Tree

end Files

end OnePass

------------------------------------------------------------
-- Paths
------------------------------------------------------------

namespace OnePass

namespace Files

namespace Tree

/-
  One step along a path. One dot, or nothing, stays in a
  directory, two dots leave it, and a name enters what is in
  it. The root of all files is left for itself.
-/
def step?
    (tree : Tree)
    (place : List String)
    (part : String) : Option (List String) :=
  if Path.isIdle part then
    some place
  else if part = ".." then
    if place.isEmpty && !tree.isWhole then
      none
    else
      some place.dropLast
  else
    some (place ++ [part])

/-
  Follow the parts of a path from a place. Steps are taken in
  directories only. The answer leads straight from the root
  to something that exists.
-/
def walk
    (tree : Tree) :
    List String → List String → Option (List String)
| place, [] => some place
| place, part :: parts =>
    if !tree.isDirectory place then
      none
    else
      match tree.step? place part with
      | none => none
      | some next =>
          if (tree.entry? next).isNone then
            none
          else
            walk tree next parts

/- Where the names of a place start, if that is in the tree. -/
def base?
    (tree : Tree)
    (workingDirectory : List String)
    (place : Place) : Option (List String) :=
  match place.origin with
  | .root => some []
  | .slash => if tree.isWhole then some [] else none
  | .workingDirectory => some workingDirectory

/-
  Where a place starts and the parts of its path. The empty
  path leads nowhere.
-/
def route?
    (tree : Tree)
    (workingDirectory : List String)
    (place : Place) : Option (List String × List String) :=
  if place = .written "" then
    none
  else
    (tree.base? workingDirectory place).map (·, place.parts)

/- The names of what stands at a place. -/
def find?
    (tree : Tree)
    (workingDirectory : List String)
    (place : Place) : Option (List String) := do
  let (start, parts) ← tree.route? workingDirectory place
  tree.walk start parts

end Tree

end Files

end OnePass

------------------------------------------------------------
-- Reading And Writing
------------------------------------------------------------

namespace OnePass

namespace Files

namespace Tree

/- The bytes of the file at a place. -/
def bytes?
    (tree : Tree)
    (workingDirectory : List String)
    (place : Place) : Option ByteArray := do
  match tree.entry? (← tree.find? workingDirectory place) with
  | some (.file contents) => some contents
  | _ => none

/-
  The names of a file that can be made or replaced at a
  place: the directory it goes into exists, and there is no
  directory in its stead.
-/
def target?
    (tree : Tree)
    (workingDirectory : List String)
    (place : Place) : Option (List String) := do
  let (start, parts) ← tree.route? workingDirectory place
  let name ← parts.getLast?
  let parent ← tree.walk start parts.dropLast
  let names := parent ++ [name]
  if name ∈ ["", ".", ".."] || !tree.isDirectory parent ||
      tree.isDirectory names then
    none
  else
    some names

/- Make a file with the given text, or replace one. -/
def store
    (tree : Tree)
    (workingDirectory : List String)
    (place : Place)
    (text : String) : Option Tree := do
  let names ← tree.target? workingDirectory place
  return tree.put names (.file text.toUTF8)

/-
  The tree as the files around a program, which runs in a
  directory of the tree and is given standard input.
-/
def host
    (workingDirectory : List String)
    (input : ByteArray) : Host (StateM Tree) where
  workingDirectory := return workingDirectory
  rootName := ""
  present place := do
    return ((← get).find? workingDirectory place).isSome
  bytes? place := do
    return (← get).bytes? workingDirectory place
  store place text := do
    match (← get).store workingDirectory place text with
    | some tree =>
        set tree
        return true
    | none => return false
  input := return input

end Tree

end Files

end OnePass
