import OnePass.CommandLine.Run

/-
  The program.

  Everything is decided elsewhere. Here the files of the
  machine are made available, and the response is written.

  Key definitions include:
    * `Machine.host`
    * `main`
-/

------------------------------------------------------------
-- The Files Of The Machine
------------------------------------------------------------

namespace OnePass

namespace Machine

open Files (Host Place)

/- The path of a place, as the machine understands it. -/
def path : Place → String
| .fromRoot names => "/" ++ "/".intercalate names
| .written path => path

/- The bytes of a file, if it can be read. -/
def bytes? (place : Place) : IO (Option ByteArray) := do
  try
    return some (← IO.FS.readBinFile (path place))
  catch _ =>
    return none

/- Something stands at a place, though it may be no file. -/
def present (place : Place) : IO Bool := do
  try
    let _ ← IO.FS.readBinFile (path place)
    return true
  catch
    | .noFileOrDirectory _ _ _ => return false
    | _ => return true

/- Make a file, or replace one. -/
def store
    (place : Place)
    (text : String) : IO Bool := do
  try
    IO.FS.writeFile (path place) text
    return true
  catch _ =>
    return false

/- All bytes that are left in a stream. -/
partial def readAll
    (stream : IO.FS.Stream)
    (before : ByteArray) : IO ByteArray := do
  let more ← stream.read 65536
  if more.isEmpty then
    return before
  else
    readAll stream (before ++ more)

/- The files of the machine. -/
def host : Host IO where
  workingDirectory := do
    let directory := (← IO.currentDir).toString
    return (directory.splitOn "/").filter (!·.isEmpty)
  rootName := "/"
  present := present
  bytes? := bytes?
  store := store
  input := do readAll (← IO.getStdin) .empty

end Machine

end OnePass

------------------------------------------------------------
-- The Program
------------------------------------------------------------

namespace OnePass

namespace Machine

open CommandLine (Remark Response)

/- What a remark looks like on standard error. -/
def remarkText : Remark → String
| .nothing => ""
| .failure message => "Error: " ++ message ++ "\n"
| .report report => report.render
| .usage => CommandLine.usageText none

/- Write a response to the streams of the program. -/
def write (response : Response) : IO Unit := do
  let errors ← IO.getStderr
  for entry in response.journal do
    errors.putStr
      ("[" ++ entry.level.name ++ "] " ++ entry.message ++ "\n")
  (← IO.getStdout).putStr response.stdout
  errors.putStr (remarkText response.remark)

end Machine

end OnePass

/- Run the program on its arguments. -/
def main (arguments : List String) : IO UInt32 := do
  let response ←
    OnePass.CommandLine.run OnePass.Machine.host arguments
  OnePass.Machine.write response
  return response.exitCode
