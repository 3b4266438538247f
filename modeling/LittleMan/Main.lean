import LittleMan.CommandLine

/-!
# The program

Looks at the files that the options name, hands them to the command line, and carries out what comes of
it. The standard input is read only if the tape is.
-/

namespace LittleMan.Program

/-- What keeps a file from being read, by the number of the error. -/
def obstacle : IO.Error → Obstacle
  | .inappropriateType _ code _ =>
    if code = 20 then .notDirectory else .isDirectory
  | .invalidArgument _ code _ =>
    if code = 36 then .nameTooLong else .missing
  | _ => .missing

/-- What comes of reading a path as a file. -/
def readFile (path : String) : IO (Except Obstacle ByteArray) := do
  try return .ok (← IO.FS.readBinFile path)
  catch error => return .error (obstacle error)

/-- A path as the file system takes it. -/
def fileName (path : Text) : String := String.ofList path.chars

/-- What stands at a place. -/
def nodeAt (location : Location) : IO Node := do
  match Disk.device? location with
  | some node => return node
  | none =>
    match ← readFile (fileName (Disk.slash :: Disk.pathTo [] location)) with
    | .ok content => return .file content.toList
    | .error .isDirectory => return .directory
    | .error _ => return .vacant

/-- All of the standard input. -/
def readAll : IO Text := do
  let stdin ← IO.getStdin
  let mut read := ByteArray.empty
  repeat
    let piece ← stdin.read 65536
    if piece.isEmpty then break
    read := read ++ piece
  return read.toList

/-- The files that the arguments name. -/
def paths (arguments : List Text) : List Text :=
  match CommandLine.parse {} arguments with
  | .options o _ => [o.source, o.output, o.image, o.script, o.tapeInput, o.tapeOutput]
  | _ => []

/-- Whether the arguments ask for the standard input by its name. -/
def namesStdin (arguments : List Text) : Bool :=
  match CommandLine.parse {} arguments with
  | .options o _ => o.run && o.tapeInput == CommandLine.standard
  | _ => false

end LittleMan.Program

open LittleMan LittleMan.Program in
/-- Runs the command line. -/
def main (arguments : List String) : IO UInt32 := do
  let arguments := arguments.map utf8
  let home := Disk.destination [] (utf8 (← IO.currentDir).toString)
  let locations := (paths arguments).flatMap (Disk.visited home)
  let nodes ← locations.mapM fun location => do return (location, ← nodeAt location)
  let disk : Disk := { home, node := fun location => (nodes.lookup location).getD .vacant }
  let readsStdin := namesStdin arguments || nodes.any fun entry => entry.2 == .stream .input
  let stdin ← if readsStdin then readAll else pure []
  let finished := CommandLine.run disk stdin arguments
  for (path, content) in finished.written do
    IO.FS.writeBinFile (fileName path) ⟨content.toArray⟩
  (← IO.getStdout).write ⟨finished.stdout.toArray⟩
  (← IO.getStderr).write ⟨finished.stderr.toArray⟩
  return UInt32.ofNat finished.status
