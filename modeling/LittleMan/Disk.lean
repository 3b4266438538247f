import LittleMan.Reader

/-!
# Files

What the command line sees of the file system: what stands at each place in it, and which place a path
leads to. Files are opened for reading and created for writing; a directory can be opened, but reading it
fails.

A path is a row of steps between slashes. Each step but the last leads through a directory, and so does
the last one if a slash follows it: a path that ends in a slash is never that of a file.
-/

namespace LittleMan

/-- The streams that a program is started with. -/
inductive StandardStream where
  | input
  | output
  | errors
deriving DecidableEq, Repr

/-- What stands at a place. -/
inductive Node where
  | file (content : Text)
  | directory
  /-- Nothing, in a directory where a file can be created. -/
  | vacant
  /-- What can be read of a device, and whether it takes what is written to it or has no room. -/
  | device (content : Text) (hasRoom : Bool)
  | stream (stream : StandardStream)
deriving DecidableEq, Repr

/-- The steps from the root of the file system to a place, the last one first. -/
abbrev Location := List Text

/-- What stands at each place. -/
structure Disk where
  /-- The directory that paths start from. -/
  home : Location
  node : Location → Node

namespace Disk

/-! ### Paths -/

/-- The slash between the steps of a path. -/
def slash : UInt8 := 47

/-- The step that stays where it is. -/
def here : Text := utf8 "."

/-- The step to the directory around. -/
def up : Text := utf8 ".."

/-- The longest step that there is. -/
def stepLimit : Nat := 255

/-- The longest path that there is. -/
def pathLimit : Nat := 4095

/-- The pieces of a path between its slashes, behind `read`, which is in reverse. -/
def piecesFrom (read : Text) : Text → List Text
  | [] => [read.reverse]
  | byte :: rest =>
    if byte = slash then read.reverse :: piecesFrom [] rest else piecesFrom (byte :: read) rest

/-- The steps of a path. Slashes next to each other are like one. -/
def steps (path : Text) : List Text := (piecesFrom [] path).filter (!·.isEmpty)

/-- Whether a path starts at the root of the file system. -/
def isAbsolute (path : Text) : Bool := path.head? == some slash

/-- Whether a path can only be that of a directory. -/
def endsInSlash (path : Text) : Bool := path.getLast? == some slash

/-- The place that a step leads to. The root is around itself. -/
def move (location : Location) (step : Text) : Location :=
  if step = here then location else if step = up then location.tail else step :: location

/-- The place that a path starts from. -/
def start (home : Location) (path : Text) : Location := if isAbsolute path then [] else home

/-- The place that a path names if all directories on the way are there. -/
def destination (home : Location) (path : Text) : Location :=
  (steps path).foldl move (start home path)

/-- The places that a path leads through, the last one first. -/
def visited (home : Location) (path : Text) : List Location :=
  (steps path).foldl (fun places step => move (places.headD []) step :: places) [start home path]

/-- The path to a place: from the directory `home` on if the place is inside it, else from the root. -/
def pathTo (home location : Location) : Text :=
  let name (location : Location) : Text := Text.join [slash] location.reverse
  if home.isSuffixOf location then name (location.take (location.length - home.length))
  else slash :: name location

/-! ### Following a path -/

/-- The directory that a row of steps leads to. -/
def enter (disk : Disk) (location : Location) : List Text → Except Obstacle Location
  | [] => .ok location
  | step :: rest =>
    if stepLimit < step.length then .error .nameTooLong
    else
      let next := move location step
      match disk.node next with
      | .directory => disk.enter next rest
      | .vacant => .error .missing
      | _ => .error .notDirectory

/-- The place behind the last step of a path, in a directory. A file cannot be created at a path that ends
in a slash, whatever stands there. -/
def lastPlace (disk : Disk) (creating slashed : Bool) (directory : Location) (step : Text) :
    Except Obstacle Location :=
  if step = here ∨ step = up then .ok (move directory step)
  else if slashed then if creating then .error .isDirectory else disk.enter directory [step]
  else if stepLimit < step.length then .error .nameTooLong
  else .ok (step :: directory)

/-- The place that a path leads to. -/
def locate (disk : Disk) (creating : Bool) (path : Text) : Except Obstacle Location := do
  if path.contains 0 then throw .invalid
  if pathLimit < path.length then throw .nameTooLong
  if path.isEmpty then throw .missing
  match (steps path).reverse with
  | [] => return start disk.home path
  | last :: before =>
    let directory ← disk.enter (start disk.home path) before.reverse
    disk.lastPlace creating (endsInSlash path) directory last

/-- What a file that is opened for reading is. -/
def readable (disk : Disk) (path : Text) : Except Fault Node := do
  match disk.locate false path with
  | .error obstacle => throw (.unopened path obstacle)
  | .ok location =>
    match disk.node location with
    | .vacant => throw (.unopened path .missing)
    | node => return node

/-- The place of a file that is created. -/
def creatable (disk : Disk) (path : Text) : Except Fault Location := do
  match disk.locate true path with
  | .error obstacle => throw (.unopened path obstacle)
  | .ok location =>
    match disk.node location with
    | .directory => throw (.unopened path .isDirectory)
    | _ => return location

/-- The disk with a file written. -/
def write (disk : Disk) (location : Location) (content : Text) : Disk :=
  { disk with node := fun other => if other = location then .file content else disk.node other }

/-! ### A directory of files -/

/-- What a device without end gives out before anyone has enough of it. -/
def zeros : Text := List.replicate 65536 0

/-- The devices and streams by their paths. -/
def devices : List (String × Node) :=
  [("/dev/null", .device [] true), ("/dev/zero", .device zeros true), ("/dev/full", .device zeros false),
    ("/dev/stdin", .stream .input), ("/dev/fd/0", .stream .input),
    ("/dev/stdout", .stream .output), ("/dev/fd/1", .stream .output),
    ("/dev/stderr", .stream .errors), ("/dev/fd/2", .stream .errors)]

/-- The device or stream at a place. -/
def device? (location : Location) : Option Node :=
  (devices.find? fun device => destination [] (utf8 device.1) == location).map Prod.snd

/-- The directories that a file system usually has. -/
def usualDirectories : List String :=
  ["/bin", "/dev", "/dev/fd", "/etc", "/home", "/lib", "/media", "/mnt", "/opt", "/proc", "/root",
    "/run", "/sbin", "/srv", "/sys", "/tmp", "/usr", "/var"]

/-- A directory for work. Its name is not known: it is one that no path spells. -/
def workplace : Location := [[0], utf8 "tmp"]

/-- A directory that holds just these files, in a usual file system. -/
def ofFiles (files : List (Text × Text)) : Disk where
  home := workplace
  node location :=
    let place (name : Text) : Location := destination workplace name
    match files.find? fun file => place file.1 == location, device? location with
    | some (_, content), _ => .file content
    | none, some device => device
    | none, none =>
      if location.isSuffixOf workplace
          || (usualDirectories.any fun name => place (utf8 name) == location)
          || files.any fun file => location.isSuffixOf (place file.1) then .directory
      else .vacant

end Disk

end LittleMan
