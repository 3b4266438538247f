import LittleMan.CommandLine.Options
import LittleMan.Disk
import LittleMan.Script

/-!
# The command line

The command line runs a check script, or obtains an image, by assembling a source or from an image file,
and runs it if asked to. Each stage begins only when those before it have succeeded: no image is written
for a faulty source, and no tape output is created before the image is there and the tape input is open.
-/

namespace LittleMan.CommandLine

/-- What the command line has done: what it left of the standard input, and what it wrote to its two
streams and to files, in order. -/
structure Work where
  disk : Disk
  stdin : Text := []
  stdout : Array UInt8 := #[]
  stderr : Array UInt8 := #[]
  /-- The files written, later ones behind earlier ones. -/
  written : List (Location × Text) := []

/-- What is left when the command line is done. -/
structure Finished where
  status : Nat
  stdout : Text
  stderr : Text
  /-- The files written, by their paths. -/
  written : List (Text × Text)
deriving DecidableEq, Repr

/-- Where what is written goes. -/
inductive Outlet where
  | stream (stream : StandardStream)
  | file (location : Location)
  | nowhere
deriving DecidableEq, Repr

/-- The standard streams by name. -/
def standard : Text := utf8 "-"

namespace Work

/-- Writes to the standard output. -/
def print (work : Work) (text : Text) : Work := { work with stdout := work.stdout ++ text }

/-- Writes to the standard error. -/
def complain (work : Work) (text : Text) : Work := { work with stderr := work.stderr ++ text }

/-- Logs a message on lines of its own. -/
def log (work : Work) (message : Text) : Work :=
  work.complain (if message.getLast? = some Text.newline then message else message ++ [Text.newline])

/-- Logs messages, in their order. -/
def logAll (work : Work) (messages : List Text) : Work := messages.foldl log work

/-- Reads all that is left of the standard input. -/
def readInput (work : Work) : Reader × Work := ({ pending := work.stdin }, { work with stdin := [] })

/-- Opens a file for reading. -/
def openFile (work : Work) (path : Text) : Except Fault (Reader × Work) := do
  match ← work.disk.readable path with
  | .file content | .device content _ => return ({ pending := content }, work)
  | .directory => return ({ pending := [], fault := some (.directoryRead path) }, work)
  | .stream .input => return work.readInput
  | .stream _ | .vacant => return ({ pending := [] }, work)

/-- Creates a file, or takes the standard output: where what is written to it goes, and what it takes. -/
def createFile (work : Work) (path : Text) : Except Fault (Outlet × Writer) := do
  if path = standard then return (.stream .output, {})
  let location ← work.disk.creatable path
  match work.disk.node location with
  | .file _ | .vacant | .directory => return (.file location, {})
  | .device _ true | .stream .input => return (.nowhere, {})
  | .device _ false => return (.nowhere, { limit := some 0, fault := .noRoom path })
  | .stream stream => return (.stream stream, {})

/-- Writes all that goes to an outlet. -/
def write (work : Work) (outlet : Outlet) (content : Text) : Work :=
  match outlet with
  | .stream .output => work.print content
  | .stream .errors => work.complain content
  | .stream .input | .nowhere => work
  | .file location =>
    { work with
      disk := work.disk.write location content
      written := work.written.filter (fun file => file.1 != location) ++ [(location, content)] }

/-- Ends with a status. -/
def finish (work : Work) (status : Nat) : Finished :=
  { status
    stdout := work.stdout.toList
    stderr := work.stderr.toList
    written := work.written.map fun file => (Disk.pathTo work.disk.home file.1, file.2) }

/-- Ends with a message. -/
def fatal (work : Work) (message : Text) : Finished := (work.log message).finish 1

/-- Ends with a fault about something named. -/
def fatalAbout (work : Work) (subject : Text) (fault : Fault) : Finished :=
  work.fatal (subject ++ utf8 ": " ++ fault.message)

end Work

/-! ### Running an image -/

/-- Appends what was written to what is still to be read. -/
def feed (tape : Tape) (text : Text) : Tape :=
  let extend (reader : Reader) : Reader := { reader with pending := reader.pending ++ text }
  match tape.input, tape.scanner with
  | .loaded reader, _ => { tape with input := .loaded (extend reader) }
  | .lent, some scanner =>
    { tape with scanner := some { scanner with reader := extend scanner.reader } }
  | _, _ => tape

/-- Runs a machine whose tape reads the very file that it writes. -/
def runLooped : Nat → Machine → Outcome × Machine
  | 0, m => (.running, m)
  | count + 1, m =>
    match m.tick with
    | (.running, after) =>
      let fresh := after.tape.written.drop m.tape.written.length
      runLooped count { after with tape := feed after.tape fresh }
    | finished => finished

/-- Opens the tape input: the standard input, or a file. -/
def openTape (work : Work) (options : Options) : Except Fault (Reader × Work) :=
  if options.tapeInput = standard then .ok work.readInput else work.openFile options.tapeInput

/-- Whether the tape is read from the file that it is written to. -/
def isLooped (work : Work) (options : Options) (outlet : Outlet) : Bool :=
  options.tapeInput != standard &&
    match outlet, work.disk.locate false options.tapeInput with
    | .file location, .ok other => location == other
    | _, _ => false

/-- Logs the trace of a run and writes what the tape took. On the standard error, each number stands
behind the instruction that sent it. -/
def writeRun (work : Work) (outlet : Outlet) (machine : Machine) : Work :=
  let trace := machine.trace.toList
  if outlet = .stream .errors ∧ machine.verbose then
    trace.foldl (fun work entry =>
      let work := work.log entry.text
      if entry.word = Instruction.output.encode then work.complain (Tape.line entry.accumulator)
      else work) work
  else (work.logAll (trace.map TraceEntry.text)).write outlet machine.tape.written

/-- The machine that runs an image. -/
def connected (options : Options) (image : Memory) (reader : Reader) (writer : Writer) : Machine :=
  { ({ verbose := options.verbose } : Machine).load (some image) with
    tape := { input := .loaded reader, output := some writer } }

/-- Runs the machine: on a tape that starts out empty and is fed with what it takes, or on a reader. -/
def runConnected (looped : Bool) (options : Options) (image : Memory) (reader : Reader) (writer : Writer) :
    Outcome × Machine :=
  let machine := connected options image (if looped then { pending := [] } else reader) writer
  if looped then runLooped machine.budget machine else machine.run

/-- Keeps what a run wrote and reports how it ended. -/
def conclude (work : Work) (outlet : Outlet) (result : Outcome × Machine) : Finished :=
  let work := writeRun work outlet result.2
  match result.1 with
  | .failed fault => work.fatal fault.message
  | _ => work.finish 0

/-- Runs an image on a tape. -/
def runImage (work : Work) (options : Options) (image : Memory) (reader : Reader) (outlet : Outlet)
    (writer : Writer) : Finished :=
  conclude work outlet (runConnected (isLooped work options outlet) options image reader writer)

/-- Opens the tape and runs an image. -/
def runStage (work : Work) (options : Options) (image : Memory) : Finished :=
  match openTape work options with
  | .error fault => work.fatalAbout options.tapeInput fault
  | .ok (reader, work) =>
    match work.createFile options.tapeOutput with
    | .error fault => work.fatalAbout options.tapeOutput fault
    | .ok (outlet, writer) => runImage work options image reader outlet writer

/-! ### Obtaining an image -/

/-- Writes the image. -/
def writeImage (work : Work) (output : Text) (image : Memory) : Except Fault Work := do
  let (outlet, writer) ← work.createFile output
  match writer.write image.text with
  | (some fault, _) => throw fault
  | (none, writer) => return work.write outlet writer.text

/-- Says what there is to say about an assembly. -/
def logAssembly (work : Work) (options : Options) (assembly : Assembly) (image : Memory) : Work :=
  let work := work.logAll (assembly.notes.map Note.text)
  if options.verbose then
    work.log (options.source ++ utf8 ": " ++ Decimal.plain image.usedCount ++ utf8 " cells used")
  else work

/-- Assembles the source and writes the image. -/
def assembleStage (work : Work) (options : Options) : Except Finished (Work × Memory) :=
  match work.openFile options.source with
  | .error fault => .error (work.fatalAbout options.source fault)
  | .ok (reader, work) =>
    let assembly := Assembler.parse { verbose := options.verbose } reader
    match assembly.image with
    | .error fault =>
      .error ((work.logAll (assembly.notes.map Note.text)).fatalAbout options.source fault)
    | .ok image =>
      let work := logAssembly work options assembly image
      match writeImage work options.output image with
      | .error fault => .error (work.fatalAbout options.output fault)
      | .ok work => .ok (work, image)

/-- Loads the image file. -/
def loadStage (work : Work) (options : Options) : Except Finished (Work × Memory) :=
  match work.openFile options.image with
  | .error fault => .error (work.fatalAbout options.image fault)
  | .ok (reader, work) =>
    match Memory.read reader with
    | .error fault => .error (work.fatalAbout options.image fault)
    | .ok image => .ok (work, image)

/-- Obtains the image that the options ask for. -/
def imageStage (work : Work) (options : Options) : Except Finished (Work × Memory) :=
  if !options.image.isEmpty then loadStage work options
  else if !options.source.isEmpty then assembleStage work options
  else .error (work.fatal (utf8 "lmc: No input file specified"))

/-! ### Check scripts -/

/-- Prints the results of a script and counts those that failed. -/
def reportStage (work : Work) (script : Text) (report : Report) : Finished :=
  let work := report.foldl (fun work result => work.print (result.text ++ [Text.newline])) work
  if report.passed then work.finish 0
  else
    (work.print (script ++ utf8 ": " ++ Decimal.inMessage report.failed ++ utf8 " of "
      ++ Decimal.inMessage report.length ++ utf8 " checks failed\n")).finish 1

/-- Runs a check script. -/
def scriptStage (language : Language) (work : Work) (options : Options) : Finished :=
  let path := options.script
  match work.openFile path with
  | .error fault => work.fatalAbout path fault
  | .ok ({ fault := some fault, .. }, work) => work.fatalAbout path fault
  | .ok (reader, work) =>
    let (failure, session) := language.run 0 reader.pending
    let work := (work.print session.output).logAll (session.log options.verbose)
    match failure with
    | some failure => work.fatal (path ++ utf8 ": " ++ failure.text path)
    | none => reportStage work path session.report.toList

/-! ### All of it -/

/-- Does what the options say. -/
def runOptions (language : Language) (work : Work) (options : Options) (rest : List Text) : Finished :=
  if !rest.isEmpty then
    work.fatal (utf8 "lmc: Unknown arguments: [" ++ Text.join (utf8 " ") rest ++ utf8 "]")
  else if !options.script.isEmpty then scriptStage language work options
  else
    match imageStage work options with
    | .error finished => finished
    | .ok (work, image) => if options.run then runStage work options image else work.finish 0

/-- Runs the command line on a disk and a standard input, with a language for check scripts. -/
def runWith (language : Language) (disk : Disk) (stdin : Text) (arguments : List Text) : Finished :=
  let work : Work := { disk, stdin }
  match parse {} arguments with
  | .help => (work.complain usage).finish 0
  | .wrong fault => (work.complain (fault.message ++ [Text.newline] ++ usage)).finish 2
  | .options options rest => runOptions language work options rest

/-- Runs the command line on a disk and a standard input. -/
def run (disk : Disk) (stdin : Text) (arguments : List Text) : Finished :=
  runWith Script.language disk stdin arguments

end LittleMan.CommandLine
