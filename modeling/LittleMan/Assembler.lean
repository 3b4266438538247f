import LittleMan.Image
import LittleMan.Source

/-!
# The assembler

The assembler takes a source through its stages: tokens, lines, commands, image. It keeps the commands
of the last source that it assembled, and can note down what becomes of each line. Notes are made as
the lines are gone through, so those before a faulty line are made too.
-/

namespace LittleMan

/-- What became of a line. -/
inductive Note where
  /-- The command of the line goes to a cell. -/
  | placed (line : Int) (cell : Nat) (command : Command)
  /-- The line has no data word and is skipped. -/
  | skipped (line : Int) (tokens : Line)
deriving DecidableEq, Repr

namespace Note

/-- A note as a line of the log. -/
def text : Note → Text
  | .placed line cell command =>
    Decimal.plain line ++ utf8 ": " ++ Decimal.paddedToWidth 2 cell ++ utf8 " " ++ command.listing
  | .skipped line tokens =>
    Decimal.plain line ++ utf8 ": [" ++ Text.join (utf8 " ") (tokens.map Token.text)
      ++ utf8 "]: no data word, skipped"

/-- The note on a line whose command, if it has one, goes to a cell. -/
def ofGroup (cell : Nat) (group : Line.Group) (command : Option Command) : Note :=
  match command with
  | some command => .placed group.lead.line cell command
  | none => .skipped group.lead.line group.line

end Note

/-- The state of an assembler between sources. -/
structure Assembler where
  verbose : Bool := false
  commands : List Command := []
deriving DecidableEq, Repr

/-- What assembling a source gives: the image or a fault, the notes, and the assembler afterwards. -/
structure Assembly where
  image : Except Fault Memory
  notes : List Note := []
  assembler : Assembler
deriving Repr

namespace Assembler

/-- The commands of lines with the notes on them, behind the commands and notes made before. -/
def commandsWithNotes (placed : Array Command) (notes : Array Note) :
    List Line.Group → Except Fault (List Command) × List Note
  | [] => (.ok placed.toList, notes.toList)
  | group :: groups =>
    match Command.ofGroup? group with
    | .error fault => (.error fault, notes.toList)
    | .ok command =>
      commandsWithNotes (placed ++ command.toArray)
        (notes.push (Note.ofGroup placed.size group command)) groups

/-- Assembles a source. -/
def compile (assembler : Assembler) (source : Text) : Assembly :=
  let cleared := { assembler with commands := [] }
  match Source.lex (Source.normalize source) >>= Line.groups with
  | .error fault => { image := .error fault, assembler := cleared }
  | .ok groups =>
    let (commands, allNotes) := commandsWithNotes #[] #[] groups
    let notes := if assembler.verbose then allNotes else []
    match commands with
    | .error fault => { image := .error fault, notes, assembler := cleared }
    | .ok commands =>
      match Memory.assemble commands with
      | .error fault => { image := .error fault, notes, assembler := cleared }
      | .ok image => { image := .ok image, notes, assembler := { assembler with commands } }

/-- Assembles what a reader gives. If the reader fails, nothing is assembled. -/
def parse (assembler : Assembler) (reader : Reader) : Assembly :=
  match reader.fault with
  | some fault => { image := .error fault, assembler }
  | none => assembler.compile reader.pending

end Assembler

/-- The image of a source. -/
def compile (source : Text) : Except Fault Memory := (Assembler.compile {} source).image

end LittleMan
