import LittleMan.Scanner

/-!
# Tapes

The machine's channel to the outside. Its input is read as numbers between spaces, through a scanner
that is made when the first number is asked for, and its output is written as one number a line.

While there is a scanner it has the reader, so putting another reader on the tape changes nothing
until the tape is rewound. Rewinding drops the scanner with all it has read ahead; the reader itself
goes on where the reading stopped.
-/

namespace LittleMan

/-- The input of a tape. -/
inductive TapeInput where
  /-- No input. -/
  | none
  /-- A reader that no scanner has. -/
  | loaded (reader : Reader)
  /-- The scanner has the reader. -/
  | lent
deriving DecidableEq, Repr

structure Tape where
  input : TapeInput := .none
  scanner : Option Scanner := none
  output : Option Writer := none
deriving DecidableEq, Repr

namespace Tape

/-- Puts a reader on the tape, or takes the one on it away. -/
def setInput (tape : Tape) (reader : Option Reader) : Tape :=
  { tape with
    input :=
      match reader with
      | some reader => .loaded reader
      | none => .none }

/-- Puts a writer on the tape, or takes the one on it away. -/
def setOutput (tape : Tape) (writer : Option Writer) : Tape := { tape with output := writer }

/-- Forgets the scanner. -/
def rewind (tape : Tape) : Tape :=
  match tape.input, tape.scanner with
  | .lent, some scanner => { tape with input := .loaded scanner.reader, scanner := none }
  | _, _ => { tape with scanner := none }

/-- The tape as it is read from: with its scanner, unless it has no input. -/
def opened? (tape : Tape) : Option (Scanner × Tape) :=
  match tape.input, tape.scanner with
  | .none, _ => none
  | _, some scanner => some (scanner, tape)
  | .loaded reader, none => some ({ reader }, { tape with input := .lent })
  | .lent, none => none

/-- The number that a word of the tape spells. -/
def number (word : Text) : Except Fault Word :=
  match Decimal.word? word with
  | some value => .ok value
  | none => .error (.tapeValue word)

/-- Reads the next number. -/
def receive (tape : Tape) : Except Fault Word × Tape :=
  match tape.opened? with
  | none => (.error .tapeEmpty, tape)
  | some (scanner, tape) =>
    let (word, scanner) := scanner.next Splitter.words
    let result :=
      match word with
      | some word => number word
      | none => .error (scanner.fault?.getD .tapeEmpty)
    (result, { tape with scanner := some scanner })

/-- A number as a line of the output. -/
def line (value : Word) : Text := Decimal.plain value.toInt ++ [Text.newline]

/-- Writes a number. -/
def send (tape : Tape) (value : Word) : Option Fault × Tape :=
  match tape.output with
  | none => (some .tapeFull, tape)
  | some writer =>
    let (fault, writer) := writer.write (line value)
    (fault, { tape with output := some writer })

/-- All that the writer on the tape took. -/
def written (tape : Tape) : Text := (tape.output.map Writer.text).getD []

/-- The numbers on the tape up to its end or the first fault, at most `count`, behind those in `read`,
which are in reverse. -/
def numbersWithin : Nat → List Word → Tape → Except Fault (List Word)
  | 0, read, _ => .ok read.reverse
  | count + 1, read, tape =>
    match tape.receive with
    | (.ok value, tape) => numbersWithin count (value :: read) tape
    | (.error .tapeEmpty, _) => .ok read.reverse
    | (.error fault, _) => .error fault

/-- All the numbers of a text. A number takes at least one byte, so there are no more numbers than
bytes. -/
def numbers (text : Text) : Except Fault (List Word) :=
  numbersWithin (text.length + 1) [] { input := .loaded { pending := text } }

end Tape

end LittleMan
