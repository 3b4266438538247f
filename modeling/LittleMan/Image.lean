import LittleMan.Command
import LittleMan.Scanner

/-!
# Images

An image is the memory that a program starts with. It is laid out from a list of commands, and it is
written as one number a line, without a line feed at the end. Reading skips blank lines and fills the
cells that the text does not give with zero.
-/

namespace LittleMan.Memory

/-- The memory that holds the words from cell 0 on and zero behind them. -/
def ofWords (words : List Word) : Memory := Vector.ofFn fun i : Fin cellCount => words.getD i 0

theorem get_ofWords (words : List Word) (cell : Address) : (ofWords words).get cell = words.getD cell 0 :=
  Vector.getElem_ofFn cell.isLt

/-- The image of a program. The number of commands is looked at before any of them. -/
def assemble (commands : List Command) : Except Fault Memory :=
  if cellCount < commands.length then .error (.capacity commands.length)
  else (commands.mapM Command.encode).map ofWords

/-- The number of cells up to the last one that does not hold zero. -/
def usedCount (memory : Memory) : Nat :=
  cellCount - (memory.toList.reverse.takeWhile (· == 0)).length

/-- The text of an image. -/
def text (memory : Memory) : Text :=
  Text.join [Text.newline] (memory.toList.map fun word => Decimal.plain word.toInt)

/-- The words on the lines of an image, `count` words having been read before. -/
def wordsOfLines (count : Nat) (read : List Word) : List Text → Except Fault (List Word)
  | [] => .ok read.reverse
  | line :: lines =>
    let line := Text.trim line
    if line = [] then wordsOfLines count read lines
    else if count = cellCount then .error .imageTooLong
    else
      match Decimal.word? line with
      | some word => wordsOfLines (count + 1) (word :: read) lines
      | none => .error (.imageValue line)

/-- The image that a reader gives. A fault on a line that could be read comes before the reader's own. -/
def read (reader : Reader) : Except Fault Memory :=
  let (lines, fault) := Scanner.tokens Splitter.lines { reader }
  match wordsOfLines 0 [] lines, fault with
  | .error fault, _ => .error fault
  | .ok _, some fault => .error fault
  | .ok [], none => .error .imageEmpty
  | .ok words, none => .ok (ofWords words)

end LittleMan.Memory
