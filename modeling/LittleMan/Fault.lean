import LittleMan.Token

/-!
# Faults

Everything that can go wrong, by cause. A fault in a source is located by its line and a fault of a
running machine by its instruction pointer and the word that was being executed. `message` words
every fault; numbers in messages are grouped by commas, and the texts they quote stand unchanged.
-/

namespace LittleMan

/-- What keeps a file from being opened. -/
inductive Obstacle where
  /-- Nothing stands at the path, or a directory on the way is not there. -/
  | missing
  /-- The path goes on behind a file. -/
  | notDirectory
  /-- The path is that of a directory. -/
  | isDirectory
  | nameTooLong
  /-- The path is none. -/
  | invalid
deriving DecidableEq, Repr

/-- The wording of an obstacle. -/
def Obstacle.message : Obstacle → String
  | .missing => "no such file or directory"
  | .notDirectory => "not a directory"
  | .isDirectory => "is a directory"
  | .nameTooLong => "file name too long"
  | .invalid => "invalid argument"

inductive Fault where
  /-- A word of the source that is neither a mnemonic nor a number. -/
  | unknownWord (word : Text)
  /-- A token that cannot stand where it does. -/
  | unexpected (token : Token)
  /-- An operand that names no memory cell. -/
  | addressRange (value : Word)
  /-- A program with more commands than there are cells. -/
  | capacity (count : Int)
  /-- A command that no memory word stands for. -/
  | unencodable (command : Text)
  /-- The line of a source in which a fault was found. -/
  | inLine (line : Int) (cause : Fault)
  /-- A line of an image that is not a number. -/
  | imageValue (text : Text)
  /-- An image with more numbers than there are cells. -/
  | imageTooLong
  /-- An image without numbers. -/
  | imageEmpty
  /-- No more words on the tape. -/
  | tapeEmpty
  /-- A tape without an output. -/
  | tapeFull
  /-- A word of the tape that is not a number. -/
  | tapeValue (word : Text)
  /-- A memory word that encodes no instruction. -/
  | instructionInvalid
  /-- A value that the accumulator cannot hold. -/
  | overflow
  /-- An instruction pointer outside the memory. -/
  | ipOverflow
  /-- No tick left in a run. -/
  | tickLimit
  /-- A machine without an image. Only its wording is here: no machine reports it, since one without an image
  runs on an empty memory. -/
  | noImage
  /-- The instruction at which a machine stopped. -/
  | running (ip : Int) (word : Word) (cause : Fault)
  /-- A number that does not fit a memory word. -/
  | wordRange (value : Int)
  /-- A line or word that does not fit a scanner's buffer. -/
  | tokenTooLong
  /-- A reader that broke off. -/
  | readFailed
  /-- A writer that is full. -/
  | writeFailed
  /-- A file that cannot be opened. -/
  | unopened (path : Text) (obstacle : Obstacle)
  /-- A directory that is read like a file. -/
  | directoryRead (path : Text)
  /-- A file that takes no more. -/
  | noRoom (path : Text)
deriving DecidableEq, Repr

/-- The wording of a fault. -/
def Fault.message : Fault → Text
  | .unknownWord word => utf8 "'" ++ word ++ utf8 "' is not a mnemonic or number"
  | .unexpected token => utf8 "unexpected " ++ token.text
  | .addressRange value =>
    utf8 "address " ++ Decimal.inMessage value.toInt ++ utf8 " not in range 0..99"
  | .capacity count =>
    utf8 "program too long: " ++ Decimal.inMessage count ++ utf8 " commands for 100 cells"
  | .unencodable command => utf8 "'" ++ command ++ utf8 "' does not encode to a memory cell"
  | .inLine line cause => utf8 "line " ++ Decimal.inMessage line ++ utf8 " " ++ cause.message
  | .imageValue text => utf8 "image cell '" ++ text ++ utf8 "' is not a number"
  | .imageTooLong => utf8 "image longer than 100 cells"
  | .imageEmpty => utf8 "image empty"
  | .tapeEmpty => utf8 "tape empty"
  | .tapeFull => utf8 "tape has no output"
  | .tapeValue word => utf8 "tape '" ++ word ++ utf8 "' is not a number"
  | .instructionInvalid => utf8 "instruction invalid"
  | .overflow => utf8 "accumulator overflow"
  | .ipOverflow => utf8 "ip past end of memory"
  | .tickLimit => utf8 "tick limit reached"
  | .noImage => utf8 "no image loaded"
  | .running ip word cause =>
    utf8 "ip " ++ Decimal.inMessagePadded 2 ip ++ utf8 " word "
      ++ Decimal.inMessagePadded 3 word.toInt ++ utf8 " " ++ cause.message
  | .wordRange value => Decimal.inMessage value ++ utf8 " does not fit in a memory word"
  | .tokenTooLong => utf8 "bufio.Scanner: token too long"
  | .readFailed => utf8 "read failed"
  | .writeFailed => utf8 "write failed"
  | .unopened path obstacle => utf8 "open " ++ path ++ utf8 ": " ++ utf8 obstacle.message
  | .directoryRead path => utf8 "read " ++ path ++ utf8 ": is a directory"
  | .noRoom path => utf8 "write " ++ path ++ utf8 ": no space left on device"

end LittleMan
