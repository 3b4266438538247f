import LittleMan.Assembler
import LittleMan.Machine

/-!
# Checks

A check runs a program on a list of input words and compares the words it writes with those wanted. The
input is put on the tape as text, and the output is read back from the text on the tape.
-/

namespace LittleMan

/-- The words a program writes when it is run on input words. A limit that is not positive stands for
the machine's own. -/
def runSource (maxTicks : Int64) (source : Text) (input : List Word) : Except Fault (List Word) := do
  let image ← compile source
  let limit := if 0 < maxTicks then maxTicks else defaultTicks
  let words := Text.join (utf8 " ") (input.map fun word => Decimal.plain word.toInt)
  let tape : Tape := { input := .loaded { pending := words }, output := some {} }
  let machine := { ({ maxTicks := limit } : Machine).load (some image) with tape }
  match machine.run with
  | (.failed fault, _) => .error fault
  | (_, machine) => Tape.numbers machine.tape.written

/-- What a check found. -/
structure CheckResult where
  name : Text
  passed : Bool
  want : List Word := []
  got : List Word := []
  fault : Option Fault := none
deriving DecidableEq, Repr

/-- Words in a message. -/
def wordsText (words : List Word) : Text :=
  utf8 "[" ++ Text.join (utf8 " ") (words.map fun word => Decimal.inMessage word.toInt) ++ utf8 "]"

/-- A result in one line. -/
def CheckResult.text (result : CheckResult) : Text :=
  if result.passed then utf8 "PASS " ++ result.name
  else
    utf8 "FAIL " ++ result.name ++ utf8 ": "
      ++ match result.fault with
        | some fault => fault.message
        | none => utf8 "want " ++ wordsText result.want ++ utf8 ", got " ++ wordsText result.got

/-- Runs a program and compares what it writes with what is wanted. -/
def CheckResult.ofRun (maxTicks : Int64) (name source : Text) (input want : List Word) :
    CheckResult :=
  match runSource maxTicks source input with
  | .ok got => { name, passed := want == got, want, got }
  | .error fault => { name, passed := false, want, fault := some fault }

/-- The results of checks, in the order in which they were made. -/
abbrev Report := List CheckResult

/-- Every check passed. -/
def Report.passed (report : Report) : Bool := report.all CheckResult.passed

/-- The number of checks that failed. -/
def Report.failed (report : Report) : Nat := report.countP fun result => !result.passed

end LittleMan
