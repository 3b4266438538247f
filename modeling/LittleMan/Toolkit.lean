import LittleMan.Check
import LittleMan.Script.Failure

/-!
# The toolkit of check scripts

A check script calls three functions: `assemble` gives the image of a source, `run` the words that a
program writes, and `check` records a result in the report.

The language of the scripts is not part of the toolkit. It is given by what the toolkit needs of it
(`Language`): it tells the arguments of a call apart, reads the numbers in lists, and runs a script on a
host (`Host`), which makes the calls and prints the lines that the script asks for.

A call can fail because of its arguments, because an item of a list is not a memory word, and, for
`assemble` and `run`, because of the program. A `check` of a faulty program does not fail: its result
tells the fault.
-/

namespace LittleMan

/-! ### Calls -/

/-- An item of a list, as far as a call looks at it. -/
inductive Item where
  | number (n : Int)
  /-- An item of a type that is not a number. -/
  | other (type : String)
deriving DecidableEq, Repr

/-- An argument, as far as a call looks at it. -/
inductive Argument where
  | text (text : Text)
  | list (items : List Item)
  /-- An argument of a type that no parameter takes. -/
  | other (type : String)
deriving DecidableEq, Repr

/-- What a parameter takes. -/
inductive Kind where
  | text
  | list
deriving DecidableEq, Repr

/-- Whether an argument is of a kind. -/
def Argument.hasKind : Argument → Kind → Bool
  | .text _, .text => true
  | .list _, .list => true
  | _, _ => false

/-- A parameter of a function. -/
structure Parameter where
  name : String
  kind : Kind
  optional : Bool := false
deriving DecidableEq, Repr

/-- The functions that a check script can call. -/
inductive Tool where
  | assemble
  | run
  | check
deriving DecidableEq, Repr

namespace Tool

/-- The name of a function. -/
def name : Tool → String
  | .assemble => "assemble"
  | .run => "run"
  | .check => "check"

/-- The function with a name. -/
def ofName? (name : String) : Option Tool :=
  [Tool.assemble, .run, .check].find? fun tool => tool.name == name

/-- The parameters of a function, in the order of their positions. -/
def parameters : Tool → List Parameter
  | .assemble => [{ name := "source", kind := .text }]
  | .run => [{ name := "source", kind := .text }, { name := "input", kind := .list, optional := true }]
  | .check =>
    [{ name := "name", kind := .text }, { name := "source", kind := .text },
      { name := "input", kind := .list, optional := true },
      { name := "output", kind := .list, optional := true }]

end Tool

/-- A call of a toolkit function. -/
structure Call where
  tool : Tool
  positional : List Argument := []
  keywords : List (Text × Argument) := []
deriving DecidableEq, Repr

/-- Why a call failed. -/
inductive CallFault where
  /-- The language refuses the arguments, or an item as a number. -/
  | refused (message : Text)
  /-- A fault of the program, or of a number that is no memory word. -/
  | program (fault : Fault)
deriving DecidableEq, Repr

namespace CallFault

/-- The wording of a failed call. -/
def message : CallFault → Text
  | .refused message => message
  | .program fault => fault.message

/-- The fault behind a failed call, if it is one of the program or of a number. -/
def cause? : CallFault → Option Fault
  | .program fault => some fault
  | .refused _ => none

/-- Makes what the language has to say about a call its fault. -/
def ofLanguage {α : Type} (result : Except Text α) : Except CallFault α :=
  result.mapError CallFault.refused

/-- Makes a program's fault the fault of a call. -/
def ofProgram {α : Type} (result : Except Fault α) : Except CallFault α :=
  result.mapError CallFault.program

end CallFault

/-- The failure of a script that a failed call stops. -/
def Script.Failure.ofCall (fault : CallFault) : Script.Failure :=
  .stopped (.failed fault.message fault.cause?)

/-- The arguments of a call by parameter. -/
abbrev Bound := List (Parameter × Argument)

namespace Bound

/-- The argument of a parameter. -/
def given? (bound : Bound) (name : String) : Option Argument :=
  (List.find? (fun entry => entry.1.name == name) bound).map Prod.snd

/-- The text given for a parameter. -/
def text (bound : Bound) (name : String) : Text :=
  match given? bound name with
  | some (.text text) => text
  | _ => []

/-- The list given for a parameter, and an empty one if there is none. -/
def items (bound : Bound) (name : String) : List Item :=
  match given? bound name with
  | some (.list items) => items
  | _ => []

end Bound

/-! ### Sessions -/

/-- What calls have left behind: the results of the checks and the lines printed. -/
structure Session where
  report : Array CheckResult := #[]
  printed : Array Text := #[]
deriving DecidableEq, Repr

namespace Session

/-- Records the result of a check. -/
def record (session : Session) (result : CheckResult) : Session :=
  { session with report := session.report.push result }

/-- Prints a line. -/
def print (session : Session) (line : Text) : Session :=
  { session with printed := session.printed.push line }

/-- All that was printed, each line with its end. -/
def output (session : Session) : Text :=
  session.printed.toList.flatMap fun line => line ++ [Text.newline]

/-- The lines of the session's log: with `verbose`, the result of each check. -/
def log (verbose : Bool) (session : Session) : List Text :=
  if verbose then session.report.toList.flatMap fun result => result.text.lines else []

end Session

/-! ### Languages -/

/-- What a call gives back to the script. -/
inductive Returned where
  | numbers (numbers : List Int)
  | truth (b : Bool)
deriving DecidableEq, Repr

/-- Words as they are given back to a script. -/
def Returned.ofWords (words : List Word) : Returned := .numbers (words.map Int16.toInt)

/-- What a script can do outside of itself: make a call, which gives something back or fails, and print a
line. Both may change the session. -/
structure Host where
  call : Call → Session → Except CallFault Returned × Session
  print : Text → Session → Session

/-- The language of check scripts, as far as the toolkit relies on it. -/
structure Language where
  /-- Tells the arguments of a call apart, by the name of the function and its parameters. -/
  unpack : String → List Parameter → List Argument → List (Text × Argument) → Except Text Bound
  /-- The number of 32 bits that an item is. -/
  int32 : Item → Except Text Int
  /-- Runs a script on a host, from a session on. -/
  exec : Host → Text → Session → Option Script.Failure × Session

namespace Language

variable (language : Language)

/-- The memory word that an item is. -/
def toWord (item : Item) : Except CallFault Word := do
  let n ← CallFault.ofLanguage (language.int32 item)
  if n < -32768 ∨ 32767 < n then throw (.program (.wordRange n)) else return Int16.ofInt n

/-- The words in the list given for a parameter. -/
def words (bound : Bound) (name : String) : Except CallFault (List Word) :=
  (bound.items name).mapM language.toWord

/-- Makes a call. A check leaves its result in the session. Of its two lists the wanted output is looked
at first. -/
def perform (maxTicks : Int64) (call : Call) (session : Session) : Except CallFault (Returned × Session) := do
  let bound ← CallFault.ofLanguage
    (language.unpack call.tool.name call.tool.parameters call.positional call.keywords)
  match call.tool with
  | .assemble =>
    let image ← CallFault.ofProgram (compile (bound.text "source"))
    return (.ofWords image.toList, session)
  | .run =>
    let input ← language.words bound "input"
    let output ← CallFault.ofProgram (runSource maxTicks (bound.text "source") input)
    return (.ofWords output, session)
  | .check =>
    let want ← language.words bound "output"
    let input ← language.words bound "input"
    let result := CheckResult.ofRun maxTicks (bound.text "name") (bound.text "source") input want
    return (.truth result.passed, session.record result)

/-- The host that makes the calls of the toolkit. A call that fails leaves the session as it is. -/
def host (maxTicks : Int64) : Host where
  call call session :=
    match language.perform maxTicks call session with
    | .error fault => (.error fault, session)
    | .ok (returned, after) => (.ok returned, after)
  print line session := session.print line

/-- Runs a script on the toolkit. -/
def run (maxTicks : Int64) (script : Text) : Option Script.Failure × Session :=
  language.exec (language.host maxTicks) script {}

/-- The report of a script, and none if the script fails. -/
def report (maxTicks : Int64) (script : Text) : Except Script.Failure Report :=
  match language.run maxTicks script with
  | (some failure, _) => .error failure
  | (none, session) => .ok session.report.toList

end Language

end LittleMan
