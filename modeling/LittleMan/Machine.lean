import LittleMan.Image
import LittleMan.Tape

/-!
# The machine

The machine executes the words of its memory one a tick. A tick that is refused, because no tick is
left in the run or because the instruction pointer has left the memory, changes nothing. Any other tick
moves the pointer and the tick count before its instruction acts, and an instruction that fails has
changed nothing else but, for input and output, the tape.

A run ticks until the machine halts or fails. Without a limit that may never be: such a run is broken off
after so many ticks that nobody waits for it (`Machine.budget`), and its outcome is that it is still running.
-/

namespace LittleMan

/-- The most that the accumulator holds; its negative is the least. -/
def accumulatorLimit : Int := 999

/-- The ticks of a run unless told otherwise. -/
def defaultTicks : Int64 := 100000

/-- The state before an instruction and the word that was executed. -/
structure TraceEntry where
  ip : Int
  accumulator : Word
  ticks : Int64
  word : Word
deriving DecidableEq, Repr

/-- The machine with its tape. A run is limited if `maxTicks` is positive. -/
structure Machine where
  image : Option Memory := none
  memory : Memory := .zero
  accumulator : Word := 0
  ip : Int := 0
  ticks : Int64 := 0
  maxTicks : Int64 := defaultTicks
  halted : Bool := false
  verbose : Bool := false
  trace : Array TraceEntry := #[]
  tape : Tape := {}
deriving DecidableEq, Repr

/-- How a tick or a run came out. -/
inductive Outcome where
  | running
  | halted
  | failed (fault : Fault)
deriving DecidableEq, Repr

/-- The registers in one line. -/
def registersText (ip : Int) (accumulator : Word) (ticks : Int64) : Text :=
  utf8 "ip=" ++ Decimal.paddedToWidth 2 ip ++ utf8 " acc=" ++ Decimal.plain accumulator.toInt
    ++ utf8 " ticks=" ++ Decimal.plain ticks.toInt

/-- A trace entry as a line of the log. -/
def TraceEntry.text (entry : TraceEntry) : Text :=
  registersText entry.ip entry.accumulator entry.ticks ++ utf8 ": "
    ++ Decimal.paddedToWidth 3 entry.word.toInt

namespace Machine

/-- The registers in one line. -/
def text (m : Machine) : Text := registersText m.ip m.accumulator m.ticks

/-- Back to the start of the image, with the tape rewound. -/
def reset (m : Machine) : Machine :=
  { m with
    memory := m.image.getD .zero
    accumulator := 0
    ip := 0
    ticks := 0
    halted := false
    tape := m.tape.rewind }

/-- Takes an image, or none, and resets. -/
def load (m : Machine) (image : Option Memory) : Machine := { m with image }.reset

/-- Puts a value into the accumulator, if it holds such values. -/
def accumulate (m : Machine) (value : Int) : Option Fault × Machine :=
  if -accumulatorLimit ≤ value ∧ value ≤ accumulatorLimit then
    (none, { m with accumulator := Int16.ofInt value })
  else (some .overflow, m)

/-- Goes to a cell if a condition holds. -/
def branchIf (m : Machine) (condition : Prop) [Decidable condition] (address : Address) : Machine :=
  if condition then { m with ip := address.val } else m

/-- What an addressed instruction does. -/
def performAddressed (m : Machine) (operation : Operation) (address : Address) :
    Option Fault × Machine :=
  match operation with
  | .load => m.accumulate m.memory[address].toInt
  | .add => m.accumulate (m.accumulator.toInt + m.memory[address].toInt)
  | .subtract => m.accumulate (m.accumulator.toInt - m.memory[address].toInt)
  | .store => (none, { m with memory := m.memory.set address m.accumulator })
  | .branch => (none, m.branchIf True address)
  | .branchIfZero => (none, m.branchIf (m.accumulator = 0) address)
  | .branchIfNotNegative => (none, m.branchIf (0 ≤ m.accumulator) address)

/-- Puts the next number of the tape into the accumulator. -/
def performInput (m : Machine) : Option Fault × Machine :=
  match m.tape.receive with
  | (.ok value, tape) => { m with tape }.accumulate value.toInt
  | (.error fault, tape) => (some fault, { m with tape })

/-- Writes the accumulator to the tape. -/
def performOutput (m : Machine) : Option Fault × Machine :=
  let (fault, tape) := m.tape.send m.accumulator
  (fault, { m with tape })

/-- What an instruction does, the pointer being past it already. -/
def perform (m : Machine) : Instruction → Option Fault × Machine
  | .addressed operation address => m.performAddressed operation address
  | .input => m.performInput
  | .output => m.performOutput
  | .halt => (none, { m with halted := true })

/-- Executes a memory word. -/
def execute (m : Machine) (word : Word) : Option Fault × Machine :=
  match Instruction.decode? word with
  | some instruction => m.perform instruction
  | none => (some .instructionInvalid, m)

/-- The machine with the pointer and the tick count moved past a word, and the word noted down if the
machine is verbose. -/
def stepPast (m : Machine) (word : Word) : Machine :=
  { m with
    ip := m.ip + 1
    ticks := m.ticks + 1
    trace :=
      if m.verbose then
        m.trace.push { ip := m.ip, accumulator := m.accumulator, ticks := m.ticks, word }
      else m.trace }

/-- Whether a limited run has no tick left. -/
def outOfTicks (m : Machine) : Bool := 0 < m.maxTicks && m.maxTicks ≤ m.ticks

/-- Executes one instruction. -/
def tick (m : Machine) : Outcome × Machine :=
  if m.halted then (.halted, m)
  else if m.outOfTicks then (.failed (.running m.ip 0 .tickLimit), m)
  else
    match Address.ofInt? m.ip with
    | none => (.failed (.running m.ip 0 .ipOverflow), m)
    | some address =>
      let word := m.memory[address]
      match (m.stepPast word).execute word with
      | (none, after) => (if after.halted then .halted else .running, after)
      | (some fault, after) => (.failed (.running m.ip word fault), after)

/-- Ticks until the machine halts or fails, at most `count` times. -/
def runFor : Nat → Machine → Outcome × Machine
  | 0, m => (.running, m)
  | count + 1, m =>
    match m.tick with
    | (.running, m) => runFor count m
    | finished => finished

/-- The ticks that a run can take: those that are left and the one that is refused. A run without a
limit is broken off after 2 to the 62nd ticks, more than there is time for. -/
def budget (m : Machine) : Nat :=
  if 0 < m.maxTicks then (m.maxTicks.toInt - m.ticks.toInt).toNat + 1 else Nat.pow 2 62

/-- Ticks until the machine halts or fails, or until a run without a limit is broken off. -/
def run (m : Machine) : Outcome × Machine := runFor m.budget m

end Machine

end LittleMan
