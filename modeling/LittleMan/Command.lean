import LittleMan.Instruction
import LittleMan.Line

/-!
# Commands

A command is what a source line puts into a memory cell: an instruction or a word of data. Commands
are numbered like mnemonics; a number that no command has is kept, can be listed, and has no memory
word.
-/

namespace LittleMan

/-- What a source line puts into a memory cell. -/
inductive Command where
  | instruction (i : Instruction)
  | data (value : Word)
  | unknown (code : Int)
deriving DecidableEq, Repr

namespace Command

/-- The command of a number, with the operand that it takes out of the two given. -/
def ofFields (code : Int) (address : Address) (literal : Word) : Command :=
  match Mnemonic.ofCode? code with
  | some (.addressed operation) => .instruction (.addressed operation address)
  | some .input => .instruction .input
  | some .output => .instruction .output
  | some .halt => .instruction .halt
  | some .data => .data literal
  | none => .unknown code

/-- The number of a command. -/
def code : Command → Int
  | .instruction i => i.mnemonic.code
  | .data _ => Mnemonic.data.code
  | .unknown code => code

/-- The address of a command, and cell 0 for one that takes none. -/
def address : Command → Address
  | .instruction (.addressed _ address) => address
  | _ => ⟨0, by decide⟩

/-- The data word of a command, and 0 for one that takes none. -/
def literal : Command → Word
  | .data value => value
  | _ => 0

/-- A command as a source line. -/
def listing : Command → Text
  | .instruction (.addressed operation address) =>
    (Mnemonic.addressed operation).text ++ utf8 " " ++ Decimal.plain address.val
  | .instruction i => i.mnemonic.text
  | .data value => Mnemonic.data.text ++ utf8 " " ++ Decimal.plain value.toInt
  | .unknown code => utf8 "Op(" ++ Decimal.plain code ++ utf8 ")"

/-- The decimal of a command's memory word. For an addressed instruction it is the operation's digit and the
two digits of the address. -/
def digits (command : Command) : Except Fault Text :=
  match command with
  | .instruction .input => .ok (Decimal.plain 901)
  | .instruction .output => .ok (Decimal.plain 902)
  | .instruction .halt => .ok (Decimal.plain 0)
  | .instruction (.addressed operation address) =>
    .ok (Decimal.plain operation.digit ++ Decimal.paddedToWidth 2 address.val)
  | .data value => .ok (Decimal.plain value.toInt)
  | .unknown _ => .error (.unencodable command.listing)

/-- The memory word of a command, which its digits spell. -/
def encode (command : Command) : Except Fault Word := do
  let digits ← command.digits
  match Decimal.word? digits with
  | some word => return word
  | none => throw (.unencodable digits)

/-- The instruction of an addressed operation with its operand token. -/
def ofOperand (operation : Operation) (operand : Token) : Except Fault Command :=
  match Address.ofInt? operand.value.toInt with
  | some address => .ok (.instruction (.addressed operation address))
  | none => .error (.inLine operand.line (.addressRange operand.value))

/-- The command of a line that is not blank. Data without a number makes none. -/
def ofGroup? (group : Line.Group) : Except Fault (Option Command) :=
  match group.lead.tag with
  | .mnemonic (.addressed operation) =>
    match group.rest with
    | [operand] =>
      if operand.tag = .literal then (ofOperand operation operand).map some
      else .error (.inLine group.lead.line (.unexpected group.lead))
    | _ => .error (.inLine group.lead.line (.unexpected group.lead))
  | .mnemonic .input => .ok (some (.instruction .input))
  | .mnemonic .output => .ok (some (.instruction .output))
  | .mnemonic .halt => .ok (some (.instruction .halt))
  | .mnemonic .data => .ok (group.rest.head?.map fun datum => .data datum.value)
  | _ => .error (.inLine group.lead.line (.unexpected group.lead))

/-- The command of a line. A blank line makes none. -/
def ofLine? (line : Line) : Except Fault (Option Command) :=
  match Line.Group.ofLine? line with
  | none => .ok none
  | some group => ofGroup? group

/-- The commands of lines, in order. -/
def ofLines (lines : List Line) : Except Fault (List Command) := lines.filterMapM ofLine?

end Command

end LittleMan
