import LittleMan.Token

/-!
# Instructions and their words

An addressed instruction is its operation's digit followed by the two digits of the address, so that
loading cell 5 is 505. The others have a word of their own. `encode` and `decode?` are two readings
of that table: one goes by operation, the other by the digits of the word.
-/

namespace LittleMan

/-- What the machine can execute. -/
inductive Instruction where
  | addressed (operation : Operation) (address : Address)
  | input
  | output
  | halt
deriving DecidableEq, Repr

/-- The leading digit of an addressed instruction's word. -/
def Operation.digit : Operation → Nat
  | .add => 1
  | .subtract => 2
  | .store => 3
  | .load => 5
  | .branch => 6
  | .branchIfZero => 7
  | .branchIfNotNegative => 8

/-- The operation with a leading digit. -/
def Operation.ofDigit? : Nat → Option Operation
  | 1 => some .add
  | 2 => some .subtract
  | 3 => some .store
  | 5 => some .load
  | 6 => some .branch
  | 7 => some .branchIfZero
  | 8 => some .branchIfNotNegative
  | _ => none

namespace Instruction

/-- The mnemonic that an instruction is written with. -/
def mnemonic : Instruction → Mnemonic
  | .addressed operation _ => .addressed operation
  | .input => .input
  | .output => .output
  | .halt => .halt

/-- The memory word of an instruction. -/
def encode : Instruction → Word
  | .addressed operation address => Int16.ofNat (operation.digit * 100 + address.val)
  | .input => 901
  | .output => 902
  | .halt => 0

/-- The instruction that a memory word is executed as. -/
def decode? (word : Word) : Option Instruction :=
  if word < 0 then none
  else if word = 0 then some .halt
  else if word = 901 then some .input
  else if word = 902 then some .output
  else
    let value := word.toInt.toNat
    (Operation.ofDigit? (value / 100)).map fun operation =>
      .addressed operation ⟨value % 100, Nat.mod_lt _ (by decide)⟩

end Instruction

end LittleMan
