import LittleMan.Word
import LittleMan.Text.Decimal

/-!
# Tokens

A source line is made of mnemonics, number literals and the end of the line. A token keeps the line
it was read from. Tags are also numbered, so that a tag no token class has can be spoken of: it is
kept by its number and fits no place in a line.
-/

namespace LittleMan

/-- The operations that name a memory cell. -/
inductive Operation where
  | load
  | store
  | add
  | subtract
  | branch
  | branchIfZero
  | branchIfNotNegative
deriving DecidableEq, Repr

/-- The reserved words that lead a source line. -/
inductive Mnemonic where
  | addressed (operation : Operation)
  | input
  | output
  | halt
  | data
deriving DecidableEq, Repr

namespace Mnemonic

/-- The mnemonics in the order of their numbers. -/
def all : List Mnemonic :=
  [.addressed .load, .addressed .store, .addressed .add, .addressed .subtract, .input, .output,
    .halt, .addressed .branch, .addressed .branchIfZero, .addressed .branchIfNotNegative, .data]

/-- The reserved word itself. -/
def name : Mnemonic → String
  | .addressed .load => "LDA"
  | .addressed .store => "STA"
  | .addressed .add => "ADD"
  | .addressed .subtract => "SUB"
  | .input => "INP"
  | .output => "OUT"
  | .halt => "HLT"
  | .addressed .branch => "BRA"
  | .addressed .branchIfZero => "BRZ"
  | .addressed .branchIfNotNegative => "BRP"
  | .data => "DAT"

/-- The reserved word as it stands in a source. -/
def text (m : Mnemonic) : Text := utf8 m.name

/-- A mnemonic that takes an address. -/
def isAddressed : Mnemonic → Bool
  | .addressed _ => true
  | _ => false

/-- The mnemonic that a word of the source is. -/
def ofText? (word : Text) : Option Mnemonic := all.find? fun m => m.text == word

/-- The mnemonic with a number. -/
def ofCode? (code : Int) : Option Mnemonic := if 0 ≤ code then all[code.toNat]? else none

/-- The number of a mnemonic. -/
def code : Mnemonic → Int
  | .addressed .load => 0
  | .addressed .store => 1
  | .addressed .add => 2
  | .addressed .subtract => 3
  | .input => 4
  | .output => 5
  | .halt => 6
  | .addressed .branch => 7
  | .addressed .branchIfZero => 8
  | .addressed .branchIfNotNegative => 9
  | .data => 10

end Mnemonic

/-- The class of a token. -/
inductive Tag where
  | mnemonic (m : Mnemonic)
  | endOfLine
  | literal
  | unknown (code : Int)
deriving DecidableEq, Repr

namespace Tag

/-- The tag with a number. -/
def ofCode (code : Int) : Tag :=
  match Mnemonic.ofCode? code with
  | some m => .mnemonic m
  | none => if code = 11 then .endOfLine else if code = 12 then .literal else .unknown code

/-- The number of a tag. -/
def code : Tag → Int
  | .mnemonic m => m.code
  | .endOfLine => 11
  | .literal => 12
  | .unknown code => code

/-- A tag that is a reserved word. -/
def isMnemonic : Tag → Bool
  | .mnemonic _ => true
  | _ => false

/-- The name of a tag in messages. -/
def text : Tag → Text
  | .mnemonic m => m.text
  | .endOfLine => utf8 "EOL"
  | .literal => utf8 "INT"
  | .unknown code => utf8 "Tag(" ++ Decimal.plain code ++ utf8 ")"

end Tag

/-- One lexical element of a source. The value counts only for a literal. -/
structure Token where
  tag : Tag
  value : Word := 0
  line : Int
deriving DecidableEq, Repr

namespace Token

/-- The end of a line. -/
def endOfLine (line : Int) : Token := { tag := .endOfLine, line }

/-- A token in messages: a literal shows its value. -/
def text (token : Token) : Text :=
  match token.tag with
  | .literal => token.tag.text ++ utf8 "(" ++ Decimal.plain token.value.toInt ++ utf8 ")"
  | _ => token.tag.text

end Token

end LittleMan
