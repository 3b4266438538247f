import LittleMan.Text

/-!
# Decimal numbers

Numbers are written in three ways. Images, tapes and listings hold plain decimals. The trace pads a
number with zeros to a width that counts the sign. Messages divide the digits into groups of three
by commas, and pad to a number of digits, the sign not counted.

A number that fits a memory word is read from an optional sign and at least one digit.
-/

namespace LittleMan.Decimal

/-- The digits of a natural number. -/
def digits (n : Nat) : Text := (Nat.toDigits 10 n).map Char.toUInt8

/-- A minus sign in front of the digits of a negative number. -/
def signed (n : Int) (digits : Text) : Text := if n < 0 then utf8 "-" ++ digits else digits

/-- The plain decimal of an integer. -/
def plain (n : Int) : Text := signed n (digits n.natAbs)

/-- The powers of ten whose exponents are the first `count` powers of two, the largest first. -/
def tenPowers : Nat → List Nat
  | 0 => []
  | count + 1 => 10 ^ 2 ^ count :: tenPowers count

/-- The digits of a number in front of others, zeros at the front included. The number is divided by each
of the powers in turn: the quotient has the digits of the first half, the remainder those of the second. -/
def digitsByHalves : List Nat → Nat → Text → Text
  | [], n, rest => UInt8.ofNat (48 + n) :: rest
  | power :: powers, n, rest =>
    digitsByHalves powers (n / power) (digitsByHalves powers (n % power) rest)

/-- The plain decimal of an integer, in a way that is fast however long it is. A number has at least twice
as many bits as digits, apart from a few small ones, so the powers suffice. -/
def long (n : Int) : Text :=
  if n.natAbs < Nat.pow 10 64 then plain n
  else
    let powers := tenPowers (n.natAbs.log2 + 1).log2
    signed n ((digitsByHalves powers n.natAbs []).dropWhile (· == 48))

/-- At least `count` digits, with zeros in front. -/
def zeroPadded (count : Nat) (digits : Text) : Text :=
  List.replicate (count - digits.length) 48 ++ digits

/-- The decimal of an integer in at least `width` places, its sign being one of them. -/
def paddedToWidth (width : Nat) (n : Int) : Text :=
  signed n (zeroPadded (if n < 0 then width - 1 else width) (digits n.natAbs))

/-- Digits in reverse with a comma after each three that more follow. -/
def groupReversed : Text → Text
  | a :: b :: c :: d :: rest => a :: b :: c :: 44 :: groupReversed (d :: rest)
  | few => few

/-- Digits in groups of three. -/
def grouped (digits : Text) : Text := (groupReversed digits.reverse).reverse

/-- The decimal of an integer in a message: at least `count` digits, in groups. -/
def inMessagePadded (count : Nat) (n : Int) : Text :=
  signed n (grouped (zeroPadded count (digits n.natAbs)))

/-- The decimal of an integer in a message. -/
def inMessage (n : Int) : Text := inMessagePadded 1 n

/-- A byte that is a decimal digit. -/
def isDigit (byte : UInt8) : Bool := 48 ≤ byte && byte ≤ 57

/-- The number that digits spell, behind digits that spell `n`. -/
def valueFrom (n : Nat) (digits : Text) : Nat :=
  digits.foldl (fun n byte => 10 * n + (byte.toNat - 48)) n

/-- The number that a non-empty list of digits spells. -/
def nat? (text : Text) : Option Nat :=
  if text ≠ [] ∧ text.all isDigit then some (valueFrom 0 text) else none

/-- The integer that an optional sign and digits spell. -/
def int? : Text → Option Int
  | 43 :: rest => (nat? rest).map Int.ofNat
  | 45 :: rest => (nat? rest).map fun n => -(n : Int)
  | text => (nat? text).map Int.ofNat

/-- The memory word that a text spells, if the number fits one. -/
def word? (text : Text) : Option Int16 :=
  (int? text).bind fun n => if -32768 ≤ n ∧ n ≤ 32767 then some (Int16.ofInt n) else none

end LittleMan.Decimal
