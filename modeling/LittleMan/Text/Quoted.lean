import LittleMan.Text.Decimal
import LittleMan.Text.Utf8
import LittleMan.Text.Visible

/-!
# Quoted texts

A quoted text stands between double quotes, a quoted character between single ones. The quotes that are
used and backslashes are escaped, and so is what cannot be seen: some control characters by a letter, all
other characters by their number, and bytes that belong to no character by theirs.
-/

namespace LittleMan.Text

/-- Hexadecimal digits, at least `count` of them. -/
def hex (count n : Nat) : Text :=
  Decimal.zeroPadded count ((Nat.toDigits 16 n).map Char.toUInt8)

/-- The letter that stands for a control character behind a backslash. -/
def controlLetter? : Char → Option Char
  | '\x07' => some 'a'
  | '\x08' => some 'b'
  | '\x0c' => some 'f'
  | '\n' => some 'n'
  | '\r' => some 'r'
  | '\t' => some 't'
  | '\x0b' => some 'v'
  | _ => none

/-- A character between quotes. -/
def escapedChar (quote c : Char) : Text :=
  if c = quote ∨ c = '\\' then utf8 "\\" ++ String.utf8EncodeChar c
  else if isVisible c then String.utf8EncodeChar c
  else
    match controlLetter? c with
    | some letter => utf8 "\\" ++ String.utf8EncodeChar letter
    | none =>
      if c.toNat < 128 then utf8 "\\x" ++ hex 2 c.toNat
      else if c.toNat < 0x10000 then utf8 "\\u" ++ hex 4 c.toNat
      else utf8 "\\U" ++ hex 8 c.toNat

/-- The pieces of a quoted text behind those in `written`, which are in reverse; `skip` bytes belong to a
character that is written already. -/
def quotedFrom (skip : Nat) (written : List Text) : Text → List Text
  | [] => written.reverse
  | byte :: rest =>
    match skip with
    | skip + 1 => quotedFrom skip written rest
    | 0 =>
      match front? (byte :: rest) with
      | some c => quotedFrom (c.utf8Size - 1) (escapedChar '"' c :: written) rest
      | none => quotedFrom 0 ((utf8 "\\x" ++ hex 2 byte.toNat) :: written) rest

/-- A text in quotes. -/
def quoted (text : Text) : Text := utf8 "\"" ++ (quotedFrom 0 [] text).flatten ++ utf8 "\""

/-- A character in quotes. -/
def quotedChar (c : Char) : Text := utf8 "'" ++ escapedChar '\'' c ++ utf8 "'"

end LittleMan.Text
