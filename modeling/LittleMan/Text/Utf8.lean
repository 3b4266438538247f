import LittleMan.Text

/-!
# Reading characters off a text

The character at the front of a text is the one whose encoding the text begins with, so overlong
forms, surrogates and truncated sequences have none. Where a text is read as characters throughout,
each byte at which no character starts is read as U+FFFD.
-/

namespace LittleMan.Text

/-- The code point that the bits of the first bytes spell, whether or not they are well formed. -/
def frontCode : Text → Nat
  | [] => 0
  | lead :: rest =>
    let tail (i : Nat) : Nat := (rest.getD i 0).toNat % 64
    if lead < 0x80 then lead.toNat
    else if lead < 0xE0 then lead.toNat % 32 * 64 + tail 0
    else if lead < 0xF0 then lead.toNat % 16 * 4096 + tail 0 * 64 + tail 1
    else lead.toNat % 8 * 262144 + tail 0 * 4096 + tail 1 * 64 + tail 2

/-- The character whose encoding the text begins with. -/
def front? (text : Text) : Option Char :=
  let c := Char.ofNat (frontCode text)
  if (String.utf8EncodeChar c).isPrefixOf text then some c else none

/-- What a byte that starts no character is read as. -/
def replacement : Char := Char.ofNat 0xFFFD

/-- The characters of the text behind those in `read`, which are in reverse; `skip` bytes at its
front belong to a character already read. -/
def charsFrom (skip : Nat) (read : List Char) : Text → List Char
  | [] => read.reverse
  | byte :: rest =>
    match skip with
    | skip + 1 => charsFrom skip read rest
    | 0 =>
      match front? (byte :: rest) with
      | some c => charsFrom (c.utf8Size - 1) (c :: read) rest
      | none => charsFrom 0 (replacement :: read) rest

/-- The characters of a text. -/
def chars (text : Text) : List Char := charsFrom 0 [] text

end LittleMan.Text
