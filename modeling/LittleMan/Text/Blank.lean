import LittleMan.Text.Utf8

/-!
# White space

Words are separated by the characters with the Unicode property White_Space. A byte that starts no
character is not a space. Since no space begins with a continuation byte, the spaces of a text can
be looked for at every byte of it.
-/

namespace LittleMan

/-- The characters with the property White_Space. -/
def isBlank (c : Char) : Bool :=
  let n := c.toNat
  (9 ≤ n && n ≤ 13) || n == 0x20 || n == 0x85 || n == 0xA0 || n == 0x1680
    || (0x2000 ≤ n && n ≤ 0x200A) || n == 0x2028 || n == 0x2029 || n == 0x202F || n == 0x205F
    || n == 0x3000

namespace Text

/-- How many bytes the space at the front of the text takes: none if there is no space. -/
def blankWidth (text : Text) : Nat :=
  match front? text with
  | some c => if isBlank c then c.utf8Size else 0
  | none => 0

/-- How many bytes the spaces at the front take, `count` of them before the text and `skip` at its
front counted already. -/
def leadingBlanksFrom (count skip : Nat) : Text → Nat
  | [] => count
  | byte :: rest =>
    match skip with
    | skip + 1 => leadingBlanksFrom count skip rest
    | 0 =>
      match blankWidth (byte :: rest) with
      | 0 => count
      | width + 1 => leadingBlanksFrom (count + width + 1) width rest

/-- How many bytes the spaces at the front of the text take. -/
def leadingBlanks (text : Text) : Nat := leadingBlanksFrom 0 0 text

/-- The bytes before the first space behind `seen`, which is in reverse, and that space's width. -/
def beforeBlankFrom (seen : Text) : Text → Option (Text × Nat)
  | [] => none
  | byte :: rest =>
    match blankWidth (byte :: rest) with
    | 0 => beforeBlankFrom (byte :: seen) rest
    | width + 1 => some (seen.reverse, width + 1)

/-- The bytes before the first space and that space's width, if there is a space. -/
def beforeBlank? (text : Text) : Option (Text × Nat) := beforeBlankFrom [] text

/-- The length of the text up to its last byte outside every space: `length` bytes stand before the
rest, `kept` of them up to such a byte, and `skip` more belong to a space. -/
def lengthTrimmedFrom (length kept skip : Nat) : Text → Nat
  | [] => kept
  | byte :: rest =>
    match skip with
    | skip + 1 => lengthTrimmedFrom (length + 1) kept skip rest
    | 0 =>
      match blankWidth (byte :: rest) with
      | 0 => lengthTrimmedFrom (length + 1) (length + 1) 0 rest
      | width + 1 => lengthTrimmedFrom (length + 1) kept width rest

/-- The text without the spaces at its end. -/
def trimEnd (text : Text) : Text := text.take (lengthTrimmedFrom 0 0 0 text)

/-- The text without the spaces at its two ends. -/
def trim (text : Text) : Text := trimEnd (text.drop (leadingBlanks text))

end Text

end LittleMan
