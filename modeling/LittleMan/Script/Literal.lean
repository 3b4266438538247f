import LittleMan.Script.Lexeme

/-!
# Numbers and texts of a check script

Numbers are decimal, or hexadecimal, octal or binary behind `0x`, `0o` and `0b`. Texts stand between
quotes of one kind, or between three of them if they have more than one line. A backslash in a text stands
with what follows it for another character; in a raw text it stands for itself, and still keeps a quote
from ending the text.
-/

namespace LittleMan.Script

/-- A lexeme read from the front and what is left behind it. -/
abbrev Reading := Except ScriptFault (Lexeme × Cursor)

/-- A fault at a place. -/
def faultAt {α : Type} (position : Position) (message : String) : Except ScriptFault α :=
  .error { position, message := utf8 message }

/-! ### Numbers -/

/-- The value of a digit. -/
def digitValue (c : Char) : Nat :=
  if c.isDigit then c.toNat - 48 else if c.isUpper then c.toNat - 55 else c.toNat - 87

/-- A digit below ten. -/
def isDecimal (c : Char) : Bool := c.isDigit

/-- A digit below sixteen. -/
def isHexadecimal (c : Char) : Bool :=
  c.isDigit || ('a' ≤ c && c ≤ 'f') || ('A' ≤ c && c ≤ 'F')

/-- A digit below eight. -/
def isOctal (c : Char) : Bool := '0' ≤ c && c ≤ '7'

/-- A digit below two. -/
def isBinary (c : Char) : Bool := c == '0' || c == '1'

/-- The number that digits spell. -/
def valueOf (base : Nat) (digits : List Char) : Nat :=
  digits.foldl (fun n c => base * n + digitValue c) 0

/-- Whether an exponent follows. -/
def beginsExponent (cursor : Cursor) : Bool :=
  cursor.rest.head? == some 'e' || cursor.rest.head? == some 'E'

/-- The least number that is too large for a double: halfway between the largest double and the power of
two behind it. -/
def doubleLimit : Nat := (Nat.pow 2 54 - 1) * Nat.pow 2 970

/-- Whether a number times a power of ten is too large for a double. Those of more than 310 digits are, and
those of less than 300 are not. -/
def exceedsDouble (n : Nat) (exponent : Int) : Bool :=
  let length : Int := (Nat.toDigits 10 n).length + exponent
  n != 0 && 300 ≤ length
    && (310 < length || doubleLimit * Nat.pow 10 (-exponent).toNat ≤ n * Nat.pow 10 exponent.toNat)

/-- A number with a point or an exponent, if it is not too large: its digits, how many of them stand behind
the point, and the exponent. -/
def floatNumber (digits : List Char) (places : Nat) (exponent : Int) (after : Cursor) : Reading :=
  if exceedsDouble (valueOf 10 digits) (exponent - places) then
    faultAt after.position "invalid float literal"
  else .ok (.float, after)

/-- The exponent of a number, its letter being in front, behind digits of which some stand behind the
point. -/
def readExponent (digits : List Char) (places : Nat) (cursor : Cursor) : Reading :=
  let cursor := cursor.next
  let sign := cursor.rest.head?
  let (exponent, after) :=
    (if sign == some '+' || sign == some '-' then cursor.next else cursor).span isDecimal
  if exponent.isEmpty then faultAt after.position "invalid float literal"
  else
    let value : Int := valueOf 10 exponent
    floatNumber digits places (if sign == some '-' then -value else value) after

/-- The fraction of a number, its point being in front, and an exponent behind it. -/
def readFraction (digits : List Char) (cursor : Cursor) : Reading :=
  let (fraction, after) := cursor.next.span isDecimal
  let digits := digits ++ fraction
  if beginsExponent after then readExponent digits fraction.length after
  else floatNumber digits fraction.length 0 after

/-- A hexadecimal number, its `0x` being in front. -/
def readHexadecimal (cursor : Cursor) : Reading :=
  let (digits, after) := (cursor.skip 2).span isHexadecimal
  if digits.isEmpty then faultAt cursor.position "invalid hex literal"
  else .ok (.number (valueOf 16 digits), after)

/-- An octal or binary number, its `0o` or `0b` being in front. It has at most 63 bits. -/
def readShort (base : Nat) (test : Char → Bool) (kind : String) (cursor : Cursor) : Reading :=
  let (digits, after) := (cursor.skip 2).span test
  if digits.isEmpty then faultAt (cursor.skip 2).position s!"invalid {kind} literal"
  else if Nat.pow 2 63 ≤ valueOf base digits then faultAt cursor.position "invalid int literal"
  else .ok (.number (valueOf base digits), after)

/-- A whole number in decimal digits. Only zero begins with a zero. -/
def wholeNumber (start : Position) (digits : List Char) (after : Cursor) : Reading :=
  match digits with
  | '0' :: more =>
    if more.all (· == '0') then .ok (.number 0, after)
    else if more.all isOctal then
      let octal := String.ofList more
      faultAt after.position s!"obsolete form of octal literal; use 0o{octal}"
    else faultAt start "invalid int literal"
  | digits => .ok (.number (valueOf 10 digits), after)

/-- Reads a number, which begins with a digit or with a point and a digit. -/
def readNumber (cursor : Cursor) : Reading :=
  match cursor.rest.take 2 with
  | ['0', 'x'] | ['0', 'X'] => readHexadecimal cursor
  | ['0', 'o'] | ['0', 'O'] => readShort 8 isOctal "octal" cursor
  | ['0', 'b'] | ['0', 'B'] => readShort 2 isBinary "binary" cursor
  | _ =>
    let (digits, after) := cursor.span isDecimal
    if after.rest.head? == some '.' then readFraction digits after
    else if beginsExponent after then readExponent digits 0 after
    else wholeNumber cursor.position digits after

/-! ### Texts -/

/-- How a text is quoted: by which character, by three of them or one, whether a backslash in it stands
for itself, and whether it is marked as bytes. -/
structure Quoting where
  quote : Char
  triple : Bool
  raw : Bool
  isBytes : Bool

/-- The characters of a text up to its closing quotes, behind those in `read`, which are in reverse and
end in `quotes` quotes, and how many characters were passed to the end. -/
def quotedChars (quoting : Quoting) (quotes count : Nat) (read : List Char) :
    List Char → Except String (List Char × Nat)
  | [] | ['\\'] => .error "unexpected EOF in string"
  | '\\' :: c :: rest => quotedChars quoting 0 (count + 2) (c :: '\\' :: read) rest
  | c :: rest =>
    if c = quoting.quote then
      if !quoting.triple then .ok (read.reverse, count + 1)
      else if quotes = 2 then .ok ((read.drop 2).reverse, count + 1)
      else quotedChars quoting (quotes + 1) (count + 1) (c :: read) rest
    else if c = '\n' && !quoting.triple then .error "unexpected newline in string"
    else quotedChars quoting 0 (count + 1) (c :: read) rest

/-- The byte that a letter or mark stands for behind a backslash. -/
def escaped? (byte : UInt8) : Option UInt8 :=
  match Char.ofUInt8 byte with
  | 'a' => some 7
  | 'b' => some 8
  | 'f' => some 12
  | 'n' => some 10
  | 'r' => some 13
  | 't' => some 9
  | 'v' => some 11
  | '\\' => some 92
  | '\'' => some 39
  | '"' => some 34
  | _ => none

/-- The characters that bytes spell one by one. -/
def bytewise (text : Text) : List Char := text.map Char.ofUInt8

/-- At least four hexadecimal digits with capitals. -/
def codePoint (n : Nat) : Text := (Text.hex 4 n).map fun byte => (Char.ofUInt8 byte).toUpper.toUInt8

/-- The way to write the character with a number. -/
def unicodeHint (n : Nat) : Text :=
  utf8 " (use \\u" ++ codePoint n ++ utf8 " for the UTF-8 encoding of U+" ++ codePoint n ++ utf8 ")"

/-- A byte given by up to three octal digits, and how many they are. -/
def octalEscape (isBytes : Bool) (text : Text) : Except Text (Text × Nat) :=
  let digits := ((bytewise text).take 3).takeWhile isOctal
  let n := valueOf 8 digits
  let written := (Nat.toDigits 8 n).map Char.toUInt8
  if !isBytes && 127 < n then
    .error (utf8 "non-ASCII octal escape \\" ++ written ++ unicodeHint n)
  else if 255 < n then .error (utf8 "invalid escape sequence \\" ++ Decimal.zeroPadded 3 written)
  else .ok ([UInt8.ofNat n], digits.length)

/-- The number that hexadecimal digits give behind a backslash and a letter. -/
def hexEscape (count : Nat) (text : Text) : Except Text Nat :=
  let written := utf8 "\\" ++ text
  let digits := bytewise ((text.drop 1).take count)
  if digits.length < count then .error (utf8 "truncated escape sequence " ++ written)
  else if !digits.all isHexadecimal then
    .error (utf8 "invalid escape sequence " ++ written.take (count + 2))
  else .ok (valueOf 16 digits)

/-- A byte given by two hexadecimal digits. -/
def byteEscape (isBytes : Bool) (text : Text) : Except Text (Text × Nat) := do
  let n ← hexEscape 2 text
  if !isBytes && 127 < n then
    throw (utf8 "non-ASCII hex escape \\" ++ text.take 3 ++ unicodeHint n)
  return ([UInt8.ofNat n], 3)

/-- A character given by its number in so many hexadecimal digits. -/
def charEscape (count : Nat) (text : Text) : Except Text (Text × Nat) := do
  let n ← hexEscape count text
  if 0x10FFFF < n then
    throw (utf8 "code point out of range: \\" ++ text.take (count + 1) ++ utf8 " (max \\U"
      ++ Text.hex 8 n ++ utf8 ")")
  if 0xD800 ≤ n ∧ n < 0xE000 then throw (utf8 "invalid Unicode code point U+" ++ codePoint n)
  return (String.utf8EncodeChar (Char.ofNat n), count + 1)

/-- What the bytes behind a backslash stand for, and how many of them do. A line end stands for nothing. -/
def escape (isBytes : Bool) (text : Text) : Except Text (Text × Nat) :=
  match text with
  | [] => .error (utf8 "truncated escape sequence \\")
  | 10 :: _ => .ok ([], 1)
  | byte :: _ =>
    match escaped? byte with
    | some byte => .ok ([byte], 1)
    | none =>
      let c := Char.ofUInt8 byte
      if isOctal c then octalEscape isBytes text
      else if c = 'x' then byteEscape isBytes text
      else if c = 'u' then charEscape 4 text
      else if c = 'U' then charEscape 8 text
      else .error (utf8 "invalid escape sequence \\" ++ String.utf8EncodeChar c)

/-- What a text with escapes stands for, behind the pieces in `written`, which are in reverse; `skip` bytes
belong to an escape that is written already. -/
def unescapeFrom (isBytes : Bool) (skip : Nat) (written : List Text) : Text → Except Text Text
  | [] => .ok written.reverse.flatten
  | byte :: rest =>
    match skip with
    | skip + 1 => unescapeFrom isBytes skip written rest
    | 0 =>
      if byte = 92 then
        match escape isBytes rest with
        | .ok (piece, count) => unescapeFrom isBytes count (piece :: written) rest
        | .error message => .error message
      else unescapeFrom isBytes 0 ([byte] :: written) rest

/-- What the characters between quotes stand for. -/
def unquoted (quoting : Quoting) (chars : List Char) : Except Text Text :=
  if quoting.raw then .ok (Text.ofChars chars)
  else unescapeFrom quoting.isBytes 0 [] (Text.ofChars chars)

/-- Reads a quoted text whose first quote stands behind `lead` characters. A text that does not end is a
fault at its start, and an escape that means nothing is one at its first quote. -/
def readText (raw isBytes : Bool) (lead : Nat) (cursor : Cursor) : Reading :=
  let opened := cursor.skip lead
  match opened.rest with
  | [] => faultAt cursor.position "unexpected EOF in string"
  | quote :: rest =>
    let triple := rest.take 2 == [quote, quote]
    let quoting : Quoting := { quote, triple, raw, isBytes }
    let width := if triple then 3 else 1
    match quotedChars quoting 0 0 [] (opened.rest.drop width) with
    | .error message => faultAt cursor.position message
    | .ok (chars, count) =>
      match unquoted quoting chars with
      | .error message => .error { position := opened.position, message }
      | .ok text =>
        .ok (if isBytes then .bytes else .text text.toByteArray, opened.skip (width + count))

end LittleMan.Script
