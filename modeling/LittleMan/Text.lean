/-!
# Texts

Sources, images, tapes and messages are byte strings. Most of them are UTF-8, but nothing promises
it, so a text is the list of its bytes and the characters are read off it where a rule speaks of
characters.
-/

namespace LittleMan

/-- A text is its bytes. -/
abbrev Text := List UInt8

/-- The UTF-8 bytes of a string. -/
def utf8 (s : String) : Text := s.toList.flatMap String.utf8EncodeChar

namespace Text

/-- The UTF-8 bytes of a list of characters. -/
def ofChars (chars : List Char) : Text := chars.flatMap String.utf8EncodeChar

/-- The line feed that ends a line. -/
def newline : UInt8 := 10

/-- The texts with a separator between each two neighbours. -/
def join (separator : Text) (texts : List Text) : Text := separator.intercalate texts

/-- The pieces of a text between its line feeds, `read` being the first piece so far in reverse. -/
def linesFrom (read : Text) : Text → List Text
  | [] => [read.reverse]
  | byte :: rest =>
    if byte = newline then read.reverse :: linesFrom [] rest else linesFrom (byte :: read) rest

/-- The pieces of a text between its line feeds. -/
def lines (text : Text) : List Text := linesFrom [] text

end Text

end LittleMan
