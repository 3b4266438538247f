import LittleMan.Script.Failure
import LittleMan.Text.Letter
import LittleMan.Text.Quoted

/-!
# The lexemes of a check script

A script is made of names, numbers, texts, keywords and marks, and of line ends and indentation where
these count. Every lexeme is placed: it knows where it starts and where the next one is looked for.
-/

namespace LittleMan.Script

/-- The bytes of a text are compared in this one way, whatever else is in scope. -/
instance (priority := 2000) decidableEqBytes : DecidableEq ByteArray := ByteArray.instDecidableEq

/-- The kinds of lexemes. -/
inductive Lexeme where
  | name (name : String)
  | number (value : Nat)
  | text (bytes : ByteArray)
  /-- A number with a fraction or an exponent. -/
  | float
  /-- A text that is marked as bytes. -/
  | bytes
  | keyword (word : String)
  | mark (sign : String)
  | newline
  | indent
  | outdent
  | endOfScript
  /-- What is not a lexeme. It is the last, so that what comes before it can still be looked at. -/
  | fault (message : Text)
deriving DecidableEq

/-- A lexeme in messages. -/
def Lexeme.describe : Lexeme → Text
  | .name _ => utf8 "identifier"
  | .number _ => utf8 "int literal"
  | .text _ => utf8 "string literal"
  | .float => utf8 "float literal"
  | .bytes => utf8 "bytes literal"
  | .keyword word => utf8 word
  | .mark sign => utf8 "'" ++ utf8 sign ++ utf8 "'"
  | .newline => utf8 "newline"
  | .indent => utf8 "indent"
  | .outdent => utf8 "outdent"
  | .endOfScript => utf8 "end of file"
  | .fault message => message

/-- A lexeme with the place where it starts and the place behind it. -/
structure Placed where
  lexeme : Lexeme
  start : Position
  after : Position
deriving DecidableEq

/-- The characters of a script that are still to be read. -/
structure Cursor where
  rest : List Char
  position : Position := {}
deriving DecidableEq, Repr

namespace Cursor

/-- Passes one character. -/
def next (cursor : Cursor) : Cursor :=
  match cursor.rest with
  | [] => cursor
  | c :: rest =>
    let position := cursor.position
    if c = '\n' then { rest, position := { line := position.line + 1, column := 1 } }
    else { rest, position := { position with column := position.column + 1 } }

/-- Passes a number of characters. -/
def skip (cursor : Cursor) (count : Nat) : Cursor := count.repeat next cursor

/-- The characters in front that satisfy a test. -/
def span (cursor : Cursor) (test : Char → Bool) : List Char × Cursor :=
  let taken := cursor.rest.takeWhile test
  (taken, cursor.skip taken.length)

end Cursor

/-- The words that are not names. -/
def keywords : List String :=
  ["and", "break", "continue", "def", "elif", "else", "for", "if", "in", "lambda", "load", "not",
    "or", "pass", "return", "while"]

/-- The words that are kept out of scripts: no statement begins with them and no name is one. -/
def reserved : List String :=
  ["as", "async", "await", "class", "del", "except", "finally", "from", "global", "import", "is",
    "nonlocal", "raise", "try", "with", "yield"]

/-- The marks, the longer ones first. -/
def marks : List String :=
  ["<<=", ">>=", "//=", "==", "!=", "<=", ">=", "+=", "-=", "*=", "/=", "%=", "&=", "|=", "^=", "<<",
    ">>", "//", "**", "+", "-", "*", "/", "%", "&", "|", "^", "~", "=", "<", ">", "(", ")", "[", "]",
    "\x7b", "\x7d", ",", ":", ";", "."]

/-- A character that can begin a name. -/
def startsName (c : Char) : Bool := c == '_' || isLetter c

/-- A character that can stand in a name. -/
def inName (c : Char) : Bool := startsName c || c.isDigit

/-- Whether a word is neither a name nor anything else that a script could mean by it. -/
def isKeyword (word : String) : Bool := keywords.contains word || reserved.contains word

end LittleMan.Script
