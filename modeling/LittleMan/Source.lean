import LittleMan.Fault
import LittleMan.Text.Blank

/-!
# Sources

A source is cut into tokens in one pass over its characters: a space ends the word before it, and a
line feed also ends the line. An unfinished word at the end of the source is taken as if a line feed
followed it.
-/

namespace LittleMan.Source

/-- The source without carriage returns and with a line feed at its end. -/
def normalize (source : Text) : Text :=
  let kept := source.filter (· != 13)
  if kept.getLast? = some Text.newline then kept else kept ++ [Text.newline]

/-- The token that a word of the source is. -/
def classify (word : Text) (line : Int) : Except Fault Token :=
  match Mnemonic.ofText? word with
  | some m => .ok { tag := .mnemonic m, line }
  | none =>
    match Decimal.word? word with
    | some value => .ok { tag := .literal, value, line }
    | none => .error (.inLine line (.unknownWord word))

/-- What has been read of a source: its tokens, the characters of the unfinished word in reverse,
and the number of the line. -/
structure Progress where
  tokens : Array Token := #[]
  word : List Char := []
  line : Nat := 1
deriving Repr

namespace Progress

/-- The word before this point becomes a token. -/
def endWord (p : Progress) : Except Fault Progress :=
  if p.word = [] then .ok p
  else
    (classify (Text.ofChars p.word.reverse) p.line).map fun token =>
      { p with tokens := p.tokens.push token, word := [] }

/-- The line ends here. -/
def endLine (p : Progress) : Progress :=
  { p with tokens := p.tokens.push (.endOfLine p.line), line := p.line + 1 }

/-- The next character of the source. -/
def read (p : Progress) (c : Char) : Except Fault Progress :=
  if isBlank c then
    p.endWord.map fun p => if c = '\n' then p.endLine else p
  else .ok { p with word := c :: p.word }

/-- The end of the source. -/
def finish (p : Progress) : Except Fault Progress :=
  if p.word = [] then .ok p else p.endWord.map endLine

end Progress

/-- The tokens of a source. -/
def lex (source : Text) : Except Fault (List Token) := do
  let read ← source.chars.foldlM Progress.read {}
  let finished ← read.finish
  return finished.tokens.toList

end LittleMan.Source
