import LittleMan.Script.Literal

/-!
# Cutting a check script into lexemes

Line ends and the depth of indentation count, except inside brackets and on lines that hold nothing but a
comment. A carriage return ends a line, together with a line feed behind it. A backslash at the end of a
line joins the next line to it. A zero byte outside a text ends the script.
-/

namespace LittleMan.Script

/-- The characters of a script with every line end as a line feed, behind those in `read`, which are in
reverse. -/
def unifyLineEnds (read : List Char) : List Char → List Char
  | [] => read.reverse
  | '\r' :: '\n' :: rest => unifyLineEnds ('\n' :: read) rest
  | '\r' :: rest => unifyLineEnds ('\n' :: read) rest
  | c :: rest => unifyLineEnds (c :: read) rest

/-- Whether nothing follows. -/
def Cursor.atEnd (cursor : Cursor) : Bool := (cursor.rest.head?.getD '\x00') == '\x00'

/-- Reads a name or a keyword. -/
def readName (cursor : Cursor) : Lexeme × Cursor :=
  let (chars, after) := cursor.span inName
  let name := String.ofList chars
  (if isKeyword name then .keyword name else .name name, after)

/-- Reads a mark. -/
def readMark (cursor : Cursor) : Reading :=
  match marks.find? fun mark => mark.toList.isPrefixOf cursor.rest with
  | some mark => .ok (.mark mark, cursor.skip mark.length)
  | none =>
    .error
      { position := cursor.position
        message := utf8 "unexpected input character " ++ Text.quotedChar (cursor.rest.headD '\x00') }

/-- A character that quotes texts. -/
def isQuote (c : Char) : Bool := c == '"' || c == '\''

/-- Reads a lexeme that is not a line end. -/
def readLexeme (cursor : Cursor) : Reading :=
  let c := cursor.rest.headD '\x00'
  let second := cursor.rest.getD 1 '\x00'
  let third := cursor.rest.getD 2 '\x00'
  if isQuote c then readText false false 0 cursor
  else if c = 'r' && isQuote second then readText true false 1 cursor
  else if c = 'b' && isQuote second then readText false true 1 cursor
  else if c = 'r' && second = 'b' && isQuote third then readText true true 2 cursor
  else if startsName c then .ok (readName cursor)
  else if c.isDigit || (c = '.' && second.isDigit) then readNumber cursor
  else readMark cursor

/-- A script that is being cut: the open brackets, the open indentations with the innermost first,
whether a line has just begun, and what was found. -/
structure Cutting where
  cursor : Cursor
  depth : Nat := 0
  indents : List Nat := []
  fresh : Bool := true
  found : Array Placed := #[]

namespace Cutting

/-- Adds a lexeme that starts at a place and ends at the cursor. -/
def add (cutting : Cutting) (lexeme : Lexeme) (start : Position) : Cutting :=
  { cutting with found := cutting.found.push { lexeme, start, after := cutting.cursor.position } }

/-- Adds a lexeme that takes no character. -/
def addHere (cutting : Cutting) (lexeme : Lexeme) : Cutting :=
  cutting.add lexeme cutting.cursor.position

/-- The lexemes up to a fault. -/
def fail (cutting : Cutting) (fault : ScriptFault) : Array Placed :=
  (cutting.add (.fault fault.message) fault.position).found

/-- The lexemes of a script that ends here. -/
def finish (cutting : Cutting) : Array Placed :=
  let ended :=
    if cutting.indents.isEmpty || cutting.fresh then cutting else cutting.addHere .newline
  let closed := cutting.indents.foldl (fun cutting _ => cutting.addHere .outdent) ended
  (closed.addHere .endOfScript).found

/-- The width of indentation behind `count` blanks of width `width`. A space is one wide. A tab reaches for
the next multiple of eight, counted in blanks and not in the width of those before it. -/
def indentWidth (count width : Nat) : List Char → Nat
  | [] => width
  | c :: rest => indentWidth (count + 1) (width + if c = '\t' then 8 - count % 8 else 1) rest

/-- Opens or closes indentations for a line indented to a width, or finds that none fits. -/
def indentTo (cutting : Cutting) (width : Nat) : Except (Array Placed) Cutting :=
  if cutting.indents.headD 0 < width then
    .ok ({ cutting with indents := width :: cutting.indents }.addHere .indent)
  else
    let kept := cutting.indents.dropWhile (width < ·)
    if kept.headD 0 = width then
      .ok ((cutting.indents.length - kept.length).repeat (fun cutting => cutting.addHere .outdent)
        { cutting with indents := kept })
    else
      .error (cutting.fail
        { position := cutting.cursor.position
          message := utf8 "unindent does not match any outer indentation level" })

/-- Passes spaces and tabs. -/
def spanBlanks (cursor : Cursor) : List Char × Cursor := cursor.span fun c => c == ' ' || c == '\t'

/-- Passes a comment. -/
def skipComment (cursor : Cursor) : Cursor := (cursor.span fun c => c != '\n' && c != '\x00').2

/-- Begins a line. A line with nothing on it, or with a comment only, is passed. -/
def beginLine (cutting : Cutting) : Except (Array Placed) Cutting :=
  let (blanks, cursor) := spanBlanks cutting.cursor
  let cutting := { cutting with cursor }
  if cursor.atEnd then .error cutting.finish
  else
    match cursor.rest.headD '\x00' with
    | '\n' => .ok { cutting with cursor := cursor.next }
    | '#' => .ok { cutting with cursor := skipComment cursor }
    | _ =>
      let begun := { cutting with fresh := false }
      if cutting.depth = 0 then begun.indentTo (indentWidth 0 0 blanks) else .ok begun

/-- Follows a bracket into or out of its depth. -/
def nest (depth : Nat) : Lexeme → Option Nat
  | .mark "(" | .mark "[" | .mark "\x7b" => some (depth + 1)
  | .mark ")" | .mark "]" | .mark "\x7d" => if depth = 0 then none else some (depth - 1)
  | _ => some depth

/-- Adds the lexeme that is in front. -/
def takeLexeme (cutting : Cutting) : Except (Array Placed) Cutting :=
  let start := cutting.cursor.position
  match readLexeme cutting.cursor with
  | .error fault => .error (cutting.fail fault)
  | .ok (lexeme, after) =>
    match nest cutting.depth lexeme with
    | some depth => .ok ({ cutting with cursor := after, depth }.add lexeme start)
    | none =>
      .error (cutting.fail { position := start, message := utf8 "unexpected " ++ lexeme.describe })

/-- Goes on in a line. -/
def continueLine (cutting : Cutting) : Except (Array Placed) Cutting :=
  let (_, cursor) := spanBlanks cutting.cursor
  let cutting := { cutting with cursor }
  if cursor.atEnd then .error cutting.finish
  else
    match cursor.rest with
    | '#' :: _ => .ok { cutting with cursor := skipComment cursor }
    | '\n' :: _ =>
      let passed := { cutting with cursor := cursor.next, fresh := true }
      .ok (if cutting.depth = 0 then passed.add .newline cursor.position else passed)
    | '\\' :: '\n' :: _ => .ok { cutting with cursor := cursor.skip 2 }
    | '\\' :: _ =>
      .error (cutting.fail
        { position := cursor.next.position, message := utf8 "stray backslash in program" })
    | _ => cutting.takeLexeme

/-- Cuts the rest of a script, in a number of steps. -/
def run : Nat → Cutting → Array Placed
  | 0, cutting => cutting.finish
  | count + 1, cutting =>
    match if cutting.fresh then cutting.beginLine else cutting.continueLine with
    | .ok cutting => run count cutting
    | .error found => found

end Cutting

/-- The lexemes of a script. Each character takes at most two steps: one that begins its line and one
that passes it. -/
def lexemes (script : Text) : List Placed :=
  let chars := unifyLineEnds [] script.chars
  (Cutting.run (2 * chars.length + 2) { cursor := { rest := chars } }).toList

end LittleMan.Script
