import LittleMan.Script.Cutting
import LittleMan.Script.Tree

/-!
# Parsing check scripts

Statements are found by their first lexeme and expressions by precedence: `or`, `and`, `not`,
comparisons, which do not chain, the operators on bits, sums, products, and primaries with their calls,
indices and slices. Every function takes the number of calls it may still nest; a script's own length
bounds what it needs.

A fault is told where the lexeme in front ends, since that is how far the script has been read. Only
where an expression should begin is it told where that lexeme starts.
-/

namespace LittleMan.Script

/-- Reads lexemes from the front of what is left. -/
abbrev Parser := StateT (List Placed) (Except ScriptFault)

namespace Parser

/-- The lexeme in front. -/
def peek : Parser Placed := do
  match ← get with
  | first :: _ => return first
  | [] => return { lexeme := .endOfScript, start := {}, after := {} }

/-- Stops with a message at a place. -/
def failAt {α : Type} (position : Position) (message : Text) : Parser α :=
  throw { position, message }

/-- Stops with a message behind the lexeme in front. -/
def failBehind {α : Type} (message : Text) : Parser α := do failAt (← peek).after message

/-- What is said of a lexeme that is not the one wanted. -/
def gotInstead (lexeme : Lexeme) (want : Text) : Text :=
  utf8 "got " ++ lexeme.describe ++ utf8 ", want " ++ want

/-- Stops if the lexeme in front is a fault. -/
def checkFront : Parser Unit := do
  let first ← peek
  match first.lexeme with
  | .fault message => failAt first.start message
  | _ => return

/-- Passes the lexeme in front and gives the place where it starts. -/
def advance : Parser Position := do
  let first ← peek
  modify (List.drop 1)
  checkFront
  return first.start

/-- Whether the lexeme in front is this one. -/
def isNext (lexeme : Lexeme) : Parser Bool := do return (← peek).lexeme == lexeme

/-- Passes a lexeme that has to stand in front. -/
def consume (lexeme : Lexeme) : Parser Position := do
  let first ← peek
  if first.lexeme == lexeme then advance
  else failBehind (gotInstead first.lexeme lexeme.describe)

/-- Passes a lexeme if it stands in front. -/
def accept (lexeme : Lexeme) : Parser Bool := do
  if ← isNext lexeme then
    discard advance
    return true
  else return false

/-- Reads a name. -/
def name : Parser Name := do
  let first ← peek
  match first.lexeme with
  | .name name => return { name, position := ← advance }
  | _ => failBehind (utf8 "not an identifier")

/-- No more calls may nest. -/
def exhausted {α : Type} : Parser α := failBehind (utf8 "script nested too deeply")

/-! ### Operators -/

/-- An operator with two operands. -/
inductive Operator where
  | either
  | both
  | strict (op : BinaryOp)

namespace Operator

/-- The sign of an operator. -/
def sign : Operator → String
  | .either => "or"
  | .both => "and"
  | .strict op => op.sign

/-- Puts two operands together. -/
def combine : Operator → Expr Name → Expr Name → Expr Name
  | .either => .either
  | .both => .both
  | .strict op => .binary op

/-- How tightly an operator binds: the greater the tighter. -/
def level : Operator → Nat
  | .either => 0
  | .both => 1
  | .strict op =>
    match op with
    | .equal | .notEqual | .less | .lessEqual | .greater | .greaterEqual | .isIn | .isNotIn => 3
    | .bitOr => 4
    | .bitXor => 5
    | .bitAnd => 6
    | .shiftLeft | .shiftRight => 7
    | .add | .subtract => 8
    | .multiply | .divide | .floorDivide | .modulo => 9

/-- The level of `not`. -/
def negationLevel : Nat := 2

/-- The level of comparisons, which do not chain. -/
def comparisonLevel : Nat := 3

/-- The level above all operators. -/
def primaryLevel : Nat := 10

/-- The operators that are marks. -/
def marked : List BinaryOp :=
  [.add, .subtract, .multiply, .divide, .floorDivide, .modulo, .bitAnd, .bitOr, .bitXor, .shiftLeft,
    .shiftRight, .equal, .notEqual, .less, .lessEqual, .greater, .greaterEqual]

/-- The operator that a lexeme is. -/
def ofLexeme? : Lexeme → Option Operator
  | .keyword "or" => some .either
  | .keyword "and" => some .both
  | .keyword "in" => some (.strict .isIn)
  | .keyword "not in" => some (.strict .isNotIn)
  | .mark sign => (marked.find? fun op => op.sign == sign).map .strict
  | _ => none

end Operator

/-- The operator that a mark of assignment applies first: none for plain assignment. -/
def assignment? : Lexeme → Option (Option BinaryOp)
  | .mark "=" => some none
  | .mark "+=" => some (some .add)
  | .mark "-=" => some (some .subtract)
  | .mark "*=" => some (some .multiply)
  | .mark "/=" => some (some .divide)
  | .mark "//=" => some (some .floorDivide)
  | .mark "%=" => some (some .modulo)
  | .mark "&=" => some (some .bitAnd)
  | .mark "|=" => some (some .bitOr)
  | .mark "^=" => some (some .bitXor)
  | .mark "<<=" => some (some .shiftLeft)
  | .mark ">>=" => some (some .shiftRight)
  | _ => none

/-- Makes one operator of `not` and the `in` that has to follow it between two operands. -/
def joinNotIn : Parser Unit := do
  if ← accept (.keyword "not") then
    let next ← peek
    if next.lexeme == .keyword "in" then
      modify fun rest => { next with lexeme := .keyword "not in" } :: rest.drop 1
    else failBehind (gotInstead next.lexeme (utf8 "in"))

/-- The lexemes behind which a list of expressions has ended. -/
def endsList : Lexeme → Bool
  | .endOfScript | .newline | .mark "=" | .mark "\x7d" | .mark "]" | .mark ")" | .mark ";" => true
  | _ => false

/-! ### Expressions -/

mutual

/-- One expression without a comma outside brackets. -/
def test : Nat → Parser (Expr Name)
  | 0 => exhausted
  | depth + 1 => do
    if ← isNext (.keyword "lambda") then lambda depth true
    else
      let yes ← climb depth 0
      if ← isNext (.keyword "if") then
        let position ← advance
        let condition ← climb depth 0
        unless ← isNext (.keyword "else") do
          failAt position (utf8 "conditional expression without else clause")
        discard advance
        return .choice yes condition (← test depth)
      else return yes

/-- One expression that leaves an `if` behind it alone. -/
def testWithoutIf : Nat → Parser (Expr Name)
  | 0 => exhausted
  | depth + 1 => do
    if ← isNext (.keyword "lambda") then lambda depth false else climb depth 0

/-- A function without a name. -/
def lambda : Nat → Bool → Parser (Expr Name)
  | 0, _ => exhausted
  | depth + 1, withIf => do
    let position ← advance
    let parameters ← formals depth []
    discard (consume (.mark ":"))
    let body ← if withIf then test depth else testWithoutIf depth
    return .lambda position parameters body

/-- The parameters of a function, behind those in `read`, which are in reverse. -/
def formals : Nat → List (Formal Name) → Parser (List (Formal Name))
  | 0, _ => exhausted
  | depth + 1, read => do
    if (← isNext (.mark ")")) || (← isNext (.mark ":")) || (← isNext .endOfScript) then
      return read.reverse
    unless read.isEmpty do discard (consume (.mark ","))
    if ← isNext (.mark ")") then return read.reverse
    let formal ← formal depth
    formals depth (formal :: read)

/-- One parameter of a function. -/
def formal : Nat → Parser (Formal Name)
  | 0 => exhausted
  | depth + 1 => do
    if ← isNext (.mark "*") then
      let position ← advance
      match (← peek).lexeme with
      | .name _ => return .rest position (some (← name))
      | _ => return .rest position none
    else if ← isNext (.mark "**") then
      let position ← advance
      return .restNamed position (← name)
    else
      let parameter ← name
      if ← isNext (.mark "=") then
        let position ← advance
        return .optional parameter position (← test depth)
      else return .required parameter

/-- An expression of the operators that bind at least as tightly as a level. -/
def climb : Nat → Nat → Parser (Expr Name)
  | 0, _ => exhausted
  | depth + 1, level => do
    if Operator.primaryLevel ≤ level then primaryWithSuffixes depth
    else if level ≤ Operator.negationLevel && (← isNext (.keyword "not")) then
      let position ← advance
      let x ← climb depth Operator.negationLevel
      operators depth level none (.unary position .not x)
    else
      let x ← primaryWithSuffixes depth
      operators depth level none x

/-- The operators behind an operand, `last` being the one before. -/
def operators : Nat → Nat → Option Operator → Expr Name → Parser (Expr Name)
  | 0, _, _, _ => exhausted
  | depth + 1, level, last, x => do
    joinNotIn
    match Operator.ofLexeme? (← peek).lexeme with
    | none => return x
    | some operator =>
      if operator.level < level then return x
      match last with
      | some earlier =>
        if operator.level = Operator.comparisonLevel && earlier.level = Operator.comparisonLevel then
          failBehind (utf8 s!"{earlier.sign} does not associate with {operator.sign} (use parens)")
      | none => pure ()
      discard advance
      let y ← climb depth (operator.level + 1)
      operators depth level (some operator) (operator.combine x y)

/-- A primary with the calls, indices and slices behind it. -/
def primaryWithSuffixes : Nat → Parser (Expr Name)
  | 0 => exhausted
  | depth + 1 => do
    let x ← primary depth
    suffixes depth x

/-- The calls, indices and slices behind an expression. -/
def suffixes : Nat → Expr Name → Parser (Expr Name)
  | 0, _ => exhausted
  | depth + 1, x => do
    match (← peek).lexeme with
    | .mark "." =>
      discard advance
      let member ← name
      suffixes depth (.member x member.name)
    | .mark "(" =>
      discard advance
      let arguments ← actuals depth []
      discard (consume (.mark ")"))
      suffixes depth (.call x arguments)
    | .mark "[" =>
      discard advance
      let y ← bracketed depth x
      suffixes depth y
    | _ => return x

/-- The arguments of a call, behind those in `read`, which are in reverse. -/
def actuals : Nat → List (Actual Name) → Parser (List (Actual Name))
  | 0, _ => exhausted
  | depth + 1, read => do
    if (← isNext (.mark ")")) || (← isNext .endOfScript) then return read.reverse
    unless read.isEmpty do discard (consume (.mark ","))
    if ← isNext (.mark ")") then return read.reverse
    let actual ← actual depth
    actuals depth (actual :: read)

/-- One argument of a call. -/
def actual : Nat → Parser (Actual Name)
  | 0 => exhausted
  | depth + 1 => do
    if ← isNext (.mark "*") then
      let position ← advance
      return .spread position (← test depth)
    else if ← isNext (.mark "**") then
      let position ← advance
      return .spreadNamed position (← test depth)
    else
      let x ← test depth
      if ← isNext (.mark "=") then
        match x with
        | .named name =>
          discard advance
          return .named name (← test depth)
        | _ => failBehind (utf8 "keyword argument must have form name=expr")
      else return .plain x

/-- An index or a slice, its bracket having been passed. -/
def bracketed : Nat → Expr Name → Parser (Expr Name)
  | 0, _ => exhausted
  | depth + 1, x => do
    let low ← if ← isNext (.mark ":") then pure none else some <$> expression depth false
    match low, ← isNext (.mark "]") with
    | some i, true =>
      discard advance
      return .index x i
    | _, _ =>
      let high ← sliceBound depth [":", "]"]
      let step ← sliceBound depth ["]"]
      discard (consume (.mark "]"))
      return .slice x low high step

/-- A bound of a slice behind a colon, which may be left out in front of some marks. -/
def sliceBound : Nat → List String → Parser (Option (Expr Name))
  | 0, _ => exhausted
  | depth + 1, ends => do
    if ← accept (.mark ":") then
      let next ← peek
      if ends.any fun sign => next.lexeme == .mark sign then return none
      else return some (← test depth)
    else return none

/-- Expressions between commas: one, or a tuple of them. -/
def expression : Nat → Bool → Parser (Expr Name)
  | 0, _ => exhausted
  | depth + 1, inBrackets => do
    let first ← peek
    let x ← test depth
    if ← isNext (.mark ",") then
      return .tuple first.start (← expressions depth inBrackets [x])
    else return x

/-- The expressions behind a comma, behind those in `read`, which are in reverse. -/
def expressions : Nat → Bool → List (Expr Name) → Parser (List (Expr Name))
  | 0, _, _ => exhausted
  | depth + 1, inBrackets, read => do
    if ← isNext (.mark ",") then
      let position ← advance
      if endsList (← peek).lexeme then
        unless inBrackets do failAt position (utf8 "unparenthesized tuple with trailing comma")
        return read.reverse
      else
        let x ← test depth
        expressions depth inBrackets (x :: read)
    else return read.reverse

/-- The expressions that no operator divides. -/
def primary : Nat → Parser (Expr Name)
  | 0 => exhausted
  | depth + 1 => do
    let first ← peek
    match first.lexeme with
    | .name name => return .named { name, position := ← advance }
    | .number n => return .number (← advance) n
    | .text bytes => return .text (← advance) bytes
    | .float => return .foreign (← advance) "float"
    | .bytes => return .foreign (← advance) "bytes"
    | .mark "[" =>
      let position ← advance
      listDisplay depth position
    | .mark "\x7b" =>
      let position ← advance
      dictDisplay depth position
    | .mark "(" =>
      let position ← advance
      if ← accept (.mark ")") then return .tuple position []
      else
        let x ← expression depth true
        discard (consume (.mark ")"))
        return .group position x
    | .mark "-" => return .unary (← advance) .minus (← primaryWithSuffixes depth)
    | .mark "+" => return .unary (← advance) .plus (← primaryWithSuffixes depth)
    | .mark "~" => return .unary (← advance) .complement (← primaryWithSuffixes depth)
    | lexeme => failAt first.start (gotInstead lexeme (utf8 "primary expression"))

/-- A list or a comprehension, its bracket having been passed. -/
def listDisplay : Nat → Position → Parser (Expr Name)
  | 0, _ => exhausted
  | depth + 1, position => do
    if ← accept (.mark "]") then return .list position []
    else
      let x ← test depth
      if ← isNext (.keyword "for") then
        return .comprehension position x (← clauses depth "]" [])
      else
        let items ← expressions depth true [x]
        discard (consume (.mark "]"))
        return .list position items

/-- A dictionary or a comprehension of one, its brace having been passed. -/
def dictDisplay : Nat → Position → Parser (Expr Name)
  | 0, _ => exhausted
  | depth + 1, position => do
    if ← accept (.mark "\x7d") then return .dict position []
    else
      let (key, value) ← dictEntry depth
      if ← isNext (.keyword "for") then
        return .dictComprehension position key value (← clauses depth "\x7d" [])
      else
        let entries ← dictEntries depth [(key, value)]
        discard (consume (.mark "\x7d"))
        return .dict position entries

/-- One entry of a dictionary. -/
def dictEntry : Nat → Parser (Expr Name × Expr Name)
  | 0 => exhausted
  | depth + 1 => do
    let key ← test depth
    discard (consume (.mark ":"))
    return (key, ← test depth)

/-- The entries of a dictionary behind a comma, behind those in `read`, which are in reverse. -/
def dictEntries :
    Nat → List (Expr Name × Expr Name) → Parser (List (Expr Name × Expr Name))
  | 0, _ => exhausted
  | depth + 1, read => do
    if ← accept (.mark ",") then
      if ← isNext (.mark "\x7d") then return read.reverse
      else
        let entry ← dictEntry depth
        dictEntries depth (entry :: read)
    else return read.reverse

/-- The clauses of a comprehension up to a closing mark, behind those in `read`, which are in reverse. -/
def clauses : Nat → String → List (Clause Name) → Parser (List (Clause Name))
  | 0, _, _ => exhausted
  | depth + 1, closing, read => do
    if ← accept (.mark closing) then return read.reverse
    else if ← accept (.keyword "for") then
      let target ← loopVariables depth
      discard (consume (.keyword "in"))
      let source ← climb depth 0
      clauses depth closing (.each target source :: read)
    else if ← accept (.keyword "if") then
      let condition ← testWithoutIf depth
      clauses depth closing (.onlyIf condition :: read)
    else failBehind (gotInstead (← peek).lexeme (utf8 s!"'{closing}', for, or if"))

/-- The variables of a loop: one, or a tuple of them. -/
def loopVariables : Nat → Parser (Expr Name)
  | 0 => exhausted
  | depth + 1 => do
    let first ← peek
    let x ← primaryWithSuffixes depth
    if ← isNext (.mark ",") then return .tuple first.start (← moreLoopVariables depth [x])
    else return x

/-- The variables of a loop behind a comma. -/
def moreLoopVariables : Nat → List (Expr Name) → Parser (List (Expr Name))
  | 0, _ => exhausted
  | depth + 1, read => do
    if ← accept (.mark ",") then
      if endsList (← peek).lexeme then return read.reverse
      else
        let x ← primaryWithSuffixes depth
        moreLoopVariables depth (x :: read)
    else return read.reverse

end

/-! ### Statements -/

/-- The name that a text spells where it stands. -/
def quotedName (bytes : ByteArray) (position : Position) : Name :=
  { name := String.ofList (Text.chars bytes.toList)
    position := { position with column := position.column + 1 } }

/-- One name to load: under its own name, or under another. -/
def loadedName : Parser (Name × Name) := do
  match (← peek).lexeme with
  | .text bytes =>
    let name := quotedName bytes (← advance)
    return (name, name)
  | .name _ =>
    let bound ← name
    let written := utf8 bound.name ++ utf8 "=\"originalname\""
    unless ← accept (.mark "=") do
      failBehind (utf8 "load operand must be \"" ++ utf8 bound.name ++ utf8 "\" or " ++ written
        ++ utf8 " (want '=' after " ++ utf8 bound.name ++ utf8 ")")
    match (← peek).lexeme with
    | .text bytes => return (bound, quotedName bytes (← advance))
    | _ => failBehind (utf8 "original name of loaded symbol must be quoted: " ++ written)
  | lexeme =>
    failBehind (utf8 "load operand must be \"name\" or localname=\"name\" (got "
      ++ lexeme.describe ++ utf8 ")")

/-- The names to load, behind those in `read`, which are in reverse. -/
def loadedNames : Nat → List (Name × Name) → Parser (List (Name × Name))
  | 0, _ => exhausted
  | depth + 1, read => do
    if (← isNext (.mark ")")) || (← isNext .endOfScript) then return read.reverse
    discard (consume (.mark ","))
    if ← isNext (.mark ")") then return read.reverse
    let loaded ← loadedName
    loadedNames depth (loaded :: read)

/-- A statement that loads names, its keyword having been passed. -/
def loadStatement (depth : Nat) (position : Position) : Parser (Stmt Name) := do
  let opening ← consume (.mark "(")
  match (← peek).lexeme with
  | .text _ => discard advance
  | _ => failBehind (utf8 "first operand of load statement must be a string literal")
  let names ← loadedNames depth []
  discard (consume (.mark ")"))
  if names.isEmpty then
    failAt opening (utf8 "load statement must import at least 1 symbol")
  return .load position names

/-- A statement without a body. -/
def smallStatement (depth : Nat) : Parser (Stmt Name) := do
  match (← peek).lexeme with
  | .keyword "return" =>
    let position ← advance
    match (← peek).lexeme with
    | .endOfScript | .newline | .mark ";" => return .giveBack position none
    | _ => return .giveBack position (some (← expression depth false))
  | .keyword "break" => return .leaveLoop (← advance)
  | .keyword "continue" => return .nextRound (← advance)
  | .keyword "pass" =>
    discard advance
    return .nothing
  | .keyword "load" =>
    let position ← advance
    loadStatement depth position
  | _ =>
    let x ← expression depth false
    match assignment? (← peek).lexeme with
    | none => return .expression x
    | some op =>
      discard advance
      let value ← expression depth false
      match op with
      | none => return .assign x value
      | some op => return .augment op x value

/-- Statements without bodies on one line, in front of those in `read`: the latest is the first. -/
def simpleStatements : Nat → List (Stmt Name) → Parser (List (Stmt Name))
  | 0, _ => exhausted
  | depth + 1, read => do
    let read := (← smallStatement depth) :: read
    if ← accept (.mark ";") then
      match (← peek).lexeme with
      | .newline | .endOfScript => endOfLine read
      | _ => simpleStatements depth read
    else endOfLine read
where
  /-- The end of the line. -/
  endOfLine (read : List (Stmt Name)) : Parser (List (Stmt Name)) := do
    unless ← isNext .endOfScript do discard (consume .newline)
    return read

mutual

/-- One statement with its body, or the statements of one line, in front of those in `read`: the latest is
the first. -/
def statement : Nat → List (Stmt Name) → Parser (List (Stmt Name))
  | 0, _ => exhausted
  | depth + 1, read => do
    match (← peek).lexeme with
    | .keyword "def" =>
      let position ← advance
      let name ← name
      discard (consume (.mark "("))
      let parameters ← formals depth []
      discard (consume (.mark ")"))
      let body ← suite depth
      return .define position name name.name parameters body :: read
    | .keyword "if" =>
      discard advance
      return (← branch depth) :: read
    | .keyword "for" =>
      discard advance
      let target ← loopVariables depth
      discard (consume (.keyword "in"))
      let source ← expression depth false
      return .forEach target source (← suite depth) :: read
    | .keyword "while" =>
      discard advance
      let condition ← test depth
      return .whileTrue condition (← suite depth) :: read
    | _ => simpleStatements depth read

/-- A condition with its branches, its keyword having been passed. -/
def branch : Nat → Parser (Stmt Name)
  | 0 => exhausted
  | depth + 1 => do
    let condition ← test depth
    let yes ← suite depth
    if ← accept (.keyword "elif") then return .branch condition yes [← branch depth]
    else if ← accept (.keyword "else") then return .branch condition yes (← suite depth)
    else return .branch condition yes []

/-- A colon and the statements behind it: on the same line, or indented below it. -/
def suite : Nat → Parser (List (Stmt Name))
  | 0 => exhausted
  | depth + 1 => do
    discard (consume (.mark ":"))
    if ← accept .newline then
      discard (consume .indent)
      let body ← statements depth []
      discard (consume .outdent)
      return body
    else return (← simpleStatements depth []).reverse

/-- Statements up to the end of their indentation, behind those in `read`, which are in reverse. -/
def statements : Nat → List (Stmt Name) → Parser (List (Stmt Name))
  | 0, _ => exhausted
  | depth + 1, read => do
    if (← isNext .outdent) || (← isNext .endOfScript) then return read.reverse
    else
      let read ← statement depth read
      statements depth read

end

/-- The statements of a script, behind those in `read`, which are in reverse. -/
def script : Nat → List (Stmt Name) → Parser (List (Stmt Name))
  | 0, _ => exhausted
  | depth + 1, read => do
    if ← isNext .endOfScript then return read.reverse
    else if ← accept .newline then script depth read
    else
      let read ← statement depth read
      script depth read

end Parser

/-- The statements of a script. -/
def parse (script : Text) : Except ScriptFault (List (Stmt Name)) := do
  let placed := lexemes script
  let (statements, _) ← (Parser.checkFront *> Parser.script (32 * placed.length + 32) []).run placed
  return statements

end LittleMan.Script
