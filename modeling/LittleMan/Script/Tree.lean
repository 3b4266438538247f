import LittleMan.Script.Lexeme

/-!
# The tree of a check script

Expressions and statements, over a type of variables: a script is parsed with names in their places
and becomes runnable when every name has been found to stand for a variable.
-/

namespace LittleMan.Script

/-- The operators with one operand. -/
inductive UnaryOp where
  | plus
  | minus
  | complement
  | not
deriving DecidableEq, Repr

/-- The sign of an operator. -/
def UnaryOp.sign : UnaryOp → String
  | .plus => "+"
  | .minus => "-"
  | .complement => "~"
  | .not => "not"

/-- The operators with two operands, both of which are evaluated. -/
inductive BinaryOp where
  | add
  | subtract
  | multiply
  | divide
  | floorDivide
  | modulo
  | bitAnd
  | bitOr
  | bitXor
  | shiftLeft
  | shiftRight
  | equal
  | notEqual
  | less
  | lessEqual
  | greater
  | greaterEqual
  | isIn
  | isNotIn
deriving DecidableEq, Repr

/-- The sign of an operator. -/
def BinaryOp.sign : BinaryOp → String
  | .add => "+"
  | .subtract => "-"
  | .multiply => "*"
  | .divide => "/"
  | .floorDivide => "//"
  | .modulo => "%"
  | .bitAnd => "&"
  | .bitOr => "|"
  | .bitXor => "^"
  | .shiftLeft => "<<"
  | .shiftRight => ">>"
  | .equal => "=="
  | .notEqual => "!="
  | .less => "<"
  | .lessEqual => "<="
  | .greater => ">"
  | .greaterEqual => ">="
  | .isIn => "in"
  | .isNotIn => "not in"

/-- A name where it stands in a script. -/
structure Name where
  name : String
  position : Position
deriving DecidableEq, Repr

mutual

/-- An expression. Some expressions can also be assigned to. -/
inductive Expr (ν : Type) where
  | named (v : ν)
  | number (position : Position) (n : Nat)
  | text (position : Position) (bytes : ByteArray)
  /-- A literal of a type that a script can name but not work with. -/
  | foreign (position : Position) (type : String)
  | list (position : Position) (items : List (Expr ν))
  | tuple (position : Position) (items : List (Expr ν))
  | dict (position : Position) (entries : List (Expr ν × Expr ν))
  /-- An expression in parentheses. -/
  | group (position : Position) (x : Expr ν)
  | unary (position : Position) (op : UnaryOp) (x : Expr ν)
  | binary (op : BinaryOp) (x y : Expr ν)
  | both (x y : Expr ν)
  | either (x y : Expr ν)
  | choice (yes condition no : Expr ν)
  | index (x i : Expr ν)
  | slice (x : Expr ν) (low high step : Option (Expr ν))
  | member (x : Expr ν) (name : String)
  | call (f : Expr ν) (arguments : List (Actual ν))
  | comprehension (position : Position) (body : Expr ν) (clauses : List (Clause ν))
  | dictComprehension (position : Position) (key value : Expr ν) (clauses : List (Clause ν))
  /-- A function without a name. -/
  | lambda (position : Position) (parameters : List (Formal ν)) (body : Expr ν)

/-- An argument of a call. -/
inductive Actual (ν : Type) where
  | plain (x : Expr ν)
  | named (name : Name) (x : Expr ν)
  /-- The items of a value, each an argument. -/
  | spread (position : Position) (x : Expr ν)
  /-- The entries of a value, each an argument by name. -/
  | spreadNamed (position : Position) (x : Expr ν)

/-- A parameter of a function. -/
inductive Formal (ν : Type) where
  | required (name : Name)
  | optional (name : Name) (position : Position) (fallback : Expr ν)
  /-- The arguments by position that are left over; the parameters behind it are given by name. -/
  | rest (position : Position) (name : Option Name)
  /-- The arguments by name that are left over. -/
  | restNamed (position : Position) (name : Name)

/-- A clause of a comprehension. -/
inductive Clause (ν : Type) where
  | each (target source : Expr ν)
  | onlyIf (condition : Expr ν)

end

/-- A statement. -/
inductive Stmt (ν : Type) where
  | expression (x : Expr ν)
  | assign (target value : Expr ν)
  | augment (op : BinaryOp) (target value : Expr ν)
  | branch (condition : Expr ν) (yes no : List (Stmt ν))
  | forEach (target source : Expr ν) (body : List (Stmt ν))
  | whileTrue (condition : Expr ν) (body : List (Stmt ν))
  /-- A function. The place of its definition tells it from every other. -/
  | define (position : Position) (name : ν) (title : String) (parameters : List (Formal ν))
    (body : List (Stmt ν))
  | giveBack (position : Position) (value : Option (Expr ν))
  | leaveLoop (position : Position)
  | nextRound (position : Position)
  | nothing
  /-- Names taken from another script: each is bound under a name of this one. -/
  | load (position : Position) (names : List (Name × Name))

/-- Where an expression starts. -/
def Expr.start : Expr Name → Position
  | .named v => v.position
  | .number position _ | .text position _ | .foreign position _ | .list position _
  | .tuple position _ | .dict position _ | .group position _ | .unary position _ _
  | .comprehension position _ _ | .dictComprehension position _ _ _
  | .lambda position _ _ => position
  | .binary _ x _ | .both x _ | .either x _ | .choice x _ _ | .index x _ | .slice x _ _ _
  | .member x _ | .call x _ => x.start

/-- Where an argument starts. -/
def Actual.start : Actual Name → Position
  | .plain x => x.start
  | .named name _ => name.position
  | .spread position _ | .spreadNamed position _ => position

end LittleMan.Script
