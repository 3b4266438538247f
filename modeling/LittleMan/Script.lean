import LittleMan.Script.Eval
import LittleMan.Script.Parser
import LittleMan.Script.Rules

/-!
# The language of check scripts

A script is parsed, held against the rules, and run. One that does not parse or breaks a rule is refused
before anything runs. What was printed and checked before a script stopped is kept.

The language is the part of its model that check scripts are written with. Left out of it are fractions, the
contents of dictionaries and sets, the members of values such as the methods of texts, and those of the
functions that every script has which `Builtin.uncalledNames` lists: a script that uses them stops here.
-/

namespace LittleMan.Script

/-- More nested calls and rounds of loops than a script has time for. -/
def patience : Nat := Nat.pow 2 62

/-- The statements that a script comes to, if it parses and keeps the rules. -/
def prepare (script : Text) : Except Failure (List (Stmt Variable)) :=
  match parse script with
  | .error fault => .error (.unparsable fault)
  | .ok statements =>
    let depth := 32 * script.length + 32
    match firstFault? depth statements with
    | some fault => .error (.unruly fault)
    | none => .ok (resolve depth statements)

/-- Runs a script on a host. -/
def exec (host : Host) (script : Text) (session : Session) : Option Failure × Session :=
  match prepare script with
  | .error failure => (some failure, session)
  | .ok statements =>
    match Eval.block patience 0 statements { host, session } with
    | .ok _ store => (none, store.session)
    | .error why store => (some (.stopped why), store.session)

/-- The language. -/
def language : Language where
  unpack := unpack
  int32 := int32
  exec := exec

/-- Runs a script on the toolkit. -/
def run (maxTicks : Int64) (script : Text) : Option Failure × Session := language.run maxTicks script

end LittleMan.Script
