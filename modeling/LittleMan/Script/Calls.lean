import LittleMan.Script

/-!
# Calls written out as a script

Calls of the toolkit can be written out as a script, one line for each, that prints what every call gives
back. Like any other script, it has to parse and to keep the rules before the first call is made.
-/

namespace LittleMan.Script

/-- A value of a type as a script writes it. -/
def sample : String → String
  | "string" => "\"\""
  | "int" => "0"
  | "bool" => "True"
  | "list" => "[]"
  | "float" => "0.0"
  | "tuple" => "()"
  | "dict" => "\x7b\x7d"
  | "bytes" => "b\"\""
  | "set" => "set()"
  | "range" => "range(0)"
  | _ => "None"

/-- An item as a script writes it. -/
def itemText : Item → Text
  | .number n => Decimal.plain n
  | .other type => utf8 (sample type)

/-- An argument as a script writes it. -/
def argumentText : Argument → Text
  | .text text => Text.quoted text
  | .list items => utf8 "[" ++ Text.join (utf8 ", ") (items.map itemText) ++ utf8 "]"
  | .other type => utf8 (sample type)

/-- The line that makes a call and prints what it gives back. -/
def callLine (call : Call) : Text :=
  let arguments := call.positional.map argumentText
    ++ call.keywords.map fun entry => entry.1 ++ utf8 "=" ++ argumentText entry.2
  utf8 "print(" ++ utf8 call.tool.name ++ utf8 "(" ++ Text.join (utf8 ", ") arguments ++ utf8 "))\n"

/-- Runs the script that makes calls in order and prints what each gives back. -/
def runCalls (maxTicks : Int64) (calls : List Call) : Option Failure × Session :=
  run maxTicks (calls.flatMap callLine)

end LittleMan.Script
