import LittleMan.Script.Unpack

/-!
# What a check script finds already there

The functions of the toolkit, the size of the memory, and the functions and constants that every script
has.
-/

namespace LittleMan.Script

/-- The functions and values that a script finds already there. -/
inductive Builtin where
  | len
  | range
  | str
  | print
  | fail
  | tool (tool : Tool)
  | truth (b : Bool)
  | nothing
  | memorySize
  /-- A function that check scripts do not call. -/
  | uncalled (name : String)
deriving DecidableEq, Repr

namespace Builtin

/-- The names of the functions that check scripts do not call. -/
def uncalledNames : List String :=
  ["abs", "all", "any", "bool", "bytes", "chr", "dict", "dir", "enumerate", "float", "getattr",
    "hasattr", "hash", "int", "list", "max", "min", "ord", "repr", "reversed", "set", "sorted",
    "tuple", "type", "zip"]

/-- What is built in under a name. -/
def ofName? : String → Option Builtin
  | "len" => some .len
  | "range" => some .range
  | "str" => some .str
  | "print" => some .print
  | "fail" => some .fail
  | "True" => some (.truth true)
  | "False" => some (.truth false)
  | "None" => some .nothing
  | "MEMORY_SIZE" => some .memorySize
  | name =>
    if uncalledNames.contains name then some (.uncalled name) else (Tool.ofName? name).map .tool

/-- The name of a function that is built in. -/
def name : Builtin → String
  | .len => "len"
  | .range => "range"
  | .str => "str"
  | .print => "print"
  | .fail => "fail"
  | .tool t => t.name
  | .uncalled name => name
  | .truth _ | .nothing | .memorySize => ""

end Builtin

end LittleMan.Script
