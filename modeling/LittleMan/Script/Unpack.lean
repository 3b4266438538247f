import LittleMan.Toolkit
import LittleMan.Text.Nearest

/-!
# The arguments of a call

A function that is built in says which parameters it has. Arguments are given to them by position, from
the first on, or by name. No parameter takes two arguments or one of another kind, and only the parameters
that are optional can be left out.
-/

namespace LittleMan

/-- The name of a kind in messages. -/
def Kind.name : Kind → String
  | .text => "string"
  | .list => "list"

/-- The name of an argument's type in messages. -/
def Argument.typeName : Argument → String
  | .text _ => Kind.text.name
  | .list _ => Kind.list.name
  | .other type => type

namespace Script

/-- What is wrong with the arguments of a call. -/
inductive ArgumentFault where
  /-- More arguments by position than there are parameters. -/
  | tooMany (given most : Nat)
  /-- An argument by position that its parameter does not take. -/
  | positionType (parameter : Parameter) (type : String)
  /-- An argument by name that its parameter does not take. -/
  | keywordType (parameter : Parameter) (type : String)
  /-- An argument by name for a parameter that has its argument. -/
  | repeated (keyword : Text)
  /-- A name that no parameter has, and one that may have been meant. -/
  | unknownKeyword (keyword : Text) (meant : Option Text)
  /-- A parameter without an argument. -/
  | missing (parameter : Parameter)
deriving DecidableEq, Repr

/-- A type where another was wanted. -/
def typeMessage (got want : String) : Text := utf8 s!"got {got}, want {want}"

/-- The wording of a fault in a call of a function. -/
def ArgumentFault.message (function : String) : ArgumentFault → Text
  | .tooMany given most => utf8 s!"{function}: got {given} arguments, want at most {most}"
  | .positionType parameter type =>
    utf8 s!"{function}: for parameter {parameter.name}: " ++ typeMessage type parameter.kind.name
  | .keywordType parameter type =>
    utf8 s!"{function}: for parameter \"{parameter.name}\": " ++ typeMessage type parameter.kind.name
  | .repeated keyword =>
    utf8 s!"{function}: got multiple values for keyword argument \"" ++ keyword ++ utf8 "\""
  | .unknownKeyword keyword meant =>
    utf8 s!"{function}: unexpected keyword argument \"" ++ keyword ++ utf8 "\""
      ++ match meant with
        | some name => utf8 " (did you mean " ++ name ++ utf8 "?)"
        | none => []
  | .missing parameter => utf8 s!"{function}: missing argument for {parameter.name}"

/-- Binds one argument given by position. -/
def bindPosition (entry : Parameter × Argument) : Except ArgumentFault (Parameter × Argument) :=
  if entry.2.hasKind entry.1.kind then .ok entry
  else .error (.positionType entry.1 entry.2.typeName)

/-- Binds one argument given by name. Only the parameters that must be given are offered when the name
is not known. -/
def bindKeyword (parameters : List Parameter) (bound : Bound) (entry : Text × Argument) :
    Except ArgumentFault Bound :=
  match parameters.find? fun parameter => utf8 parameter.name == entry.1 with
  | none =>
    let candidates := (parameters.filter fun parameter => !parameter.optional).map
      fun parameter => utf8 parameter.name
    .error (.unknownKeyword entry.1 (Text.nearest? entry.1 candidates))
  | some parameter =>
    if (bound.given? parameter.name).isSome then .error (.repeated entry.1)
    else if entry.2.hasKind parameter.kind then .ok (bound ++ [(parameter, entry.2)])
    else .error (.keywordType parameter entry.2.typeName)

/-- The first parameter that must be given and is not. -/
def missing? (parameters : List Parameter) (bound : Bound) : Option Parameter :=
  parameters.find? fun parameter => !parameter.optional && (bound.given? parameter.name).isNone

/-- Binds the arguments of a call: those by position, then those by name, and nothing may be missing. -/
def bindAll (parameters : List Parameter) (positional : List Argument) (keywords : List (Text × Argument)) :
    Except ArgumentFault Bound := do
  if parameters.length < positional.length then
    throw (.tooMany positional.length parameters.length)
  let byPosition ← (parameters.zip positional).mapM bindPosition
  let bound ← keywords.foldlM (bindKeyword parameters) byPosition
  match missing? parameters bound with
  | some parameter => throw (.missing parameter)
  | none => return bound

/-- Tells the arguments of a call apart. -/
def unpack (function : String) (parameters : List Parameter) (positional : List Argument)
    (keywords : List (Text × Argument)) : Except Text Bound :=
  (bindAll parameters positional keywords).mapError (ArgumentFault.message function)

/-- The number of 32 bits that an item is. -/
def int32 : Item → Except Text Int
  | .other type => .error (typeMessage type "int")
  | .number n =>
    if n < -2147483648 ∨ 2147483647 < n then .error (Decimal.plain n ++ utf8 " out of range") else .ok n

end Script

end LittleMan
