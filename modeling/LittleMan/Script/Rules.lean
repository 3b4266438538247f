import LittleMan.Script.Builtin
import LittleMan.Script.Tree

/-!
# The rules that a check script keeps

A script is refused before it runs if it uses a name that stands for nothing, assigns to what cannot be
assigned to, returns outside a function, leaves a loop that it is not in, or orders the arguments or
parameters of a function wrongly. `firstFault?` gives the fault that is found first.

Names of the top level are looked up where they are used. Names in functions and comprehensions are looked
up when all of the script is known, innermost blocks first, so their faults come last. A name that has been
looked up is remembered in the blocks it was looked for in, and is offered like a bound one when a later
name is not found.
-/

namespace LittleMan.Script

/-- A part of a script with names of its own: all of it, a function or a comprehension. -/
structure Block where
  parent : Nat
  isFunction : Bool
  names : List String := []
  /-- The names used in a function, or in the script outside functions, each with its block. -/
  uses : Array (Name × Nat) := #[]
  children : Array Nat := #[]

/-- What is known of a script up to some place in it. Block 0 is the script itself. -/
structure Survey where
  blocks : Array Block := #[{ parent := 0, isFunction := false }]
  current : Nat := 0
  globals : List String := []
  loops : Nat := 0
  conditions : Nat := 0
  faults : Array ScriptFault := #[]

/-- Goes through a script and notes down what is wrong with it. -/
abbrev Surveyor := StateM Survey

namespace Survey

/-- The blocks from one to the script itself, in a number of steps. -/
def around (survey : Survey) : Nat → Nat → List Nat
  | 0, _ => [0]
  | _ + 1, 0 => [0]
  | count + 1, id =>
    id :: survey.around count ((survey.blocks[id]?.map Block.parent).getD 0)

/-- The blocks from one to the script itself. -/
def blocksAround (survey : Survey) (id : Nat) : List Nat := survey.around survey.blocks.size id

/-- Whether a block is a function. -/
def isFunction (survey : Survey) (id : Nat) : Bool :=
  (survey.blocks[id]?.map Block.isFunction).getD false

/-- The names of a block. -/
def namesOf (survey : Survey) (id : Nat) : List String :=
  (survey.blocks[id]?.map Block.names).getD []

/-- The function around a block, or the script itself. -/
def container (survey : Survey) (id : Nat) : Nat :=
  ((survey.blocksAround id).find? fun id => survey.isFunction id).getD 0

/-- Changes a block. -/
def changeBlock (survey : Survey) (id : Nat) (change : Block → Block) : Survey :=
  { survey with blocks := survey.blocks.modify id change }

/-- Whether a name stands for a global or for something built in. -/
def isKnown (survey : Survey) (name : String) : Bool :=
  (survey.namesOf 0).contains name || survey.globals.contains name || (Builtin.ofName? name).isSome

/-- The names that could have been meant in a block, in order. -/
def candidates (survey : Survey) (id : Nat) : List Text :=
  let names := (survey.blocksAround id).flatMap survey.namesOf ++ survey.globals
  (names.mergeSort fun a b => decide (a ≤ b)).map utf8

/-- The fault of a name that stands for nothing. -/
def undefined (survey : Survey) (v : Name) (id : Nat) : ScriptFault :=
  let hint :=
    match Text.nearest? (utf8 v.name) (survey.candidates id) with
    | some name => utf8 " (did you mean " ++ name ++ utf8 "?)"
    | none => []
  { position := v.position, message := utf8 s!"undefined: {v.name}" ++ hint }

/-- Adds a name to a block that does not have it. -/
def remember (survey : Survey) (name : String) (id : Nat) : Survey :=
  survey.changeBlock id fun block => { block with names := name :: block.names }

/-- Looks a name up in the blocks around one. -/
def lookUp (survey : Survey) (v : Name) (id : Nat) : Except ScriptFault Survey :=
  let inner := (survey.blocksAround id).filter (· != 0)
  let without := inner.takeWhile fun id => !(survey.namesOf id).contains v.name
  if without.length = inner.length && !survey.isKnown v.name then .error (survey.undefined v id)
  else .ok (without.foldl (fun survey id => survey.remember v.name id) survey)

/-- Looks up the names that functions use, those of inner functions first, in a number of steps. -/
def lookUpAll : Nat → Survey → Nat → Except ScriptFault Survey
  | 0, survey, _ => .ok survey
  | depth + 1, survey, id =>
    match survey.blocks[id]? with
    | none => .ok survey
    | some block => do
      let survey ← block.children.foldlM (lookUpAll depth) survey
      block.uses.foldlM (fun survey use => survey.lookUp use.1 use.2) survey

end Survey

namespace Surveyor

/-- Notes down a fault. -/
def fault (position : Position) (message : Text) : Surveyor Unit :=
  modify fun survey => { survey with faults := survey.faults.push { position, message } }

/-- Notes down a name that is used. -/
def use (v : Name) : Surveyor Unit :=
  modify fun survey =>
    let current := survey.current
    if current = 0 then
      if survey.isKnown v.name then survey
      else { survey with faults := survey.faults.push (survey.undefined v 0) }
    else
      survey.changeBlock (survey.container current) fun block =>
        { block with uses := block.uses.push (v, current) }

/-- Notes down a name that is bound. Tells whether its block has bound it before. -/
def bind (v : Name) : Surveyor Bool := do
  let current := (← get).current
  if current = 0 then
    let known := (← get).globals.contains v.name
    unless known do modify fun survey => { survey with globals := v.name :: survey.globals }
    return known
  else
    let known := ((← get).namesOf current).contains v.name
    unless known do modify fun survey => survey.remember v.name current
    use v
    return known

/-- Goes through a block inside the current one. -/
def within (isFunction : Bool) (body : Surveyor Unit) : Surveyor Unit := do
  let outer := (← get).current
  let inner := (← get).blocks.size
  modify fun survey =>
    let survey := survey.changeBlock outer fun block =>
      { block with children := block.children.push inner }
    { survey with blocks := survey.blocks.push { parent := outer, isFunction }, current := inner }
  body
  modify fun survey => { survey with current := outer }

/-- Drops the uses of a function that are found in its own blocks. -/
def settleUses (id : Nat) : Surveyor Unit :=
  modify fun survey =>
    let isLocal (use : Name × Nat) : Bool :=
      let blocks := survey.blocksAround use.2
      let own := blocks.takeWhile (· != id) ++ [id]
      own.any fun id => (survey.namesOf id).contains use.1.name
    survey.changeBlock id fun block => { block with uses := block.uses.filter (!isLocal ·) }

/-- What kind of expression cannot be assigned to. -/
def kindName : Expr Name → String
  | .number .. | .text .. | .foreign .. => "literal"
  | .dict .. => "dictexpr"
  | .unary .. => "unaryexpr"
  | .binary .. | .both .. | .either .. => "binaryexpr"
  | .choice .. => "condexpr"
  | .slice .. => "sliceexpr"
  | .call .. => "callexpr"
  | .comprehension .. | .dictComprehension .. => "comprehension"
  | .lambda .. => "lambdaexpr"
  | .named .. | .list .. | .tuple .. | .group .. | .index .. | .member .. => "expression"

/-- What has been seen of the arguments of a call. -/
structure SeenActuals where
  positional : Nat := 0
  names : List String := []
  named : Nat := 0
  spread : Bool := false
  spreadNamed : Bool := false

/-- The most arguments by position, or by name, that a call may have. -/
def argumentLimit : Nat := 255

/-- Why an argument by position may not follow those seen, if it may not. -/
def SeenActuals.positionalFault? (seen : SeenActuals) : Option String :=
  if seen.spread then some "positional argument may not follow *args"
  else if seen.spreadNamed then some "positional argument may not follow **kwargs"
  else if !seen.names.isEmpty then some "positional argument may not follow named"
  else none

/-- Why an argument by name may not follow those seen, if it may not. -/
def SeenActuals.namedFault? (seen : SeenActuals) : Option String :=
  if seen.spreadNamed then some "keyword argument may not follow **kwargs"
  else if seen.spread then some "keyword argument may not follow *args"
  else none

/-- Why the items of a value may not follow the arguments seen, if they may not. -/
def SeenActuals.spreadFault? (seen : SeenActuals) : Option String :=
  if seen.spreadNamed then some "*args may not follow **kwargs"
  else if seen.spread then some "multiple *args not allowed"
  else none

/-- Notes down a fault if there is one. -/
def faultIf (position : Position) (message : Option String) : Surveyor Unit :=
  match message with
  | some message => fault position (utf8 message)
  | none => return

/-- What has been seen of the parameters of a function. -/
structure SeenFormals where
  optional : Bool := false
  /-- Where the parameter for the arguments that are left over stands, and its name. -/
  rest : Option (Position × Option Name) := none
  restNamed : Option Name := none
  byName : Nat := 0

/-- Notes down a parameter, and that its name is not the first of its kind. -/
def bindFormal (v : Name) (position : Position) : Surveyor Unit := do
  if ← bind v then fault position (utf8 s!"duplicate parameter: {v.name}")

/-- Goes through a parameter behind those seen. -/
def formal (seen : SeenFormals) : Formal Name → Surveyor SeenFormals
  | .required v => do
    match seen.restNamed with
    | some other =>
      fault v.position (utf8 s!"required parameter may not follow **{other.name}")
    | none =>
      if seen.rest.isNone && seen.optional then
        fault v.position (utf8 "required parameter may not follow optional")
    bindFormal v v.position
    return { seen with byName := seen.byName + if seen.rest.isSome then 1 else 0 }
  | .optional v position _ => do
    match seen.restNamed with
    | some other => fault position (utf8 s!"optional parameter may not follow **{other.name}")
    | none => pure ()
    bindFormal v position
    return { seen with optional := true, byName := seen.byName + if seen.rest.isSome then 1 else 0 }
  | .rest position name => do
    match seen.restNamed, seen.rest with
    | some other, _ =>
      fault position (utf8 s!"* parameter may not follow **{other.name}")
      return seen
    | none, some _ =>
      fault position (utf8 "multiple * parameters not allowed")
      return seen
    | none, none => return { seen with rest := some (position, name) }
  | .restNamed position name => do
    if seen.restNamed.isSome then fault position (utf8 "multiple ** parameters not allowed")
    return { seen with restNamed := some name }

/-- Goes through the parameters of a function. Those for what is left over are bound last. -/
def formals (parameters : List (Formal Name)) : Surveyor Unit := do
  let seen ← parameters.foldlM formal {}
  match seen.rest with
  | some (_, some v) => bindFormal v v.position
  | some (position, none) =>
    if seen.byName = 0 then
      fault position (utf8 "bare * must be followed by keyword-only parameters")
  | none => pure ()
  match seen.restNamed with
  | some v => bindFormal v v.position
  | none => pure ()

mutual

/-- Goes through an expression. -/
def expr : Nat → Expr Name → Surveyor Unit
  | 0, _ => return
  | depth + 1, x =>
    match x with
    | .named v => use v
    | .number .. | .text .. | .foreign .. => return
    | .list _ items | .tuple _ items => items.forM (expr depth)
    | .dict _ entries =>
      entries.forM fun entry => do
        expr depth entry.1
        expr depth entry.2
    | .group _ x | .unary _ _ x | .member x _ => expr depth x
    | .binary _ x y | .both x y | .either x y | .index x y => do
      expr depth x
      expr depth y
    | .choice yes condition no => do
      expr depth condition
      expr depth yes
      expr depth no
    | .slice x low high step => do
      expr depth x
      low.forM (expr depth)
      high.forM (expr depth)
      step.forM (expr depth)
    | .call f arguments => do
      expr depth f
      let seen ← arguments.foldlM (actual depth) {}
      if argumentLimit < seen.positional then
        fault x.start (utf8 s!"{seen.positional} positional arguments in call, limit is 255")
      if argumentLimit < seen.named then
        fault x.start (utf8 s!"{seen.named} keyword arguments in call, limit is 255")
    | .comprehension _ body clauses => comprehension depth clauses (expr depth body)
    | .dictComprehension _ key value clauses =>
      comprehension depth clauses do
        expr depth key
        expr depth value
    | .lambda _ parameters body => function depth parameters (expr depth body)

/-- Goes through an argument of a call behind those seen. -/
def actual : Nat → SeenActuals → Actual Name → Surveyor SeenActuals
  | 0, seen, _ => return seen
  | depth + 1, seen, argument =>
    match argument with
    | .plain x => do
      faultIf x.start seen.positionalFault?
      expr depth x
      return { seen with positional := seen.positional + 1 }
    | .named v x => do
      faultIf v.position seen.namedFault?
      if seen.names.contains v.name then
        fault v.position (utf8 s!"keyword argument \"{v.name}\" is repeated")
      expr depth x
      return { seen with names := v.name :: seen.names, named := seen.named + 1 }
    | .spread position x => do
      faultIf position seen.spreadFault?
      expr depth x
      return { seen with spread := true }
    | .spreadNamed position x => do
      if seen.spreadNamed then fault position (utf8 "multiple **kwargs not allowed")
      expr depth x
      return { seen with spreadNamed := true }

/-- Goes through a comprehension. What its first clause goes through stands outside it. -/
def comprehension : Nat → List (Clause Name) → Surveyor Unit → Surveyor Unit
  | depth + 1, .each target source :: rest, body => do
    expr depth source
    within false do
      assignable depth false target
      rest.forM (clause depth)
      body
  | _, _, _ => return

/-- Goes through a clause of a comprehension behind the first. -/
def clause : Nat → Clause Name → Surveyor Unit
  | depth + 1, .each target source => do
    assignable depth false target
    expr depth source
  | depth + 1, .onlyIf condition => expr depth condition
  | 0, _ => return

/-- Goes through a function. What its parameters fall back to stands outside it. -/
def function : Nat → List (Formal Name) → Surveyor Unit → Surveyor Unit
  | 0, _, _ => return
  | depth + 1, parameters, body => do
    parameters.forM fun parameter =>
      match parameter with
      | .optional _ _ fallback => expr depth fallback
      | _ => return
    let loops := (← get).loops
    within true do
      modify fun survey => { survey with loops := 0 }
      formals parameters
      body
      settleUses (← get).current
    modify fun survey => { survey with loops }

/-- Goes through an expression that is assigned to. -/
def assignable : Nat → Bool → Expr Name → Surveyor Unit
  | 0, _, _ => return
  | depth + 1, isAugmented, target =>
    match target with
    | .named v => discard (bind v)
    | .index x i => do
      expr depth x
      expr depth i
    | .member x _ => expr depth x
    | .tuple _ items => do
      if isAugmented then
        fault target.start (utf8 "can't use tuple expression in augmented assignment")
      items.forM (assignable depth isAugmented)
    | .list _ items => do
      if isAugmented then
        fault target.start (utf8 "can't use list expression in augmented assignment")
      items.forM (assignable depth isAugmented)
    | .group _ x => assignable depth isAugmented x
    | x => fault x.start (utf8 s!"can't assign to {kindName x}")

end

/-- Why names cannot be loaded here, if they cannot. -/
def loadFault? (survey : Survey) : Option String :=
  if survey.container survey.current ≠ 0 then some "load statement within a function"
  else if 0 < survey.loops then some "load statement within a loop"
  else if 0 < survey.conditions then some "load statement within a conditional"
  else none

/-- Goes through a name that is loaded. -/
def loaded (bound source : Name) : Surveyor Unit := do
  if source.name.isEmpty then fault source.position (utf8 "load: empty identifier")
  else
    if source.name.startsWith "_" then
      fault source.position
        (utf8 s!"load: names with leading underscores are not exported: {source.name}")
    discard (bind bound)

/-- Goes through the body of a loop. -/
def inLoop (body : Surveyor Unit) : Surveyor Unit := do
  modify fun survey => { survey with loops := survey.loops + 1 }
  body
  modify fun survey => { survey with loops := survey.loops - 1 }

/-- Goes through the branches of a condition. -/
def inCondition (body : Surveyor Unit) : Surveyor Unit := do
  modify fun survey => { survey with conditions := survey.conditions + 1 }
  body
  modify fun survey => { survey with conditions := survey.conditions - 1 }

/-- Notes down a step out of a loop, or to its next round, that no loop is around. -/
def loopStep (word : String) (position : Position) : Surveyor Unit := do
  if (← get).loops = 0 then fault position (utf8 s!"{word} not in a loop")

/-- Goes through statements, in their order. -/
def statements : Nat → List (Stmt Name) → Surveyor Unit
  | 0, _ => return
  | depth + 1, body =>
    body.forM fun statement =>
      match statement with
      | .expression x => expr depth x
      | .assign target value => do
        expr depth value
        assignable depth false target
      | .augment _ target value => do
        expr depth value
        assignable depth true target
      | .branch condition yes no => do
        expr depth condition
        inCondition do
          statements depth yes
          statements depth no
      | .forEach target source body => do
        expr depth source
        assignable depth false target
        inLoop (statements depth body)
      | .whileTrue condition body => do
        expr depth condition
        inLoop (statements depth body)
      | .define _ name _ parameters body => do
        discard (bind name)
        function depth parameters (statements depth body)
      | .giveBack position value => do
        let survey ← get
        if survey.container survey.current = 0 then
          fault position (utf8 "return statement not within a function")
        value.forM (expr depth)
      | .leaveLoop position => loopStep "break" position
      | .nextRound position => loopStep "continue" position
      | .nothing => return
      | .load position names => do
        faultIf position (loadFault? (← get))
        names.forM fun entry => loaded entry.1 entry.2

end Surveyor

/-- The first thing that is wrong with a script, if anything is. The depth bounds how far expressions and
statements nest. -/
def firstFault? (depth : Nat) (script : List (Stmt Name)) : Option ScriptFault :=
  let survey := (do Surveyor.statements depth script; Surveyor.settleUses 0 : Surveyor Unit).run {} |>.2
  match survey.faults[0]? with
  | some fault => some fault
  | none =>
    match survey.lookUpAll (survey.blocks.size + 1) 0 with
    | .error fault => some fault
    | .ok _ => none

end LittleMan.Script
