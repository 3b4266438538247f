import LittleMan.Script.Operator

/-!
# Running check scripts

Statements are executed in order and expressions are evaluated from left to right. A function cannot be
called while it is being called, so only loops can go on without end: every function here takes the
number of calls it may still nest, rounds of a loop included, and stops when there are none.
-/

namespace LittleMan.Script

/-- Something that changes the store and gives a value or stops. -/
abbrev Eval := EStateM Stopped Store

/-- How statements came out. -/
inductive Signal where
  | next
  | leaveLoop
  | nextRound
  | giveBack (v : Value)

namespace Eval

/-- Stops with a message. -/
def failWith {α : Type} (message : Text) : Eval α := throw (.failed message none)

/-- A result, or its message as a failure. -/
def ofExcept {α : Type} : Except Text α → Eval α
  | .ok value => pure value
  | .error message => failWith message

/-- Puts a new list into the store. -/
def newList (items : Array Value) : Eval Value :=
  modifyGet fun store =>
    let id := store.sequences.size
    (.list id, { store with sequences := store.sequences.push { items } })

/-- Puts a new tuple into the store. -/
def newTuple (items : Array Value) : Eval Value :=
  modifyGet fun store =>
    let id := store.sequences.size
    (.tuple id, { store with sequences := store.sequences.push { items } })

/-- Puts the result of an operator into the store. -/
def made : Made → Eval Value
  | .value v => return v
  | .list items => newList items
  | .tuple items => newTuple items

/-- Changes a list or tuple. -/
def changeSequence (id : Nat) (change : Sequence → Sequence) : Eval Unit :=
  modify fun store => { store with sequences := store.sequences.modify id change }

/-- Stops if a loop goes through a list. -/
def checkUnlooped (action : String) (id : Nat) : Eval Unit := do
  let loops := ((← get).sequences[id]?.map Sequence.loops).getD 0
  if 0 < loops then failWith (utf8 s!"cannot {action} list during iteration")

/-- Does something while a loop goes through a value. -/
def looping {α : Type} (source : Value) (body : Eval α) : Eval α := do
  match source with
  | .list id =>
    changeSequence id fun sequence => { sequence with loops := sequence.loops + 1 }
    let result ← body
    changeSequence id fun sequence => { sequence with loops := sequence.loops - 1 }
    return result
  | _ => body

/-- The values that a loop goes through. -/
def iterate (v : Value) : Eval Rounds := do
  match (← get).iterate? v with
  | some rounds => return rounds
  | none => failWith (utf8 s!"{v.typeName} value is not iterable")

/-! ### Variables -/

/-- The frame some levels around another. -/
def frameUp (store : Store) : Nat → Nat → Nat
  | 0, frame => frame
  | up + 1, frame => frameUp store up ((store.frames[frame]?.map Frame.parent).getD 0)

/-- A new frame inside another. -/
def newFrame (parent : Nat) (slots : Array (Option Value)) : Eval Nat :=
  modifyGet fun store =>
    let id := store.frames.size
    (id, { store with frames := store.frames.push { parent, slots } })

/-- What a slot holds. -/
def slotAt (slots : Array (Option Value)) (i : Nat) : Option Value := (slots[i]?).join

/-- Puts a value into a slot, behind empty ones if there are not so many. -/
def setSlot (slots : Array (Option Value)) (i : Nat) (v : Value) : Array (Option Value) :=
  if i < slots.size then slots.setIfInBounds i (some v)
  else (slots ++ Array.replicate (i - slots.size) none).push (some v)

/-- The value of a variable. -/
def readVariable (frame : Nat) : Variable → Eval Value
  | .builtin builtin => return builtin.value
  | .global slot name => do
    match slotAt (← get).globals slot with
    | some v => return v
    | none => failWith (utf8 s!"global variable {name} referenced before assignment")
  | .slot up index name => do
    let store ← get
    let held :=
      match store.frames[frameUp store up frame]? with
      | some frame => slotAt frame.slots index
      | none => none
    match held with
    | some v => return v
    | none => failWith (utf8 s!"local variable {name} referenced before assignment")

/-- Gives a variable a value. -/
def bindVariable (frame : Nat) (target : Variable) (v : Value) : Eval Unit :=
  match target with
  | .builtin _ => return
  | .global slot _ => modify fun store => { store with globals := setSlot store.globals slot v }
  | .slot up index _ =>
    modify fun store =>
      let id := frameUp store up frame
      { store with
        frames := store.frames.modify id fun frame =>
          { frame with slots := setSlot frame.slots index v } }

/-! ### Assigning to items -/

/-- Puts a value into a list. -/
def setItem (x i v : Value) : Eval Unit := do
  match x with
  | .list id =>
    let i ← ofExcept (Store.int32 i)
    let length := Int64.ofNat ((← get).items id).size
    let place ← ofExcept (Store.place x.typeName length i)
    checkUnlooped "assign to element of" id
    changeSequence id fun sequence => { sequence with items := sequence.items.setIfInBounds place v }
  | x => failWith (utf8 s!"{x.typeName} value does not support item assignment")

/-- What an operator gives. -/
def binary (op : BinaryOp) (x y : Value) : Eval Value := do
  let result := (← get).binary op x y
  made (← ofExcept result)

/-- What an augmented assignment gives. Adding to a list extends it. -/
def augmented (op : BinaryOp) (x y : Value) : Eval Value := do
  let rounds := (← get).iterate? y
  match op, x, rounds with
  | .add, .list id, some rounds =>
    checkUnlooped "apply += to" id
    let more := rounds.toArray
    changeSequence id fun sequence => { sequence with items := sequence.items ++ more }
    return x
  | op, x, _ => binary op x y

/-! ### Functions that are built in -/

/-- The arguments of a call: those by position and those by name. -/
structure Arguments where
  positional : Array Value := #[]
  named : Array (String × Value) := #[]

/-- The number of arguments that a function takes by position, between two bounds. -/
def checkCount (function : String) (least most : Nat) (arguments : Arguments) : Eval Unit := do
  let given := arguments.positional.size
  unless arguments.named.isEmpty do
    failWith (utf8 s!"{function}: unexpected keyword arguments")
  if given < least then
    let bound := if least < most then "at least " else ""
    failWith (utf8 s!"{function}: got {given} arguments, want {bound}{least}")
  if most < given then
    let bound := if least < most then "at most " else ""
    failWith (utf8 s!"{function}: got {given} arguments, want {bound}{most}")

/-- An integer of 64 bits, or what is wrong with a value that is none. -/
def int64 : Value → Except Text Int64
  | .number n =>
    if n < -9223372036854775808 ∨ 9223372036854775807 < n then
      .error (Decimal.plain n ++ utf8 " out of range (want value in signed 64-bit range)")
    else .ok (Int64.ofInt n)
  | v => .error (typeMessage v.typeName "int")

/-- The integers that a function takes, the first being parameter `place`. -/
def integers (function : String) (place : Nat) : List Value → Eval (List Int64)
  | [] => return []
  | v :: rest => do
    match int64 v with
    | .ok n => return n :: (← integers function (place + 1) rest)
    | .error message => failWith (utf8 s!"{function}: for parameter {place}: " ++ message)

/-- The separator that `print` and `fail` put between their arguments. -/
def separator (function : String) (found : Text) : List (String × Value) → Eval Text
  | [] => return found
  | ("sep", .text bytes) :: rest => separator function bytes.toList rest
  | ("sep", v) :: _ =>
    failWith (utf8 s!"{function}: for parameter \"sep\": " ++ typeMessage v.typeName "string")
  | (name, _) :: _ =>
    let hint :=
      match Text.nearest? (utf8 name) [utf8 "sep"] with
      | some meant => utf8 " (did you mean " ++ meant ++ utf8 "?)"
      | none => []
    failWith (utf8 s!"{function}: unexpected keyword argument \"{name}\"" ++ hint)

/-- The arguments as they are printed, with the separator between them. -/
def printed (function : String) (arguments : Arguments) : Eval Text := do
  let separator ← separator function (utf8 " ") arguments.named.toList
  let store ← get
  return Text.join separator (arguments.positional.toList.map store.display)

/-- The range that arguments give. -/
def rangeOf : List Int64 → Eval Value
  | [stop] => return .range 0 stop 1
  | [start, stop] => return .range start stop 1
  | [start, stop, step] =>
    if step = 0 then failWith (utf8 "range: step argument must not be zero")
    else return .range start stop step
  | _ => return .nothing

/-- An item as the toolkit sees it. -/
def toItem : Value → Item
  | .number n => .number n
  | v => .other v.typeName

/-- An argument as the toolkit sees it. -/
def toArgument (store : Store) : Value → Argument
  | .text bytes => .text bytes.toList
  | .list id => .list ((store.items id).toList.map toItem)
  | v => .other v.typeName

/-- A call as the toolkit sees it. -/
def toCall (store : Store) (tool : Tool) (arguments : Arguments) : Call where
  tool := tool
  positional := arguments.positional.toList.map (toArgument store)
  keywords := arguments.named.toList.map fun entry => (utf8 entry.1, toArgument store entry.2)

/-- Calls a function of the toolkit. -/
def callTool (tool : Tool) (arguments : Arguments) : Eval Value := do
  let store ← get
  let (result, session) := store.host.call (toCall store tool arguments) store.session
  set { store with session }
  match result with
  | .error fault => throw (.failed fault.message fault.cause?)
  | .ok (.numbers numbers) => newList (numbers.map .number).toArray
  | .ok (.truth b) => return .truth b

/-- Calls a function that is built in. -/
def callBuiltin (builtin : Builtin) (arguments : Arguments) : Eval Value := do
  match builtin with
  | .tool tool => callTool tool arguments
  | .len =>
    checkCount "len" 1 1 arguments
    let x := arguments.positional.getD 0 .nothing
    let length := ((← get).length? x).getD (-1)
    if length < 0 then failWith (utf8 s!"len: value of type {x.typeName} has no len")
    else return .number length.toInt
  | .range =>
    checkCount "range" 1 3 arguments
    rangeOf (← integers "range" 1 arguments.positional.toList)
  | .str =>
    unless arguments.named.isEmpty do failWith (utf8 "str does not accept keyword arguments")
    match arguments.positional.toList with
    | [.text bytes] => return .text bytes
    | [x] => return .text ((← get).write x).toByteArray
    | more => failWith (utf8 s!"str: got {more.length} arguments, want exactly 1")
  | .print =>
    let line ← printed "print" arguments
    modify fun store => { store with session := store.host.print line store.session }
    return .nothing
  | .fail =>
    let message ← printed "fail" arguments
    failWith (utf8 "fail: " ++ message)
  | .uncalled name =>
    if name = "set" ∧ arguments.positional.isEmpty ∧ arguments.named.isEmpty then
      return .foreign name
    failWith (utf8 s!"{name}: not available in check scripts")
  | .truth _ | .nothing | .memorySize =>
    failWith (utf8 s!"invalid call of non-function ({builtin.value.typeName})")

/-! ### Functions of the script -/

/-- Binds the arguments by name to the parameters that have no argument. -/
def bindNamed (closure : Closure) (slots : Array (Option Value)) :
    List (String × Value) → Eval (Array (Option Value))
  | [] => return slots
  | (name, v) :: rest =>
    match closure.parameters.findIdx? fun parameter => parameter.1 == name with
    | some i =>
      if (slotAt slots i).isSome then
        failWith (utf8 s!"function {closure.name} got multiple values for parameter \"{name}\"")
      else bindNamed closure (setSlot slots i v) rest
    | none =>
      if closure.hasRestNamed then bindNamed closure slots rest
      else
        failWith (utf8 s!"function {closure.name} got an unexpected keyword argument \"{name}\"")

/-- Puts what parameters fall back to into the slots that are empty, and gives the parameters that are
left. -/
def fillSlots (i : Nat) (slots : Array (Option Value)) (missing : List String) :
    List (String × Option Value) → Array (Option Value) × List String
  | [] => (slots, missing.reverse)
  | (name, fallback) :: rest =>
    match slotAt slots i, fallback with
    | some _, _ => fillSlots (i + 1) slots missing rest
    | none, some v => fillSlots (i + 1) (setSlot slots i v) missing rest
    | none, none => fillSlots (i + 1) slots (name :: missing) rest

/-- What is wrong with the number of arguments by position, if anything is. -/
def countMessage? (closure : Closure) (arguments : Arguments) : Option Text :=
  let given := arguments.positional.size
  let all := given + arguments.named.size
  let wanted := closure.positional
  let name := closure.name
  if closure.parameters.isEmpty && !closure.hasRest && !closure.hasRestNamed then
    if 0 < all then some (utf8 s!"function {name} accepts no arguments ({all} given)") else none
  else if wanted < given && !closure.hasRest then
    let canFallBack := (closure.parameters.take wanted).any fun parameter => parameter.2.isSome
    let bound := if canFallBack then "at most " else ""
    let plural := if wanted = 1 then "" else "s"
    some (utf8
      s!"function {name} accepts {bound}{wanted} positional argument{plural} ({given} given)")
  else none

/-- The slots that a call starts with: those of the parameters, of the arguments by position that are left
over, and of those by name. -/
def bindArguments (closure : Closure) (arguments : Arguments) : Eval (Array (Option Value)) := do
  match countMessage? closure arguments with
  | some message => failWith message
  | none => pure ()
  let wanted := closure.positional
  let given := (arguments.positional.extract 0 wanted).map some
  let slots := given ++ Array.replicate (closure.parameters.length - given.size) none
  let slots ← bindNamed closure slots arguments.named.toList
  let (slots, missing) := fillSlots 0 slots [] closure.parameters
  unless missing.isEmpty do
    let count := missing.length
    let plural := if count = 1 then "" else "s"
    let names := ", ".intercalate missing
    failWith (utf8 s!"function {closure.name} missing {count} argument{plural} ({names})")
  let rest := arguments.positional.extract wanted arguments.positional.size
  let slots ← if closure.hasRest then pure (slots.push (some (← newTuple rest))) else pure slots
  return if closure.hasRestNamed then slots.push (some (.foreign "dict")) else slots

/-- A function with what its parameters fall back to, in the order of its parameters. -/
def closureOf (name : String) (position : Position) (frame : Nat)
    (formals : List (Formal Variable)) (fallbacks : List Value) (body : List (Stmt Variable)) :
    Closure :=
  let ordinary (formals : List (Formal Variable)) : List (String × Bool) :=
    formals.filterMap fun formal =>
      match formal with
      | .required v => some (v.name, false)
      | .optional v _ _ => some (v.name, true)
      | _ => none
  let isRest : Formal Variable → Bool
    | .rest .. => true
    | _ => false
  let parameters := (ordinary formals).foldl
    (fun (read : List (String × Option Value) × List Value) parameter =>
      if parameter.2 then ((parameter.1, read.2.head?) :: read.1, read.2.drop 1)
      else ((parameter.1, none) :: read.1, read.2)) ([], fallbacks)
  { name
    parameters := parameters.1.reverse
    positional := (ordinary (formals.takeWhile (!isRest ·))).length
    hasRest := formals.any fun formal =>
      match formal with
      | .rest _ (some _) => true
      | _ => false
    hasRestNamed := formals.any fun formal =>
      match formal with
      | .restNamed .. => true
      | _ => false
    body, position, frame }

/-- What the parameters of a function fall back to. -/
def fallbacksOf (formals : List (Formal Variable)) : List (Expr Variable) :=
  formals.filterMap fun formal =>
    match formal with
    | .optional _ _ fallback => some fallback
    | _ => none

/-- Puts a function into the store. -/
def newFunction (closure : Closure) : Eval Value :=
  modifyGet fun store =>
    let id := store.closures.size
    (.function id, { store with closures := store.closures.push closure })

/-! ### Expressions and statements -/

/-- What stands behind a point: no value here has members. -/
def readMember (x : Value) (name : String) : Eval Value :=
  failWith (utf8 s!"{x.typeName} has no .{name} field or method")

mutual

/-- Evaluates an expression. -/
def expr : Nat → Nat → Expr Variable → Eval Value
  | 0, _, _ => throw .exhausted
  | depth + 1, frame, x =>
    match x with
    | .named v => readVariable frame v
    | .number _ n => return .number n
    | .text _ bytes => return .text bytes
    | .foreign _ type => return .foreign type
    | .list _ items => do newList (← exprs depth frame #[] items)
    | .tuple _ items => do newTuple (← exprs depth frame #[] items)
    | .dict _ entries => do
      discard (exprs depth frame #[] (entries.flatMap fun entry => [entry.1, entry.2]))
      return .foreign "dict"
    | .group _ x => expr depth frame x
    | .unary _ op x => do
      let v ← expr depth frame x
      let result := (← get).unary op v
      ofExcept result
    | .binary op x y => do
      let v ← expr depth frame x
      let w ← expr depth frame y
      binary op v w
    | .both x y => do
      let v ← expr depth frame x
      if (← get).isTrue v then expr depth frame y else return v
    | .either x y => do
      let v ← expr depth frame x
      if (← get).isTrue v then return v else expr depth frame y
    | .choice yes condition no => do
      let v ← expr depth frame condition
      if (← get).isTrue v then expr depth frame yes else expr depth frame no
    | .index x i => do
      let v ← expr depth frame x
      let i ← expr depth frame i
      let result := (← get).index v i
      ofExcept result
    | .slice x low high step => do
      let v ← expr depth frame x
      let low ← optional depth frame low
      let high ← optional depth frame high
      let step ← optional depth frame step
      let result := (← get).slice v low high step
      made (← ofExcept result)
    | .member x name => do readMember (← expr depth frame x) name
    | .call f arguments => do
      let f ← expr depth frame f
      let arguments ← actuals depth frame {} arguments
      call depth f arguments
    | .comprehension _ body clauses => do
      newList (← comprehension depth frame body clauses #[])
    | .dictComprehension _ key value clauses => do
      discard (comprehension depth frame (.tuple {} [key, value]) clauses #[])
      return .foreign "dict"
    | .lambda position parameters body => do
      let fallbacks ← exprs depth frame #[] (fallbacksOf parameters)
      newFunction (closureOf "lambda" position frame parameters fallbacks.toList
        [.giveBack position (some body)])

/-- Evaluates expressions, in their order, behind those in `read`. -/
def exprs : Nat → Nat → Array Value → List (Expr Variable) → Eval (Array Value)
  | 0, _, _, _ => throw .exhausted
  | _ + 1, _, read, [] => return read
  | depth + 1, frame, read, x :: rest => do
    let v ← expr depth frame x
    exprs depth frame (read.push v) rest

/-- Evaluates an expression that may be left out. -/
def optional : Nat → Nat → Option (Expr Variable) → Eval (Option Value)
  | 0, _, _ => throw .exhausted
  | _ + 1, _, none => return none
  | depth + 1, frame, some x => do return some (← expr depth frame x)

/-- Evaluates the arguments of a call, in their order, behind those in `read`. -/
def actuals : Nat → Nat → Arguments → List (Actual Variable) → Eval Arguments
  | 0, _, _, _ => throw .exhausted
  | _ + 1, _, read, [] => return read
  | depth + 1, frame, read, .plain x :: rest => do
    let v ← expr depth frame x
    actuals depth frame { read with positional := read.positional.push v } rest
  | depth + 1, frame, read, .named name x :: rest => do
    let v ← expr depth frame x
    actuals depth frame { read with named := read.named.push (name.name, v) } rest
  | depth + 1, frame, read, .spread _ x :: rest => do
    let v ← expr depth frame x
    match (← get).iterate? v with
    | some rounds =>
      actuals depth frame { read with positional := read.positional ++ rounds.toArray } rest
    | none => failWith (utf8 s!"argument after * must be iterable, not {v.typeName}")
  | depth + 1, frame, read, .spreadNamed _ x :: rest => do
    let v ← expr depth frame x
    match v with
    | .foreign "dict" => actuals depth frame read rest
    | v => failWith (utf8 s!"argument after ** must be a mapping, not {v.typeName}")

/-- Calls a function. -/
def call : Nat → Value → Arguments → Eval Value
  | 0, _, _ => throw .exhausted
  | depth + 1, f, arguments => do
    match f with
    | .builtin builtin => callBuiltin builtin arguments
    | .function id =>
      match (← get).closures[id]? with
      | none => return .nothing
      | some closure =>
        if (← get).active.contains closure.position then
          failWith (utf8 s!"function {closure.name} called recursively")
        let frame ← newFrame closure.frame (← bindArguments closure arguments)
        modify fun store => { store with active := closure.position :: store.active }
        let signal ← block depth frame closure.body
        modify fun store => { store with active := store.active.drop 1 }
        match signal with
        | .giveBack v => return v
        | _ => return .nothing
    | f => failWith (utf8 s!"invalid call of non-function ({f.typeName})")

/-- The items of a comprehension, behind those in `read`. -/
def comprehension :
    Nat → Nat → Expr Variable → List (Clause Variable) → Array Value → Eval (Array Value)
  | 0, _, _, _, _ => throw .exhausted
  | depth + 1, frame, body, [], read => do return read.push (← expr depth frame body)
  | depth + 1, frame, body, .onlyIf condition :: clauses, read => do
    let v ← expr depth frame condition
    if (← get).isTrue v then comprehension depth frame body clauses read else return read
  | depth + 1, frame, body, .each target source :: clauses, read => do
    let source ← expr depth frame source
    let rounds ← iterate source
    looping source (comprehensionRounds depth frame body target clauses rounds 0 read)

/-- The rounds of a comprehension's clause from one on. -/
def comprehensionRounds :
    Nat → Nat → Expr Variable → Expr Variable → List (Clause Variable) → Rounds → Nat →
      Array Value → Eval (Array Value)
  | 0, _, _, _, _, _, _, _ => throw .exhausted
  | depth + 1, frame, body, target, clauses, rounds, i, read => do
    if i < rounds.count then
      assign depth frame target (rounds.value i)
      let read ← comprehension depth frame body clauses read
      comprehensionRounds depth frame body target clauses rounds (i + 1) read
    else return read

/-- Assigns a value. -/
def assign : Nat → Nat → Expr Variable → Value → Eval Unit
  | 0, _, _, _ => throw .exhausted
  | depth + 1, frame, target, v =>
    match target with
    | .named name => bindVariable frame name v
    | .index x i => do
      let x ← expr depth frame x
      let i ← expr depth frame i
      setItem x i v
    | .member x name => do
      let x ← expr depth frame x
      failWith (utf8 s!"can't assign to .{name} field of {x.typeName}")
    | .tuple _ targets | .list _ targets => do
      match (← get).iterate? v with
      | none => failWith (utf8 s!"got {v.typeName} in sequence assignment")
      | some rounds =>
        let got := rounds.count
        let want := targets.length
        if got < want then
          failWith (utf8 s!"too few values to unpack (got {got}, want {want})")
        else if want < got then
          failWith (utf8 s!"too many values to unpack (got {got}, want {want})")
        else assignAll depth frame (targets.zip rounds.toArray.toList)
    | _ => return

/-- Assigns values, in their order. -/
def assignAll : Nat → Nat → List (Expr Variable × Value) → Eval Unit
  | 0, _, _ => throw .exhausted
  | _ + 1, _, [] => return
  | depth + 1, frame, (target, v) :: rest => do
    assign depth frame target v
    assignAll depth frame rest

/-- Executes a statement. -/
def statement : Nat → Nat → Stmt Variable → Eval Signal
  | 0, _, _ => throw .exhausted
  | depth + 1, frame, s =>
    match s with
    | .expression x => do
      discard (expr depth frame x)
      return .next
    | .assign target value => do
      let v ← expr depth frame value
      assign depth frame target v
      return .next
    | .augment op target value => do
      match target with
      | .index x i =>
        let x ← expr depth frame x
        let i ← expr depth frame i
        let old := (← get).index x i
        let old ← ofExcept old
        let v ← expr depth frame value
        setItem x i (← augmented op old v)
        return .next
      | target =>
        let old ← expr depth frame target
        let v ← expr depth frame value
        assign depth frame target (← augmented op old v)
        return .next
    | .branch condition yes no => do
      let v ← expr depth frame condition
      if (← get).isTrue v then block depth frame yes else block depth frame no
    | .forEach target source body => do
      let source ← expr depth frame source
      let rounds ← iterate source
      looping source (forRounds depth frame target body rounds 0)
    | .whileTrue condition body => whileRounds depth frame condition body
    | .define position name title parameters body => do
      let fallbacks ← exprs depth frame #[] (fallbacksOf parameters)
      let f ← newFunction (closureOf title position frame parameters fallbacks.toList body)
      bindVariable frame name f
      return .next
    | .giveBack _ value => do
      let v ← optional depth frame value
      return .giveBack (v.getD .nothing)
    | .leaveLoop _ => return .leaveLoop
    | .nextRound _ => return .nextRound
    | .nothing => return .next
    | .load .. => failWith (utf8 "load not implemented by this application")

/-- Executes statements until one does not go on. -/
def block : Nat → Nat → List (Stmt Variable) → Eval Signal
  | 0, _, _ => throw .exhausted
  | _ + 1, _, [] => return .next
  | depth + 1, frame, s :: rest => do
    match ← statement depth frame s with
    | .next => block depth frame rest
    | signal => return signal

/-- The rounds of a loop over values from one on. -/
def forRounds :
    Nat → Nat → Expr Variable → List (Stmt Variable) → Rounds → Nat → Eval Signal
  | 0, _, _, _, _, _ => throw .exhausted
  | depth + 1, frame, target, body, rounds, i => do
    if i < rounds.count then
      assign depth frame target (rounds.value i)
      match ← block depth frame body with
      | .leaveLoop => return .next
      | .giveBack v => return .giveBack v
      | _ => forRounds depth frame target body rounds (i + 1)
    else return .next

/-- The rounds of a loop with a condition. -/
def whileRounds :
    Nat → Nat → Expr Variable → List (Stmt Variable) → Eval Signal
  | 0, _, _, _ => throw .exhausted
  | depth + 1, frame, condition, body => do
    let v ← expr depth frame condition
    if (← get).isTrue v then
      match ← block depth frame body with
      | .leaveLoop => return .next
      | .giveBack v => return .giveBack v
      | _ => whileRounds depth frame condition body
    else return .next

end

end Eval

end LittleMan.Script
