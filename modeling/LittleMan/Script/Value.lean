import LittleMan.Script.Scope
import LittleMan.Text.Quoted

/-!
# The values of a check script

Numbers, texts and the like are values in themselves. Lists and tuples are kept in the store and known
by their number, so that a list which is extended is extended for everyone who has it. While a loop
goes through a list, the list cannot be changed.
-/

namespace LittleMan.Script

/-- A value. Lists, tuples and functions are given by their numbers in the store. -/
inductive Value where
  | nothing
  | truth (b : Bool)
  | number (n : Int)
  | text (bytes : ByteArray)
  | list (id : Nat)
  | tuple (id : Nat)
  | range (start stop step : Int64)
  | function (id : Nat)
  | builtin (builtin : Builtin)
  /-- A value of which only the type is known. -/
  | foreign (type : String)
deriving DecidableEq

instance : Inhabited Value := ⟨.nothing⟩

/-- The items of a list or tuple, and how many loops are going through it. -/
structure Sequence where
  items : Array Value
  loops : Nat := 0

/-- The slots of a call, and the frame of the function it is defined in. -/
structure Frame where
  parent : Nat
  slots : Array (Option Value) := #[]

/-- A function with the frame that it was defined in. -/
structure Closure where
  name : String
  /-- The parameters that take one argument each, with what they fall back to. -/
  parameters : List (String × Option Value)
  /-- How many of the parameters take their argument by position. -/
  positional : Nat
  hasRest : Bool
  hasRestNamed : Bool
  body : List (Stmt Variable)
  position : Position
  frame : Nat

/-- All that a script has made, and the host that it runs on. Frame 0 is that of the script itself. -/
structure Store where
  sequences : Array Sequence := #[]
  frames : Array Frame := #[{ parent := 0 }]
  closures : Array Closure := #[]
  globals : Array (Option Value) := #[]
  /-- The functions that are being called, by the places of their definitions. -/
  active : List Position := []
  session : Session := {}
  host : Host

/-- The name of a value's type. -/
def Value.typeName : Value → String
  | .nothing => "NoneType"
  | .truth _ => "bool"
  | .number _ => "int"
  | .text _ => "string"
  | .list _ => "list"
  | .tuple _ => "tuple"
  | .range .. => "range"
  | .function _ => "function"
  | .builtin _ => "builtin_function_or_method"
  | .foreign type => type

/-- The value that is built in. -/
def Builtin.value : Builtin → Value
  | .truth b => .truth b
  | .nothing => .nothing
  | .memorySize => .number cellCount
  | builtin => .builtin builtin

/-! ### Ranges -/

/-- The length of a range. It wraps around if the range is too long to count, and is negative then. -/
def rangeLength (start stop step : Int64) : Int64 :=
  if 0 < step then if start < stop then (stop - 1 - start) / step + 1 else 0
  else if step < 0 then if stop < start then (start - 1 - stop) / -step + 1 else 0
  else 0

/-- A number of a range. -/
def rangeItem (start step : Int64) (i : Nat) : Value := .number (start + step * Int64.ofNat i).toInt

/-- Whether a number is in a range. Only numbers of 32 bits are looked for. -/
def rangeHolds (start stop step : Int64) (n : Int) : Bool :=
  if n < -2147483648 ∨ 2147483647 < n ∨ step = 0 then false
  else
    let delta := Int64.ofInt n - start
    delta % step = 0 && 0 ≤ delta / step && delta / step < rangeLength start stop step

/-- Whether two ranges have the same numbers. -/
def sameRange (start stop step start' stop' step' : Int64) : Bool :=
  let length := rangeLength start stop step
  length = rangeLength start' stop' step'
    && (length = 0 || (start = start' && (length = 1 || step = step')))

/-- The values that a loop goes through. Those of a range are made one by one. -/
inductive Rounds where
  | items (values : Array Value)
  | numbers (start step : Int64) (count : Nat)

/-- How many rounds there are. -/
def Rounds.count : Rounds → Nat
  | .items values => values.size
  | .numbers _ _ count => count

/-- The value of a round. -/
def Rounds.value (rounds : Rounds) (i : Nat) : Value :=
  match rounds with
  | .items values => values.getD i .nothing
  | .numbers start step _ => rangeItem start step i

/-- The values of all rounds. -/
def Rounds.toArray : Rounds → Array Value
  | .items values => values
  | .numbers start step count => (Array.range count).map (rangeItem start step)

namespace Store

/-- The items of a list or tuple. -/
def items (store : Store) (id : Nat) : Array Value :=
  match store.sequences[id]? with
  | some sequence => sequence.items
  | none => #[]

/-- Whether a value counts as true. -/
def isTrue (store : Store) : Value → Bool
  | .nothing => false
  | .truth b => b
  | .number n => n != 0
  | .text bytes => bytes.size != 0
  | .list id | .tuple id => (store.items id).size != 0
  | .range start stop step => 0 < rangeLength start stop step
  | .function _ | .builtin _ | .foreign _ => true

/-- The length of a value that has one. -/
def length? (store : Store) : Value → Option Int64
  | .text bytes => some (Int64.ofNat bytes.size)
  | .list id | .tuple id => some (Int64.ofNat (store.items id).size)
  | .range start stop step => some (rangeLength start stop step)
  | _ => none

/-- The values that a loop over a value goes through. -/
def iterate? (store : Store) : Value → Option Rounds
  | .list id | .tuple id => some (.items (store.items id))
  | .range start stop step =>
    some (.numbers start step (rangeLength start stop step).toInt.toNat)
  | _ => none

/-! ### Texts of values -/

/-- The name of a function. -/
def functionName (store : Store) (id : Nat) : String :=
  (store.closures[id]?.map Closure.name).getD ""

/-- A range as it is written: a start of zero and a step of one are left out. -/
def writeRange (start stop step : Int64) : Text :=
  let numbers :=
    if step ≠ 1 then [start, stop, step] else if start ≠ 0 then [start, stop] else [stop]
  utf8 "range(" ++ Text.join (utf8 ", ") (numbers.map fun n => Decimal.plain n.toInt) ++ utf8 ")"

/-- Items with commas between them, in front of `rest`. `write` writes a value in front of a text. -/
def writeItems (write : Value → Text → Text) (rest : Text) : List Value → Text
  | [] => rest
  | [item] => write item rest
  | item :: items => write item (utf8 ", " ++ writeItems write rest items)

/-- A value as it is written inside others, in front of `rest`. A list inside itself is written as dots:
`around` are the lists that are being written. -/
def writeWithin (store : Store) : Nat → List Nat → Value → Text → Text
  | _, _, .nothing, rest => utf8 "None" ++ rest
  | _, _, .truth b, rest => utf8 (if b then "True" else "False") ++ rest
  | _, _, .number n, rest => Decimal.long n ++ rest
  | _, _, .text bytes, rest => Text.quoted bytes.toList ++ rest
  | _, _, .range start stop step, rest => writeRange start stop step ++ rest
  | _, _, .function id, rest => utf8 s!"<function {store.functionName id}>" ++ rest
  | _, _, .builtin builtin, rest => utf8 s!"<built-in function {builtin.name}>" ++ rest
  | _, _, .foreign type, rest => utf8 s!"<{type}>" ++ rest
  | 0, _, .list _, rest => utf8 "[...]" ++ rest
  | 0, _, .tuple _, rest => utf8 "(...)" ++ rest
  | depth + 1, around, .list id, rest =>
    if around.contains id then utf8 "[...]" ++ rest
    else
      let write := writeWithin store depth (id :: around)
      utf8 "[" ++ writeItems write (utf8 "]" ++ rest) (store.items id).toList
  | depth + 1, around, .tuple id, rest =>
    let items := (store.items id).toList
    let close := utf8 (if items.length = 1 then ",)" else ")")
    utf8 "(" ++ writeItems (writeWithin store depth around) (close ++ rest) items

/-- A value as it is written inside others. The lists being written are all different, and a tuple holds
only tuples made before it, so less than the store's size of tuples lie between two lists: the square of
the size bounds the depth. -/
def write (store : Store) (v : Value) : Text :=
  store.writeWithin ((store.sequences.size + 1) * (store.sequences.size + 1)) [] v []

/-- A value as it is printed: a text stands for itself. -/
def display (store : Store) : Value → Text
  | .text bytes => bytes.toList
  | v => store.write v

/-! ### Comparing values -/

/-- Whether an order of two things satisfies a comparison. -/
def satisfies (order : Ordering) : BinaryOp → Bool
  | .equal => order == .eq
  | .notEqual => order != .eq
  | .less => order == .lt
  | .lessEqual => order != .gt
  | .greater => order == .gt
  | .greaterEqual => order != .lt
  | _ => false

/-- The order of two texts from a place on, byte by byte. -/
def compareTextsFrom (i : Nat) (s t : ByteArray) : Ordering :=
  if h : i < s.size ∧ i < t.size then
    have hs := h.1
    have ht := h.2
    let a := s[i]
    let b := t[i]
    if a = b then compareTextsFrom (i + 1) s t else compare a b
  else compare s.size t.size
termination_by s.size - i

/-- A comparison that is only about being the same. -/
def sameness (same : Bool) (op : BinaryOp) (x y : Value) : Except Text Bool :=
  match op with
  | .equal => .ok same
  | .notEqual => .ok (!same)
  | op => .error (utf8 s!"{x.typeName} {op.sign} {y.typeName} not implemented")

/-- Whether two lists or tuples compare as told: the first items that differ decide, then the lengths.
`compareItems` compares items. -/
def compareItemLists (compareItems : BinaryOp → Value → Value → Except Text Bool) (op : BinaryOp) :
    List Value → List Value → Except Text Bool
  | x :: xs, y :: ys =>
    match compareItems .equal x y with
    | .error message => .error message
    | .ok true => compareItemLists compareItems op xs ys
    | .ok false =>
      match op with
      | .equal => .ok false
      | .notEqual => .ok true
      | op => compareItems op x y
  | xs, ys => .ok (satisfies (compare xs.length ys.length) op)

/-- Lists of different lengths differ without a look at their items. -/
def compareSequences (compareItems : BinaryOp → Value → Value → Except Text Bool) (op : BinaryOp)
    (xs ys : Array Value) : Except Text Bool :=
  if xs.size ≠ ys.size ∧ (op = .equal ∨ op = .notEqual) then .ok (op == .notEqual)
  else compareItemLists compareItems op xs.toList ys.toList

/-- Whether two values compare as told. Only so many levels of lists are looked into. -/
def compareWithin (store : Store) : Nat → BinaryOp → Value → Value → Except Text Bool
  | 0, _, _, _ => .error (utf8 "comparison exceeded maximum recursion depth")
  | depth + 1, op, x, y =>
    match x, y with
    | .number m, .number n => .ok (satisfies (compare m n) op)
    | .text s, .text t => .ok (satisfies (compareTextsFrom 0 s t) op)
    | .truth a, .truth b => .ok (satisfies (compare a.toNat b.toNat) op)
    | .list a, .list b | .tuple a, .tuple b =>
      compareSequences (compareWithin store depth) op (store.items a) (store.items b)
    | .range a b c, .range d e f => sameness (sameRange a b c d e f) op x y
    | x, y => sameness (x == y) op x y

/-- Whether two values compare as told. -/
def compareValues (store : Store) (op : BinaryOp) (x y : Value) : Except Text Bool :=
  store.compareWithin 10 op x y

end Store

end LittleMan.Script
