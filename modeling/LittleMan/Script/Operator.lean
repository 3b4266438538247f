import LittleMan.Script.Value

/-!
# Operators of check scripts

What operators, indices and slices give. A result is a value, or a new list or tuple that has still to
be put into the store; what cannot be done is told in a message.
-/

namespace LittleMan.Script

/-- The result of an operator. -/
inductive Made where
  | value (v : Value)
  | list (items : Array Value)
  | tuple (items : Array Value)

namespace Store

/-- An integer of 32 bits. -/
def int32 : Value → Except Text Int
  | .number n =>
    if n < -2147483648 ∨ 2147483647 < n then .error (Decimal.plain n ++ utf8 " out of range")
    else .ok n
  | v => .error (typeMessage v.typeName "int")

/-! ### Repeating -/

/-- The most bytes or items that repeating may give. -/
def repeatLimit : Nat := 1073741824

/-- How often something of a length is repeated. -/
def repeatCount (length : Nat) (n : Int) : Except Text Nat :=
  if length = 0 then .ok 0
  else
    match int32 (.number n) with
    | .error _ => .error (utf8 "repeat count " ++ Decimal.plain n ++ utf8 " too large")
    | .ok n =>
      if repeatLimit ≤ length * n.toNat then
        .error (utf8 "excessive repeat (" ++ Decimal.plain length ++ utf8 " * "
          ++ Decimal.plain n ++ utf8 " elements)")
      else .ok n.toNat

/-- Puts something together with itself a number of times, by doubling. -/
def doubled {α : Type} [Append α] (empty x : α) (n : Nat) : α :=
  if n = 0 then empty
  else
    let half := doubled empty x (n / 2)
    if n % 2 = 0 then half ++ half else half ++ half ++ x
termination_by n

/-- A text over and over. -/
def repeatText (bytes : ByteArray) (n : Int) : Except Text Made := do
  let count ← repeatCount bytes.size n
  return .value (.text (doubled .empty bytes count))

/-- Items over and over. -/
def repeatItems (items : Array Value) (n : Int) : Except Text (Array Value) := do
  let count ← repeatCount items.size n
  return doubled #[] items count

/-! ### Formats -/

/-- The character that text holds alone. -/
def onlyChar? (text : Text) : Option Char :=
  match Text.front? text with
  | some c => if c.utf8Size = text.length then some c else none
  | none => if text.length = 1 then some Text.replacement else none

/-- A number in digits of a base. -/
def inBase (base : Nat) (n : Int) : Text :=
  Decimal.signed n ((Nat.toDigits base n.natAbs).map Char.toUInt8)

/-- Letters as capitals. -/
def capitals (text : Text) : Text := text.map fun byte => (Char.ofUInt8 byte).toUpper.toUInt8

/-- A character given by its number or by a text that holds it alone. -/
def convertChar : Value → Except Text Text
  | .number n =>
    if n < 0 ∨ 0x10FFFF < n then
      .error (utf8 "%c format requires a valid Unicode code point, got " ++ Decimal.plain n)
    else if 0xD800 ≤ n ∧ n < 0xE000 then .ok (String.utf8EncodeChar Text.replacement)
    else .ok (String.utf8EncodeChar (Char.ofNat n.toNat))
  | .text bytes =>
    match onlyChar? bytes.toList with
    | some c => .ok (String.utf8EncodeChar c)
    | none => .error (utf8 "%c format requires a single-character string")
  | v =>
    .error (utf8 s!"%c format requires int or single-character string, not {v.typeName}")

/-- One conversion of a format: how it writes a value. -/
def convert (store : Store) (conversion : UInt8) (v : Value) : Except Text Text :=
  let letter := Char.ofUInt8 conversion
  let sign := utf8 "%" ++ String.utf8EncodeChar letter
  let integer (write : Int → Text) : Except Text Text :=
    match v with
    | .number n => .ok (write n)
    | v =>
      .error (sign ++ utf8 " format requires integer: cannot convert " ++ utf8 v.typeName
        ++ utf8 " to int")
  match letter with
  | 's' => .ok (store.display v)
  | 'r' => .ok (store.write v)
  | 'd' | 'i' => integer Decimal.long
  | 'o' => integer (inBase 8)
  | 'x' => integer (inBase 16)
  | 'X' => integer fun n => capitals (inBase 16 n)
  | 'c' => convertChar v
  | 'e' | 'f' | 'g' | 'E' | 'F' | 'G' =>
    .error (sign ++ utf8 " format requires float, not " ++ utf8 v.typeName)
  | _ => .error (utf8 "unknown conversion " ++ sign)

/-- What is wrong with a key in a format, its parenthesis having been passed: no value here has keys. -/
def keyMessage (rest : Text) : Text :=
  utf8 (if rest.contains 41 then "format requires a mapping" else "incomplete format key")

/-- Fills values into a format, behind the pieces in `written`, which are in reverse. -/
def formatFrom (store : Store) (written : List Text) : List Value → Text → Except Text Text
  | values, 37 :: 37 :: rest => formatFrom store (utf8 "%" :: written) values rest
  | _, 37 :: 40 :: rest => .error (keyMessage rest)
  | [], 37 :: _ => .error (utf8 "not enough arguments for format string")
  | _ :: _, [37] => .error (utf8 "incomplete format")
  | v :: values, 37 :: conversion :: rest =>
    match store.convert conversion v with
    | .ok text => formatFrom store (text :: written) values rest
    | .error message => .error message
  | values, byte :: rest => formatFrom store ([byte] :: written) values rest
  | [], [] => .ok written.reverse.flatten
  | _ :: _, [] => .error (utf8 "too many arguments for format string")

/-- Fills a value into a format, or the items of a tuple. -/
def format (store : Store) (format : Text) (v : Value) : Except Text Text :=
  match v with
  | .tuple id => store.formatFrom [] (store.items id).toList format
  | v => store.formatFrom [] [v] format

/-! ### Operators -/

/-- Two types that an operator does not put together. -/
def unknownOperator (op : BinaryOp) (x y : Value) : Text :=
  utf8 s!"unknown binary op: {x.typeName} {op.sign} {y.typeName}"

/-- Whether a text holds another. -/
def holdsText (inner : Text) : Text → Bool
  | [] => inner.isEmpty
  | byte :: rest => inner.isPrefixOf (byte :: rest) || holdsText inner rest

/-- Whether one of the items equals a value. -/
def holdsItem (store : Store) (x : Value) : List Value → Except Text Bool
  | [] => .ok false
  | item :: items =>
    match store.compareValues .equal item x with
    | .ok false => holdsItem store x items
    | result => result

/-- Whether a value is in another. -/
def contains (store : Store) (x y : Value) : Except Text Bool :=
  match x, y with
  | .text inner, .text outer => .ok (holdsText inner.toList outer.toList)
  | x, .text _ =>
    .error (utf8 s!"'in <string>' requires string as left operand, not {x.typeName}")
  | .number n, .range start stop step => .ok (rangeHolds start stop step n)
  | x, .range .. =>
    .error (utf8 s!"'in <range>' requires integer as left operand, not {x.typeName}")
  | x, .list id | x, .tuple id => store.holdsItem x (store.items id).toList
  | x, y => .error (unknownOperator .isIn x y)

/-- An operation on the bits of two numbers, a negative number having ones without end in front. -/
def onBits (op : Nat → Nat → Nat) (x y : Int) : Int :=
  let size : Int := Int.pow 2 (max x.natAbs.log2 y.natAbs.log2 + 2)
  let bits : Int := op (x % size).toNat (y % size).toNat
  if 2 * bits < size then bits else bits - size

/-- A number shifted by another, to the left or to the right. -/
def shift (left : Bool) (x : Int) (y : Value) : Except Text Int := do
  let n ← int32 y
  if n < 0 then throw (utf8 "negative shift count: " ++ Decimal.plain n)
  if !left then return x >>> n.toNat
  if 512 ≤ n then throw (utf8 "shift count too large: " ++ Decimal.plain n)
  return x * Int.pow 2 n.toNat

/-- What an operator gives. -/
def binary (store : Store) (op : BinaryOp) (x y : Value) : Except Text Made :=
  match op, x, y with
  | .add, .number m, .number n => .ok (.value (.number (m + n)))
  | .add, .text s, .text t => .ok (.value (.text (s ++ t)))
  | .add, .list a, .list b => .ok (.list (store.items a ++ store.items b))
  | .add, .tuple a, .tuple b => .ok (.tuple (store.items a ++ store.items b))
  | .subtract, .number m, .number n => .ok (.value (.number (m - n)))
  | .multiply, .number m, .number n => .ok (.value (.number (m * n)))
  | .multiply, .text s, .number n | .multiply, .number n, .text s => repeatText s n
  | .multiply, .list a, .number n | .multiply, .number n, .list a =>
    (repeatItems (store.items a) n).map .list
  | .multiply, .tuple a, .number n | .multiply, .number n, .tuple a =>
    (repeatItems (store.items a) n).map .tuple
  | .modulo, .text s, v => (store.format s.toList v).map fun t => .value (.text t.toByteArray)
  | .modulo, .number m, .number n =>
    if n = 0 then .error (utf8 "integer modulo by zero") else .ok (.value (.number (m.fmod n)))
  | .floorDivide, .number m, .number n =>
    if n = 0 then .error (utf8 "floored division by zero") else .ok (.value (.number (m.fdiv n)))
  | .divide, .number _, .number n =>
    if n = 0 then .error (utf8 "floating-point division by zero")
    else .ok (.value (.foreign "float"))
  | .bitAnd, .number m, .number n => .ok (.value (.number (onBits Nat.land m n)))
  | .bitOr, .number m, .number n => .ok (.value (.number (onBits Nat.lor m n)))
  | .bitXor, .number m, .number n => .ok (.value (.number (onBits Nat.xor m n)))
  | .shiftLeft, .number m, y => (shift true m y).map fun n => .value (.number n)
  | .shiftRight, .number m, y => (shift false m y).map fun n => .value (.number n)
  | .isIn, x, y => (store.contains x y).map fun b => .value (.truth b)
  | .isNotIn, x, y => (store.contains x y).map fun b => .value (.truth !b)
  | .equal, x, y | .notEqual, x, y | .less, x, y | .lessEqual, x, y | .greater, x, y
  | .greaterEqual, x, y => (store.compareValues op x y).map fun b => .value (.truth b)
  | op, x, y => .error (unknownOperator op x y)

/-- What an operator with one operand gives. -/
def unary (store : Store) (op : UnaryOp) (x : Value) : Except Text Value :=
  match op, x with
  | .not, x => .ok (.truth !(store.isTrue x))
  | .plus, .number n => .ok (.number n)
  | .minus, .number n => .ok (.number (-n))
  | .complement, .number n => .ok (.number (-1 - n))
  | op, x => .error (utf8 s!"unknown unary op: {op.sign} {x.typeName}")

/-! ### Indices and slices

Places are counted in 64 bits. A range that is too long to count has a negative length, and what is
counted from its end wraps around.
-/

/-- A place counted from the front, or from the end if negative. -/
def counted (length : Int64) (i : Int) : Int64 :=
  if i < 0 then Int64.ofInt i + length else Int64.ofInt i

/-- The place of an item counted from the front, or from the end if negative. -/
def place (type : String) (length : Int64) (i : Int) : Except Text Nat :=
  let n := counted length i
  if 0 ≤ n ∧ n < length then .ok n.toInt.toNat
  else if length = 0 then
    .error (utf8 "index " ++ Decimal.plain i ++ utf8 s!" out of range: empty {type}")
  else
    .error (utf8 s!"{type} index " ++ Decimal.plain i ++ utf8 " out of range ["
      ++ Decimal.plain (-length).toInt ++ utf8 ":" ++ Decimal.plain (length - 1).toInt ++ utf8 "]")

/-- The item of a value at an index. -/
def index (store : Store) (x i : Value) : Except Text Value :=
  match store.length? x with
  | none => .error (utf8 s!"unhandled index operation {x.typeName}[{i.typeName}]")
  | some length =>
    match int32 i with
    | .error message => .error (utf8 s!"{x.typeName} index: " ++ message)
    | .ok i =>
      match place x.typeName length i with
      | .error message => .error message
      | .ok n =>
        match x with
        | .text bytes => .ok (.text (bytes.extract n (n + 1)))
        | .range start _ step => .ok (rangeItem start step n)
        | .list id | .tuple id => .ok ((store.items id).getD n .nothing)
        | _ => .ok .nothing

/-- A bound of a slice, if it is given, counted from the end if negative. -/
def bound (length : Int64) (which : String) : Option Value → Except Text (Option Int64)
  | none | some .nothing => .ok none
  | some v =>
    match int32 v with
    | .ok i => .ok (some (counted length i))
    | .error message => .error (utf8 s!"invalid {which} index: " ++ message)

/-- A bound of a slice as one between the ends. -/
def clamped (length i : Int64) : Int64 := if i < 0 then 0 else if length < i then length else i

/-- Where a slice starts and ends. A slice that goes backwards starts at the last item and ends before
the first. -/
def sliceEnds (length : Int64) (low high : Option Value) (step : Int) :
    Except Text (Int64 × Int64) := do
  let low ← bound length "start" low
  let high ← bound length "end" high
  if 0 < step then
    let start := clamped length (low.getD 0)
    let stop := clamped length (high.getD length)
    return (start, if stop < start then start else stop)
  else
    let last := length - 1
    let low := low.getD last
    let start := if length ≤ low then last else low
    let high := high.getD (-1)
    let stop := if high < -1 then -1 else high
    return (if start < stop then stop else start, stop)

/-- The step of a slice. -/
def sliceStep : Option Value → Except Text Int
  | none | some .nothing => .ok 1
  | some v =>
    match int32 v with
    | .error message => .error (utf8 "invalid slice step: " ++ message)
    | .ok step => if step = 0 then .error (utf8 "zero is not a valid slice step") else .ok step

/-- The places that a slice picks. -/
def picked (start stop step : Int) : List Nat :=
  let count :=
    if 0 < step then ((stop - start + step - 1) / step).toNat
    else ((start - stop - step - 1) / -step).toNat
  (List.range count).map fun (i : Nat) => (start + step * i).toNat

/-- The items of a slice. -/
def pickItems (items : Array Value) (start stop step : Int) : Array Value :=
  if step = 1 then items.extract start.toNat stop.toNat
  else ((picked start stop step).map fun i => items.getD i .nothing).toArray

/-- The bytes of a slice. -/
def pickBytes (bytes : ByteArray) (start stop step : Int) : ByteArray :=
  if step = 1 then bytes.extract start.toNat stop.toNat
  else
    (picked start stop step).foldl
      (fun read i => if h : i < bytes.size then read.push (bytes.get i h) else read) .empty

/-- The slice of a value. -/
def slice (store : Store) (x : Value) (low high step : Option Value) : Except Text Made :=
  match store.length? x with
  | none => .error (utf8 s!"invalid slice operand {x.typeName}")
  | some length => do
    let step ← sliceStep step
    let (start, stop) ← sliceEnds length low high step
    match x with
    | .text bytes => return .value (.text (pickBytes bytes start.toInt stop.toInt step))
    | .range first _ stride =>
      return .value (.range (first + stride * start) (first + stride * stop)
        (stride * Int64.ofInt step))
    | .list id => return .list (pickItems (store.items id) start.toInt stop.toInt step)
    | .tuple id => return .tuple (pickItems (store.items id) start.toInt stop.toInt step)
    | _ => return .value .nothing

end Store

end LittleMan.Script
