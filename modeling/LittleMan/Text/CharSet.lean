import LittleMan.Text

/-!
# Sets of characters

A set of characters is given by its runs of neighbours, which are in order, so that a character is found
by halving.
-/

namespace LittleMan

/-- A set of characters, by the first and the last of each run of neighbours. -/
structure CharSet where
  runs : Array (Nat × Nat)

namespace CharSet

/-- Whether one of the runs from `low` up to `high` holds a number. -/
def holdsBetween (set : CharSet) (n low high : Nat) : Bool :=
  if low < high then
    let middle := (low + high) / 2
    match set.runs[middle]? with
    | some (first, last) =>
      if n < first then set.holdsBetween n low middle
      else if last < n then set.holdsBetween n (middle + 1) high
      else true
    | none => false
  else false
termination_by high - low

/-- Whether a character is in a set. -/
def contains (set : CharSet) (c : Char) : Bool := set.holdsBetween c.toNat 0 set.runs.size

end CharSet

end LittleMan
