/-!
# Words and addresses

The machine has a hundred cells, each holding a 16-bit word. An address is the number of a cell, so
every address is inside the memory.
-/

namespace LittleMan

/-- What a memory cell holds. -/
abbrev Word := Int16

/-- The number of memory cells. -/
def cellCount : Nat := 100

/-- The number of a memory cell. -/
abbrev Address := Fin cellCount

/-- The address with a number, if the memory has such a cell. -/
def Address.ofInt? (n : Int) : Option Address :=
  if h : 0 ≤ n ∧ n < cellCount then some ⟨n.toNat, by omega⟩ else none

/-- The cells of a memory, in address order. -/
abbrev Memory := Vector Word cellCount

/-- The memory that holds zero in every cell. -/
def Memory.zero : Memory := Vector.replicate cellCount 0

end LittleMan
