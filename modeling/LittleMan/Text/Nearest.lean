import LittleMan.Text.LowerCase
import LittleMan.Text.Utf8

/-!
# Near names

A name that is not known is answered with the known name nearest to it, if one is near. Nearness is
the number of bytes to insert, delete or replace, capitals and underscores being ignored, and a name is
near if fewer than half of the bytes have to change.
-/

namespace LittleMan.Text

/-- A name without its underscores and capitals. -/
def folded (name : Text) : Text := ofChars ((name.chars.filter (· != '_')).map lowerCase)

/-- The distances from a text one byte longer to the beginnings of another, from those of the text
itself: `left` is the distance found last and `diagonal` the one above it. -/
def distancesAfter (byte : UInt8) : Nat → Nat → Text → List Nat → List Nat
  | left, diagonal, other :: others, above :: row =>
    let distance := min (min (left + 1) (above + 1)) (diagonal + if byte = other then 0 else 1)
    distance :: distancesAfter byte distance above others row
  | _, _, _, _ => []

/-- The distances from a text to the beginnings of another, from the empty one to all of it. -/
def distances (text other : Text) : List Nat :=
  text.foldl (fun row byte =>
    match row with
    | [] => []
    | first :: row => (first + 1) :: distancesAfter byte (first + 1) first other row)
    (List.range (other.length + 1))

/-- How many bytes have to be inserted, deleted or replaced to turn one text into another. -/
def distance (text other : Text) : Nat := (distances text other).getLastD 0

/-- The candidate nearest to a name and the first of those at the same distance, if one is near. -/
def nearest? (name : Text) (candidates : List Text) : Option Text :=
  let name := folded name
  let best := candidates.foldl (fun (best : Option Text × Nat) candidate =>
    let distance := distance name (folded candidate)
    if distance < best.2 then (some candidate, distance) else best) (none, (name.length + 1) / 2)
  best.1

end LittleMan.Text
