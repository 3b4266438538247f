import LittleMan.Fault

/-!
# Readers and writers

A reader gives out its text piece by piece and then ends, or breaks off with a fault. Each read is as long
as was asked for while there is so much text, and the end or the fault comes with a read of its own that
gives nothing. Readers that give less than there is, or their last bytes together with the end, are left
out. A writer takes what is written to it, up to its limit if it has one.
-/

namespace LittleMan

/-- A text still to be read, and the fault that follows it in place of an end. It is read in full pieces. -/
structure Reader where
  pending : Text
  fault : Option Fault := none
deriving DecidableEq, Repr

/-- Reads at most `count` bytes: as many as there are. -/
def Reader.read (reader : Reader) (count : Nat) : Text × Reader :=
  (reader.pending.take count, { reader with pending := reader.pending.drop count })

/-- The bytes taken so far, how many can be taken in all, and the fault if there are more. -/
structure Writer where
  taken : Array UInt8 := #[]
  limit : Option Nat := none
  fault : Fault := .writeFailed
deriving DecidableEq, Repr

/-- How much of a text still fits. -/
def Writer.fitting (writer : Writer) (text : Text) : Text :=
  match writer.limit with
  | none => text
  | some limit => text.take (limit - writer.taken.size)

/-- Takes a text, or what still fits of it and fails. -/
def Writer.write (writer : Writer) (text : Text) : Option Fault × Writer :=
  let fits := writer.fitting text
  (if fits.length = text.length then none else some writer.fault,
    { writer with taken := writer.taken ++ fits })

/-- All that the writer took. -/
def Writer.text (writer : Writer) : Text := writer.taken.toList

end LittleMan
