import LittleMan.Reader
import LittleMan.Text.Blank

/-!
# Scanners

A scanner cuts what it reads into tokens: lines, or words between spaces. It reads through a buffer
that starts empty, becomes 4096 bytes with the first read and doubles up to 65536 when a token does
not fit, so a token that needs more is refused. Reading runs ahead of the tokens: what the buffer
holds has left the reader.

A fault of the reader comes out only behind the tokens before it. After a refused token the next one
is cut as if the text ended with the buffer.
-/

namespace LittleMan

/-- How a scanner cuts its tokens. Given the unused bytes and whether no more will follow, it finds the
first token, if that is complete, and says how many bytes are used up. -/
abbrev Splitter := Text → Bool → Option Text × Nat

namespace Splitter

/-- Words between spaces. Spaces in front of an incomplete word are used up. -/
def words : Splitter := fun window atEnd =>
  let lead := window.leadingBlanks
  let rest := window.drop lead
  match Text.beforeBlank? rest with
  | some (word, width) => (some word, lead + word.length + width)
  | none => if atEnd && !rest.isEmpty then (some rest, lead + rest.length) else (none, lead)

/-- A line without the carriage return at its end. -/
def dropReturn (line : Text) : Text := if line.getLast? = some 13 then line.dropLast else line

/-- Lines, each up to a line feed, and what follows the last line feed if it is not empty. -/
def lines : Splitter := fun window atEnd =>
  match window.idxOf? Text.newline with
  | some length => (some (dropReturn (window.take length)), length + 1)
  | none =>
    if atEnd && !window.isEmpty then (some (dropReturn window), window.length) else (none, 0)

end Splitter

/-- Why a scanner stopped reading. -/
inductive Stop where
  | ended
  | failed (fault : Fault)
deriving DecidableEq, Repr

/-- A scanner with its reader. The buffer holds `used` bytes that are used up and then `window`. -/
structure Scanner where
  reader : Reader
  window : Text := []
  used : Nat := 0
  size : Nat := 0
  stop : Option Stop := none
deriving DecidableEq, Repr

namespace Scanner

/-- The size of the first buffer. -/
def leastSize : Nat := 4096

/-- The size that a buffer never passes. -/
def greatestSize : Nat := 65536

/-- The free bytes of the buffer. -/
def room (s : Scanner) : Nat := s.size - s.used - s.window.length

/-- Whether the buffer has no free byte. -/
def isFull (s : Scanner) : Bool := s.used + s.window.length == s.size

/-- Moves the window to the start of the buffer if that is full or more than half of it is used. -/
def shift (s : Scanner) : Scanner :=
  if s.isFull || s.size / 2 < s.used then { s with used := 0 } else s

/-- Doubles a full buffer, as far as buffers go. -/
def grow (s : Scanner) : Scanner :=
  if s.isFull && s.size < greatestSize then
    { s with used := 0, size := min (max leastSize (2 * s.size)) greatestSize }
  else s

/-- Uses up bytes of the window. -/
def advance (s : Scanner) (count : Nat) : Scanner :=
  { s with window := s.window.drop count, used := s.used + count }

/-- One read into the free part of the buffer. -/
def fill (s : Scanner) : Scanner :=
  let (piece, reader) := s.reader.read s.room
  { s with reader, window := s.window ++ piece }

/-- Why the reader gives no more bytes. -/
def ending (s : Scanner) : Stop :=
  match s.reader.fault with
  | none => .ended
  | some fault => .failed fault

/-- The fault that keeps the scanner from going on. -/
def fault? (s : Scanner) : Option Fault :=
  match s.stop with
  | some (.failed fault) => some fault
  | _ => none

/-- The first token of the window, if it has one. Before anything is read there is nothing to cut. -/
def cut (split : Splitter) (s : Scanner) : Option Text × Scanner :=
  if s.window.isEmpty && s.stop.isNone then (none, s)
  else
    let found := split s.window s.stop.isSome
    (found.1, s.advance found.2)

@[simp] theorem shift_reader (s : Scanner) : s.shift.reader = s.reader := by
  unfold shift; split <;> rfl

@[simp] theorem shift_stop (s : Scanner) : s.shift.stop = s.stop := by
  unfold shift; split <;> rfl

@[simp] theorem grow_reader (s : Scanner) : s.grow.reader = s.reader := by
  unfold grow; split <;> rfl

@[simp] theorem grow_stop (s : Scanner) : s.grow.stop = s.stop := by
  unfold grow; split <;> rfl

@[simp] theorem cut_reader (split : Splitter) (s : Scanner) :
    (s.cut split).2.reader = s.reader := by
  unfold cut; split <;> rfl

@[simp] theorem cut_stop (split : Splitter) (s : Scanner) : (s.cut split).2.stop = s.stop := by
  unfold cut; split <;> rfl

@[simp] theorem fill_stop (s : Scanner) : s.fill.stop = s.stop := rfl

@[simp] theorem fill_pending (s : Scanner) :
    s.fill.reader.pending = s.reader.pending.drop s.room := rfl

/-- The next token, with the scanner behind it. Without one the scanner has stopped. Each round either
reads something or stops reading, so the rounds come to an end. -/
def next (split : Splitter) (s : Scanner) : Option Text × Scanner :=
  let found := s.cut split
  if found.1.isSome then found
  else if found.2.stop.isSome then (none, { found.2 with window := [], used := 0 })
  else
    let ready := found.2.shift.grow
    if ready.room = 0 then (none, { ready with stop := some (.failed .tokenTooLong) })
    else if ready.reader.pending = [] then next split { ready with stop := some ready.ending }
    else next split ready.fill
termination_by (s.stop.isNone.toNat, s.reader.pending.length)
decreasing_by
  · apply Prod.Lex.left
    simp_all [found]
  · rename_i hroom hpending
    have hlength : 0 < ready.reader.pending.length := List.length_pos_iff.mpr hpending
    simp only [ready, found, grow_reader, shift_reader, cut_reader] at hlength hroom
    simp only [fill_stop, grow_stop, shift_stop, cut_stop, fill_pending, List.length_drop,
      grow_reader, shift_reader, cut_reader]
    apply Prod.Lex.right
    omega

/-- The bytes that have not been used up. -/
def left (s : Scanner) : Nat := s.window.length + s.reader.pending.length

/-- The next `count` tokens at most, behind those in `found`, which are in reverse, and the fault that
ends them. -/
def tokensWithin (split : Splitter) : Nat → List Text → Scanner → List Text × Option Fault
  | 0, found, s => (found.reverse, s.fault?)
  | count + 1, found, s =>
    match s.next split with
    | (some token, s) => tokensWithin split count (token :: found) s
    | (none, s) => (found.reverse, s.fault?)

/-- All the tokens of a scanner and the fault that ends them. A token takes at least one byte, so there
are no more tokens than bytes. -/
def tokens (split : Splitter) (s : Scanner) : List Text × Option Fault :=
  tokensWithin split (s.left + 1) [] s

end Scanner

end LittleMan
