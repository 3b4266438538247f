import LittleMan.Proofs.Reproduction

/-!
# What a verbose machine notes down

A tick makes its note behind the checks that can refuse it and in front of the first change of the machine. So there is
a note for every executed word, also if the word then fails, halts or is overwritten, and there is none for a tick that
is refused (`trace_tick`). In a run all ticks but the last are sure to execute a word, and so the notes of a verbose run
are the states of the silent one, tick by tick. The lines of the log say no less than the notes
(`TraceEntry.text_injective`).
-/

namespace LittleMan

/-! ### Notes as lines -/

namespace TraceEntry

/-- The note is on a tick that finds the machine like this and executes a word. -/
structure Shows (entry : TraceEntry) (m : Machine) : Prop where
  running : m.halted = false
  left : ¬ (0 < m.maxTicks ∧ m.maxTicks ≤ m.ticks)
  cell : ∃ address : Address, m.ip = address.val ∧ m.memory.get address = entry.word
  ip : entry.ip = m.ip
  accumulator : entry.accumulator = m.accumulator
  ticks : entry.ticks = m.ticks

theorem text_injective : Function.Injective text := by
  intro entry other h
  have hpadded (width : Nat) (n : Int) : Decimal.Numeric (Decimal.paddedToWidth width n) :=
    (Decimal.spells_padded _ n).numeric
  have hplain (n : Int) : Decimal.Numeric (Decimal.plain n) := (Decimal.spells_plain n).numeric
  -- A space ends the pointer and the accumulator, a colon the ticks, and the word ends the line.
  simp only [text, registersText, List.append_assoc] at h
  obtain ⟨hip, h⟩ :=
    (hpadded 2 entry.ip).append_inj (hpadded 2 other.ip) (by decide) (List.append_cancel_left h)
  obtain ⟨haccumulator, h⟩ := (hplain _).append_inj (hplain _) (by decide)
    (List.append_cancel_left (show utf8 "acc=" ++ _ = utf8 "acc=" ++ _ from h))
  obtain ⟨hticks, h⟩ := (hplain _).append_inj (hplain _) (by decide)
    (List.append_cancel_left (show utf8 "ticks=" ++ _ = utf8 "ticks=" ++ _ from h))
  have hword := List.append_cancel_left (show utf8 " " ++ _ = utf8 " " ++ _ from h)
  rcases entry with ⟨ip, accumulator, ticks, word⟩
  rcases other with ⟨ip', accumulator', ticks', word'⟩
  obtain rfl : ip = ip' := Decimal.paddedToWidth_injective 2 hip
  obtain rfl : accumulator = accumulator' := Int16.toInt_inj.mp (Decimal.plain_injective haccumulator)
  obtain rfl : ticks = ticks' := Int64.toInt_inj.mp (Decimal.plain_injective hticks)
  obtain rfl : word = word' := Int16.toInt_inj.mp (Decimal.paddedToWidth_injective 3 hword)
  rfl

end TraceEntry

namespace Machine

/-- The machine with its notes on or off. -/
def setVerbose (m : Machine) (verbose : Bool) : Machine := { m with verbose }

/-- The machine turned verbose, with notes behind those that it has. -/
def noting (m : Machine) (notes : Array TraceEntry) : Machine :=
  { m with verbose := true, trace := m.trace ++ notes }

/-- The note that the next tick is due to make. -/
def note? (m : Machine) : Option TraceEntry :=
  m.word?.map fun word => { ip := m.ip, accumulator := m.accumulator, ticks := m.ticks, word }

/-- The notes that are due in a number of ticks. -/
def noted (m : Machine) (n : Nat) : List TraceEntry := (List.range n).filterMap fun k => (m.after k).note?

variable {m : Machine}

theorem note?_eq_some_iff {entry : TraceEntry} : m.note? = some entry ↔ entry.Shows m := by
  unfold note?
  rw [Option.map_eq_some_iff]
  constructor
  · rintro ⟨word, hword, rfl⟩
    obtain ⟨hrunning, hleft, hcell⟩ := word?_eq_some_iff.mp hword
    refine ⟨hrunning, ?_, hcell, rfl, rfl, rfl⟩
    simpa [outOfTicks] using hleft
  · intro h
    refine ⟨entry.word, word?_eq_some_iff.mpr ⟨h.running, ?_, h.cell⟩, ?_⟩
    · simpa [outOfTicks] using h.left
    · rw [← h.ip, ← h.accumulator, ← h.ticks]

/-! ### Ticks -/

theorem verbose_tick (m : Machine) : m.tick.2.verbose = m.verbose := by
  cases hword : m.word? with
  | none => rw [tick_of_no_word hword]
  | some word => exact (frame_tick_of_word hword).2.2.2.1

theorem trace_tick (m : Machine) :
    m.tick.2.trace.toList = m.trace.toList ++ if m.verbose then m.note?.toList else [] := by
  cases hword : m.word? with
  | none => simp [tick_of_no_word hword, note?, hword]
  | some word =>
    rw [(frame_tick_of_word hword).2.2.2.2]
    cases hverbose : m.verbose with
    | true => simp [stepPast, hverbose, note?, hword]
    | false => simp [stepPast, hverbose]

theorem verbose_after (m : Machine) (n : Nat) : (m.after n).verbose = m.verbose := by
  induction n with
  | zero => rfl
  | succ n ih => rw [after_succ, verbose_tick, ih]

theorem noted_succ (m : Machine) (n : Nat) : m.noted (n + 1) = m.noted n ++ (m.after n).note?.toList :=
  filterMap_range_succ _ n

theorem trace_after (m : Machine) (n : Nat) :
    (m.after n).trace.toList = m.trace.toList ++ if m.verbose then m.noted n else [] := by
  induction n with
  | zero =>
    cases m.verbose <;> simp [noted, after]
  | succ n ih =>
    rw [after_succ, trace_tick, ih, verbose_after, noted_succ]
    cases m.verbose <;> simp

theorem map_word_noted (m : Machine) (n : Nat) : (m.noted n).map TraceEntry.word = m.executed n := by
  unfold noted executed
  rw [List.map_filterMap]
  congr
  funext k
  unfold note?
  cases (m.after k).word? <;> rfl

theorem length_noted_le (m : Machine) (n : Nat) : (m.noted n).length ≤ n := by
  have hlength := List.length_filterMap_le (fun k => (m.after k).note?) (List.range n)
  rw [List.length_range] at hlength
  exact hlength

theorem length_noted {n : Nat} (hrunning : ∀ k < n, (m.after k).tick.1 = .running) : (m.noted n).length = n := by
  induction n with
  | zero => rfl
  | succ n ih =>
    obtain ⟨word, hword⟩ := exists_word_of_running (hrunning n (Nat.lt_succ_self n))
    rw [noted_succ, List.length_append, ih fun k hk => hrunning k (Nat.lt_succ_of_lt hk), note?, hword]
    rfl

/-- While the machine goes on there is a note on every tick, so the notes are found by their ticks. -/
theorem getElem?_noted {n i : Nat} (hrunning : ∀ k < n, (m.after k).tick.1 = .running) (hi : i ≤ n) :
    (m.noted (n + 1))[i]? = (m.after i).note? := by
  induction hi with
  | refl =>
    have hlength := length_noted hrunning
    rw [noted_succ, List.getElem?_append_right (Nat.le_of_eq hlength), hlength, Nat.sub_self]
    cases (m.after i).note? <;> rfl
  | @step n hi ih =>
    have hbefore : i < (m.noted (n + 1)).length := by
      rw [length_noted hrunning]
      exact Nat.lt_succ_of_le hi
    rw [noted_succ, List.getElem?_append_left hbefore]
    apply ih
    intro k hk
    exact hrunning k (Nat.lt_succ_of_lt hk)

theorem getElem?_noted_eq_some_iff {n i : Nat} {entry : TraceEntry}
    (hrunning : ∀ k < n, (m.after k).tick.1 = .running) :
    (m.noted (n + 1))[i]? = some entry ↔ i ≤ n ∧ entry.Shows (m.after i) := by
  constructor
  · intro hentry
    have hi : i ≤ n := by
      have hlength := length_noted_le m (n + 1)
      have hbound := (List.getElem?_eq_some_iff.mp hentry).1
      omega
    rw [getElem?_noted hrunning hi] at hentry
    exact ⟨hi, note?_eq_some_iff.mp hentry⟩
  · rintro ⟨hi, hshows⟩
    rw [getElem?_noted hrunning hi]
    exact note?_eq_some_iff.mpr hshows

/-! ### Silent and verbose runs -/

theorem quiet_after (m : Machine) (n : Nat) : (m.after n).quiet = m.quiet.after n := by
  induction n with
  | zero => rfl
  | succ n ih => rw [after_succ, after_succ, ← ih, tick_quiet]

theorem eq_noting {other : Machine} {notes : List TraceEntry} (hquiet : m.quiet = other.quiet)
    (hverbose : m.verbose = true) (htrace : m.trace.toList = other.trace.toList ++ notes) :
    m = other.noting notes.toArray := by
  have hnotes : m.trace = other.trace ++ notes.toArray := by
    apply Array.toList_inj.mp
    rw [htrace, Array.toList_append]
  calc m = { m.quiet with verbose := m.verbose, trace := m.trace } := rfl
    _ = { other.quiet with verbose := true, trace := other.trace ++ notes.toArray } := by
      rw [hquiet, hverbose, hnotes]

theorem noted_quiet (m : Machine) (n : Nat) : m.quiet.noted n = m.noted n := by
  unfold noted
  congr
  funext k
  rw [← quiet_after]
  rfl

end Machine

namespace Ends

open Machine

/-- Machines that differ in nothing but notes come to the same end. -/
theorem of_quiet {m other last : Machine} {n : Nat} {outcome : Outcome} (h : Ends tick m n outcome last)
    (hquiet : m.quiet = other.quiet) :
    ∃ last', Ends tick other n outcome last' ∧ last.quiet = last'.quiet := by
  have hstep {a a' b : Machine} {outcome : Outcome} (hsame : a.quiet = b.quiet)
      (htick : a.tick = (outcome, a')) (_ : True) : ∃ b', b.tick = (outcome, b') ∧ a'.quiet = b'.quiet := by
    have hticks := tick_quiet a
    rw [hsame, tick_quiet b, htick] at hticks
    obtain ⟨houtcome, hquiet⟩ := Prod.mk.inj hticks
    exact ⟨b.tick.2, Prod.ext houtcome rfl, hquiet.symm⟩
  exact transfer (R := fun a b : Machine => a.quiet = b.quiet) (P := fun _ => True) trivial hstep h trivial hquiet

end Ends

namespace Machine

/-- A verbose run comes out as a silent one does and leaves the same machine, but for its notes. They are one for each
executed word, in the order of execution. The note at a place shows what the tick at that place found, whatever the
word then did; a tick that is refused is the last and leaves none. So there are as many notes as ticks are counted.
Their lines tell all of it. -/
theorem verbose_run_notes_each_execution (m : Machine) (hlimit : 0 < m.maxTicks) :
    ∃ n notes, Ends tick (m.setVerbose false) n (m.setVerbose false).run.1 (m.setVerbose false).run.2 ∧
      (m.setVerbose false).run.2.trace = m.trace ∧
      (m.setVerbose true).run = ((m.setVerbose false).run.1, (m.setVerbose false).run.2.noting notes) ∧
      (∀ i (entry : TraceEntry), (notes.map TraceEntry.text)[i]? = some entry.text ↔
        i ≤ n ∧ entry.Shows ((m.setVerbose false).after i)) ∧
      notes.toList.map TraceEntry.word = (m.setVerbose false).executed (n + 1) ∧
      (m.setVerbose true).run.2.ticks.toInt = m.ticks.toInt + notes.size := by
  have hquiet : (m.setVerbose false).quiet = (m.setVerbose true).quiet := rfl
  obtain ⟨n, -, hsilent⟩ := ends_run (m := m.setVerbose false) hlimit
  obtain ⟨last, hverbose, hlast⟩ := hsilent.of_quiet hquiet
  have hkept : (m.setVerbose false).run.2.trace = m.trace := by
    apply Array.toList_inj.mp
    rw [← hsilent.after_eq, trace_after]
    exact List.append_nil _
  have hnotes : last = (m.setVerbose false).run.2.noting ((m.setVerbose false).noted (n + 1)).toArray := by
    apply eq_noting hlast.symm
    · rw [← hverbose.after_eq, verbose_after]
      rfl
    · rw [← hverbose.after_eq, trace_after, hkept, ← noted_quiet (m.setVerbose false), hquiet, noted_quiet]
      rfl
  have hrun : (m.setVerbose true).run = ((m.setVerbose false).run.1, last) :=
    run_of_ends (m := m.setVerbose true) hlimit hverbose
  have hwords := map_word_noted (m.setVerbose false) (n + 1)
  rw [hnotes] at hrun
  refine ⟨n, _, hsilent, hkept, hrun, ?_, hwords, ?_⟩
  · intro i entry
    rw [← getElem?_noted_eq_some_iff hsilent.iterate.1, Array.getElem?_map, List.getElem?_toArray,
      Option.map_eq_some_iff]
    constructor
    · rintro ⟨found, hfound, htext⟩
      rw [hfound, TraceEntry.text_injective htext]
    · intro hentry
      exact ⟨entry, hentry, rfl⟩
  · have hticks := (ticks_after (m := m.setVerbose false) hlimit (n + 1)).1
    rw [hsilent.after_eq, ← hwords, List.length_map] at hticks
    rw [hrun]
    exact hticks

/-- Stores over the word that it executes, and then fails at one that is no instruction. -/
def overwriting : Machine where
  memory := Memory.ofWords [300, 905]
  accumulator := 7
  maxTicks := 5

theorem overwriting_noted :
    0 < overwriting.maxTicks ∧ ∃ notes,
      (overwriting.setVerbose true).run = (.failed (.running 1 905 .instructionInvalid),
        (overwriting.setVerbose false).run.2.noting notes) ∧
      notes.toList.map TraceEntry.text = [utf8 "ip=00 acc=7 ticks=0: 300", utf8 "ip=01 acc=7 ticks=1: 905"] := by
  obtain ⟨n, notes, -, -, hrun, hshown, -, hticks⟩ := verbose_run_notes_each_execution overwriting (by decide)
  have houtcome : (overwriting.setVerbose false).run.1 = .failed (.running 1 905 .instructionInvalid) := by decide
  have hcounted : (overwriting.setVerbose true).run.2.ticks.toInt = overwriting.ticks.toInt + 2 := by decide
  have hsize : notes.toList.length = 2 := by
    rw [Array.length_toList]
    omega
  rw [houtcome] at hrun
  refine ⟨by decide, notes, hrun, ?_⟩
  obtain ⟨first, second, hnotes⟩ := List.length_eq_two.mp hsize
  have hline (i : Nat) (entry : TraceEntry) :
      [first.text, second.text][i]? = some entry.text ↔
        i ≤ n ∧ entry.Shows ((overwriting.setVerbose false).after i) := by
    rw [← hshown, ← Array.getElem?_toList, Array.toList_map, hnotes]
    rfl
  have hfirst := (hline 0 { ip := 0, accumulator := 7, ticks := 0, word := 300 }).mpr
    ⟨Nat.zero_le n, by decide, by decide, ⟨⟨0, by decide⟩, by decide, by decide⟩, by decide, by decide, by decide⟩
  have hsecond := (hline 1 { ip := 1, accumulator := 7, ticks := 1, word := 905 }).mpr
    ⟨((hline 1 second).mp rfl).1, by decide, by decide, ⟨⟨1, by decide⟩, by decide, by decide⟩, by decide, by decide,
      by decide⟩
  rw [hnotes, List.map_cons, List.map_cons, List.map_nil, Option.some.inj hfirst, Option.some.inj hsecond]
  rfl

end Machine

end LittleMan
