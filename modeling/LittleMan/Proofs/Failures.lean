import LittleMan.Proofs.Runs

/-!
# What a failing tick leaves behind

A tick fails in one of two ways. It is refused, because no tick is left or the pointer is on no cell; then
nothing was executed and nothing is changed. Or the word under the pointer fails; then the pointer and the
count have moved, the tape may have been read or written, and that is all. Every instruction that can fail
does so before it reaches the accumulator, and none that reaches the memory can fail.
-/

namespace LittleMan

theorem State.take_failed {s : State} {value : Int} {cause : Fault} (h : (s.take value).1 = some cause) :
    (s.take value).2 = { s with tape := (s.take value).2.tape } ∧ cause = .overflow ∧
      ¬ (-999 ≤ value ∧ value ≤ 999) := by
  by_cases hfits : -999 ≤ value ∧ value ≤ 999
  · have htake : s.take value = (none, { s with accumulator := value }) := if_pos hfits
    rw [htake] at h
    cases h
  · have htake : s.take value = (some .overflow, s) := if_neg hfits
    rw [htake] at h ⊢
    cases h
    exact ⟨rfl, rfl, hfits⟩

namespace Instruction

variable {s : State} {i : Instruction} {cause : Fault}

/-- An instruction that fails has moved the pointer and, if it reads or writes, the tape. -/
theorem obey_failed (h : (i.obey s).1 = some cause) :
    (i.obey s).2 = { s.advance with tape := (i.obey s).2.tape } := by
  cases i with
  | halt => cases h
  | output => rfl
  | input =>
    simp only [obey] at h ⊢
    rcases hreceive : s.tape.receive with ⟨fault | value, tape⟩
    · rfl
    · rw [hreceive] at h
      exact (State.take_failed h).1
  | addressed operation address =>
    cases operation with
    | load => exact (State.take_failed h).1
    | add => exact (State.take_failed h).1
    | subtract => exact (State.take_failed h).1
    | store => cases h
    | branch => cases h
    | branchIfZero => cases h
    | branchIfNotNegative => cases h

/-- Input fails because nothing is received, or because what is received is too large to keep. -/
theorem obey_input_failed (h : (input.obey s).1 = some cause) :
    s.tape.receive.1 = .error cause ∨
      cause = .overflow ∧ ∃ value : Word, s.tape.receive.1 = .ok value ∧
        ¬ (-999 ≤ value.toInt ∧ value.toInt ≤ 999) := by
  simp only [obey] at h
  rcases hreceive : s.tape.receive with ⟨fault | value, tape⟩
  · rw [hreceive] at h
    cases h
    exact .inl rfl
  · rw [hreceive] at h
    obtain ⟨-, hcause, hlarge⟩ := State.take_failed h
    exact .inr ⟨hcause, value, rfl, hlarge⟩

end Instruction

/-- The word that a tick fails at, and all that the tick did: it moved the pointer and the count past the
word, and it noted the word down if the machine is verbose. The word for input also read the tape, whether
there was no number to be had or one that the accumulator cannot hold, and the word for output wrote to it. -/
structure Machine.FailsAt (m : Machine) (word : Word) (cause : Fault) (after : Machine) : Prop where
  cell : ∃ address : Address, m.ip = address.val ∧ m.memory.get address = word
  frame : after =
    { m with
      ip := m.ip + 1
      ticks := m.ticks + 1
      trace := (m.stepPast word).trace
      tape := after.tape }
  unread : word ≠ 901 → after.tape.input = m.tape.input ∧ after.tape.scanner = m.tape.scanner
  unwritten : word ≠ 902 → after.tape.output = m.tape.output
  read : word = 901 → after.tape = m.tape.receive.2 ∧
    (m.tape.receive.1 = .error cause ∨
      cause = .overflow ∧ ∃ value : Word, m.tape.receive.1 = .ok value ∧
        ¬ (-999 ≤ value.toInt ∧ value.toInt ≤ 999))
  written : word = 902 → m.tape.send m.accumulator = (some cause, after.tape)

namespace State

variable {s : State} {word : Word} {cause : Fault}

theorem frame_obeyWord_failed {fault : Fault} (h : (s.obeyWord word).1 = .failed fault) :
    (s.obeyWord word).2 = { s.advance with tape := (s.obeyWord word).2.tape } := by
  obtain ⟨cause, -, ⟨hi, -⟩ | ⟨i, hi, hobey⟩⟩ := obeyWord_failed h
  · simp only [obeyWord, hi]
  · simp only [obeyWord, hi]
    exact Instruction.obey_failed hobey

theorem obey_of_obeyWord_failed {i : Instruction} (hi : Instruction.decode? word = some i)
    (h : (s.obeyWord word).1 = .failed (.running s.ip word cause)) : (i.obey s).1 = some cause := by
  obtain ⟨found, hfault, ⟨hnone, -⟩ | ⟨j, hj, hobey⟩⟩ := obeyWord_failed h
  · rw [hi] at hnone
    cases hnone
  · rw [hi] at hj
    cases hj
    cases hfault
    exact hobey

theorem tape_obeyWord {i : Instruction} (hi : Instruction.decode? word = some i) :
    (s.obeyWord word).2.tape = (i.obey s).2.tape := by
  simp only [obeyWord, hi]

/-- No other word reaches the tape. -/
theorem tape_obeyWord_of_ne (hinput : word ≠ 901) (houtput : word ≠ 902) :
    (s.obeyWord word).2.tape = s.tape := by
  cases hi : Instruction.decode? word with
  | none => simp only [obeyWord, hi, advance]
  | some i =>
    have hword := Instruction.decode?_eq_some_iff.mp hi
    rw [tape_obeyWord hi, Instruction.tape_obey]
    cases i with
    | input => exact absurd hword.symm hinput
    | output => exact absurd hword.symm houtput
    | halt => rfl
    | addressed operation address => rfl

end State

namespace Machine

variable {m : Machine} {word : Word} {cause : Fault}

theorem frame_tick_failed (hword : m.word? = some word) {fault : Fault} (h : m.tick.1 = .failed fault) :
    m.tick.2 = { m.stepPast word with tape := m.tick.2.tape } := by
  have houtcome := outcome_tick_of_word hword
  have htape : (m.state.obeyWord word).2.tape = m.tick.2.tape :=
    congrArg State.tape (state_tick_of_word hword).symm
  have hstate := State.frame_obeyWord_failed (houtcome.symm.trans h)
  rw [htape] at hstate
  have htick : m.tick = (m.tick.1, { m.stepPast word with tape := m.tick.2.tape }) :=
    tick_eq_of_obeyWord hword (Prod.ext houtcome.symm hstate) rfl rfl rfl rfl rfl
  exact congrArg Prod.snd htick

theorem failsAt_of_word (hword : m.word? = some word) (h : m.tick.1 = .failed (.running m.ip word cause)) :
    m.FailsAt word cause m.tick.2 := by
  obtain ⟨-, -, hcell⟩ := word?_eq_some_iff.mp hword
  have hframe := frame_tick_failed hword h
  have htape : m.tick.2.tape = (m.state.obeyWord word).2.tape := congrArg State.tape (state_tick_of_word hword)
  rw [outcome_tick_of_word hword] at h
  by_cases hinput : word = 901
  · subst hinput
    rw [State.tape_obeyWord (i := .input) rfl, Instruction.tape_obey] at htape
    have hobey := State.obey_of_obeyWord_failed (i := .input) rfl h
    exact
      { cell := hcell
        frame := hframe
        unread := fun hne => absurd rfl hne
        unwritten := fun _ => htape ▸ m.tape.output_receive
        read := fun _ => ⟨htape, Instruction.obey_input_failed hobey⟩
        written := fun hother => absurd hother (by decide) }
  · by_cases houtput : word = 902
    · subst houtput
      rw [State.tape_obeyWord (i := .output) rfl, Instruction.tape_obey] at htape
      have hobey := State.obey_of_obeyWord_failed (i := .output) rfl h
      have hsend : m.tape.send m.accumulator = (some cause, m.tick.2.tape) := by
        rw [← Int16.ofInt_toInt m.accumulator]
        exact Prod.ext hobey htape.symm
      have hunread := m.tape.input_send m.accumulator
      rw [hsend] at hunread
      exact
        { cell := hcell
          frame := hframe
          unread := fun _ => hunread
          unwritten := fun hne => absurd rfl hne
          read := fun hother => absurd hother hinput
          written := fun _ => hsend }
    · replace htape : m.tick.2.tape = m.tape := htape.trans (State.tape_obeyWord_of_ne hinput houtput)
      exact
        { cell := hcell
          frame := hframe
          unread := fun _ => by rw [htape]; exact ⟨rfl, rfl⟩
          unwritten := fun _ => by rw [htape]
          read := fun hword => absurd hword hinput
          written := fun hword => absurd hword houtput }

end Machine

/-- The faults of a tick that is refused. -/
def Fault.IsRefusal (cause : Fault) : Prop := cause = .tickLimit ∨ cause = .ipOverflow

namespace Machine

/-- A tick that fails tells where the pointer was. If it was refused it names no word, and nothing at all is
changed. Otherwise it names the word under the pointer and has done no more than moved past that word and
used the tape for it. The cause tells which of the two it was, unless what the tape is connected to reports
one of the two causes of a refusal. -/
theorem failing_tick_changes (m : Machine) {fault : Fault} (h : m.tick.1 = .failed fault) :
    ∃ word cause, fault = .running m.ip word cause ∧
      ((cause.IsRefusal ∧ word = 0 ∧ m.tick.2 = m) ∨
        (m.FailsAt word cause m.tick.2 ∧ (cause.IsRefusal → cause ∈ m.tape.outerFaults))) := by
  cases hword : m.word? with
  | none =>
    rw [tick_of_no_word hword] at h ⊢
    cases hhalted : m.halted with
    | true => simp [hhalted] at h
    | false =>
      rw [hhalted] at h
      cases h
      refine ⟨0, _, rfl, .inl ⟨?_, rfl, rfl⟩⟩
      cases m.outOfTicks
      · exact .inr rfl
      · exact .inl rfl
  | some word =>
    have hfailed := h
    rw [outcome_tick_of_word hword] at hfailed
    obtain ⟨cause, rfl, -⟩ := State.obeyWord_failed hfailed
    refine ⟨word, cause, rfl, .inr ⟨failsAt_of_word hword h, fun hrefusal => ?_⟩⟩
    have hbare := congrArg Outcome.bare hfailed
    rcases hrefusal with rfl | rfl
    · exact State.mem_outerFaults_of_bare hbare rfl (by simp)
    · exact State.mem_outerFaults_of_bare hbare rfl (by simp)

/-- About to read a number that the accumulator cannot hold, with another behind it. -/
def oversized : Machine where
  memory := Memory.ofWords [901]
  tape := { input := .loaded { pending := utf8 "1000 7" } }

theorem oversized_fails_behind_number :
    oversized.tick.1 = .failed (.running 0 901 .overflow) ∧ oversized.tick.2.tape.receive.1 = .ok 7 ∧
      oversized.FailsAt 901 .overflow oversized.tick.2 := by
  have hgives : oversized.tape.Gives [1000, 7] := Tape.gives_of_lists (Tape.lists_join [1000, 7]) none
  obtain ⟨hvalue, hrest, -⟩ := hgives.receive_cons
  have hreceive : oversized.state.tape.receive = (.ok 1000, oversized.tape.receive.2) := Prod.ext hvalue rfl
  have hword : oversized.word? = some 901 := rfl
  have hfailed : oversized.tick.1 = .failed (.running 0 901 .overflow) := by
    have hobey : (Instruction.input.obey oversized.state).1 = some .overflow := by
      simp only [Instruction.obey, hreceive]
      rfl
    rw [outcome_tick_of_word hword]
    exact congrArg (fun fault => (Instruction.input.outcome fault).locate 0 901) hobey
  obtain ⟨word, cause, hfault, ⟨-, rfl, -⟩ | ⟨hfails, -⟩⟩ := failing_tick_changes oversized hfailed
  · cases hfault
  · cases hfault
    refine ⟨hfailed, ?_, hfails⟩
    rw [(hfails.read rfl).1]
    exact hrest.receive_cons.1

end Machine

end LittleMan
