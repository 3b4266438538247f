import LittleMan.Check
import LittleMan.Proofs.Invariant

/-!
# Running a program at a desk

The Little Man works at a desk: numbers come off an in tray and go onto an out tray, with no text between.
A program that is checked gets its input as text, read ahead piece by piece, and what it writes is read
back from text. `runSource_works_at_desk` says that none of this shows: the program does what it does at
the desk.
-/

namespace LittleMan

/-- A state with two trays of numbers in place of its tape, and the ticks taken. -/
structure Desk where
  state : State
  ticks : Nat := 0
  inTray : List Int
  outTray : List Int := []

namespace Desk

/-- An image at its first cell. -/
def start (image : Memory) (input : List Int) : Desk where
  state :=
    { accumulator := 0, ip := 0, store address := (image.get address).toInt, halted := false, tape := {} }
  inTray := input

/-- What an instruction does at the desk. Only input and output reach the trays. -/
def obey (d : Desk) : Instruction → Option Fault × Desk
  | .input =>
    match d.inTray with
    | [] => (some .tapeEmpty, { d with state := d.state.advance })
    | value :: inTray =>
      let result := d.state.advance.take value
      (result.1, { d with state := result.2, inTray })
  | .output =>
    (none, { d with state := d.state.advance, outTray := d.outTray ++ [d.state.accumulator] })
  | i => ((i.obey d.state).1, { d with state := (i.obey d.state).2 })

/-- What executing a word does at the desk, and how it comes out. -/
def obeyWord (d : Desk) (word : Word) : Outcome × Desk :=
  match Instruction.decode? word with
  | some i => ((i.outcome (d.obey i).1).locate d.state.ip word, (d.obey i).2)
  | none => (.failed (.running d.state.ip word .instructionInvalid), { d with state := d.state.advance })

/-- One step under a limit. -/
def step (limit : Int) (d : Desk) : Outcome × Desk :=
  if d.state.halted then (.halted, d)
  else if limit ≤ d.ticks then (.failed (.running d.state.ip 0 .tickLimit), d)
  else
    match Address.ofInt? d.state.ip with
    | none => (.failed (.running d.state.ip 0 .ipOverflow), d)
    | some address => { d with ticks := d.ticks + 1 }.obeyWord (Int16.ofInt (d.state.store address))

end Desk

/-! ### Trays for a tape -/

theorem State.take_withTape (s : State) (tape : Tape) (value : Int) :
    State.take { s with tape } value = ((s.take value).1, { (s.take value).2 with tape }) := by
  unfold take
  split <;> rfl

/-- A tape is as good as the trays of a desk: it gives what is in the one, and took what is on the other. -/
structure Tape.Serves (tape : Tape) (d : Desk) : Prop where
  inTray : ∃ values, tape.Gives values ∧ d.inTray = values.map Int16.toInt
  outTray : ∃ values, tape.Took values ∧ d.outTray = values.map Int16.toInt

namespace Tape.Serves

variable {tape : Tape} {d : Desk}

theorem obey_input (h : tape.Serves d) :
    ∃ after, Instruction.input.obey { d.state with tape } =
        ((d.obey .input).1, { (d.obey .input).2.state with tape := after }) ∧
      after.Serves (d.obey .input).2 := by
  obtain ⟨values, hgives, hin⟩ := h.inTray
  obtain ⟨written, ⟨writer, hwriter, htaken⟩, hout⟩ := h.outTray
  refine ⟨tape.receive.2, ?_⟩
  rcases hreceive : tape.receive with ⟨result, after⟩
  simp only [Instruction.obey, Desk.obey, hin, hreceive]
  cases values with
  | nil =>
    obtain ⟨hresult, hrest, houtput⟩ := hgives.receive_nil
    rw [hreceive] at hresult hrest houtput
    dsimp only at hresult hrest houtput
    rw [hresult]
    exact ⟨rfl, ⟨[], hrest, rfl⟩, written, ⟨writer, houtput.trans hwriter, htaken⟩, hout⟩
  | cons value values =>
    obtain ⟨hresult, hrest, houtput⟩ := hgives.receive_cons
    rw [hreceive] at hresult hrest houtput
    dsimp only at hresult hrest houtput
    rw [hresult]
    exact ⟨d.state.advance.take_withTape after value.toInt, ⟨values, hrest, rfl⟩, written,
      ⟨writer, houtput.trans hwriter, htaken⟩, hout⟩

theorem obey_output (h : tape.Serves d)
    (hword : (Int16.ofInt d.state.accumulator).toInt = d.state.accumulator) :
    ∃ after, Instruction.output.obey { d.state with tape } =
        ((d.obey .output).1, { (d.obey .output).2.state with tape := after }) ∧
      after.Serves (d.obey .output).2 := by
  obtain ⟨values, ⟨text, hlists, hholds⟩, hin⟩ := h.inTray
  obtain ⟨written, htook, hout⟩ := h.outTray
  obtain ⟨hresult, htaken, output, hsend⟩ := htook.send (Int16.ofInt d.state.accumulator)
  refine ⟨(tape.send (Int16.ofInt d.state.accumulator)).2, ?_, ?_, ?_⟩
  · exact Prod.ext hresult rfl
  · rw [hsend]
    exact ⟨values, ⟨text, hlists, hholds.withOutput output⟩, hin⟩
  · refine ⟨_, htaken, ?_⟩
    rw [List.map_append, List.map_singleton, hword, ← hout]
    rfl

/-- Whatever the instruction, the tape stays as good as the trays. -/
theorem obey (h : tape.Serves d)
    (hword : (Int16.ofInt d.state.accumulator).toInt = d.state.accumulator) (i : Instruction) :
    ∃ after, i.obey { d.state with tape } = ((d.obey i).1, { (d.obey i).2.state with tape := after }) ∧
      after.Serves (d.obey i).2 := by
  cases i with
  | input => exact h.obey_input
  | output => exact h.obey_output hword
  | halt => exact ⟨tape, rfl, h.inTray, h.outTray⟩
  | addressed operation address =>
    refine ⟨tape, ?_, h.inTray, h.outTray⟩
    cases operation with
    | load => exact d.state.advance.take_withTape tape _
    | add => exact d.state.advance.take_withTape tape _
    | subtract => exact d.state.advance.take_withTape tape _
    | store => rfl
    | branch => rfl
    | branchIfZero => rfl
    | branchIfNotNegative => rfl

theorem obeyWord (h : tape.Serves d)
    (hword : (Int16.ofInt d.state.accumulator).toInt = d.state.accumulator) (word : Word) :
    ∃ after, State.obeyWord { d.state with tape } word =
        ((d.obeyWord word).1, { (d.obeyWord word).2.state with tape := after }) ∧
      after.Serves (d.obeyWord word).2 := by
  unfold State.obeyWord Desk.obeyWord
  cases Instruction.decode? word with
  | none => exact ⟨tape, rfl, h.inTray, h.outTray⟩
  | some i =>
    obtain ⟨after, hobey, hserves⟩ := h.obey hword i
    refine ⟨after, ?_, hserves⟩
    dsimp only
    rw [hobey]

end Tape.Serves

/-! ### Runs -/

namespace Desk

/-- Nothing gets onto the out tray but what the accumulator had. -/
theorem outTray_obeyWord {d : Desk} {word : Word} {value : Int}
    (h : value ∈ (d.obeyWord word).2.outTray) : value ∈ d.outTray ∨ value = d.state.accumulator := by
  unfold obeyWord at h
  cases hi : Instruction.decode? word with
  | none =>
    rw [hi] at h
    exact .inl h
  | some i =>
    rw [hi] at h
    cases i with
    | output => exact (List.mem_append.mp h).imp_right List.mem_singleton.mp
    | input =>
      left
      simp only [obey] at h
      cases hin : d.inTray <;> simpa [hin] using h
    | halt => exact .inl h
    | addressed operation address => exact .inl h

theorem ticks_obeyWord (d : Desk) (word : Word) : (d.obeyWord word).2.ticks = d.ticks := by
  unfold obeyWord
  cases Instruction.decode? word with
  | none => rfl
  | some i =>
    cases i with
    | input => cases hin : d.inTray <;> simp [obey, hin]
    | output => rfl
    | halt => rfl
    | addressed operation address => rfl

end Desk

/-- A machine does at its tape what is done at a desk under its limit. -/
structure Machine.WorksAt (limit : Int) (m : Machine) (d : Desk) : Prop where
  state : m.state = { d.state with tape := m.tape }
  tape : m.tape.Serves d
  maxTicks : m.maxTicks.toInt = limit
  ticks : m.ticks.toInt = d.ticks
  sound : m.Sound
  bounded : ∀ value ∈ d.outTray, -999 ≤ value ∧ value ≤ 999

namespace Machine.WorksAt

variable {limit : Int} {m : Machine} {d : Desk}

theorem limited (h : m.WorksAt limit d) (hlimit : 0 < limit) : 0 < m.maxTicks := by
  rwa [Int64.lt_iff_toInt_lt, Int64.toInt_zero, h.maxTicks]

theorem accumulator (h : m.WorksAt limit d) : d.state.accumulator = m.accumulator.toInt :=
  (congrArg State.accumulator h.state).symm

theorem halted (h : m.WorksAt limit d) : d.state.halted = m.halted :=
  (congrArg State.halted h.state).symm

theorem ip (h : m.WorksAt limit d) : d.state.ip = m.ip := (congrArg State.ip h.state).symm

theorem word (h : m.WorksAt limit d) (address : Address) :
    Int16.ofInt (d.state.store address) = m.memory.get address := by
  have hcell : (m.memory.get address).toInt = d.state.store address :=
    congrFun (congrArg State.store h.state) address
  rw [← hcell, Int16.ofInt_toInt]

theorem outOfTicks_iff (h : m.WorksAt limit d) (hlimit : 0 < limit) :
    m.outOfTicks = true ↔ limit ≤ d.ticks := by
  rw [outOfTicks_iff_ticksLeft (h.limited hlimit), ticksLeft, h.maxTicks, h.ticks]
  omega

/-- A tick that executes a word does at the tape what the word does at the desk. -/
theorem tick_of_word (h : m.WorksAt limit d) (hlimit : 0 < limit) {word : Word}
    (hword : m.word? = some word) :
    m.tick.1 = (Desk.obeyWord { d with ticks := d.ticks + 1 } word).1 ∧
      m.tick.2.WorksAt limit (Desk.obeyWord { d with ticks := d.ticks + 1 } word).2 := by
  have hserves : m.tape.Serves { d with ticks := d.ticks + 1 } := ⟨h.tape.inTray, h.tape.outTray⟩
  have hfits : (Int16.ofInt d.state.accumulator).toInt = d.state.accumulator := by
    rw [h.accumulator, Int16.ofInt_toInt]
  obtain ⟨tape, hobey, hafter⟩ := hserves.obeyWord hfits word
  have hstate : m.state.obeyWord word = _ := (congrArg (State.obeyWord · word) h.state).trans hobey
  have htick := state_tick_of_word hword
  rw [hstate] at htick
  have htape : m.tick.2.tape = tape := congrArg State.tape htick
  refine ⟨?_, ?_, htape ▸ hafter, ?_, ?_, h.sound.tick, ?_⟩
  · rw [outcome_tick_of_word hword, hstate]
  · rw [htick, htape]
  · rw [maxTicks_tick, h.maxTicks]
  · rw [Desk.ticks_obeyWord, (ticks_of_word (h.limited hlimit) hword).1, h.ticks]
    rfl
  · intro value hvalue
    rcases Desk.outTray_obeyWord hvalue with hold | rfl
    · exact h.bounded value hold
    · rw [show (Desk.state _).accumulator = _ from h.accumulator]
      exact h.sound.state.accumulator

theorem step (h : m.WorksAt limit d) (hlimit : 0 < limit) :
    ∃ d', d.step limit = (m.tick.1, d') ∧ m.tick.2.WorksAt limit d' := by
  have hspent := h.outOfTicks_iff hlimit
  unfold Desk.step
  rw [h.halted, h.ip]
  cases hword : m.word? with
  | none =>
    -- Nothing is executed, and both sides ask in the same order why.
    rw [tick_of_no_word hword]
    refine ⟨d, ?_, h⟩
    unfold word? at hword
    by_cases hhalted : m.halted = true
    · simp [hhalted]
    · by_cases hleft : limit ≤ d.ticks
      · simp [hhalted, hleft, hspent.mpr hleft]
      · have hticks : m.outOfTicks = false := Bool.eq_false_iff.mpr (mt hspent.mp hleft)
        have hoff : Address.ofInt? m.ip = none := by simpa [hhalted, hticks] using hword
        simp [hhalted, hleft, hticks, hoff]
  | some word =>
    obtain ⟨houtcome, hafter⟩ := h.tick_of_word hlimit hword
    obtain ⟨hrunning, hticks, address, hip, hcell⟩ := word?_eq_some_iff.mp hword
    have hleft : ¬ limit ≤ d.ticks := by rw [← hspent, hticks]; simp
    refine ⟨_, ?_, hafter⟩
    rw [hrunning, if_neg Bool.false_ne_true, if_neg hleft, hip, Address.ofInt?_val]
    dsimp only
    rw [h.word, hcell, houtcome]

/-- What a run comes to, the desk comes to. -/
theorem run (h : m.WorksAt limit d) (hlimit : 0 < limit) :
    ∃ n d', Ends (Desk.step limit) d n m.run.1 d' ∧ m.run.2.WorksAt limit d' := by
  obtain ⟨n, -, hends⟩ := ends_run (h.limited hlimit)
  refine ⟨n, hends.transfer (R := WorksAt limit) (P := fun _ => True) trivial ?_ trivial h⟩
  intro m last d outcome hworks htick _
  obtain ⟨after, hstep, hafter⟩ := hworks.step hlimit
  rw [htick] at hstep hafter
  exact ⟨after, hstep, hafter⟩

end Machine.WorksAt

/-! ### Checked programs -/

namespace Machine

/-- The machine that a check runs. -/
def checking (limit : Int64) (image : Memory) (input : List Word) : Machine :=
  { ({ maxTicks := limit } : Machine).load (some image) with
    tape :=
      { input := .loaded
          { pending := Text.join (utf8 " ") (input.map fun word => Decimal.plain word.toInt) }
        output := some {} } }

theorem worksAt_checking (limit : Int64) (image : Memory) (input : List Word) :
    (checking limit image input).WorksAt limit.toInt (Desk.start image (input.map Int16.toInt)) where
  state := rfl
  tape := ⟨⟨input, Tape.gives_of_lists (Tape.lists_join input) _, rfl⟩, [], ⟨{}, rfl, rfl, rfl⟩, rfl⟩
  maxTicks := rfl
  ticks := rfl
  sound := (sound_reset _).connect _
  bounded := by simp [Desk.start]

/-- A tick fails at an instruction. -/
theorem tick_failed {m : Machine} {fault : Fault} (h : m.tick.1 = .failed fault) :
    ∃ ip word cause, fault = .running ip word cause := by
  cases hword : m.word? with
  | none =>
    rw [tick_of_no_word hword] at h
    cases hhalted : m.halted with
    | true => simp [hhalted] at h
    | false =>
      rw [hhalted] at h
      cases h
      exact ⟨_, _, _, rfl⟩
  | some word =>
    rw [outcome_tick_of_word hword] at h
    obtain ⟨cause, hfault, -⟩ := State.obeyWord_failed h
    exact ⟨_, _, cause, hfault⟩

theorem run_failed {m : Machine} (hlimit : 0 < m.maxTicks) {fault : Fault} (h : m.run.1 = .failed fault) :
    ∃ ip word cause, fault = .running ip word cause := by
  obtain ⟨n, -, hends⟩ := ends_run hlimit
  have hlast := congrArg Prod.fst hends.iterate.2
  exact tick_failed (hlast.trans h)

end Machine

theorem runSource_of_compile {source : Text} {image : Memory} (h : compile source = .ok image)
    (maxTicks : Int64) (input : List Word) :
    runSource maxTicks source input =
      let limit := if 0 < maxTicks then maxTicks else defaultTicks
      match (Machine.checking limit image input).run with
      | (.failed fault, _) => .error fault
      | (_, m) => Tape.numbers m.tape.written := by
  rw [runSource, h]
  rfl

/-- A source that does not compile is not run. Any other does what it does at the desk: if that halts, the
run returns the out tray, all of it and nothing else, in numbers of three digits, and if that fails, the run
fails at the same instruction for the same cause and returns nothing. -/
theorem runSource_works_at_desk (maxTicks : Int64) (source : Text) (input : List Word) :
    match compile source with
    | .error fault => runSource maxTicks source input = .error fault
    | .ok image =>
      ∃ n outcome d,
        Ends (Desk.step (if 0 < maxTicks then maxTicks.toInt else 100000))
          (Desk.start image (input.map Int16.toInt)) n outcome d ∧
        ((outcome = .halted ∧
            (∃ output, runSource maxTicks source input = .ok output ∧
              output.map Int16.toInt = d.outTray) ∧
            ∀ value ∈ d.outTray, -999 ≤ value ∧ value ≤ 999) ∨
          ∃ ip word cause, outcome = .failed (.running ip word cause) ∧
            runSource maxTicks source input = .error (.running ip word cause)) := by
  cases hcompile : compile source with
  | error fault =>
    rw [runSource, hcompile]
    rfl
  | ok image =>
    have hlimit : 0 < (if 0 < maxTicks then maxTicks else defaultTicks) := by
      split
      · assumption
      · decide
    have htoInt : (if 0 < maxTicks then maxTicks else defaultTicks).toInt =
        if 0 < maxTicks then maxTicks.toInt else 100000 := by
      split <;> rfl
    have hrun := runSource_of_compile hcompile maxTicks input
    dsimp only at hrun ⊢
    generalize (if 0 < maxTicks then maxTicks else defaultTicks) = limit at *
    rw [← htoInt]
    obtain ⟨n, d, hdesk, hworks⟩ :=
      (Machine.worksAt_checking limit image input).run (Int64.lt_iff_toInt_lt.mp hlimit)
    refine ⟨n, _, d, hdesk, ?_⟩
    rcases hresult : (Machine.checking limit image input).run with ⟨outcome, last⟩
    rw [hresult] at hrun hdesk hworks
    cases outcome with
    | running => exact absurd rfl hdesk.ne_running
    | halted =>
      left
      obtain ⟨written, htook, hout⟩ := hworks.tape.outTray
      refine ⟨rfl, ⟨written, ?_, hout.symm⟩, hworks.bounded⟩
      rw [hrun]
      dsimp only
      rw [htook.written, Tape.numbers_lines]
    | failed fault =>
      right
      obtain ⟨ip, word, cause, rfl⟩ :=
        Machine.run_failed (m := Machine.checking limit image input) hlimit (congrArg Prod.fst hresult)
      exact ⟨ip, word, cause, rfl, hrun⟩

end LittleMan
