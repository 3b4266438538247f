import LittleMan.Machine
import LittleMan.Proofs.Encoding
import LittleMan.Proofs.Tape
import Mathlib.Logic.Function.Basic

/-!
# What a tick does

What an instruction means is said here for a state that counts in integers of any size
(`Instruction.obey`), and a tick is shown to do just that: the machine's words never wrap, and nothing
that an instruction does not name is changed. A word that is no instruction's is refused, and no other
word is, unless what the tape is connected to reports that very fault.
-/

namespace LittleMan

/-! ### The meaning of an instruction -/

/-- What a program can see of a machine, in integers. -/
@[ext] structure State where
  accumulator : Int
  ip : Int
  store : Address → Int
  halted : Bool
  tape : Tape

namespace State

/-- The state with the pointer on the next cell. -/
def advance (s : State) : State := { s with ip := s.ip + 1 }

/-- The state with a value in the accumulator, which holds three digits and a sign. -/
def take (s : State) (value : Int) : Option Fault × State :=
  if -999 ≤ value ∧ value ≤ 999 then (none, { s with accumulator := value })
  else (some .overflow, s)

/-- The state with the pointer on a cell if a condition holds, and on the next cell if not. -/
def jumpIf (s : State) (condition : Prop) [Decidable condition] (address : Address) : State :=
  { s with ip := if condition then address.val else s.ip + 1 }

variable (s : State) (value : Int)

@[simp] theorem take_store : (s.take value).2.store = s.store := by
  unfold take
  split <;> rfl

@[simp] theorem take_tape : (s.take value).2.tape = s.tape := by
  unfold take
  split <;> rfl

@[simp] theorem take_halted : (s.take value).2.halted = s.halted := by
  unfold take
  split <;> rfl

end State

/-- What an instruction does to a state, and why it fails if it does. -/
def Instruction.obey (s : State) : Instruction → Option Fault × State
  | .addressed .load address => s.advance.take (s.store address)
  | .addressed .add address => s.advance.take (s.accumulator + s.store address)
  | .addressed .subtract address => s.advance.take (s.accumulator - s.store address)
  | .addressed .store address =>
    (none, { s.advance with store := Function.update s.store address s.accumulator })
  | .addressed .branch address => (none, s.jumpIf True address)
  | .addressed .branchIfZero address => (none, s.jumpIf (s.accumulator = 0) address)
  | .addressed .branchIfNotNegative address => (none, s.jumpIf (0 ≤ s.accumulator) address)
  | .input =>
    match s.tape.receive with
    | (.ok value, tape) => State.take { s.advance with tape } value.toInt
    | (.error fault, tape) => (some fault, { s.advance with tape })
  | .output =>
    let sent := s.tape.send (Int16.ofInt s.accumulator)
    (sent.1, { s.advance with tape := sent.2 })
  | .halt => (none, { s.advance with halted := true })

namespace Machine

/-- The state of a machine. -/
def state (m : Machine) : State where
  accumulator := m.accumulator.toInt
  ip := m.ip
  store address := (m.memory.get address).toInt
  halted := m.halted
  tape := m.tape

theorem state_accumulate (m : Machine) (value : Int) :
    Prod.map id state (m.accumulate value) = m.state.take value := by
  by_cases hfits : -999 ≤ value ∧ value ≤ 999
  · have haccumulate : m.accumulate value = (none, { m with accumulator := Int16.ofInt value }) :=
      if_pos hfits
    have htake : m.state.take value = (none, { m.state with accumulator := value }) := if_pos hfits
    have hword : (Int16.ofInt value).toInt = value := Int16.toInt_ofInt_of_le (by omega) (by omega)
    rw [haccumulate, htake]
    exact Prod.ext rfl (State.ext hword rfl rfl rfl rfl)
  · have haccumulate : m.accumulate value = (some .overflow, m) := if_neg hfits
    have htake : m.state.take value = (some .overflow, m.state) := if_neg hfits
    rw [haccumulate, htake]
    rfl

theorem store_set (m : Machine) (address : Address) (word : Word) :
    (fun cell : Address => ((m.memory.set address word address.isLt).get cell).toInt) =
      Function.update m.state.store address word.toInt := by
  funext cell
  by_cases hcell : cell = address
  · subst hcell
    rw [Function.update_self]
    exact congrArg Int16.toInt (Vector.getElem_set_self cell.isLt)
  · have hval : address.val ≠ cell.val := fun h => hcell (Fin.ext h.symm)
    rw [Function.update_of_ne hcell]
    exact congrArg Int16.toInt (Vector.getElem_set_ne address.isLt cell.isLt hval)

theorem accumulator_eq_zero_iff (m : Machine) : m.accumulator = 0 ↔ m.state.accumulator = 0 := by
  rw [← Int16.toInt_inj, Int16.toInt_zero]
  rfl

theorem accumulator_nonneg_iff (m : Machine) : 0 ≤ m.accumulator ↔ 0 ≤ m.state.accumulator := by
  rw [Int16.le_iff_toInt_le, Int16.toInt_zero]
  rfl

theorem state_branchIf (m : Machine) (word : Word) {condition meant : Prop} [Decidable condition]
    [Decidable meant] (hmeant : condition ↔ meant) (address : Address) :
    ((m.stepPast word).branchIf condition address).state = m.state.jumpIf meant address := by
  unfold branchIf State.jumpIf
  by_cases h : condition
  · rw [if_pos h, if_pos (hmeant.mp h)]
    rfl
  · rw [if_neg h, if_neg (mt hmeant.mpr h)]
    rfl

/-- Behind the pointer, an instruction does what it means. -/
theorem state_perform (m : Machine) (word : Word) (i : Instruction) :
    Prod.map id state ((m.stepPast word).perform i) = i.obey m.state := by
  cases i with
  | halt => rfl
  | output =>
    have hword : Int16.ofInt m.state.accumulator = m.accumulator := Int16.ofInt_toInt _
    simp only [perform, performOutput, Instruction.obey, hword]
    rfl
  | input =>
    simp only [perform, performInput, Instruction.obey]
    change Prod.map id state (match m.tape.receive with | (.ok _, _) => _ | (.error _, _) => _) =
      (match m.tape.receive with | (.ok _, _) => _ | (.error _, _) => _)
    rcases m.tape.receive with ⟨_ | value, tape⟩
    · rfl
    · exact state_accumulate { m.stepPast word with tape } value.toInt
  | addressed operation address =>
    cases operation with
    | load => exact state_accumulate (m.stepPast word) _
    | add => exact state_accumulate (m.stepPast word) _
    | subtract => exact state_accumulate (m.stepPast word) _
    | store =>
      have hstore := store_set m address m.accumulator
      apply Prod.ext
      · rfl
      · exact State.ext rfl rfl hstore rfl rfl
    | branch => exact congrArg (none, ·) (state_branchIf m word Iff.rfl address)
    | branchIfZero =>
      exact congrArg (none, ·) (state_branchIf m word m.accumulator_eq_zero_iff address)
    | branchIfNotNegative =>
      exact congrArg (none, ·) (state_branchIf m word m.accumulator_nonneg_iff address)

theorem accumulate_frame (m : Machine) (value : Int) :
    (m.accumulate value).2 = { m with accumulator := (m.accumulate value).2.accumulator } := by
  unfold accumulate
  split <;> rfl

theorem branchIf_frame (m : Machine) (condition : Prop) [Decidable condition] (address : Address) :
    m.branchIf condition address = { m with ip := (m.branchIf condition address).ip } := by
  unfold branchIf
  split <;> rfl

/-- An instruction has no say in the image, the tick count and its limit, and what is noted down. -/
theorem perform_frame (m : Machine) (i : Instruction) :
    (m.perform i).2 =
      { m with
        memory := (m.perform i).2.memory
        accumulator := (m.perform i).2.accumulator
        ip := (m.perform i).2.ip
        halted := (m.perform i).2.halted
        tape := (m.perform i).2.tape } := by
  cases i with
  | halt => rfl
  | output => rfl
  | input =>
    simp only [perform, performInput]
    rcases m.tape.receive with ⟨_ | value, tape⟩
    · rfl
    · dsimp only
      rw [accumulate_frame]
  | addressed operation address =>
    cases operation <;> simp only [perform, performAddressed]
    · rw [accumulate_frame]
    · rw [accumulate_frame]
    · rw [accumulate_frame]
    · rw [branchIf_frame]
    · rw [branchIf_frame]
    · rw [branchIf_frame]

end Machine

/-! ### Faults of the tape -/

/-- A scanner stops with a fault of its reader, with the one it had stopped with before, or because a
token is too long. -/
theorem Scanner.fault?_next {split : Splitter} {s : Scanner} {fault : Fault}
    (h : (s.next split).2.fault? = some fault) :
    s.fault? = some fault ∨ s.reader.fault = some fault ∨ fault = .tokenTooLong := by
  fun_induction next split s with
  | case1 s found hfound =>
    left
    simpa only [fault?, found, cut_stop] using h
  | case2 s found hfound hstop =>
    left
    simpa only [fault?, found, cut_stop] using h
  | case3 s found hfound hstop ready hroom =>
    right; right
    exact (Option.some.inj h).symm
  | case4 s found hfound hstop ready hroom hpending ih =>
    have hreader : ready.reader = s.reader := by simp [ready, found]
    right
    rcases ih h with hending | hfault | hlong
    · left
      rw [← hreader]
      simp only [fault?, ending] at hending
      cases hfault : ready.reader.fault <;> simp_all
    · exact .inl (hreader ▸ hfault)
    · exact .inr hlong
  | case5 s found hfound hstop ready hroom hpending ih =>
    have hreader : ready.fill.reader.fault = s.reader.fault := by simp [ready, found, fill, Reader.read]
    have hsame : ready.fill.fault? = s.fault? := by simp [fault?, ready, found]
    rw [← hreader, ← hsame]
    exact ih h

namespace Tape

/-- The faults that come from what a tape is connected to. -/
def outerFaults (tape : Tape) : List Fault :=
  (match tape.input with
    | .loaded reader => reader.fault.toList
    | _ => []) ++
  (match tape.scanner with
    | some scanner => scanner.reader.fault.toList ++ scanner.fault?.toList
    | none => []) ++
  (tape.output.map Writer.fault).toList

theorem outerFaults_of_opened {tape opened : Tape} {scanner : Scanner} {fault : Fault}
    (hopened : tape.opened? = some (scanner, opened))
    (hfault : scanner.fault? = some fault ∨ scanner.reader.fault = some fault) :
    fault ∈ tape.outerFaults := by
  unfold opened? at hopened
  split at hopened
  · exact absurd hopened (by simp)
  · next hscanner _ =>
    cases hopened
    rcases hfault with hfault | hfault <;> simp [outerFaults, hscanner, hfault]
  · next reader hinput _ =>
    cases hopened
    rcases hfault with hfault | hfault
    · exact absurd hfault (by simp [Scanner.fault?])
    · have hreader : reader.fault = some fault := hfault
      simp [outerFaults, hinput, hreader]
  · exact absurd hopened (by simp)

theorem receive_fault {tape : Tape} {fault : Fault} (h : tape.receive.1 = .error fault) :
    fault ∈ tape.outerFaults ∨ fault = .tapeEmpty ∨ fault = .tokenTooLong ∨
      ∃ word, fault = .tapeValue word := by
  unfold receive at h
  split at h
  · exact .inr (.inl (Except.error.inj h).symm)
  · next scanner opened hopened =>
    dsimp only at h
    split at h
    · next word _ =>
      unfold number at h
      split at h
      · exact absurd h (by simp)
      · exact .inr (.inr (.inr ⟨word, (Except.error.inj h).symm⟩))
    · cases hfault : (scanner.next Splitter.words).2.fault? with
      | none =>
        rw [hfault] at h
        exact .inr (.inl (Except.error.inj h).symm)
      | some found =>
        rw [hfault] at h
        obtain rfl : found = fault := Except.error.inj h
        rcases Scanner.fault?_next hfault with hstop | hreader | hlong
        · exact .inl (outerFaults_of_opened hopened (.inl hstop))
        · exact .inl (outerFaults_of_opened hopened (.inr hreader))
        · exact .inr (.inr (.inl hlong))

theorem mem_outerFaults_iff {tape : Tape} {fault : Fault} : fault ∈ tape.outerFaults ↔
    (∃ reader, tape.input = .loaded reader ∧ reader.fault = some fault) ∨
    (∃ scanner, tape.scanner = some scanner ∧
      (scanner.reader.fault = some fault ∨ scanner.fault? = some fault)) ∨
    ∃ writer, tape.output = some writer ∧ writer.fault = fault := by
  rw [outerFaults, List.mem_append, List.mem_append, or_assoc]
  refine or_congr ?_ (or_congr ?_ ?_)
  · cases tape.input <;> simp
  · cases tape.scanner <;> simp
  · cases tape.output <;> simp [eq_comm]

/-- Reading on connects a tape to nothing new. -/
theorem outerFaults_receive {tape : Tape} {fault : Fault} (h : fault ∈ tape.receive.2.outerFaults) :
    fault ∈ tape.outerFaults ∨ fault = .tokenTooLong := by
  unfold receive at h
  split at h
  · exact .inl h
  · next scanner opened hopened =>
    have hframe := opened?_frame hopened
    rw [mem_outerFaults_iff] at h
    rcases h with ⟨reader, hinput, hfault⟩ | ⟨next, hscanner, hfault⟩ | hwriter
    · exact .inl (mem_outerFaults_iff.mpr (.inl ⟨reader, hframe.2 reader hinput, hfault⟩))
    · obtain rfl := Option.some.inj hscanner
      rcases hfault with hfault | hfault
      · rw [Scanner.fault_reader_next] at hfault
        exact .inl (outerFaults_of_opened hopened (.inr hfault))
      · rcases Scanner.fault?_next hfault with hstop | hreader | hlong
        · exact .inl (outerFaults_of_opened hopened (.inl hstop))
        · exact .inl (outerFaults_of_opened hopened (.inr hreader))
        · exact .inr hlong
    · exact .inl (mem_outerFaults_iff.mpr (.inr (.inr (hframe.1 ▸ hwriter))))

theorem send_fault {tape : Tape} {value : Word} {fault : Fault}
    (h : (tape.send value).1 = some fault) : fault ∈ tape.outerFaults ∨ fault = .tapeFull := by
  unfold send at h
  split at h
  · exact .inr (Option.some.inj h).symm
  · next writer hwriter =>
    left
    simp only [Writer.write] at h
    split at h
    · exact absurd h (by simp)
    · obtain rfl := Option.some.inj h
      simp [outerFaults, hwriter]

theorem outerFaults_send (tape : Tape) (value : Word) :
    (tape.send value).2.outerFaults = tape.outerFaults := by
  unfold send
  split
  · rfl
  · next writer hwriter => simp [outerFaults, hwriter, Writer.write]

end Tape

/-! ### One tick -/

/-- An outcome with the place at which a fault came up. -/
def Outcome.locate (ip : Int) (word : Word) : Outcome → Outcome
  | .failed cause => .failed (.running ip word cause)
  | outcome => outcome

/-- An outcome without the place at which a fault came up. -/
def Outcome.bare : Outcome → Outcome
  | .failed (.running _ _ cause) => .failed cause
  | outcome => outcome

@[simp] theorem Outcome.bare_locate (ip : Int) (word : Word) (outcome : Outcome) :
    (outcome.locate ip word).bare = outcome := by
  cases outcome <;> rfl

/-- How a tick comes out that executes an instruction, with the fault if there was one. -/
def Instruction.outcome (i : Instruction) : Option Fault → Outcome
  | some fault => .failed fault
  | none => if i = .halt then .halted else .running

theorem Instruction.halted_obey (s : State) (i : Instruction) :
    (i.obey s).2.halted = (s.halted || i = .halt) := by
  cases i with
  | halt => simp [obey]
  | output => simp [obey, State.advance]
  | input =>
    simp only [obey]
    rcases s.tape.receive with ⟨_ | value, tape⟩ <;> simp [State.advance]
  | addressed operation address =>
    cases operation <;> simp [obey, State.advance, State.jumpIf]

/-- The faults that an instruction can have of its own. -/
def Fault.isInstructions : Fault → Bool
  | .overflow | .tapeEmpty | .tapeFull | .tokenTooLong | .tapeValue _ => true
  | _ => false

theorem State.take_fault {s : State} {value : Int} {fault : Fault}
    (h : (s.take value).1 = some fault) : fault.isInstructions = true := by
  unfold take at h
  split at h
  · cases h
  · cases h
    rfl

theorem Instruction.obey_fault {s : State} {i : Instruction} {fault : Fault}
    (h : (i.obey s).1 = some fault) :
    fault ∈ s.tape.outerFaults ∨ fault.isInstructions = true := by
  cases i with
  | halt => cases h
  | output =>
    rcases Tape.send_fault h with houter | rfl
    · exact .inl houter
    · exact .inr rfl
  | input =>
    simp only [obey] at h
    rcases hreceive : s.tape.receive with ⟨cause | value, tape⟩
    · rw [hreceive] at h
      obtain rfl : cause = fault := Option.some.inj h
      rcases Tape.receive_fault (congrArg Prod.fst hreceive) with houter | rfl | rfl | ⟨_, rfl⟩
      · exact .inl houter
      all_goals exact .inr rfl
    · rw [hreceive] at h
      exact .inr (State.take_fault h)
  | addressed operation address =>
    cases operation with
    | load => exact .inr (State.take_fault h)
    | add => exact .inr (State.take_fault h)
    | subtract => exact .inr (State.take_fault h)
    | store => cases h
    | branch => cases h
    | branchIfZero => cases h
    | branchIfNotNegative => cases h

/-- Only input and output reach the tape. -/
theorem Instruction.tape_obey (s : State) (i : Instruction) :
    (i.obey s).2.tape =
      match i with
      | .input => s.tape.receive.2
      | .output => (s.tape.send (Int16.ofInt s.accumulator)).2
      | _ => s.tape := by
  cases i with
  | halt => rfl
  | output => rfl
  | input =>
    simp only [obey]
    rcases s.tape.receive with ⟨_ | value, tape⟩ <;> simp
  | addressed operation address => cases operation <;> simp [obey, State.advance, State.jumpIf]

theorem Instruction.outerFaults_obey {s : State} {i : Instruction} {fault : Fault}
    (h : fault ∈ (i.obey s).2.tape.outerFaults) :
    fault ∈ s.tape.outerFaults ∨ fault = .tokenTooLong := by
  rw [tape_obey] at h
  cases i with
  | halt => exact .inl h
  | output => exact .inl (Tape.outerFaults_send _ _ ▸ h)
  | input => exact Tape.outerFaults_receive h
  | addressed => exact .inl h

/-- An instruction is never refused for not being one, unless the tape's connections say so. -/
theorem Instruction.obey_ne_instructionInvalid {s : State} (i : Instruction)
    (htape : .instructionInvalid ∉ s.tape.outerFaults) :
    (i.obey s).1 ≠ some .instructionInvalid := by
  intro h
  rcases obey_fault h with houter | hown
  · exact htape houter
  · cases hown

namespace Machine

theorem outOfTicks_eq_false {m : Machine} (hticks : m.maxTicks ≤ 0 ∨ m.ticks < m.maxTicks) :
    m.outOfTicks = false := by
  unfold outOfTicks
  rcases hticks with hunlimited | hleft
  · simp [Int64.not_lt.mpr hunlimited]
  · simp [Int64.not_le.mpr hleft]

theorem toInt_add_one {ticks : Int64} (hroom : ticks ≠ Int64.maxValue) :
    (ticks + 1).toInt = ticks.toInt + 1 := by
  have hlow := ticks.le_toInt
  have hhigh := ticks.toInt_lt
  have hmost : ticks.toInt ≠ Int64.maxValue.toInt := mt Int64.toInt_inj.mp hroom
  rw [Int64.toInt_maxValue] at hmost
  rw [Int64.toInt_add, Int64.toInt_one]
  exact Int.bmod_eq_of_le (by omega) (by omega)

section Tick

variable {m : Machine} {address : Address} (hrunning : m.halted = false)
  (hticks : m.maxTicks ≤ 0 ∨ m.ticks < m.maxTicks) (hip : m.ip = address.val)

include hrunning hticks hip

theorem tick_of_decode {i : Instruction} (hi : Instruction.decode? m.memory[address] = some i) :
    m.tick = ((i.outcome (i.obey m.state).1).locate m.ip m.memory[address],
      ((m.stepPast m.memory[address]).perform i).2) := by
  have hcell : Address.ofInt? m.ip = some address := hip ▸ Address.ofInt?_val address
  have hobey := state_perform m m.memory[address] i
  have hhalted := i.halted_obey m.state
  rw [← hobey] at hhalted ⊢
  simp only [tick, hrunning, outOfTicks_eq_false hticks, hcell, execute, hi]
  rcases hperform : (m.stepPast m.memory[address]).perform i with ⟨_ | fault, after⟩
  · rw [hperform] at hhalted
    have hafter : after.halted = decide (i = .halt) := by
      simpa only [Prod.map_apply, state, hrunning, Bool.false_or] using hhalted
    by_cases hhalt : i = .halt <;> simp [Instruction.outcome, Outcome.locate, hafter, hhalt]
  · simp [Instruction.outcome, Outcome.locate]

theorem tick_of_not_decode (hi : Instruction.decode? m.memory[address] = none) :
    m.tick = (.failed (.running m.ip m.memory[address] .instructionInvalid),
      m.stepPast m.memory[address]) := by
  have hcell : Address.ofInt? m.ip = some address := hip ▸ Address.ofInt?_val address
  simp only [tick, hrunning, outOfTicks_eq_false hticks, hcell, execute, hi]
  rfl

end Tick

/-- A tick executes the word that the pointer is on. If no instruction is written so, it refuses the word as
invalid and only steps past it; it refuses no other word so, what the tape is connected to apart. Otherwise there
is one such instruction, and the tick does what that instruction means. Every such tick is counted, and what a
program cannot see stays as it is, but for the note of a verbose machine. -/
theorem tick_obeys_encoded_instruction (m : Machine) (address : Address)
    (hrunning : m.halted = false) (hticks : m.maxTicks ≤ 0 ∨ m.ticks < m.maxTicks)
    (hip : m.ip = address.val) :
    ((¬ ∃ i, (Command.instruction i).encode = .ok m.memory[address]) →
      m.tick = (.failed (.running m.ip m.memory[address] .instructionInvalid),
        m.stepPast m.memory[address])) ∧
    (.instructionInvalid ∉ m.tape.outerFaults →
      (m.tick.1.bare = .failed .instructionInvalid ↔
        ¬ ∃ i, (Command.instruction i).encode = .ok m.memory[address])) ∧
    (∀ i, (Command.instruction i).encode = .ok m.memory[address] →
      (∀ j, (Command.instruction j).encode = .ok m.memory[address] → j = i) ∧
      m.tick.1 = (i.outcome (i.obey m.state).1).locate m.ip m.memory[address] ∧
      m.tick.2.state = (i.obey m.state).2) ∧
    (m.tick.2.ticks = m.ticks + 1 ∧
      (m.ticks ≠ Int64.maxValue → m.tick.2.ticks.toInt = m.ticks.toInt + 1)) ∧
    m.tick.2 =
      { m.stepPast m.memory[address] with
        memory := m.tick.2.memory
        accumulator := m.tick.2.accumulator
        ip := m.tick.2.ip
        halted := m.tick.2.halted
        tape := m.tick.2.tape } := by
  have hencode (i : Instruction) : (Command.instruction i).encode = .ok m.memory[address] ↔
      Instruction.decode? m.memory[address] = some i := by
    rw [Instruction.decode?_eq_some_iff, Command.encode_instruction]
    exact ⟨Except.ok.inj, congrArg Except.ok⟩
  have hcount (after : Int64) (hafter : after = m.ticks + 1) : after = m.ticks + 1 ∧
      (m.ticks ≠ Int64.maxValue → after.toInt = m.ticks.toInt + 1) :=
    ⟨hafter, fun hroom => hafter ▸ toInt_add_one hroom⟩
  simp only [hencode]
  cases hi : Instruction.decode? m.memory[address] with
  | none =>
    rw [tick_of_not_decode hrunning hticks hip hi]
    exact ⟨fun _ => rfl, fun _ => iff_of_true rfl (by simp), by simp, hcount _ rfl, rfl⟩
  | some i =>
    have hframe := perform_frame (m.stepPast m.memory[address]) i
    have hstate := congrArg Prod.snd (state_perform m m.memory[address] i)
    rw [tick_of_decode hrunning hticks hip hi]
    refine ⟨fun hnone => absurd ⟨i, rfl⟩ hnone, fun htape => iff_of_false ?_ (by simp), ?_, ?_, hframe⟩
    · have hvalid := i.obey_ne_instructionInvalid (s := m.state) htape
      rw [Outcome.bare_locate]
      cases hfault : (i.obey m.state).1 with
      | none => by_cases hhalt : i = .halt <;> simp [Instruction.outcome, hhalt]
      | some fault =>
        rw [hfault] at hvalid
        simpa [Instruction.outcome] using hvalid
    · intro j hj
      obtain rfl := Option.some.inj hj
      exact ⟨fun k hk => (Option.some.inj hk).symm, rfl, hstate⟩
    · apply hcount
      rw [hframe]
      rfl

/-- A machine that is about to add twenty to nine hundred and ninety. -/
def overfull : Machine where
  memory := Memory.ofWords [107, 0, 0, 0, 0, 0, 0, 20]
  accumulator := 990

theorem tick_overfull :
    overfull.halted = false ∧ overfull.ticks < overfull.maxTicks ∧ overfull.ip = 0 ∧
    overfull.tick.1 = .failed (.running 0 107 .overflow) ∧
    overfull.tick.1.bare ≠ .failed .instructionInvalid ∧
    overfull.tick.2.state.accumulator = 990 ∧ overfull.tick.2.ticks = 1 := by
  have h := tick_obeys_encoded_instruction overfull ⟨0, by decide⟩ rfl (.inr (by decide)) rfl
  have hword : (Command.instruction (.addressed .add ⟨7, by decide⟩)).encode = .ok 107 :=
    Command.encode_instruction _
  have hadd := h.2.2.1 _ hword
  have hvalid : overfull.tick.1.bare ≠ .failed .instructionInvalid :=
    mt (h.2.1 (by decide)).mp (not_not_intro ⟨_, hword⟩)
  refine ⟨rfl, by decide, rfl, hadd.2.1, hvalid, ?_, h.2.2.2.1.1⟩
  rw [hadd.2.2]
  rfl

end Machine

end LittleMan
