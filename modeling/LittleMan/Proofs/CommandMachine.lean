import LittleMan.Proofs.Execution
import Mathlib.Data.List.GetD
import Mathlib.Logic.Function.Iterate

/-!
# Running commands

A walk runs a list of commands as they are written, without their words: the command at the pointer is
obeyed, and behind the last command the walk halts. It keeps a store for what commands load, and
notes which cells were stored to. The machine that was loaded with the assembled commands runs in step
with the walk as long as the walk comes neither to data nor to a cell that it has stored to: in every
other cell the machine still has the word of the command.
-/

namespace LittleMan

/-! ### Walks -/

/-- A run of commands: the state, the ticks taken, and the cells that were stored to. -/
structure Walk where
  state : State
  ticks : Nat := 0
  written : List Address := []

/-- The cell that an instruction stores to. -/
def Instruction.stored : Instruction → List Address
  | .addressed .store address => [address]
  | _ => []

namespace Walk

/-- The store that holds the words of commands, and zero behind them. -/
def initialStore (commands : List Command) (address : Address) : Int :=
  match commands[address.val]? with
  | some command => (command.encode.toOption.map Int16.toInt).getD 0
  | none => 0

/-- The walk at the first command. -/
def start (commands : List Command) (tape : Tape) : Walk where
  state := { accumulator := 0, ip := 0, store := initialStore commands, halted := false, tape }

/-- No tick is left. There is a limit only if it is positive. -/
abbrev Spent (limit : Int) (w : Walk) : Prop := 0 < limit ∧ limit ≤ w.ticks

/-- The cell that the next step executes, if it executes one. -/
def cell? (limit : Int) (w : Walk) : Option Address :=
  if w.state.halted ∨ w.Spent limit then none else Address.ofInt? w.state.ip

/-- The walk behind an instruction. -/
def obey (w : Walk) (i : Instruction) : Outcome × Walk :=
  let result := i.obey w.state
  (i.outcome result.1,
    { state := result.2, ticks := w.ticks + 1, written := i.stored ++ w.written })

/-- One step. A command that is no instruction is not obeyed. -/
def step (commands : List Command) (limit : Int) (w : Walk) : Outcome × Walk :=
  if w.state.halted then (.halted, w)
  else if w.Spent limit then (.failed .tickLimit, w)
  else
    match Address.ofInt? w.state.ip with
    | none => (.failed .ipOverflow, w)
    | some address =>
      match commands.getD address.val (.instruction .halt) with
      | .instruction i => w.obey i
      | _ => (.failed .instructionInvalid, w)

/-- The walk after a number of steps. -/
def after (commands : List Command) (limit : Int) (w : Walk) (n : Nat) : Walk :=
  (fun w => (step commands limit w).2)^[n] w

/-- The next step executes neither data nor a cell that was stored to. -/
def Plain (commands : List Command) (limit : Int) (w : Walk) : Prop :=
  ∀ address ∈ w.cell? limit,
    (∀ command ∈ commands[address.val]?, command.code ≠ Mnemonic.data.code) ∧ address ∉ w.written

instance (commands : List Command) (limit : Int) (w : Walk) : Decidable (w.Plain commands limit) :=
  inferInstanceAs (Decidable (∀ address ∈ w.cell? limit,
    (∀ command ∈ commands[address.val]?, command.code ≠ Mnemonic.data.code) ∧ address ∉ w.written))

end Walk

/-- The machine after a number of ticks. -/
def Machine.after (m : Machine) (n : Nat) : Machine := (fun m => m.tick.2)^[n] m

/-! ### In step -/

/-- A machine is in step with a walk. The tick counts agree where there is a limit; without one the
machine's count does not matter. -/
structure InStep (commands : List Command) (limit : Int) (w : Walk) (m : Machine) : Prop where
  state : m.state = w.state
  maxTicks : m.maxTicks.toInt = limit
  ticks : 0 < limit → m.ticks.toInt = w.ticks
  cells : ∀ address ∉ w.written,
    (commands.getD address.val (.instruction .halt)).encode = .ok m.memory[address]

theorem Instruction.store_obey (s : State) (i : Instruction) {address : Address}
    (haddress : address ∉ i.stored) : (i.obey s).2.store address = s.store address := by
  cases i with
  | halt => rfl
  | output => rfl
  | input =>
    simp only [obey]
    rcases s.tape.receive with ⟨_ | value, tape⟩
    · rfl
    · exact congrFun (State.take_store _ _) address
  | addressed operation other =>
    cases operation with
    | load => exact congrFun (State.take_store _ _) address
    | add => exact congrFun (State.take_store _ _) address
    | subtract => exact congrFun (State.take_store _ _) address
    | store =>
      have hne : address ≠ other := by simpa [stored] using haddress
      exact Function.update_of_ne hne _ _
    | branch => rfl
    | branchIfZero => rfl
    | branchIfNotNegative => rfl

namespace InStep

variable {commands : List Command} {limit : Int} {w : Walk} {m : Machine}

theorem outOfTicks_iff (h : InStep commands limit w m) : m.outOfTicks = true ↔ w.Spent limit := by
  have hlimit : 0 < m.maxTicks ↔ 0 < limit := by
    rw [Int64.lt_iff_toInt_lt, Int64.toInt_zero, h.maxTicks]
  unfold Machine.outOfTicks
  rw [Bool.and_eq_true, decide_eq_true_iff, decide_eq_true_iff, hlimit, Int64.le_iff_toInt_le, h.maxTicks]
  constructor
  · rintro ⟨hpos, hspent⟩
    exact ⟨hpos, h.ticks hpos ▸ hspent⟩
  · rintro ⟨hpos, hspent⟩
    exact ⟨hpos, (h.ticks hpos).symm ▸ hspent⟩

theorem ticks_left (h : InStep commands limit w m) (hleft : ¬ w.Spent limit) :
    m.maxTicks ≤ 0 ∨ m.ticks < m.maxTicks := by
  rw [Int64.le_iff_toInt_le, Int64.lt_iff_toInt_lt, Int64.toInt_zero, h.maxTicks]
  by_cases hpos : 0 < limit
  · right
    rw [h.ticks hpos]
    exact Int.not_le.mp fun hspent => hleft ⟨hpos, hspent⟩
  · left
    exact Int.not_lt.mp hpos

/-- Where the machine has the word of an instruction, the machine and the walk both obey it. -/
theorem obey (h : InStep commands limit w m) (hrunning : w.state.halted = false)
    (hleft : ¬ w.Spent limit) {address : Address} (hip : w.state.ip = address.val) {i : Instruction}
    (hi : i.encode = m.memory[address]) :
    m.tick.1.bare = (w.obey i).1 ∧ InStep commands limit (w.obey i).2 m.tick.2 := by
  have hmachine : m.halted = false := (congrArg State.halted h.state).trans hrunning
  have hpointer : m.ip = address.val := (congrArg State.ip h.state).trans hip
  have hdecode := Instruction.decode?_eq_some_iff.mpr hi
  have hframe := m.stepPast m.memory[address] |>.perform_frame i
  have hstate := congrArg Prod.snd (Machine.state_perform m m.memory[address] i)
  rw [Machine.tick_of_decode hmachine (h.ticks_left hleft) hpointer hdecode]
  rw [h.state] at hstate ⊢
  refine ⟨Outcome.bare_locate _ _ _, hstate, ?_, ?_, ?_⟩
  · rw [hframe]
    exact h.maxTicks
  · intro hpos
    have hbelow : ¬ limit ≤ w.ticks := fun hspent => hleft ⟨hpos, hspent⟩
    have hroom : m.ticks ≠ Int64.maxValue := by
      intro hmax
      have hcount := h.ticks hpos
      have hmost := m.maxTicks.toInt_lt
      rw [hmax, Int64.toInt_maxValue] at hcount
      rw [h.maxTicks] at hmost
      omega
    rw [hframe]
    change (m.ticks + 1).toInt = ((w.ticks + 1 : Nat) : Int)
    rw [Machine.toInt_add_one hroom, h.ticks hpos]
    push_cast
    rfl
  · intro cell hcell
    -- The walk's list of written cells grows with the store, so a cell outside it is as it was.
    rw [show (w.obey i).2.written = i.stored ++ w.written from rfl, List.mem_append, not_or] at hcell
    have hsame := congrFun (congrArg State.store hstate) cell
    rw [show ((i.obey w.state).2.store cell) = w.state.store cell from i.store_obey _ hcell.1,
      ← h.state] at hsame
    have hword : ((m.stepPast m.memory[address]).perform i).2.memory[cell] = m.memory[cell] :=
      Int16.toInt_inj.mp hsame
    exact (h.cells cell hcell.2).trans (congrArg Except.ok hword.symm)

/-- One step of the walk is one tick of the machine. -/
theorem step (h : InStep commands limit w m) (hplain : w.Plain commands limit) :
    m.tick.1.bare = (w.step commands limit).1 ∧
      InStep commands limit (w.step commands limit).2 m.tick.2 := by
  have hhalted : m.halted = w.state.halted := congrArg State.halted h.state
  have hip : m.ip = w.state.ip := congrArg State.ip h.state
  unfold Walk.step
  by_cases hstopped : w.state.halted = true
  · have htick : m.tick = (.halted, m) := if_pos (hhalted.trans hstopped)
    rw [if_pos hstopped, htick]
    exact ⟨rfl, h⟩
  · have hrunning : w.state.halted = false := Bool.not_eq_true _ ▸ hstopped
    rw [if_neg hstopped]
    by_cases hspent : w.Spent limit
    · have htick : m.tick = (.failed (.running m.ip 0 .tickLimit), m) := by
        rw [Machine.tick, if_neg (hhalted ▸ hstopped), if_pos (h.outOfTicks_iff.mpr hspent)]
      rw [if_pos hspent, htick]
      exact ⟨rfl, h⟩
    · rw [if_neg hspent]
      cases haddress : Address.ofInt? w.state.ip with
      | none =>
        have htick : m.tick = (.failed (.running m.ip 0 .ipOverflow), m) := by
          rw [Machine.tick, if_neg (hhalted ▸ hstopped), if_neg (mt h.outOfTicks_iff.mp hspent), hip,
            haddress]
        rw [htick]
        exact ⟨rfl, h⟩
      | some address =>
        have hcell : w.cell? limit = some address := by
          rw [Walk.cell?, if_neg (not_or.mpr ⟨hstopped, hspent⟩), haddress]
        obtain ⟨hdata, hwritten⟩ := hplain address hcell
        have hencode := h.cells address hwritten
        dsimp only
        cases hcommand : commands.getD address.val (.instruction .halt) with
        | instruction i =>
          rw [hcommand, Command.encode_instruction] at hencode
          exact h.obey hrunning hspent (Address.val_of_ofInt? haddress) (Except.ok.inj hencode)
        | data value =>
          have hlookup : commands[address.val]? = some (.data value) := by
            rw [List.getD_eq_getElem?_getD] at hcommand
            cases hsome : commands[address.val]? <;> simp_all
          exact absurd rfl (hdata _ hlookup)
        | unknown code =>
          rw [hcommand] at hencode
          exact absurd hencode (by simp)

/-- A number of steps of the walk is as many ticks of the machine. -/
theorem after (h : InStep commands limit w m) (n : Nat)
    (hplain : ∀ k < n, (w.after commands limit k).Plain commands limit) :
    InStep commands limit (w.after commands limit n) (m.after n) := by
  induction n with
  | zero => exact h
  | succ n ih =>
    have hbefore := ih fun k hk => hplain k (Nat.lt_succ_of_lt hk)
    have hstep := (hbefore.step (hplain n (Nat.lt_succ_self n))).2
    rw [Walk.after, Machine.after, Function.iterate_succ_apply', Function.iterate_succ_apply']
    exact hstep

end InStep

/-! ### From the first command -/

theorem Command.encode_getD_of_mapM {commands : List Command} {words : List Word}
    (h : commands.mapM encode = .ok words) (index : Nat) :
    (commands.getD index (.instruction .halt)).encode = .ok (words.getD index 0) := by
  induction commands generalizing words index with
  | nil =>
    obtain rfl := Except.ok.inj h
    exact encode_instruction .halt
  | cons command commands ih =>
    rw [List.mapM_cons] at h
    cases hword : command.encode with
    | error fault =>
      rw [hword] at h
      exact absurd h (by simp [bind, Except.bind])
    | ok word =>
      cases hrest : commands.mapM encode with
      | error fault =>
        rw [hword, hrest] at h
        exact absurd h (by simp [bind, Except.bind])
      | ok rest =>
        rw [hword, hrest] at h
        obtain rfl : word :: rest = words := Except.ok.inj h
        cases index with
        | zero => exact hword
        | succ index => exact ih hrest index

/-- Each cell of an image has the word of its command. Zero, which stands behind them, is the word for
halting. -/
theorem Memory.encode_of_assemble {commands : List Command} {image : Memory}
    (h : assemble commands = .ok image) (address : Address) :
    (commands.getD address.val (.instruction .halt)).encode = .ok (image.get address) := by
  unfold assemble at h
  split at h
  · exact absurd h (by simp)
  · cases hencode : commands.mapM Command.encode with
    | error fault =>
      rw [hencode] at h
      exact absurd h (by simp [Except.map])
    | ok words =>
      rw [hencode] at h
      obtain rfl : ofWords words = image := Except.ok.inj h
      rw [Command.encode_getD_of_mapM hencode, get_ofWords]

theorem Walk.inStep_start {commands : List Command} {image : Memory}
    (h : Memory.assemble commands = .ok image) (m : Machine) :
    InStep commands m.maxTicks.toInt (start commands m.tape.rewind) (m.load (some image)) := by
  refine ⟨?_, rfl, fun _ => rfl, fun address _ => Memory.encode_of_assemble h address⟩
  refine State.ext rfl rfl (funext fun address => ?_) rfl rfl
  have hencode := Memory.encode_of_assemble h address
  change (image.get address).toInt = initialStore commands address
  unfold initialStore
  rw [List.getD_eq_getElem?_getD] at hencode
  cases hcommand : commands[address.val]? with
  | none =>
    rw [hcommand] at hencode
    rw [← Except.ok.inj hencode]
    rfl
  | some command =>
    rw [hcommand] at hencode
    change command.encode = _ at hencode
    dsimp only
    rw [hencode]
    rfl

/-- A machine that is loaded with assembled commands runs as the commands say, for as many steps as come
neither to data nor to a cell that was stored to. It is in the same state after them, and each of them
came out the same way. -/
theorem load_assemble_runs_commands (m : Machine) {commands : List Command} {image : Memory}
    (h : Memory.assemble commands = .ok image) (n : Nat)
    (hplain : ∀ k < n, ((Walk.start commands m.tape.rewind).after commands m.maxTicks.toInt k).Plain
      commands m.maxTicks.toInt) :
    ((m.load (some image)).after n).state =
      ((Walk.start commands m.tape.rewind).after commands m.maxTicks.toInt n).state ∧
    ∀ k < n, ((m.load (some image)).after k).tick.1.bare =
      (((Walk.start commands m.tape.rewind).after commands m.maxTicks.toInt k).step commands
        m.maxTicks.toInt).1 := by
  have hstart := Walk.inStep_start h m
  refine ⟨(hstart.after n hplain).state, fun k hk => ?_⟩
  have hbefore := hstart.after k fun j hj => hplain j (Nat.lt_trans hj hk)
  exact (hbefore.step (hplain k hk)).1

/-- Adds two numbers, stores and writes the sum, and jumps to the end. -/
def summing : List Command :=
  [.instruction (.addressed .load ⟨6, by decide⟩), .instruction (.addressed .add ⟨7, by decide⟩),
    .instruction (.addressed .store ⟨6, by decide⟩), .instruction .output,
    .instruction (.addressed .branch ⟨8, by decide⟩), .instruction .halt, .data 40, .data 2]

/-- A machine with a tape to write on. -/
def printing : Machine where
  tape := { output := some {} }

theorem summing_runs :
    ∃ image, Memory.assemble summing = .ok image ∧
      (∀ k < 6, ((Walk.start summing printing.tape.rewind).after summing printing.maxTicks.toInt
        k).Plain summing printing.maxTicks.toInt) ∧
      ((printing.load (some image)).after 6).state.halted = true ∧
      ((printing.load (some image)).after 6).state.accumulator = 42 ∧
      ((printing.load (some image)).after 6).state.tape.written = utf8 "42\n" := by
  have hassemble : Memory.assemble summing =
      .ok (Memory.ofWords [506, 107, 306, 902, 608, 0, 40, 2]) := rfl
  have hplain : ∀ k < 6, ((Walk.start summing printing.tape.rewind).after summing
      printing.maxTicks.toInt k).Plain summing printing.maxTicks.toInt := by
    decide
  have h := load_assemble_runs_commands printing hassemble 6 hplain
  refine ⟨_, hassemble, hplain, ?_⟩
  rw [h.1]
  decide

end LittleMan
