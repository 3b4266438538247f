import LittleMan.Proofs.Runs

/-!
# What every machine keeps

However a machine is loaded, reset, ticked and run, and whatever went wrong on the way, its registers and
cells stay within bounds: data words of any size can lie in the memory, but what passes through the
accumulator has three digits. The bounds are kept by every word that can be executed
(`State.Bounded.obeyWord`), and the rest is a matter of counting ticks.

The memory has cells by address only, so a cell that is not there cannot be asked for. For a machine that
asks for its cells by number, `tickByNumber?_eq_tick` says that it never asks for one that is not there.
-/

namespace LittleMan

/-! ### Bounds on a state -/

/-- A state within bounds, `initial` being the store it was loaded with. A halted state has the pointer
behind a zero. -/
structure State.Bounded (initial : Address → Int) (s : State) : Prop where
  accumulator : -999 ≤ s.accumulator ∧ s.accumulator ≤ 999
  ip : 0 ≤ s.ip ∧ s.ip ≤ 100
  cells : ∀ address,
    s.store address = initial address ∨ -999 ≤ s.store address ∧ s.store address ≤ 999
  halted : s.halted = true → ∃ address : Address, s.ip = address.val + 1 ∧ s.store address = 0

namespace State.Bounded

variable {initial : Address → Int} {s : State}

theorem withTape (h : s.Bounded initial) (tape : Tape) : State.Bounded initial { s with tape } :=
  ⟨h.accumulator, h.ip, h.cells, h.halted⟩

theorem take (h : s.Bounded initial) (value : Int) : (s.take value).2.Bounded initial := by
  unfold State.take
  split
  · next hfits => exact ⟨hfits, h.ip, h.cells, h.halted⟩
  · exact h

theorem advance (h : s.Bounded initial) (hrunning : s.halted = false) (hip : s.ip ≤ 99) :
    s.advance.Bounded initial := by
  have hlow := h.ip.1
  refine ⟨h.accumulator, ⟨?_, ?_⟩, h.cells, ?_⟩
  · change 0 ≤ s.ip + 1
    omega
  · change s.ip + 1 ≤ 100
    omega
  · intro hhalted
    rw [show s.advance.halted = false from hrunning] at hhalted
    cases hhalted

theorem jumpIf (h : s.Bounded initial) (hrunning : s.halted = false) (hip : s.ip ≤ 99)
    (condition : Prop) [Decidable condition] (address : Address) :
    (s.jumpIf condition address).Bounded initial := by
  have haddress : address.val < 100 := address.isLt
  have hlow := h.ip.1
  refine ⟨h.accumulator, ?_, h.cells, ?_⟩
  · unfold State.jumpIf
    dsimp only
    split <;> omega
  · intro hhalted
    rw [show (s.jumpIf condition address).halted = false from hrunning] at hhalted
    cases hhalted

theorem store (h : s.Bounded initial) (hrunning : s.halted = false) (address : Address) :
    State.Bounded initial { s with store := Function.update s.store address s.accumulator } := by
  refine ⟨h.accumulator, h.ip, fun cell => ?_, fun hhalted => ?_⟩
  · by_cases hcell : cell = address
    · subst hcell
      simp only [Function.update_self]
      exact .inr h.accumulator
    · simp only [Function.update_of_ne hcell]
      exact h.cells cell
  · rw [show s.halted = true from hhalted] at hrunning
    cases hrunning

/-- Executing the word in the cell that the pointer is on keeps the bounds. -/
theorem obeyWord (h : s.Bounded initial) (hrunning : s.halted = false) {address : Address}
    (hip : s.ip = address.val) {word : Word} (hword : s.store address = word.toInt) :
    (s.obeyWord word).2.Bounded initial := by
  have haddress : address.val < 100 := address.isLt
  have hadvance : s.advance.Bounded initial := h.advance hrunning (by omega)
  unfold State.obeyWord
  cases hi : Instruction.decode? word with
  | none => exact hadvance
  | some i =>
    cases i with
    | halt =>
      refine ⟨hadvance.accumulator, hadvance.ip, hadvance.cells, fun _ => ⟨address, ?_, ?_⟩⟩
      · change s.ip + 1 = address.val + 1
        rw [hip]
      · change s.store address = 0
        rw [hword, ← Instruction.decode?_eq_some_iff.mp hi]
        decide
    | output => exact hadvance.withTape _
    | input =>
      simp only [Instruction.obey]
      rcases s.tape.receive with ⟨fault | value, tape⟩
      · exact hadvance.withTape tape
      · exact (hadvance.withTape tape).take value.toInt
    | addressed operation other =>
      cases operation with
      | load => exact hadvance.take _
      | add => exact hadvance.take _
      | subtract => exact hadvance.take _
      | store => exact hadvance.store hrunning other
      | branch => exact h.jumpIf hrunning (by omega) True other
      | branchIfZero => exact h.jumpIf hrunning (by omega) _ other
      | branchIfNotNegative => exact h.jumpIf hrunning (by omega) _ other

end State.Bounded

namespace Machine

/-! ### Bounds on a machine -/

/-- A machine within bounds: its state is, and if it is limited, so is its count of ticks. -/
structure Sound (m : Machine) : Prop where
  state : m.state.Bounded fun address => ((m.image.getD .zero).get address).toInt
  ticks : 0 < m.maxTicks → 0 ≤ m.ticks.toInt ∧ m.ticks.toInt ≤ m.maxTicks.toInt ∧
    (m.halted = true → 1 ≤ m.ticks.toInt)

theorem sound_reset (m : Machine) : m.reset.Sound := by
  refine ⟨⟨?_, ⟨Int.le_refl 0, ?_⟩, fun _ => .inl rfl, fun h => by cases h⟩, fun hlimit => ?_⟩
  · change -999 ≤ (0 : Word).toInt ∧ (0 : Word).toInt ≤ 999
    decide
  · change (0 : Int) ≤ 100
    decide
  · rw [Int64.lt_iff_toInt_lt, Int64.toInt_zero] at hlimit
    exact ⟨Int.le_refl 0, Int.le_of_lt hlimit, fun h => by cases h⟩

theorem Sound.connect {m : Machine} (h : m.Sound) (tape : Tape) : Sound { m with tape } :=
  ⟨h.state.withTape tape, h.ticks⟩

theorem Sound.tick {m : Machine} (h : m.Sound) : m.tick.2.Sound := by
  cases hword : m.word? with
  | none =>
    rw [tick_of_no_word hword]
    exact h
  | some word =>
    obtain ⟨hrunning, -, address, hip, rfl⟩ := word?_eq_some_iff.mp hword
    obtain ⟨himage, -, hmax, -, -⟩ := frame_tick_of_word hword
    refine ⟨?_, fun hlimit => ?_⟩
    · rw [state_tick_of_word hword, himage]
      exact h.state.obeyWord hrunning hip rfl
    · rw [hmax] at hlimit ⊢
      have hbefore := h.ticks hlimit
      have hcount := ticks_of_word hlimit hword
      unfold ticksLeft at hcount
      rw [hmax] at hcount
      exact ⟨by omega, by omega, fun _ => by omega⟩

/-- What every tick keeps, a run keeps. -/
theorem runFor_keeps {P : Machine → Prop} (hstep : ∀ m, P m → P m.tick.2) (count : Nat) {m : Machine}
    (h : P m) : P (runFor count m).2 := by
  induction count generalizing m with
  | zero => exact h
  | succ count ih =>
    have hnext := hstep m h
    rw [runFor]
    split
    · next after htick =>
      rw [htick] at hnext
      exact ih hnext
    · exact hnext

/-! ### Histories -/

/-- What can be done with a machine. A limit is set only with an image or a reset; the tape can be exchanged
at any time. -/
inductive Action where
  | load (limit : Option Int64) (image : Option Memory)
  | reset (limit : Option Int64)
  | tick
  | run
  | connect (tape : Tape)

/-- The machine after an action, whether or not that failed. -/
def act (m : Machine) : Action → Machine
  | .load limit image => (m.limitTo (limit.getD m.maxTicks)).load image
  | .reset limit => (m.limitTo (limit.getD m.maxTicks)).reset
  | .tick => m.tick.2
  | .run => m.run.2
  | .connect tape => { m with tape }

theorem Sound.act {m : Machine} (h : m.Sound) (action : Action) : (m.act action).Sound := by
  cases action with
  | load limit image => exact sound_reset _
  | reset limit => exact sound_reset _
  | tick => exact h.tick
  | run => exact runFor_keeps (fun _ => Sound.tick) _ h
  | connect tape => exact h.connect tape

theorem Sound.acts {m : Machine} (h : m.Sound) (actions : List Action) :
    (actions.foldl Machine.act m).Sound := by
  induction actions generalizing m with
  | nil => exact h
  | cons action actions ih => exact ih (h.act action)

end Machine

/-! ### Cells by number -/

/-- The word in a cell that is asked for by number, if there is such a cell. -/
def Memory.cell? (memory : Memory) (n : Int) : Option Word := (Address.ofInt? n).map memory.get

/-- The memory with a word in a cell that is asked for by number, if there is such a cell. -/
def Memory.put? (memory : Memory) (n : Int) (word : Word) : Option Memory :=
  (Address.ofInt? n).map fun address : Address => memory.set address.val word address.isLt

namespace Machine

/-- What an addressed instruction does with the number of a cell. -/
def performByNumber? (m : Machine) (operation : Operation) (n : Int) :
    Option (Option Fault × Machine) :=
  match operation with
  | .load => (m.memory.cell? n).map fun word => m.accumulate word.toInt
  | .add => (m.memory.cell? n).map fun word => m.accumulate (m.accumulator.toInt + word.toInt)
  | .subtract => (m.memory.cell? n).map fun word => m.accumulate (m.accumulator.toInt - word.toInt)
  | .store => (m.memory.put? n m.accumulator).map fun memory => (none, { m with memory })
  | .branch => some (none, { m with ip := n })
  | .branchIfZero => some (none, if m.accumulator = 0 then { m with ip := n } else m)
  | .branchIfNotNegative => some (none, if 0 ≤ m.accumulator then { m with ip := n } else m)

/-- Executes a word, its last two digits being the number of a cell. -/
def executeByNumber? (m : Machine) (word : Word) : Option (Option Fault × Machine) :=
  if word < 0 then some (some .instructionInvalid, m)
  else
    match Operation.ofDigit? (word.toInt.tdiv 100).toNat with
    | some operation => m.performByNumber? operation (word.toInt.tmod 100)
    | none => some (m.execute word)

/-- One tick of a machine that asks for its cells by number: nothing if a cell is not there. -/
def tickByNumber? (m : Machine) : Option (Outcome × Machine) :=
  if m.halted then some (.halted, m)
  else if m.outOfTicks then some (.failed (.running m.ip 0 .tickLimit), m)
  else if m.ip < 0 ∨ 100 ≤ m.ip then some (.failed (.running m.ip 0 .ipOverflow), m)
  else
    (m.memory.cell? m.ip).bind fun word =>
      ((m.stepPast word).executeByNumber? word).map fun
        | (none, after) => (if after.halted then .halted else .running, after)
        | (some fault, after) => (.failed (.running m.ip word fault), after)

theorem performByNumber?_val (m : Machine) (operation : Operation) (address : Address) :
    m.performByNumber? operation address.val = some (m.performAddressed operation address) := by
  cases operation <;>
    simp only [performByNumber?, Memory.cell?, Memory.put?, Address.ofInt?_val, Option.map_some] <;> rfl

/-- The digits of an addressed instruction's word are those of its operation and of its cell. -/
theorem executeByNumber?_eq_execute (m : Machine) (word : Word) :
    m.executeByNumber? word = some (m.execute word) := by
  unfold executeByNumber?
  by_cases hnegative : word < 0
  · have hinvalid : Instruction.decode? word = none := if_pos hnegative
    simp [hnegative, execute, hinvalid]
  · rw [if_neg hnegative]
    rw [Int16.lt_iff_toInt_lt, Int16.toInt_zero] at hnegative
    cases hoperation : Operation.ofDigit? (word.toInt.tdiv 100).toNat with
    | none => rfl
    | some operation =>
      rw [Operation.ofDigit?_eq_some_iff] at hoperation
      have hdiv : word.toInt.tdiv 100 = word.toInt / 100 := Int.tdiv_eq_ediv_of_nonneg (by omega)
      have hmod : word.toInt.tmod 100 = word.toInt % 100 := Int.tmod_eq_emod_of_nonneg (by omega)
      obtain ⟨address, -, haddress⟩ :=
        Address.ofInt?_of_mem (n := word.toInt % 100) (by omega) (by omega)
      have hword : (Instruction.addressed operation address).encode = word := by
        rw [← Int16.toInt_inj, Instruction.toInt_encode_addressed]
        omega
      have hdecode := Instruction.decode?_eq_some_iff.mpr hword
      dsimp only
      rw [hmod, ← haddress, performByNumber?_val]
      simp only [execute, hdecode, perform]

theorem tickByNumber?_eq_tick (m : Machine) : m.tickByNumber? = some m.tick := by
  unfold tickByNumber? tick
  cases hhalted : m.halted with
  | true => rfl
  | false =>
    cases hspent : m.outOfTicks with
    | true => rfl
    | false =>
      by_cases hip : m.ip < 0 ∨ 100 ≤ m.ip
      · have hoff : Address.ofInt? m.ip = none := Address.ofInt?_of_not_mem (by omega)
        simp [hip, hoff]
      · obtain ⟨address, hcell, -⟩ := Address.ofInt?_of_mem (n := m.ip) (by omega) (by omega)
        simp only [Bool.false_eq_true, if_false, if_neg hip, hcell, Memory.cell?, Option.map_some,
          Option.bind_some, executeByNumber?_eq_execute]
        rfl

/-- After any history a machine is within bounds, and no tick from there on asks for a cell that the memory
does not have. A run of the history that has no limit is one that was broken off after the ticks of its budget;
ticks in any number are part of histories too. -/
theorem sound_after_any_history (tape : Tape) (verbose : Bool) (actions : List Action) :
    (actions.foldl act { tape, verbose }).Sound ∧
      ∀ k, ((actions.foldl act { tape, verbose }).after k).tickByNumber? =
        some ((actions.foldl act { tape, verbose }).after k).tick := by
  have hstart : Sound { tape, verbose } := (sound_reset { verbose }).connect tape
  exact ⟨hstart.acts actions, fun k => tickByNumber?_eq_tick _⟩

end Machine

end LittleMan
