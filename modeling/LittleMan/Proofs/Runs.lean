import LittleMan.Proofs.CommandMachine

/-!
# Runs and their limits

A run ticks until a tick halts or fails, and nothing in the loop itself bounds it. `Ends` says what such a
loop comes to for anything that steps, and a limited machine is shown to come to an end: each tick either
ends the run or uses up one of the ticks that are left. Since a tick that is refused changes nothing, a
higher limit takes up a run where a lower one stopped it.
-/

namespace LittleMan

/-! ### Loops of steps -/

/-- `n` steps go on, and the step behind them ends the loop with this outcome. -/
inductive Ends {σ : Type} (step : σ → Outcome × σ) : σ → Nat → Outcome → σ → Prop where
  | last {s t : σ} {outcome : Outcome} (hstep : step s = (outcome, t)) (hdone : outcome ≠ .running) :
    Ends step s 0 outcome t
  | more {s t u : σ} {n : Nat} {outcome : Outcome} (hstep : step s = (.running, t))
    (hrest : Ends step t n outcome u) : Ends step s (n + 1) outcome u

namespace Ends

variable {σ τ : Type} {step : σ → Outcome × σ} {step' : τ → Outcome × τ}

theorem ne_running {s t : σ} {n : Nat} {outcome : Outcome} (h : Ends step s n outcome t) :
    outcome ≠ .running := by
  induction h with
  | last _ hdone => exact hdone
  | more _ _ ih => exact ih

theorem unique {s t t' : σ} {n n' : Nat} {outcome outcome' : Outcome} (h : Ends step s n outcome t)
    (h' : Ends step s n' outcome' t') : n = n' ∧ outcome = outcome' ∧ t = t' := by
  induction h generalizing n' with
  | last hstep hdone =>
    cases h' with
    | last hstep' _ =>
      rw [hstep] at hstep'
      cases hstep'
      exact ⟨rfl, rfl, rfl⟩
    | more hstep' _ =>
      rw [hstep] at hstep'
      cases hstep'
      exact absurd rfl hdone
  | more hstep _ ih =>
    cases h' with
    | last hstep' hdone' =>
      rw [hstep] at hstep'
      cases hstep'
      exact absurd rfl hdone'
    | more hstep' hrest' =>
      rw [hstep] at hstep'
      cases hstep'
      obtain ⟨rfl, houtcome, hlast⟩ := ih hrest'
      exact ⟨rfl, houtcome, hlast⟩

/-- Related loops end alike, if a relation is kept by every step whose outcome has a property that holds
of steps that go on and of the last one. -/
theorem transfer {R : σ → τ → Prop} {P : Outcome → Prop} (hrunning : P .running)
    (hstep : ∀ {s t u outcome}, R s u → step s = (outcome, t) → P outcome →
      ∃ v, step' u = (outcome, v) ∧ R t v)
    {s t : σ} {u : τ} {n : Nat} {outcome : Outcome} (h : Ends step s n outcome t) (hlast : P outcome)
    (hrel : R s u) : ∃ v, Ends step' u n outcome v ∧ R t v := by
  induction h generalizing u with
  | last hs hdone =>
    obtain ⟨v, hu, hv⟩ := hstep hrel hs hlast
    exact ⟨v, .last hu hdone, hv⟩
  | more hs _ ih =>
    obtain ⟨v, hu, hv⟩ := hstep hrel hs hrunning
    obtain ⟨w, hrest, hw⟩ := ih hlast hv
    exact ⟨w, .more hu hrest, hw⟩

/-- The steps of a loop, one by one. -/
theorem iterate {s t : σ} {n : Nat} {outcome : Outcome} (h : Ends step s n outcome t) :
    (∀ k < n, (step ((fun s => (step s).2)^[k] s)).1 = .running) ∧
      step ((fun s => (step s).2)^[n] s) = (outcome, t) := by
  induction h with
  | last hstep _ => exact ⟨by simp, hstep⟩
  | @more s t u n outcome hstep _ ih =>
    have hnext (k : Nat) : (fun s => (step s).2)^[k + 1] s = (fun s => (step s).2)^[k] t := by
      rw [Function.iterate_succ_apply, hstep]
    refine ⟨fun k hk => ?_, ?_⟩
    · cases k with
      | zero => exact congrArg Prod.fst hstep
      | succ k =>
        rw [hnext]
        exact ih.1 k (by omega)
    · rw [hnext]
      exact ih.2

end Ends

/-! ### The word that a tick executes -/

/-- What executing a word does to a state, and how it comes out. -/
def State.obeyWord (s : State) (word : Word) : Outcome × State :=
  match Instruction.decode? word with
  | some i => ((i.outcome (i.obey s).1).locate s.ip word, (i.obey s).2)
  | none => (.failed (.running s.ip word .instructionInvalid), s.advance)

namespace Machine

/-- The word that the next tick executes, if it executes one. -/
def word? (m : Machine) : Option Word :=
  if m.halted || m.outOfTicks then none else (Address.ofInt? m.ip).map m.memory.get

variable {m m' : Machine} {word : Word}

theorem word?_eq_some_iff : m.word? = some word ↔
    m.halted = false ∧ m.outOfTicks = false ∧
      ∃ address : Address, m.ip = address.val ∧ m.memory.get address = word := by
  unfold word?
  cases hhalted : m.halted with
  | true => simp
  | false =>
    cases hspent : m.outOfTicks with
    | true => simp
    | false =>
      simp only [Bool.or_self, Bool.false_eq_true, if_false, Option.map_eq_some_iff, true_and]
      constructor
      · rintro ⟨address, haddress, hword⟩
        exact ⟨address, Address.val_of_ofInt? haddress, hword⟩
      · rintro ⟨address, hip, hword⟩
        exact ⟨address, hip ▸ Address.ofInt?_val address, hword⟩

/-- A tick that executes nothing changes nothing. -/
theorem tick_of_no_word (h : m.word? = none) :
    m.tick =
      (if m.halted then .halted
        else .failed (.running m.ip 0 (if m.outOfTicks then .tickLimit else .ipOverflow)), m) := by
  unfold word? at h
  unfold tick
  cases hhalted : m.halted with
  | true => rfl
  | false =>
    cases hspent : m.outOfTicks with
    | true => rfl
    | false =>
      have hoff : Address.ofInt? m.ip = none := by simpa [hhalted, hspent] using h
      simp [hoff]

/-- A tick that executes a word does what the word means, counts itself, and leaves what a program
cannot see as it is, but for the note of a verbose machine. -/
theorem tick_of_word (h : m.word? = some word) :
    Prod.map id state m.tick = m.state.obeyWord word ∧
    m.tick.2 =
      { m.stepPast word with
        memory := m.tick.2.memory
        accumulator := m.tick.2.accumulator
        ip := m.tick.2.ip
        halted := m.tick.2.halted
        tape := m.tick.2.tape } := by
  obtain ⟨hrunning, hspent, address, hip, rfl⟩ := word?_eq_some_iff.mp h
  have hticks : m.maxTicks ≤ 0 ∨ m.ticks < m.maxTicks := by
    simp only [outOfTicks, Bool.and_eq_false_iff, decide_eq_false_iff_not] at hspent
    exact hspent.imp Int64.not_lt.mp Int64.not_le.mp
  unfold State.obeyWord
  change Prod.map id state m.tick =
    (match Instruction.decode? m.memory[address] with | some _ => _ | none => _) ∧ _
  cases hi : Instruction.decode? m.memory[address] with
  | none =>
    rw [tick_of_not_decode hrunning hticks hip hi]
    exact ⟨rfl, rfl⟩
  | some i =>
    have hstate := congrArg Prod.snd (state_perform m m.memory[address] i)
    rw [tick_of_decode hrunning hticks hip hi]
    exact ⟨Prod.ext rfl hstate, perform_frame (m.stepPast m.memory[address]) i⟩

theorem state_tick_of_word (h : m.word? = some word) : m.tick.2.state = (m.state.obeyWord word).2 :=
  congrArg Prod.snd (tick_of_word h).1

theorem outcome_tick_of_word (h : m.word? = some word) : m.tick.1 = (m.state.obeyWord word).1 :=
  congrArg Prod.fst (tick_of_word h).1

theorem frame_tick_of_word (h : m.word? = some word) :
    m.tick.2.image = m.image ∧ m.tick.2.ticks = m.ticks + 1 ∧ m.tick.2.maxTicks = m.maxTicks ∧
      m.tick.2.verbose = m.verbose ∧ m.tick.2.trace = (m.stepPast word).trace := by
  rw [(tick_of_word h).2]
  exact ⟨rfl, rfl, rfl, rfl, rfl⟩

@[simp] theorem maxTicks_tick (m : Machine) : m.tick.2.maxTicks = m.maxTicks := by
  cases h : m.word? with
  | none => rw [tick_of_no_word h]
  | some word => exact (frame_tick_of_word h).2.2.1

theorem exists_word_of_running (h : m.tick.1 = .running) : ∃ word, m.word? = some word := by
  cases hword : m.word? with
  | some word => exact ⟨word, rfl⟩
  | none =>
    rw [tick_of_no_word hword] at h
    dsimp only at h
    split at h <;> cases h

end Machine

namespace State

variable {s : State} {word : Word}

theorem halted_obeyWord (hrunning : s.halted = false) :
    (s.obeyWord word).2.halted = decide (Instruction.decode? word = some .halt) := by
  unfold obeyWord
  cases Instruction.decode? word with
  | none => simp [advance, hrunning]
  | some i => simp [Instruction.halted_obey, hrunning]

theorem obeyWord_eq_halted_iff :
    (s.obeyWord word).1 = .halted ↔ Instruction.decode? word = some .halt := by
  unfold obeyWord
  cases Instruction.decode? word with
  | none => simp
  | some i =>
    by_cases hhalt : i = .halt
    · subst hhalt
      simp [Instruction.outcome, Instruction.obey, Outcome.locate]
    · cases hfault : (i.obey s).1 <;> simp [hfault, Instruction.outcome, Outcome.locate, hhalt]

/-- Where a word fails, and why. -/
theorem obeyWord_failed {fault : Fault} (h : (s.obeyWord word).1 = .failed fault) :
    ∃ cause, fault = .running s.ip word cause ∧
      ((Instruction.decode? word = none ∧ cause = .instructionInvalid) ∨
        ∃ i, Instruction.decode? word = some i ∧ (i.obey s).1 = some cause) := by
  unfold obeyWord at h
  cases hi : Instruction.decode? word with
  | none =>
    rw [hi] at h
    cases h
    exact ⟨_, rfl, .inl ⟨rfl, rfl⟩⟩
  | some i =>
    rw [hi] at h
    dsimp only at h
    cases hfault : (i.obey s).1 with
    | none =>
      rw [hfault] at h
      by_cases hhalt : i = .halt <;> simp [Instruction.outcome, hhalt, Outcome.locate] at h
    | some cause =>
      rw [hfault] at h
      cases h
      exact ⟨cause, rfl, .inr ⟨i, rfl, hfault⟩⟩

/-- A cause that is neither an instruction's own nor that of a word without an instruction comes from what
the tape is connected to. -/
theorem mem_outerFaults_of_bare {cause : Fault} (h : (s.obeyWord word).1.bare = .failed cause)
    (hown : cause.isInstructions = false) (hvalid : cause ≠ .instructionInvalid) :
    cause ∈ s.tape.outerFaults := by
  cases houtcome : (s.obeyWord word).1 with
  | running =>
    rw [houtcome] at h
    cases h
  | halted =>
    rw [houtcome] at h
    cases h
  | failed fault =>
    obtain ⟨found, rfl, hfound⟩ := obeyWord_failed houtcome
    rw [houtcome] at h
    obtain rfl : found = cause := Outcome.failed.inj h
    rcases hfound with ⟨-, hinvalid⟩ | ⟨i, -, hobey⟩
    · exact absurd hinvalid hvalid
    · rcases Instruction.obey_fault hobey with houter | hinstruction
      · exact houter
      · rw [hown] at hinstruction
        cases hinstruction

theorem outerFaults_obeyWord {fault : Fault} (h : fault ∈ (s.obeyWord word).2.tape.outerFaults) :
    fault ∈ s.tape.outerFaults ∨ fault = .tokenTooLong := by
  unfold obeyWord at h
  cases hi : Instruction.decode? word with
  | none =>
    rw [hi] at h
    exact .inl h
  | some i =>
    rw [hi] at h
    exact Instruction.outerFaults_obey h

end State

/-! ### The end of a limited run -/

/-- A tick was refused because none was left. No word was fetched for it, so the fault names zero. -/
def Outcome.RanOut (outcome : Outcome) : Prop := ∃ ip, outcome = .failed (.running ip 0 .tickLimit)

/-- A word that is executed is never refused for want of ticks: the word zero halts. -/
theorem State.obeyWord_not_ranOut (s : State) (word : Word) : ¬ (s.obeyWord word).1.RanOut := by
  rintro ⟨ip, hfailed⟩
  obtain ⟨cause, hfault, -⟩ := obeyWord_failed hfailed
  cases hfault
  have hhalts : (s.obeyWord 0).1 = .halted := obeyWord_eq_halted_iff.mpr rfl
  rw [hfailed] at hhalts
  cases hhalts

namespace Machine

variable {m : Machine} {word : Word}

theorem tick_of_halted (h : m.halted = true) : m.tick = (.halted, m) := if_pos h

theorem tick_eq_halted_iff :
    m.tick.1 = .halted ↔ m.halted = true ∨ m.word? = some Instruction.halt.encode := by
  cases hword : m.word? with
  | none =>
    rw [tick_of_no_word hword]
    cases m.halted <;> simp
  | some word =>
    rw [outcome_tick_of_word hword, State.obeyWord_eq_halted_iff, Instruction.decode?_eq_some_iff,
      (word?_eq_some_iff.mp hword).1]
    simp [eq_comm]

theorem halted_tick_iff : m.tick.2.halted = true ↔ m.tick.1 = .halted := by
  cases hword : m.word? with
  | none =>
    rw [tick_of_no_word hword]
    cases m.halted <;> simp
  | some word =>
    have hstate : m.tick.2.halted = (m.state.obeyWord word).2.halted :=
      congrArg State.halted (state_tick_of_word hword)
    rw [hstate, State.halted_obeyWord (word?_eq_some_iff.mp hword).1, decide_eq_true_iff,
      outcome_tick_of_word hword, State.obeyWord_eq_halted_iff]

theorem tick_ranOut_iff : m.tick.1.RanOut ↔ m.halted = false ∧ m.outOfTicks = true := by
  cases hword : m.word? with
  | none =>
    rw [tick_of_no_word hword]
    cases m.halted <;> cases m.outOfTicks <;> simp [Outcome.RanOut]
  | some word =>
    refine iff_of_false ?_ ?_
    · rw [outcome_tick_of_word hword]
      exact State.obeyWord_not_ranOut _ _
    · simp [(word?_eq_some_iff.mp hword).2.1]

/-- The instructions that a limited machine can still execute. -/
def ticksLeft (m : Machine) : Nat := (m.maxTicks.toInt - m.ticks.toInt).toNat

/-- The words that are executed in a number of ticks. -/
def executed (m : Machine) (n : Nat) : List Word := (List.range n).filterMap fun k => (m.after k).word?

/-- What is picked out of a tick more stands behind what was picked out before. -/
theorem filterMap_range_succ {α : Type} (pick : Nat → Option α) (n : Nat) :
    (List.range (n + 1)).filterMap pick = (List.range n).filterMap pick ++ (pick n).toList := by
  rw [List.range_succ, List.filterMap_append]
  cases h : pick n <;> simp [h]

theorem executed_succ (m : Machine) (n : Nat) :
    m.executed (n + 1) = m.executed n ++ (m.after n).word?.toList :=
  filterMap_range_succ _ n

theorem after_succ (m : Machine) (n : Nat) : m.after (n + 1) = (m.after n).tick.2 :=
  Function.iterate_succ_apply' _ n m

theorem outOfTicks_iff_ticksLeft (hlimit : 0 < m.maxTicks) : m.outOfTicks = true ↔ m.ticksLeft = 0 := by
  unfold outOfTicks ticksLeft
  rw [Bool.and_eq_true, decide_eq_true_iff, decide_eq_true_iff, Int64.le_iff_toInt_le]
  constructor
  · rintro ⟨-, hspent⟩
    omega
  · intro hleft
    exact ⟨hlimit, by omega⟩

/-- A tick that executes a word uses up one of those that are left, and counts it. -/
theorem ticks_of_word (hlimit : 0 < m.maxTicks) (h : m.word? = some word) :
    m.tick.2.ticks.toInt = m.ticks.toInt + 1 ∧ m.ticksLeft = m.tick.2.ticksLeft + 1 := by
  have hspent : ¬ m.ticksLeft = 0 := by
    rw [← outOfTicks_iff_ticksLeft hlimit, (word?_eq_some_iff.mp h).2.1]
    simp
  have hroom : m.ticks ≠ Int64.maxValue := by
    intro hmax
    have hmost := m.maxTicks.toInt_lt
    unfold ticksLeft at hspent
    rw [hmax, Int64.toInt_maxValue] at hspent
    omega
  have hcount : m.tick.2.ticks.toInt = m.ticks.toInt + 1 := by
    rw [(frame_tick_of_word h).2.1, toInt_add_one hroom]
  refine ⟨hcount, ?_⟩
  unfold ticksLeft at hspent ⊢
  rw [maxTicks_tick, hcount]
  omega

theorem exists_ends (hlimit : 0 < m.maxTicks) :
    ∃ n outcome last, n ≤ m.ticksLeft ∧ Ends tick m n outcome last := by
  -- A tick after which the run goes on has executed a word, so one tick less is left for the rest.
  induction hleft : m.ticksLeft generalizing m with
  | zero =>
    have hspent := (outOfTicks_iff_ticksLeft hlimit).mpr hleft
    have hnone : m.word? = none := by simp [word?, hspent]
    refine ⟨0, m.tick.1, m.tick.2, Nat.le_refl 0, .last rfl fun hrunning => ?_⟩
    obtain ⟨word, hword⟩ := exists_word_of_running hrunning
    rw [hnone] at hword
    cases hword
  | succ left ih =>
    by_cases hrunning : m.tick.1 = .running
    · obtain ⟨word, hword⟩ := exists_word_of_running hrunning
      have hrest := (ticks_of_word hlimit hword).2
      obtain ⟨n, outcome, last, hn, hends⟩ := ih (m := m.tick.2) (by simpa using hlimit) (by omega)
      exact ⟨n + 1, outcome, last, by omega, .more (Prod.ext hrunning rfl) hends⟩
    · exact ⟨0, m.tick.1, m.tick.2, Nat.zero_le _, .last rfl hrunning⟩

theorem runFor_of_ends {n count : Nat} {outcome : Outcome} {last : Machine}
    (h : Ends tick m n outcome last) (hcount : n < count) : runFor count m = (outcome, last) := by
  induction h generalizing count with
  | last hstep hdone =>
    obtain ⟨count, rfl⟩ := Nat.exists_eq_add_of_lt hcount
    rw [Nat.zero_add, runFor, hstep]
    cases outcome <;> simp_all
  | more hstep _ ih =>
    cases count with
    | zero => omega
    | succ count =>
      rw [runFor, hstep]
      exact ih (by omega)

/-- The run of a limited machine is the loop of its ticks. -/
theorem ends_run (hlimit : 0 < m.maxTicks) : ∃ n ≤ m.ticksLeft, Ends tick m n m.run.1 m.run.2 := by
  obtain ⟨n, outcome, last, hn, hends⟩ := exists_ends hlimit
  have hrun : m.run = (outcome, last) := by
    unfold run
    apply runFor_of_ends hends
    rw [budget, if_pos hlimit]
    exact Nat.lt_succ_of_le hn
  rw [hrun]
  exact ⟨n, hn, hends⟩

theorem run_of_ends (hlimit : 0 < m.maxTicks) {n : Nat} {outcome : Outcome} {last : Machine}
    (h : Ends tick m n outcome last) : m.run = (outcome, last) := by
  obtain ⟨n', -, hends⟩ := ends_run hlimit
  obtain ⟨-, houtcome, hlast⟩ := hends.unique h
  exact Prod.ext houtcome hlast

theorem executed_succ' (m : Machine) (n : Nat) :
    m.executed (n + 1) = m.word?.toList ++ m.tick.2.executed n := by
  unfold executed
  rw [List.range_succ_eq_map, List.filterMap_cons, List.filterMap_map, show m.after 0 = m from rfl]
  cases m.word? <;> rfl

@[simp] theorem maxTicks_after (m : Machine) (n : Nat) : (m.after n).maxTicks = m.maxTicks := by
  induction n with
  | zero => rfl
  | succ n ih => rw [after_succ, maxTicks_tick, ih]

/-- Every executed word is counted, and is one of those that were left. -/
theorem ticks_after (hlimit : 0 < m.maxTicks) (n : Nat) :
    (m.after n).ticks.toInt = m.ticks.toInt + (m.executed n).length ∧
      m.ticksLeft = (m.after n).ticksLeft + (m.executed n).length := by
  induction n with
  | zero => exact ⟨(Int.add_zero _).symm, rfl⟩
  | succ n ih =>
    rw [after_succ, executed_succ]
    cases hword : (m.after n).word? with
    | none =>
      rw [tick_of_no_word hword]
      simpa using ih
    | some word =>
      have hcount := ticks_of_word (by simpa using hlimit) hword
      simp only [Option.toList_some, List.length_append, List.length_singleton]
      omega

end Machine

namespace Ends

open Machine

variable {m last : Machine} {n : Nat} {outcome : Outcome}

theorem after_eq (h : Ends tick m n outcome last) : m.after (n + 1) = last := by
  rw [after_succ]
  exact congrArg Prod.snd h.iterate.2

/-- A run comes out halted if the machine was halted before or the run executes the word for halting. -/
theorem eq_halted_iff (h : Ends tick m n outcome last) :
    outcome = .halted ↔ m.halted = true ∨ Instruction.halt.encode ∈ m.executed (n + 1) := by
  induction h with
  | @last m last outcome hstep hdone =>
    have houtcome : m.tick.1 = outcome := congrArg Prod.fst hstep
    rw [← houtcome, tick_eq_halted_iff, executed_succ']
    simp [executed]
  | @more m next last n outcome hstep hrest ih =>
    obtain rfl : m.tick.2 = next := congrArg Prod.snd hstep
    have hrunning : m.tick.1 = .running := congrArg Prod.fst hstep
    have hnot : ¬ (m.halted = true ∨ m.word? = some Instruction.halt.encode) := by
      rw [← tick_eq_halted_iff, hrunning]
      simp
    have hnext : ¬ m.tick.2.halted = true := by
      rw [halted_tick_iff, hrunning]
      simp
    rw [ih, executed_succ' m, List.mem_append, Option.mem_toList, ← or_assoc,
      or_iff_right hnext, or_iff_right hnot]

/-- A run is stopped by the limit if as many instructions as were left did neither halt nor fail. -/
theorem ranOut_iff (h : Ends tick m n outcome last) (hlimit : 0 < m.maxTicks) :
    outcome.RanOut ↔ m.halted = false ∧ ∀ k < m.ticksLeft, (m.after k).tick.1 = .running := by
  induction h with
  | @last m last outcome hstep hdone =>
    have houtcome : m.tick.1 = outcome := congrArg Prod.fst hstep
    have hfirst : (∀ k < m.ticksLeft, (m.after k).tick.1 = .running) ↔ m.ticksLeft = 0 := by
      constructor
      · intro hall
        by_contra hleft
        exact hdone (houtcome ▸ hall 0 (by omega))
      · intro hleft k hk
        omega
    rw [hfirst, ← outOfTicks_iff_ticksLeft hlimit, ← houtcome, tick_ranOut_iff]
  | @more m next last n outcome hstep hrest ih =>
    obtain rfl : m.tick.2 = next := congrArg Prod.snd hstep
    have hrunning : m.tick.1 = .running := congrArg Prod.fst hstep
    obtain ⟨word, hword⟩ := exists_word_of_running hrunning
    have hnext : m.tick.2.halted = false := by
      rw [← Bool.not_eq_true, halted_tick_iff, hrunning]
      simp
    rw [ih (by simpa using hlimit), hnext, (word?_eq_some_iff.mp hword).1,
      (ticks_of_word hlimit hword).2, Nat.forall_lt_succ_left]
    exact and_congr_right fun _ => (and_iff_right hrunning).symm

/-- A run that the limit stops leaves the machine as the refused tick found it, without a tick. -/
theorem of_ranOut (h : Ends tick m n outcome last) (hranOut : outcome.RanOut) :
    last = m.after n ∧ last.outOfTicks = true := by
  have hlast : (m.after n).tick = (outcome, last) := h.iterate.2
  have hspent : (m.after n).halted = false ∧ (m.after n).outOfTicks = true := by
    rw [← tick_ranOut_iff, hlast]
    exact hranOut
  have hword : (m.after n).word? = none := by simp [word?, hspent.2]
  have hsame : last = m.after n := by
    rw [tick_of_no_word hword] at hlast
    exact (congrArg Prod.snd hlast).symm
  exact ⟨hsame, hsame ▸ hspent.2⟩

/-- Unless what the tape is connected to reports that very fault, a run fails for want of ticks only if it
was refused one. -/
theorem bare_eq_tickLimit_iff (h : Ends tick m n outcome last)
    (htape : .tickLimit ∉ m.tape.outerFaults) :
    outcome.bare = .failed .tickLimit ↔ outcome.RanOut := by
  induction h with
  | @last m last outcome hstep hdone =>
    obtain rfl : m.tick.1 = outcome := congrArg Prod.fst hstep
    cases hword : m.word? with
    | none =>
      rw [tick_of_no_word hword]
      cases m.halted <;> cases m.outOfTicks <;> simp [Outcome.RanOut, Outcome.bare]
    | some word =>
      rw [outcome_tick_of_word hword]
      refine iff_of_false (fun hbare => ?_) (State.obeyWord_not_ranOut _ _)
      exact htape (State.mem_outerFaults_of_bare hbare rfl (by simp))
  | @more m next last n outcome hstep hrest ih =>
    obtain rfl : m.tick.2 = next := congrArg Prod.snd hstep
    obtain ⟨word, hword⟩ := exists_word_of_running (congrArg Prod.fst hstep)
    apply ih
    intro hmem
    have htapes : m.tick.2.tape = (m.state.obeyWord word).2.tape :=
      congrArg State.tape (state_tick_of_word hword)
    rcases State.outerFaults_obeyWord (htapes ▸ hmem) with hold | hlong
    · exact htape hold
    · cases hlong

end Ends

namespace Machine

/-- A limited run ends, and the ticks that are left bound the instructions that it executes. It comes out
halted exactly if the machine was halted or one of these instructions halts it, be it the last that the
limit allows. It runs out of ticks exactly if all of them are used up without halting or failing; its
cause tells so, unless the tape is connected to something that reports that very cause. The count of
ticks is exact throughout, so it never wraps. -/
theorem run_keeps_tick_budget (m : Machine) (hlimit : 0 < m.maxTicks) :
    ∃ n, Ends tick m n m.run.1 m.run.2 ∧
      (m.executed (n + 1)).length ≤ m.ticksLeft ∧
      (m.run.1 = .halted ↔ m.halted = true ∨ Instruction.halt.encode ∈ m.executed (n + 1)) ∧
      (m.run.1 = .halted → m.run.2.halted = true) ∧
      (m.run.1.RanOut ↔ m.halted = false ∧ (m.executed (n + 1)).length = m.ticksLeft ∧
        ∀ k < m.ticksLeft, (m.after k).tick.1 = .running) ∧
      (m.run.1.RanOut → m.run.2.ticks.toInt = max m.ticks.toInt m.maxTicks.toInt) ∧
      (∀ k ≤ n + 1, (m.after k).ticks.toInt = m.ticks.toInt + (m.executed k).length ∧
        (m.after k).ticks.toInt ≤ max m.ticks.toInt m.maxTicks.toInt) ∧
      (.tickLimit ∉ m.tape.outerFaults →
        (m.run.1.bare = .failed .tickLimit ↔ m.run.1.RanOut)) := by
  obtain ⟨n, -, h⟩ := ends_run hlimit
  have hcount := ticks_after hlimit (n + 1)
  rw [h.after_eq] at hcount
  have hspent (hranOut : m.run.1.RanOut) : m.run.2.ticksLeft = 0 := by
    have hends := h.of_ranOut hranOut
    rw [← outOfTicks_iff_ticksLeft (by rw [hends.1, maxTicks_after]; exact hlimit)]
    exact hends.2
  refine ⟨n, h, by omega, h.eq_halted_iff, ?_, ?_, ?_, ?_, h.bare_eq_tickLimit_iff⟩
  · intro hhalted
    have hlast : (m.after n).tick = (m.run.1, m.run.2) := h.iterate.2
    have hiff := halted_tick_iff (m := m.after n)
    rw [hlast] at hiff
    exact hiff.mpr hhalted
  · rw [h.ranOut_iff hlimit]
    constructor
    · intro hall
      have hzero := hspent ((h.ranOut_iff hlimit).mpr hall)
      exact ⟨hall.1, by omega, hall.2⟩
    · rintro ⟨hrunning, -, hall⟩
      exact ⟨hrunning, hall⟩
  · intro hranOut
    have hzero := hspent hranOut
    unfold ticksLeft at hcount hzero
    omega
  · intro k _
    have hk := ticks_after hlimit k
    unfold ticksLeft at hk
    omega

/-- Loads a number and halts with the last tick that it has. -/
def closing : Machine where
  memory := Memory.ofWords [503, 0, 0, 7]
  maxTicks := 2

theorem run_closing :
    0 < closing.maxTicks ∧ closing.ticksLeft = 2 ∧ closing.run.1 = .halted ∧
      closing.run.2.halted = true ∧
      ∃ n, Ends tick closing n .halted closing.run.2 ∧ (closing.executed (n + 1)).length ≤ 2 ∧
        (closing.after (n + 1)).ticks.toInt ≤ 2 := by
  obtain ⟨n, hends, hlength, -, hhalted, -, -, hticks, -⟩ := run_keeps_tick_budget closing (by decide)
  have houtcome : closing.run.1 = .halted := by decide
  rw [houtcome] at hends
  refine ⟨by decide, by decide, houtcome, hhalted houtcome, n, hends, ?_, ?_⟩
  · exact Nat.le_trans hlength (by decide)
  · exact Int.le_trans (hticks (n + 1) (Nat.le_refl _)).2 (by decide)

/-! ### Other limits -/

/-- The machine under another limit. -/
def limitTo (m : Machine) (limit : Int64) : Machine := { m with maxTicks := limit }

theorem eq_of_state {m m' : Machine} (hstate : m.state = m'.state) (himage : m.image = m'.image)
    (hticks : m.ticks = m'.ticks) (hlimit : m.maxTicks = m'.maxTicks) (hverbose : m.verbose = m'.verbose)
    (htrace : m.trace = m'.trace) : m = m' := by
  have haccumulator : m.accumulator = m'.accumulator :=
    Int16.toInt_inj.mp (congrArg State.accumulator hstate)
  have hip : m.ip = m'.ip := congrArg State.ip hstate
  have hhalted : m.halted = m'.halted := congrArg State.halted hstate
  have htape : m.tape = m'.tape := congrArg State.tape hstate
  have hmemory : m.memory = m'.memory := by
    apply Vector.ext
    intro i hi
    exact Int16.toInt_inj.mp (congrFun (congrArg State.store hstate) ⟨i, hi⟩)
  cases m
  cases m'
  simp_all

/-- A tick that executes a word is known from what the word does to the state. -/
theorem tick_eq_of_obeyWord {m after : Machine} {word : Word} {outcome : Outcome}
    (hword : m.word? = some word) (hobey : m.state.obeyWord word = (outcome, after.state))
    (himage : after.image = m.image) (hticks : after.ticks = m.ticks + 1)
    (hlimit : after.maxTicks = m.maxTicks) (hverbose : after.verbose = m.verbose)
    (htrace : after.trace = (m.stepPast word).trace) : m.tick = (outcome, after) := by
  obtain ⟨himage', hticks', hlimit', hverbose', htrace'⟩ := frame_tick_of_word hword
  have hstate := state_tick_of_word hword
  rw [hobey] at hstate
  apply Prod.ext
  · rw [outcome_tick_of_word hword, hobey]
  · exact eq_of_state hstate (himage'.trans himage.symm) (hticks'.trans hticks.symm)
      (hlimit'.trans hlimit.symm) (hverbose'.trans hverbose.symm) (htrace'.trans htrace.symm)

/-- A higher limit makes no difference to a tick that is not refused for want of ticks. -/
theorem tick_limitTo {m : Machine} {higher : Int64} (hle : m.maxTicks ≤ higher) (hpos : 0 < m.maxTicks)
    (hgoes : ¬ m.tick.1.RanOut) :
    (m.limitTo higher).tick = (m.tick.1, m.tick.2.limitTo higher) := by
  cases hhalted : m.halted with
  | true =>
    rw [tick_of_halted hhalted]
    exact tick_of_halted hhalted
  | false =>
    have hleft : m.outOfTicks = false := by
      rw [← Bool.not_eq_true]
      exact fun hspent => hgoes (tick_ranOut_iff.mpr ⟨hhalted, hspent⟩)
    have hbelow : m.ticks < m.maxTicks := by
      simpa [outOfTicks, hpos] using hleft
    have hleft' : (m.limitTo higher).outOfTicks = false :=
      outOfTicks_eq_false (.inr (Int64.lt_of_lt_of_le hbelow hle))
    have hsame : (m.limitTo higher).word? = m.word? := by
      unfold word?
      rw [hleft, hleft']
      rfl
    cases hword : m.word? with
    | none =>
      rw [tick_of_no_word (hsame.trans hword), tick_of_no_word hword, hleft, hleft']
      rfl
    | some word =>
      obtain ⟨himage, hticks, -, hverbose, htrace⟩ := frame_tick_of_word hword
      have hobey := (tick_of_word hword).1
      exact tick_eq_of_obeyWord (hsame.trans hword) hobey.symm himage hticks rfl hverbose htrace

/-- A machine under a limit, and the same machine under a higher one. -/
structure Raised (higher : Int64) (m raised : Machine) : Prop where
  eq : raised = m.limitTo higher
  pos : 0 < m.maxTicks
  le : m.maxTicks ≤ higher

theorem run_of_running {m : Machine} (hlimit : 0 < m.maxTicks) (h : m.tick.1 = .running) :
    m.run = m.tick.2.run := by
  obtain ⟨n, -, hends⟩ := ends_run (m := m.tick.2) (by simpa using hlimit)
  exact run_of_ends hlimit (.more (Prod.ext h rfl) hends)

end Machine

namespace Ends

open Machine

variable {m last : Machine} {n : Nat} {outcome : Outcome} {higher : Int64}

theorem limitTo (h : Ends tick m n outcome last) (hpos : 0 < m.maxTicks) (hle : m.maxTicks ≤ higher)
    (hgoes : ¬ outcome.RanOut) : Ends tick (m.limitTo higher) n outcome (last.limitTo higher) := by
  have hstep {s t u : Machine} {o : Outcome} (hrel : s.Raised higher u) (hs : s.tick = (o, t))
      (ho : ¬ o.RanOut) : ∃ v, u.tick = (o, v) ∧ t.Raised higher v := by
    obtain ⟨rfl, hpos, hle⟩ := hrel
    have htick := tick_limitTo hle hpos (by rw [hs]; exact ho)
    have hmax := maxTicks_tick s
    rw [hs] at htick hmax
    exact ⟨t.limitTo higher, htick, rfl, hmax.symm ▸ hpos, hmax.symm ▸ hle⟩
  have hrunning : ¬ Outcome.running.RanOut := by simp [Outcome.RanOut]
  have hrel : m.Raised higher (m.limitTo higher) := ⟨rfl, hpos, hle⟩
  obtain ⟨v, hends, hafter⟩ :=
    h.transfer (R := Raised higher) (P := fun o => ¬ o.RanOut) hrunning hstep hgoes hrel
  exact hafter.eq ▸ hends

/-- A run that the limit stopped goes on under a higher limit as if it had not been stopped. -/
theorem resume (h : Ends tick m n outcome last) (hpos : 0 < m.maxTicks) (hle : m.maxTicks ≤ higher)
    (hranOut : outcome.RanOut) : (last.limitTo higher).run = (m.limitTo higher).run := by
  induction h with
  | last hstep hdone =>
    have hsame := (Ends.last hstep hdone).of_ranOut hranOut
    rw [hsame.1]
    rfl
  | @more m next last n outcome hstep hrest ih =>
    have hrunning : m.tick.1 = .running := congrArg Prod.fst hstep
    have hnext : m.tick.2 = next := congrArg Prod.snd hstep
    have hmax : next.maxTicks = m.maxTicks := hnext ▸ maxTicks_tick m
    have htick := tick_limitTo hle hpos (by rw [hrunning]; simp [Outcome.RanOut])
    have hhigher : 0 < (m.limitTo higher).maxTicks := Int64.lt_of_lt_of_le hpos hle
    rw [ih (hmax.symm ▸ hpos) (hmax.symm ▸ hle) hranOut,
      run_of_running hhigher (by rw [htick]; exact hrunning), htick, hnext]

end Ends

namespace Machine

/-- Raising the limit changes nothing about a run that the limit did not stop, and a run that it did stop
can be taken up from where it stopped. What stopped a run is told by its cause, unless the tape is
connected to something that reports that very cause. -/
theorem run_under_higher_limit (m : Machine) (limit higher : Int64) (hpos : 0 < limit)
    (hle : limit ≤ higher) :
    (¬ (m.limitTo limit).run.1.RanOut →
      (m.limitTo higher).run =
        ((m.limitTo limit).run.1, (m.limitTo limit).run.2.limitTo higher)) ∧
    ((m.limitTo limit).run.1.RanOut →
      ((m.limitTo limit).run.2.limitTo higher).run = (m.limitTo higher).run) ∧
    (.tickLimit ∉ m.tape.outerFaults →
      ((m.limitTo limit).run.1.bare = .failed .tickLimit ↔ (m.limitTo limit).run.1.RanOut)) := by
  obtain ⟨n, -, h⟩ := ends_run (m := m.limitTo limit) hpos
  refine ⟨?_, ?_, ?_⟩
  · intro hgoes
    have hhigher : 0 < (m.limitTo higher).maxTicks := Int64.lt_of_lt_of_le hpos hle
    exact run_of_ends hhigher (h.limitTo hpos hle hgoes)
  · intro hranOut
    exact h.resume hpos hle hranOut
  · intro htape
    exact h.bare_eq_tickLimit_iff htape

/-- Doubles a number. -/
def doubling : Machine where
  memory := Memory.ofWords [503, 103, 0, 7]

theorem resume_doubling :
    (0 : Int64) < 2 ∧ (2 : Int64) ≤ 5 ∧ (doubling.limitTo 2).run.1.RanOut ∧
      ((doubling.limitTo 2).run.2.limitTo 5).run.1 = .halted ∧
      ((doubling.limitTo 2).run.2.limitTo 5).run.2.accumulator = 14 := by
  have hranOut : (doubling.limitTo 2).run.1.RanOut := ⟨2, by decide⟩
  have hresume := (run_under_higher_limit doubling 2 5 (by decide)
    (by decide)).2.1 hranOut
  refine ⟨by decide, by decide, hranOut, ?_⟩
  rw [hresume]
  decide

end Machine

end LittleMan
