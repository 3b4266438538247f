import LittleMan.Proofs.Runs

/-!
# What a run writes

A tick reaches the writer only with the word for output, and then with one whole line (`tick_writeTo`,
`tick_writeTo_of_output`). So a run from an empty output leaves the lines of the numbers that it sent. And
with a writer that is full after so many bytes a run does the same as without, up to the first line that no
longer fits, and fails there.
-/

namespace LittleMan

/-! ### Another writer -/

theorem Tape.receive_setOutput (tape : Tape) (writer : Option Writer) :
    (tape.setOutput writer).receive = (tape.receive.1, tape.receive.2.setOutput writer) := by
  unfold receive
  rw [show (tape.setOutput writer).opened? = _ from tape.opened?_withOutput writer]
  cases tape.opened? <;> rfl

namespace State

/-- The state with another writer on its tape. -/
def writeTo (s : State) (writer : Writer) : State := { s with tape := s.tape.setOutput (some writer) }

variable (s : State) (writer : Writer)

theorem take_writeTo (value : Int) :
    (s.writeTo writer).take value = ((s.take value).1, (s.take value).2.writeTo writer) := by
  unfold take
  split <;> rfl

theorem obey_writeTo {i : Instruction} (h : i ≠ .output) :
    i.obey (s.writeTo writer) = ((i.obey s).1, (i.obey s).2.writeTo writer) := by
  cases i with
  | output => exact absurd rfl h
  | halt => rfl
  | input =>
    have hreceive : (s.writeTo writer).tape.receive = _ := s.tape.receive_setOutput (some writer)
    simp only [Instruction.obey, hreceive]
    rcases s.tape.receive with ⟨fault | value, tape⟩
    · rfl
    · exact take_writeTo { s.advance with tape } writer value.toInt
  | addressed operation address =>
    cases operation with
    | load => exact s.advance.take_writeTo writer _
    | add => exact s.advance.take_writeTo writer _
    | subtract => exact s.advance.take_writeTo writer _
    | store => rfl
    | branch => rfl
    | branchIfZero => rfl
    | branchIfNotNegative => rfl

theorem obeyWord_writeTo {word : Word} (h : word ≠ Instruction.output.encode) :
    (s.writeTo writer).obeyWord word = ((s.obeyWord word).1, (s.obeyWord word).2.writeTo writer) := by
  unfold obeyWord
  cases hi : Instruction.decode? word with
  | none => rfl
  | some i =>
    have hother : i ≠ .output := by
      intro houtput
      apply h
      rw [← Instruction.decode?_eq_some_iff.mp hi, houtput]
    dsimp only
    rw [s.obey_writeTo writer hother]
    rfl

end State

namespace Machine

/-- The machine with another writer on its tape. -/
def writeTo (m : Machine) (writer : Writer) : Machine :=
  { m with tape := m.tape.setOutput (some writer) }

variable {m : Machine}

theorem writeTo_eq_self {writer : Writer} (h : m.tape.output = some writer) : m.writeTo writer = m := by
  rw [writeTo, Tape.setOutput, ← h]

/-- What does not write does the same whatever the writer. -/
theorem tick_writeTo (h : m.word? ≠ some Instruction.output.encode) (writer : Writer) :
    (m.writeTo writer).tick = (m.tick.1, m.tick.2.writeTo writer) := by
  have hsame : (m.writeTo writer).word? = m.word? := rfl
  cases hword : m.word? with
  | none =>
    rw [tick_of_no_word (hsame.trans hword), tick_of_no_word hword]
    rfl
  | some word =>
    have hother : word ≠ Instruction.output.encode := by
      intro houtput
      exact h (hword.trans (congrArg some houtput))
    obtain ⟨himage, hticks, hlimit, hverbose, htrace⟩ := frame_tick_of_word hword
    have hobey := m.state.obeyWord_writeTo writer hother
    rw [← outcome_tick_of_word hword, ← state_tick_of_word hword] at hobey
    exact tick_eq_of_obeyWord (hsame.trans hword) hobey himage hticks hlimit hverbose htrace

theorem tick_of_output (h : m.word? = some Instruction.output.encode) :
    m.tick =
      ((Instruction.output.outcome (m.tape.send m.accumulator).1).locate m.ip Instruction.output.encode,
        { m.stepPast Instruction.output.encode with tape := (m.tape.send m.accumulator).2 }) := by
  have hobey : m.state.obeyWord Instruction.output.encode =
      ((Instruction.output.outcome (m.tape.send m.accumulator).1).locate m.ip Instruction.output.encode,
        { m.state.advance with tape := (m.tape.send m.accumulator).2 }) := by
    rw [← Int16.ofInt_toInt m.accumulator]
    rfl
  exact tick_eq_of_obeyWord h hobey rfl rfl rfl rfl rfl

/-- What writes hands the writer one line, and fails if the writer does. -/
theorem tick_writeTo_of_output (h : m.word? = some Instruction.output.encode) (writer : Writer) :
    (m.writeTo writer).tick =
      ((Instruction.output.outcome (writer.write (Tape.line m.accumulator)).1).locate m.ip
          Instruction.output.encode,
        (m.stepPast Instruction.output.encode).writeTo (writer.write (Tape.line m.accumulator)).2) :=
  tick_of_output (m := m.writeTo writer) h

/-! ### What a run sends -/

/-- The number that the next tick sends, if it executes an instruction that sends one. -/
def sends (m : Machine) : List Word :=
  if m.word? = some Instruction.output.encode then [m.accumulator] else []

/-- The numbers that are sent in a number of ticks. -/
def sent (m : Machine) (n : Nat) : List Word := (List.range n).flatMap fun k => (m.after k).sends

theorem sent_succ (m : Machine) (n : Nat) : m.sent (n + 1) = m.sent n ++ (m.after n).sends := by
  simp [sent, List.range_succ]

variable {values : List Word}

theorem took_tick (h : m.tape.Took values) : m.tick.2.tape.Took (values ++ m.sends) := by
  unfold sends
  by_cases hword : m.word? = some Instruction.output.encode
  · rw [if_pos hword, tick_of_output hword]
    exact (h.send m.accumulator).2.1
  · obtain ⟨writer, houtput, htook⟩ := h
    have htick := tick_writeTo hword writer
    rw [writeTo_eq_self houtput] at htick
    rw [if_neg hword, List.append_nil, htick]
    exact ⟨writer, rfl, htook⟩

theorem took_after (h : m.tape.Took values) (n : Nat) :
    (m.after n).tape.Took (values ++ m.sent n) := by
  induction n with
  | zero =>
    change m.tape.Took (values ++ [])
    rwa [List.append_nil]
  | succ n ih =>
    rw [after_succ, sent_succ, ← List.append_assoc]
    exact took_tick ih

/-- A run from an empty tape leaves the lines of what it sent. -/
theorem written_of_ends {last : Machine} {n : Nat} {outcome : Outcome} (h : m.tape.Took [])
    (hends : Ends tick m n outcome last) : last.tape.written = (m.sent (n + 1)).flatMap Tape.line := by
  have htook := took_after h (n + 1)
  rw [hends.after_eq] at htook
  exact htook.written

theorem written_tick (h : m.tape.Took values) :
    m.tick.2.tape.written = m.tape.written ++ m.sends.flatMap Tape.line := by
  rw [(took_tick h).written, h.written, List.flatMap_append]

theorem written_prefix_of_ends {last : Machine} {n : Nat} {outcome : Outcome} (h : m.tape.Took values)
    (hends : Ends tick m n outcome last) : m.tape.written <+: last.tape.written := by
  have htook := took_after h (n + 1)
  rw [hends.after_eq] at htook
  rw [htook.written, h.written, List.flatMap_append]
  exact List.prefix_append _ _

end Machine

/-! ### A writer that gets full -/

namespace Writer

/-- A writer that takes so many bytes in all and has taken a text. -/
def within (bound : Nat) (fault : Fault) (text : Text) : Writer where
  taken := text.toArray
  limit := some bound
  fault := fault

variable {bound : Nat} {text more : Text} (fault : Fault)

theorem write_within_of_le (h : (text ++ more).length ≤ bound) :
    (within bound fault text).write more = (none, within bound fault (text ++ more)) := by
  rw [List.length_append] at h
  have hfits : (within bound fault text).fitting more = more := by
    apply List.take_of_length_le
    simp only [within, List.size_toArray]
    omega
  unfold write
  dsimp only
  rw [hfits, if_pos rfl]
  simp only [within, List.toArray_appendList]

theorem write_within_of_lt (hle : text.length ≤ bound) (hlt : bound < (text ++ more).length) :
    (within bound fault text).write more =
      (some fault, within bound fault ((text ++ more).take bound)) := by
  rw [List.length_append] at hlt
  have hfits : (within bound fault text).fitting more = more.take (bound - text.length) := rfl
  have hshort : (more.take (bound - text.length)).length ≠ more.length := by
    rw [List.length_take]
    omega
  have htake : (text ++ more).take bound = text ++ more.take (bound - text.length) := by
    rw [List.take_append, List.take_of_length_le hle]
  unfold write
  dsimp only
  rw [hfits, if_neg hshort, htake]
  simp only [within, List.toArray_appendList]

end Writer

namespace Machine

/-- The machine with a writer that has taken the same and takes so many bytes in all. -/
def confine (bound : Nat) (fault : Fault) (m : Machine) : Machine :=
  m.writeTo (.within bound fault m.tape.written)

variable {m : Machine} {values : List Word} {bound : Nat}

theorem tick_confine_of_le (h : m.tape.Took values) (hle : m.tick.2.tape.written.length ≤ bound)
    (fault : Fault) :
    (m.confine bound fault).tick = (m.tick.1, m.tick.2.confine bound fault) := by
  unfold confine
  rw [written_tick h] at hle ⊢
  by_cases hword : m.word? = some Instruction.output.encode
  · have hsends : m.sends.flatMap Tape.line = Tape.line m.accumulator := by
      rw [sends, if_pos hword, List.flatMap_singleton]
    obtain ⟨hsent, -, output, hsend⟩ := h.send m.accumulator
    rw [hsends] at hle ⊢
    rw [tick_writeTo_of_output hword, Writer.write_within_of_le fault hle, tick_of_output hword, hsent, hsend]
    rfl
  · have hsends : m.sends.flatMap Tape.line = [] := by
      rw [sends, if_neg hword, List.flatMap_nil]
    rw [hsends, List.append_nil, tick_writeTo hword]

theorem tick_confine_of_lt (h : m.tape.Took values) (hle : m.tape.written.length ≤ bound)
    (hlt : bound < m.tick.2.tape.written.length) (fault : Fault) :
    m.word? = some Instruction.output.encode ∧ m.tick.1 = .running ∧
      m.tick.2.tape.written = m.tape.written ++ Tape.line m.accumulator ∧
      (m.confine bound fault).tick =
        (.failed (.running m.ip Instruction.output.encode fault),
          (m.stepPast Instruction.output.encode).writeTo
            (.within bound fault (m.tick.2.tape.written.take bound))) := by
  have hwritten := written_tick h
  by_cases hword : m.word? = some Instruction.output.encode
  · have hsent := (h.send m.accumulator).1
    rw [sends, if_pos hword, List.flatMap_singleton] at hwritten
    refine ⟨hword, ?_, hwritten, ?_⟩
    · rw [tick_of_output hword, hsent]
      rfl
    · rw [hwritten] at hlt ⊢
      rw [confine, tick_writeTo_of_output hword, Writer.write_within_of_lt fault hle hlt]
      rfl
  · rw [sends, if_neg hword, List.flatMap_nil, List.append_nil] at hwritten
    rw [hwritten] at hlt
    omega

/-- The tick of a run that is the first to write past a bound, the run going on. -/
structure PassesAt (m : Machine) (bound k : Nat) : Prop where
  running : ∀ j ≤ k, (m.after j).tick.1 = .running
  within : ∀ j ≤ k, (m.after j).tape.written.length ≤ bound
  output : (m.after k).word? = some Instruction.output.encode
  passes : bound < ((m.after k).tape.written ++ Tape.line (m.after k).accumulator).length

theorem PassesAt.succ {k : Nat} (h : m.tick.2.PassesAt bound k) (hrunning : m.tick.1 = .running)
    (hwithin : m.tape.written.length ≤ bound) : m.PassesAt bound (k + 1) := by
  refine ⟨fun j hj => ?_, fun j hj => ?_, h.output, h.passes⟩
  · cases j with
    | zero => exact hrunning
    | succ j => exact h.running j (Nat.le_of_succ_le_succ hj)
  · cases j with
    | zero => exact hwithin
    | succ j => exact h.within j (Nat.le_of_succ_le_succ hj)

end Machine

namespace Ends

open Machine

variable {m last : Machine} {n : Nat} {outcome : Outcome} {values : List Word} {bound : Nat}

theorem confine_of_le (h : Ends tick m n outcome last) (htook : m.tape.Took values)
    (hle : last.tape.written.length ≤ bound) (fault : Fault) :
    Ends tick (m.confine bound fault) n outcome (last.confine bound fault) := by
  induction h generalizing values with
  | @last m last outcome hstep hdone =>
    have hwithin : m.tick.2.tape.written.length ≤ bound := by rwa [hstep]
    have htick := tick_confine_of_le htook hwithin fault
    rw [hstep] at htick
    exact .last htick hdone
  | @more m next last n outcome hstep hrest ih =>
    have hnext := took_tick htook
    rw [hstep] at hnext
    have hlength := (written_prefix_of_ends hnext hrest).length_le
    have hwithin : m.tick.2.tape.written.length ≤ bound := by
      rw [hstep]
      omega
    have htick := tick_confine_of_le htook hwithin fault
    rw [hstep] at htick
    exact .more htick (ih hnext hle)

theorem confine_of_lt (h : Ends tick m n outcome last) (htook : m.tape.Took values)
    (hle : m.tape.written.length ≤ bound) (hlt : bound < last.tape.written.length) (fault : Fault) :
    ∃ k, m.PassesAt bound k ∧
      Ends tick (m.confine bound fault) k
        (.failed (.running (m.after k).ip Instruction.output.encode fault))
        (((m.after k).stepPast Instruction.output.encode).writeTo
          (.within bound fault (last.tape.written.take bound))) := by
  induction h generalizing values with
  | @last m last outcome hstep hdone =>
    have hpast : bound < m.tick.2.tape.written.length := by rwa [hstep]
    obtain ⟨-, hrunning, -⟩ := tick_confine_of_lt htook hle hpast fault
    rw [hstep] at hrunning
    exact absurd hrunning hdone
  | @more m next last n outcome hstep hrest ih =>
    obtain rfl : m.tick.2 = next := congrArg Prod.snd hstep
    have hrunning : m.tick.1 = .running := congrArg Prod.fst hstep
    have hnext := took_tick htook
    by_cases hfits : m.tick.2.tape.written.length ≤ bound
    · obtain ⟨k, hpasses, hends⟩ := ih hnext hfits hlt
      have htick := tick_confine_of_le htook hfits fault
      rw [hrunning] at htick
      exact ⟨k + 1, hpasses.succ hrunning hle, .more htick hends⟩
    · -- The writer is full with this line, so what the rest of the run would write is cut off as well.
      have hpast : bound < m.tick.2.tape.written.length := Nat.lt_of_not_le hfits
      obtain ⟨houtput, -, hwritten, htick⟩ := tick_confine_of_lt htook hle hpast fault
      obtain ⟨rest, htext⟩ := written_prefix_of_ends hnext hrest
      have htake : m.tick.2.tape.written.take bound = last.tape.written.take bound := by
        rw [← htext, List.take_append_of_le_length (Nat.le_of_lt hpast)]
      rw [htake] at htick
      refine ⟨0, ⟨?_, ?_, houtput, hwritten ▸ hpast⟩, .last htick (by simp)⟩
      · intro j hj
        obtain rfl := Nat.le_zero.mp hj
        exact hrunning
      · intro j hj
        obtain rfl := Nat.le_zero.mp hj
        exact hle

end Ends

namespace Machine

/-- A writer that takes so many bytes in all makes no difference to a run that writes no more than that. Any
other run it stops at the first output whose line no longer fits: the run fails there with the writer's
fault, in the state that it has there with a writer that takes everything, past that one word, and the
writer has taken as much as it can of what would have been written. -/
theorem run_within_output_bound (m : Machine) (hlimit : 0 < m.maxTicks) (bound : Nat) (fault : Fault) :
    let free := m.writeTo {}
    let bounded := m.writeTo (.within bound fault [])
    let text := free.run.2.tape.written
    (text.length ≤ bound →
      bounded.run = (free.run.1, free.run.2.writeTo (.within bound fault text))) ∧
    (bound < text.length →
      ∃ k, free.PassesAt bound k ∧
        bounded.run =
          (.failed (.running (free.after k).ip Instruction.output.encode fault),
            ((free.after k).stepPast Instruction.output.encode).writeTo
              (.within bound fault (text.take bound)))) := by
  intro free bounded text
  have htook : free.tape.Took [] := ⟨{}, rfl, rfl, rfl⟩
  obtain ⟨n, -, hends⟩ := ends_run (m := free) hlimit
  refine ⟨fun hle => ?_, fun hlt => ?_⟩
  · exact run_of_ends (m := bounded) hlimit (hends.confine_of_le htook hle fault)
  · obtain ⟨k, hpasses, hfails⟩ := hends.confine_of_lt htook (Nat.zero_le bound) hlt fault
    exact ⟨k, hpasses, run_of_ends (m := bounded) hlimit hfails⟩

/-- Writes forty-two twice. -/
def twice : Machine := ({} : Machine).load (some (Memory.ofWords [504, 902, 902, 0, 42]))

theorem twice_stops_at_fourth_byte :
    0 < twice.maxTicks ∧ (twice.writeTo {}).run.2.tape.written = utf8 "42\n42\n" ∧
      (∃ k, (twice.writeTo {}).PassesAt 4 k) ∧
      (twice.writeTo (.within 4 .writeFailed [])).run.1 = .failed (.running 2 902 .writeFailed) ∧
      (twice.writeTo (.within 4 .writeFailed [])).run.2.tape.written = utf8 "42\n4" := by
  have hwritten : (twice.writeTo {}).run.2.tape.written = utf8 "42\n42\n" := by decide
  obtain ⟨k, hpasses, hrun⟩ := (run_within_output_bound twice (by decide) 4 .writeFailed).2
    (by rw [hwritten]; decide)
  refine ⟨by decide, hwritten, ⟨k, hpasses⟩, by decide, ?_⟩
  rw [hrun, hwritten]
  rfl

end Machine

end LittleMan
