import LittleMan.Proofs.Compilation
import LittleMan.Proofs.Sentences

/-!
# What grouping leaves to the later stages

Grouping lets only complete lines through: a mnemonic that stands alone, or one with its number
(`Line.Complete`). All that can be wrong with such a line is an operand that names no cell, so building has one
fault. The commands that it makes all have a memory word, so assembling has one fault too, which is that there are
too many of them.
-/

namespace LittleMan

namespace Line

/-- A line that has all its mnemonic wants. -/
inductive Complete : Line → Prop where
  | alone {lead : Token} {m : Mnemonic} (hm : m ∈ Mnemonic.alone) (hlead : lead.tag = .mnemonic m) :
    Complete [lead]
  | number {lead operand : Token} {m : Mnemonic} (hm : m ∈ Mnemonic.withNumber)
    (hlead : lead.tag = .mnemonic m) (hoperand : operand.tag = .literal) : Complete [lead, operand]

/-- Data without a number. -/
def Bare (line : Line) : Prop := line.map Token.tag = [.mnemonic .data]

instance (line : Line) : Decidable line.Bare :=
  inferInstanceAs (Decidable (line.map Token.tag = [.mnemonic .data]))

/-- The command that a line stands for. -/
inductive Makes : Line → Command → Prop where
  | addressed {lead operand : Token} {operation : Operation} {address : Address}
    (hlead : lead.tag = .mnemonic (.addressed operation)) (hcell : operand.value.toInt = address.val) :
    Makes [lead, operand] (.instruction (.addressed operation address))
  | data {lead datum : Token} (hlead : lead.tag = .mnemonic .data) : Makes [lead, datum] (.data datum.value)
  | input {lead : Token} (hlead : lead.tag = .mnemonic .input) : Makes [lead] (.instruction .input)
  | output {lead : Token} (hlead : lead.tag = .mnemonic .output) : Makes [lead] (.instruction .output)
  | halt {lead : Token} (hlead : lead.tag = .mnemonic .halt) : Makes [lead] (.instruction .halt)

/-! ### What grouping lets through -/

theorem Divided.shape {tokens : List Token} {lines : List Line} (h : Divided tokens lines) :
    ∀ line ∈ lines, Shape (line.map Token.tag ++ [.endOfLine]) := by
  induction h with
  | nil => simp
  | last hshape => exact List.forall_mem_singleton.mpr hshape
  | line _ hshape _ ih => exact List.forall_mem_cons.mpr ⟨hshape, ih⟩

theorem complete_of_shape {line : Line} (hshape : Shape (line.map Token.tag ++ [.endOfLine]))
    (hne : line ≠ []) : Complete line := by
  rcases hshape.cases_of_endOfLine with htags | ⟨m, hm, htags⟩ | ⟨m, hm, htags⟩
  · exact absurd (List.map_eq_nil_iff.mp htags) hne
  · obtain ⟨lead, rfl, hlead⟩ := List.map_eq_singleton_iff.mp htags
    exact .alone hm hlead
  · obtain ⟨lead, others, rfl, hlead, hothers⟩ := List.map_eq_cons_iff.mp htags
    obtain ⟨operand, rfl, hoperand⟩ := List.map_eq_singleton_iff.mp hothers
    exact .number hm hlead hoperand

theorem complete_of_ofTokens {tokens : List Token} {lines : List Line} (h : ofTokens tokens = .ok lines) :
    ∀ line ∈ lines, Complete line := by
  obtain ⟨divided, hdivided, rfl⟩ := ofTokens_eq_ok_iff.mp h
  intro line hline
  rw [List.mem_filter, decide_eq_true_iff] at hline
  exact complete_of_shape (hdivided.shape line hline.1) hline.2

theorem Complete.ne_nil {line : Line} (h : Complete line) : line ≠ [] := by
  cases h <;> exact List.cons_ne_nil _ _

end Line

/-! ### What building makes of a line -/

namespace Command

open Line (Complete Bare Makes)
open Source (OutOfRange)

variable {lead operand : Token} {line : Line} {lines : List Line}

theorem not_outOfRange_of_lead {rest : List Token} {m : Mnemonic} (hlead : lead.tag = .mnemonic m)
    (hm : ∀ operation, m ≠ .addressed operation) : ¬ OutOfRange (lead :: rest) := by
  rintro ⟨operation, _, _, _, hsame, haddressed, -⟩
  cases hsame
  rw [hlead] at haddressed
  exact hm operation (Tag.mnemonic.inj haddressed)

theorem not_bare_of_number (lead operand : Token) : ¬ Bare [lead, operand] := by
  simp [Bare]

theorem not_bare_of_lead {m : Mnemonic} (hlead : lead.tag = .mnemonic m) (hm : m ≠ .data) : ¬ Bare [lead] := by
  simpa [Bare, hlead] using hm

/-- How building takes a complete line: it makes no command of bare data, refuses an operand that names no cell,
and makes the command that any other line stands for. -/
theorem ofLine?_of_complete (h : Complete line) :
    (Bare line ∧ ¬ OutOfRange line ∧ ofLine? line = .ok none) ∨
    (¬ Bare line ∧ ¬ OutOfRange line ∧ ∃ command, Makes line command ∧ ofLine? line = .ok (some command)) ∨
    ∃ lead operand, line = [lead, operand] ∧ OutOfRange line ∧
      ofLine? line = .error (.inLine operand.line (.addressRange operand.value)) := by
  cases h with
  | @alone lead m hm hlead =>
    have hrange : ¬ OutOfRange [lead] := by
      rintro ⟨_, _, _, _, hsame, -⟩
      cases hsame
    simp only [Mnemonic.alone, List.mem_cons, List.not_mem_nil, or_false] at hm
    rcases hm with rfl | rfl | rfl | rfl
    · refine .inr (.inl ⟨not_bare_of_lead hlead (by decide), hrange, _, .input hlead, ?_⟩)
      simp only [ofLine?_cons, ofGroup?, hlead]
    · refine .inr (.inl ⟨not_bare_of_lead hlead (by decide), hrange, _, .output hlead, ?_⟩)
      simp only [ofLine?_cons, ofGroup?, hlead]
    · refine .inr (.inl ⟨not_bare_of_lead hlead (by decide), hrange, _, .halt hlead, ?_⟩)
      simp only [ofLine?_cons, ofGroup?, hlead]
    · refine .inl ⟨?_, hrange, ?_⟩
      · simp [Bare, hlead]
      · simp only [ofLine?_cons, ofGroup?, hlead, List.head?_nil, Option.map_none]
  | @number lead operand m hm hlead hoperand =>
    right
    have hbare := not_bare_of_number lead operand
    cases m with
    | addressed operation =>
      by_cases hvalue : 0 ≤ operand.value.toInt ∧ operand.value.toInt ≤ 99
      · left
        obtain ⟨address, haddress, hcell⟩ := Address.ofInt?_of_mem hvalue.1 hvalue.2
        refine ⟨hbare, ?_, _, .addressed hlead hcell.symm, ?_⟩
        · rintro ⟨_, _, _, _, hsame, -, hout⟩
          cases hsame
          exact hout hvalue
        · simp only [ofLine?_cons, ofGroup?, hlead, hoperand, if_true, ofOperand, haddress]
          rfl
      · right
        refine ⟨lead, operand, rfl, ⟨operation, lead, operand, [], rfl, hlead, hvalue⟩, ?_⟩
        simp only [ofLine?_cons, ofGroup?, hlead, hoperand, if_true, ofOperand, Address.ofInt?_of_not_mem hvalue]
        rfl
    | data =>
      left
      refine ⟨hbare, not_outOfRange_of_lead hlead (by simp), _, .data hlead, ?_⟩
      simp only [ofLine?_cons, ofGroup?, hlead, List.head?_cons, Option.map_some]
    | input => simp [Mnemonic.withNumber] at hm
    | output => simp [Mnemonic.withNumber] at hm
    | halt => simp [Mnemonic.withNumber] at hm

/-! ### All the lines -/

theorem ofLines_of_complete (hlines : ∀ line ∈ lines, Complete line)
    (hrange : ∀ line ∈ lines, ¬ OutOfRange line) :
    ∃ commands, ofLines lines = .ok commands ∧
      List.Forall₂ Makes (lines.filter fun line => ¬ Bare line) commands := by
  induction lines with
  | nil => exact ⟨[], rfl, .nil⟩
  | cons line lines ih =>
    rw [List.forall_mem_cons] at hlines hrange
    obtain ⟨commands, hcommands, hmakes⟩ := ih hlines.2 hrange.2
    rcases ofLine?_of_complete hlines.1 with ⟨hbare, -, hline⟩ | ⟨hbare, -, command, hcommand, hline⟩ |
      ⟨_, _, -, hout, -⟩
    · refine ⟨commands, ?_, ?_⟩
      · rw [ofLines_cons_of_ok hline, hcommands]
        rfl
      · rwa [List.filter_cons_of_neg (by simpa using hbare)]
    · refine ⟨command :: commands, ?_, ?_⟩
      · rw [ofLines_cons_of_ok hline, hcommands]
        rfl
      · rw [List.filter_cons_of_pos (by simpa using hbare)]
        exact .cons hcommand hmakes
    · exact absurd hout hrange.1

theorem ofLines_of_first_outOfRange {rest : List Token} (hlines : ∀ line ∈ lines, Complete line)
    (hfirst : First OutOfRange lines (lead :: operand :: rest)) :
    ofLines lines = .error (.inLine operand.line (.addressRange operand.value)) := by
  induction lines with
  | nil => cases hfirst
  | cons line lines ih =>
    rw [List.forall_mem_cons] at hlines
    have hcases := ofLine?_of_complete hlines.1
    cases hfirst with
    | here hout =>
      rcases hcases with ⟨-, hin, -⟩ | ⟨-, hin, -⟩ | ⟨_, _, hsame, -, hline⟩
      · exact absurd hout hin
      · exact absurd hout hin
      · cases hsame
        exact ofLines_cons_of_error hline _
    | later hin hrest =>
      obtain ⟨command, hline⟩ : ∃ command, ofLine? line = .ok command := by
        rcases hcases with ⟨-, -, hline⟩ | ⟨-, -, _, -, hline⟩ | ⟨_, _, -, hout, -⟩
        · exact ⟨_, hline⟩
        · exact ⟨_, hline⟩
        · exact absurd hout hin
      rw [ofLines_cons_of_ok hline, ih hlines.2 hrest]
      rfl

theorem inRange_or_first (lines : List Line) :
    (∀ line ∈ lines, ¬ OutOfRange line) ∨
      ∃ lead operand rest, First OutOfRange lines (lead :: operand :: rest) := by
  by_cases hrange : ∀ line ∈ lines, ¬ OutOfRange line
  · exact .inl hrange
  · right
    push Not at hrange
    obtain ⟨line, hmem, hline⟩ := hrange
    obtain ⟨first, hfirst⟩ := First.exists_of_mem hmem hline
    obtain ⟨_, lead, operand, rest, rfl, -⟩ := hfirst.property
    exact ⟨lead, operand, rest, hfirst⟩

theorem exists_cells_of_makes {commands : List Command} (h : List.Forall₂ Makes lines commands) :
    ∃ cells, List.Forall₂ (fun command cell => command.encode = .ok cell) commands cells := by
  induction h with
  | nil => exact ⟨[], .nil⟩
  | cons hmakes _ ih =>
    obtain ⟨cells, hcells⟩ := ih
    cases hmakes with
    | data => exact ⟨_, .cons (encode_data _) hcells⟩
    | _ => exact ⟨_, .cons (encode_instruction _) hcells⟩

theorem ofLines_eq_error_iff (hlines : ∀ line ∈ lines, Complete line) {fault : Fault} :
    ofLines lines = .error fault ↔
      ∃ lead operand rest, First OutOfRange lines (lead :: operand :: rest) ∧
        fault = .inLine operand.line (.addressRange operand.value) := by
  constructor
  · intro hfault
    rcases inRange_or_first lines with hrange | ⟨lead, operand, rest, hfirst⟩
    · obtain ⟨commands, hcommands, -⟩ := ofLines_of_complete hlines hrange
      rw [hcommands] at hfault
      cases hfault
    · rw [ofLines_of_first_outOfRange hlines hfirst] at hfault
      exact ⟨lead, operand, rest, hfirst, (Except.error.inj hfault).symm⟩
  · rintro ⟨lead, operand, rest, hfirst, rfl⟩
    exact ofLines_of_first_outOfRange hlines hfirst

theorem makes_of_ofLines {commands : List Command} (hlines : ∀ line ∈ lines, Complete line)
    (h : ofLines lines = .ok commands) :
    List.Forall₂ Makes (lines.filter fun line => ¬ Bare line) commands := by
  rcases inRange_or_first lines with hrange | ⟨lead, operand, rest, hfirst⟩
  · obtain ⟨others, hothers, hmakes⟩ := ofLines_of_complete hlines hrange
    rw [h] at hothers
    cases hothers
    exact hmakes
  · rw [ofLines_of_first_outOfRange hlines hfirst] at h
    cases h

end Command

/-- Commands that lines stand for can only be too many. -/
theorem Memory.assemble_of_makes {lines : List Line} {commands : List Command}
    (h : List.Forall₂ Line.Makes lines commands) :
    (∀ fault, assemble commands = .error fault ↔
      100 < commands.length ∧ fault = .capacity commands.length) ∧
    (commands.length ≤ 100 → ∃ image, assemble commands = .ok image ∧ ∀ cell : Address,
      (∀ command, commands[cell.val]? = some command → command.encode = .ok (image.get cell)) ∧
      (commands[cell.val]? = none → image.get cell = 0)) := by
  obtain ⟨cells, hcells⟩ := Command.exists_cells_of_makes h
  rw [assemble_of_encode hcells, ← hcells.length_eq]
  by_cases hcount : 100 < commands.length
  · rw [if_pos hcount]
    refine ⟨fun fault => ?_, fun hfits => absurd hcount (Nat.not_lt_of_le hfits)⟩
    simp only [hcount, true_and, Except.error.injEq, eq_comm]
  · rw [if_neg hcount]
    refine ⟨fun fault => ?_, fun _ => ⟨ofWords cells, rfl, ?_⟩⟩
    · simp only [hcount, false_and, reduceCtorEq]
    · intro cell
      exact get_ofWords_of_forall₂ hcells cell

namespace Line

open Source (OutOfRange)

/-- Behind the grouping each stage can fail in one way. No line is empty. Building fails exactly if some operand
names no cell, with the first such operand. Otherwise each line but bare data makes its command, and assembling
these fails exactly if they are more than a hundred. If not, the cells hold their words in order, and zero behind
them. -/
theorem grouped_leaves_range_and_capacity {tokens : List Token} {lines : List Line}
    (h : ofTokens tokens = .ok lines) :
    (∀ line ∈ lines, line ≠ []) ∧
    ((∃ fault, Command.ofLines lines = .error fault) ↔ ∃ line ∈ lines, OutOfRange line) ∧
    (∀ fault, Command.ofLines lines = .error fault ↔
      ∃ lead operand rest, First OutOfRange lines (lead :: operand :: rest) ∧
        fault = .inLine operand.line (.addressRange operand.value)) ∧
    ∀ commands, Command.ofLines lines = .ok commands →
      List.Forall₂ Makes (lines.filter fun line => ¬ Bare line) commands ∧
      (∀ fault, Memory.assemble commands = .error fault ↔
        100 < commands.length ∧ fault = .capacity commands.length) ∧
      (commands.length ≤ 100 → ∃ image, Memory.assemble commands = .ok image ∧ ∀ cell : Address,
        (∀ command, commands[cell.val]? = some command → command.encode = .ok (image.get cell)) ∧
        (commands[cell.val]? = none → image.get cell = 0)) := by
  have hlines := complete_of_ofTokens h
  refine ⟨fun line hline => (hlines line hline).ne_nil, ?_, ?_, ?_⟩
  · constructor
    · rintro ⟨fault, hfault⟩
      obtain ⟨lead, operand, rest, hfirst, -⟩ := (Command.ofLines_eq_error_iff hlines).mp hfault
      exact ⟨_, hfirst.mem, hfirst.property⟩
    · rintro ⟨line, hmem, hline⟩
      rcases Command.inRange_or_first lines with hrange | ⟨lead, operand, rest, hfirst⟩
      · exact absurd hline (hrange line hmem)
      · exact ⟨_, Command.ofLines_of_first_outOfRange hlines hfirst⟩
  · intro fault
    exact Command.ofLines_eq_error_iff hlines
  · intro commands hcommands
    have hmakes := Command.makes_of_ofLines hlines hcommands
    exact ⟨hmakes, Memory.assemble_of_makes hmakes⟩

/-- Bare data, and then an operand that names no cell and stands on another line than its mnemonic. -/
def straying : List Token :=
  [{ tag := .mnemonic .data, line := 3 }, .endOfLine 3, { tag := .mnemonic (.addressed .load), line := 7 },
    { tag := .literal, value := 100, line := 8 }]

theorem straying_out_of_range :
    ofTokens straying = .ok [straying.take 1, straying.drop 2] ∧
      Command.ofLines [straying.take 1, straying.drop 2] = .error (.inLine 8 (.addressRange 100)) := by
  have hgroup : ofTokens straying = .ok [straying.take 1, straying.drop 2] := rfl
  refine ⟨hgroup, ?_⟩
  obtain ⟨-, -, hfault, -⟩ := grouped_leaves_range_and_capacity hgroup
  rw [hfault]
  refine ⟨_, _, _, .later ?_ (.here ⟨.load, _, _, _, rfl, rfl, by decide⟩), rfl⟩
  rintro ⟨_, _, _, _, hsame, -⟩
  cases hsame

end Line

end LittleMan
