import LittleMan.Assembler
import LittleMan.Proofs.Encoding
import LittleMan.Proofs.Grammar
import Mathlib.Data.List.Forall2
import Mathlib.Data.List.GetD

/-!
# What compiling gives

A source is the list of its lines, and a line is the list of its words. `Puts` says which lines take a
memory cell and what they put there. `image_compile_lays_out_lines` says that a source compiles exactly
if each of its lines is such a line or vacant and at most a hundred take a cell, and that the cells of
the image are filled line by line. `image_compile_eq_error_iff_rejected` says what a source that does
not compile is refused for: the stages come one after the other, so each kind of fault is looked for in
the whole source before the next kind.
-/

namespace LittleMan

/-! ### The stages in a row -/

namespace Command

theorem ofLine?_cons (lead : Token) (rest : List Token) :
    ofLine? (lead :: rest) = ofGroup? { lead, rest } := rfl

theorem ofLines_cons_of_error {line : Line} {fault : Fault} (h : ofLine? line = .error fault)
    (lines : List Line) : ofLines (line :: lines) = .error fault := by
  rw [ofLines, List.filterMapM_cons, h]
  rfl

theorem ofLines_cons_of_ok {line : Line} {command : Option Command}
    (h : ofLine? line = .ok command) (lines : List Line) :
    ofLines (line :: lines) = (do
      let commands ← ofLines lines
      return command.toList ++ commands) := by
  rw [ofLines, List.filterMapM_cons, h, ofLines]
  cases command with
  | none => exact (bind_pure _).symm
  | some command => rfl

end Command

theorem Line.bind_ofTokens (tokens : Except Fault (List Token)) :
    (tokens >>= ofTokens) = (tokens >>= groups).map (·.map Group.line) := by
  cases tokens <;> rfl

namespace Assembler

/-- Noting down what becomes of the lines does not change their commands. A grouped line is not blank, so its
command is that of its tokens. -/
theorem fst_commandsWithNotes (placed : Array Command) (notes : Array Note) (groups : List Line.Group) :
    (commandsWithNotes placed notes groups).1 = (do
      let commands ← Command.ofLines (groups.map Line.Group.line)
      return placed.toList ++ commands) := by
  induction groups generalizing placed notes with
  | nil => simp [commandsWithNotes, Command.ofLines]; rfl
  | cons group groups ih =>
    have hline : Command.ofLine? group.line = Command.ofGroup? group := rfl
    rw [commandsWithNotes, List.map_cons]
    cases hgroup : Command.ofGroup? group with
    | error fault =>
      rw [Command.ofLines_cons_of_error (hline.trans hgroup)]
      rfl
    | ok command =>
      dsimp only
      rw [ih, Command.ofLines_cons_of_ok (hline.trans hgroup)]
      cases command <;> simp

/-- Compiling takes a source through its stages, whatever the assembler did before and whether or not it
notes down what it does. -/
theorem image_compile (assembler : Assembler) (source : Text) :
    (assembler.compile source).image =
      (Source.lex (Source.normalize source) >>= Line.ofTokens >>= Command.ofLines
        >>= Memory.assemble) := by
  rw [Line.bind_ofTokens]
  unfold compile
  dsimp only
  cases Source.lex (Source.normalize source) >>= Line.groups with
  | error fault => rfl
  | ok groups =>
    change _ = (Command.ofLines (groups.map Line.Group.line) >>= Memory.assemble)
    have hcommands := fst_commandsWithNotes #[] #[] groups
    simp only [List.nil_append, bind_pure] at hcommands
    rw [← hcommands]
    dsimp only
    cases (commandsWithNotes #[] #[] groups).1 with
    | error fault => rfl
    | ok commands =>
      change _ = Memory.assemble commands
      dsimp only
      cases Memory.assemble commands <;> rfl

end Assembler

/-- Reading the tokens of a source and grouping them is reading and grouping its lines. -/
theorem Source.lex_bind_ofTokens (source : Text) :
    (lex (normalize source) >>= Line.ofTokens) = (do
      let lines ← lexLines 1 (wordLines source)
      Line.ofTokens lines.flatten) := by
  obtain ⟨lines, hlines, hlex⟩ := lex_normalize source
  rw [hlex, bind_assoc]
  simp only [pure_bind]
  rcases hlines with hlines | hlines
  · rw [hlines]
  · rw [hlines, lexLines_append_blank, bind_assoc]
    simp only [pure_bind]
    cases htokens : lexLines 1 lines with
    | error fault => rfl
    | ok tokens =>
      have hended := (lexLines_eq_ok_iff.mp htokens).ended
      exact (Line.ofTokens_append_blank hended _).symm

/-! ### What a line puts into memory -/

namespace Source

/-- The mnemonics that name a cell, with the hundreds of their memory words. -/
def addressedWords : List (String × Int) :=
  [("LDA", 500), ("STA", 300), ("ADD", 100), ("SUB", 200), ("BRA", 600), ("BRZ", 700), ("BRP", 800)]

/-- The words of a line that takes a memory cell, and the word that the line puts there. -/
inductive Puts : List Text → Word → Prop where
  | addressed {name : String} {hundreds n : Int} {number : Text}
    (hname : (name, hundreds) ∈ addressedWords) (hnumber : Decimal.Spells number n)
    (hlow : 0 ≤ n) (hhigh : n ≤ 99) : Puts [utf8 name, number] (Int16.ofInt (hundreds + n))
  | data {n : Int} {number : Text} (hnumber : Decimal.Spells number n) (hlow : -32768 ≤ n)
    (hhigh : n ≤ 32767) : Puts [utf8 "DAT", number] (Int16.ofInt n)
  | input : Puts [utf8 "INP"] 901
  | output : Puts [utf8 "OUT"] 902
  | halt : Puts [utf8 "HLT"] 0

/-- A line that takes no memory cell: it is blank, or data without a number. -/
abbrev Vacant (line : List Text) : Prop := line = [] ∨ line = [utf8 "DAT"]

/-- The lines that take a memory cell. -/
def occupying (lines : List (List Text)) : List (List Text) := lines.filter fun line => ¬ Vacant line

/-- The operand of an addressed mnemonic names no memory cell. -/
def OutOfRange (line : List Token) : Prop :=
  ∃ operation lead operand rest, line = lead :: operand :: rest ∧
    lead.tag = .mnemonic (.addressed operation) ∧
      ¬ (0 ≤ operand.value.toInt ∧ operand.value.toInt ≤ 99)

theorem Puts.not_vacant {line : List Text} {word : Word} (h : Puts line word) : ¬ Vacant line := by
  cases h <;> simp [Vacant]
  all_goals decide

theorem mem_addressedWords (operation : Operation) :
    ((Mnemonic.addressed operation).name, (operation.digit * 100 : Int)) ∈ addressedWords := by
  cases operation <;> decide

theorem exists_operation {name : String} {hundreds : Int}
    (h : (name, hundreds) ∈ addressedWords) :
    ∃ operation, name = (Mnemonic.addressed operation).name ∧
      hundreds = (operation.digit * 100 : Int) := by
  simp only [addressedWords, List.mem_cons, Prod.mk.injEq, List.not_mem_nil, or_false] at h
  rcases h with ⟨rfl, rfl⟩ | ⟨rfl, rfl⟩ | ⟨rfl, rfl⟩ | ⟨rfl, rfl⟩ | ⟨rfl, rfl⟩ | ⟨rfl, rfl⟩ |
    ⟨rfl, rfl⟩
  exacts [⟨.load, rfl, rfl⟩, ⟨.store, rfl, rfl⟩, ⟨.add, rfl, rfl⟩, ⟨.subtract, rfl, rfl⟩,
    ⟨.branch, rfl, rfl⟩, ⟨.branchIfZero, rfl, rfl⟩, ⟨.branchIfNotNegative, rfl, rfl⟩]

end Source

/-! ### One line -/

namespace Source

section Line

variable {number : Nat} {words : List Text} {tokens : List Token}

theorem IsToken.of_mnemonic {line : Int} {word : Text} {token : Token} {m : Mnemonic}
    (h : IsToken line word token) (htag : token.tag = .mnemonic m) :
    word = m.text ∧ token = { tag := .mnemonic m, line } := by
  cases h with
  | mnemonic other =>
    obtain rfl : other = m := Tag.mnemonic.inj htag
    exact ⟨rfl, rfl⟩
  | literal => exact Tag.noConfusion htag

theorem IsToken.of_literal {line : Int} {word : Text} {token : Token}
    (h : IsToken line word token) (htag : token.tag = .literal) :
    ∃ value, Decimal.Spells word value.toInt ∧ token = { tag := .literal, value, line } := by
  cases h with
  | mnemonic m => exact Tag.noConfusion htag
  | literal hspells => exact ⟨_, hspells, rfl⟩

/-- The lines that the grammar has, as their words and as their tokens. -/
theorem line_cases (hwords : List.Forall₂ (IsToken number) words tokens)
    (hshape : Line.Shape ((tokens ++ [Token.endOfLine number]).map Token.tag)) :
    (words = [] ∧ tokens = []) ∨
    (∃ m ∈ Mnemonic.alone, words = [m.text] ∧ tokens = [{ tag := .mnemonic m, line := number }]) ∨
    ∃ m ∈ Mnemonic.withNumber, ∃ digits value, Decimal.Spells digits value.toInt ∧
      words = [m.text, digits] ∧
      tokens = [{ tag := .mnemonic m, line := number }, { tag := .literal, value, line := number }] := by
  rw [List.map_append] at hshape
  rcases hshape.cases_of_endOfLine with htags | ⟨m, hm, htags⟩ | ⟨m, hm, htags⟩
  · cases hwords with
    | nil => exact .inl ⟨rfl, rfl⟩
    | cons => exact absurd htags (by simp)
  · refine .inr (.inl ⟨m, hm, ?_⟩)
    obtain ⟨lead, rfl, hlead⟩ := List.map_eq_singleton_iff.mp htags
    obtain ⟨word, rest, hword, hrest, rfl⟩ := List.forall₂_cons_right_iff.mp hwords
    obtain rfl := List.forall₂_nil_right_iff.mp hrest
    obtain ⟨rfl, rfl⟩ := hword.of_mnemonic hlead
    exact ⟨rfl, rfl⟩
  · refine .inr (.inr ⟨m, hm, ?_⟩)
    obtain ⟨lead, others, rfl, hlead, hothers⟩ := List.map_eq_cons_iff.mp htags
    obtain ⟨operand, rfl, hoperand⟩ := List.map_eq_singleton_iff.mp hothers
    obtain ⟨word, rest, hword, hrest, rfl⟩ := List.forall₂_cons_right_iff.mp hwords
    obtain ⟨digits, none, hdigits, hnone, rfl⟩ := List.forall₂_cons_right_iff.mp hrest
    obtain rfl := List.forall₂_nil_right_iff.mp hnone
    obtain ⟨rfl, rfl⟩ := hword.of_mnemonic hlead
    obtain ⟨value, hspells, rfl⟩ := hdigits.of_literal hoperand
    exact ⟨digits, value, hspells, rfl, rfl⟩

/-- A line of the grammar whose operand is in range makes the command for what it puts into memory, and
none if it is vacant. -/
theorem ofLine?_of_inRange (hwords : List.Forall₂ (IsToken number) words tokens)
    (hshape : Line.Shape ((tokens ++ [Token.endOfLine number]).map Token.tag))
    (hrange : ¬ OutOfRange (tokens ++ [.endOfLine number])) :
    (Vacant words ∧ Command.ofLine? tokens = .ok none) ∨
    ∃ command word, Puts words word ∧ command.encode = .ok word ∧
      Command.ofLine? tokens = .ok (some command) := by
  rcases line_cases hwords hshape with ⟨rfl, rfl⟩ | ⟨m, hm, rfl, rfl⟩ |
    ⟨m, hm, digits, value, hspells, rfl, rfl⟩
  · exact .inl ⟨.inl rfl, rfl⟩
  · simp only [Mnemonic.alone, List.mem_cons, List.not_mem_nil, or_false] at hm
    rcases hm with rfl | rfl | rfl | rfl
    · exact .inr ⟨.instruction .input, _, .input, Command.encode_instruction _, rfl⟩
    · exact .inr ⟨.instruction .output, _, .output, Command.encode_instruction _, rfl⟩
    · exact .inr ⟨.instruction .halt, _, .halt, Command.encode_instruction _, rfl⟩
    · exact .inl ⟨.inr rfl, rfl⟩
  · right
    cases m with
    | addressed operation =>
      have hvalue : 0 ≤ value.toInt ∧ value.toInt ≤ 99 := by
        by_contra hvalue
        exact hrange ⟨operation, _, _, _, rfl, rfl, hvalue⟩
      obtain ⟨address, haddress, hcell⟩ := Address.ofInt?_of_mem hvalue.1 hvalue.2
      refine ⟨.instruction (.addressed operation address), _,
        .addressed (mem_addressedWords operation) hspells hvalue.1 hvalue.2, ?_, ?_⟩
      · rw [Command.encode_instruction, Instruction.encode_addressed, hcell]
      · simp [Command.ofLine?_cons, Command.ofGroup?, Command.ofOperand, haddress, Except.map]
    | data =>
      refine ⟨.data value, _, .data hspells value.le_toInt (Int.le_of_lt_add_one value.toInt_lt), ?_, rfl⟩
      rw [Command.encode_data, Int16.ofInt_toInt]
    | input => simp [Mnemonic.withNumber] at hm
    | output => simp [Mnemonic.withNumber] at hm
    | halt => simp [Mnemonic.withNumber] at hm

theorem ofLine?_of_outOfRange {lead operand : Token} {rest : List Token}
    (hwords : List.Forall₂ (IsToken number) words tokens)
    (hshape : Line.Shape ((tokens ++ [Token.endOfLine number]).map Token.tag))
    (hline : tokens ++ [Token.endOfLine number] = lead :: operand :: rest)
    (hrange : OutOfRange (lead :: operand :: rest)) :
    Command.ofLine? tokens = .error (.inLine operand.line (.addressRange operand.value)) := by
  obtain ⟨operation, _, _, _, hsame, hlead, hvalue⟩ := hrange
  cases hsame
  rcases line_cases hwords hshape with ⟨rfl, rfl⟩ | ⟨m, hm, rfl, rfl⟩ |
    ⟨m, hm, digits, value, hspells, rfl, rfl⟩
  · simp at hline
  · cases hline
    obtain rfl := Tag.mnemonic.inj hlead
    simp [Mnemonic.alone] at hm
  · cases hline
    obtain rfl := Tag.mnemonic.inj hlead
    simp [Command.ofLine?_cons, Command.ofGroup?, Command.ofOperand, Address.ofInt?_of_not_mem hvalue, Except.map]

/-- What a line must be made of, as its words, for its tokens to be a line in range. -/
theorem exists_inRange (number : Nat) {words : List Text}
    (hline : Vacant words ∨ ∃ word, Puts words word) :
    ∃ tokens, List.Forall₂ (IsToken number) words tokens ∧
      Line.Shape ((tokens ++ [Token.endOfLine number]).map Token.tag) ∧
      ¬ OutOfRange (tokens ++ [.endOfLine number]) := by
  have halone (m : Mnemonic) (hm : m ∈ Mnemonic.alone) : ∃ tokens,
      List.Forall₂ (IsToken number) [m.text] tokens ∧
      Line.Shape ((tokens ++ [Token.endOfLine number]).map Token.tag) ∧
      ¬ OutOfRange (tokens ++ [.endOfLine number]) := by
    refine ⟨_, .cons (.mnemonic m) .nil, .alone hm, ?_⟩
    rintro ⟨operation, _, _, _, hsame, hlead, -⟩
    cases hsame
    obtain rfl := Tag.mnemonic.inj hlead
    simp [Mnemonic.alone] at hm
  rcases hline with (rfl | rfl) | ⟨word, hputs⟩
  · refine ⟨[], .nil, .blank, ?_⟩
    rintro ⟨_, _, _, _, hsame, -⟩
    simp at hsame
  · exact halone .data (by decide)
  · cases hputs with
    | input => exact halone .input (by decide)
    | output => exact halone .output (by decide)
    | halt => exact halone .halt (by decide)
    | data hnumber hlow hhigh =>
      rw [← Int16.toInt_ofInt_of_le hlow (by omega)] at hnumber
      refine ⟨_, .cons (.mnemonic .data) (.cons (.literal hnumber) .nil), .number (by decide), ?_⟩
      rintro ⟨_, _, _, _, hsame, hlead, -⟩
      cases hsame
      exact Mnemonic.noConfusion (Tag.mnemonic.inj hlead)
    | @addressed name hundreds n digits hname hnumber hlow hhigh =>
      obtain ⟨operation, rfl, rfl⟩ := exists_operation hname
      have hword : (Int16.ofInt n).toInt = n := Int16.toInt_ofInt_of_le (by omega) (by omega)
      rw [← hword] at hnumber
      refine ⟨_, .cons (.mnemonic (.addressed operation)) (.cons (.literal hnumber) .nil),
        .number (Mnemonic.addressed_mem_withNumber operation), ?_⟩
      rintro ⟨_, _, _, _, hsame, -, hrange⟩
      cases hsame
      rw [hword] at hrange
      exact hrange ⟨hlow, hhigh⟩

end Line

end Source

/-! ### All the lines -/

/-- A blank line makes no command. -/
theorem Command.ofLines_filter (lines : List Line) :
    ofLines (lines.filter (· ≠ [])) = ofLines lines := by
  induction lines with
  | nil => rfl
  | cons line lines ih =>
    cases hline : ofLine? line with
    | error fault =>
      have hne : line ≠ [] := by
        rintro rfl
        cases hline
      rw [List.filter_cons_of_pos (by simpa using hne), ofLines_cons_of_error hline,
        ofLines_cons_of_error hline]
    | ok command =>
      by_cases hempty : line = []
      · subst hempty
        obtain rfl := Except.ok.inj hline
        rw [List.filter_cons_of_neg (by simp), ih, ofLines_cons_of_ok hline]
        exact (bind_pure _).symm
      · rw [List.filter_cons_of_pos (by simpa using hempty), ofLines_cons_of_ok hline,
          ofLines_cons_of_ok hline, ih]

/-- Commands that all have a word fill the memory with their words, if they fit into it. -/
theorem Memory.assemble_of_encode {commands : List Command} {cells : List Word}
    (h : List.Forall₂ (fun command cell => command.encode = .ok cell) commands cells) :
    assemble commands =
      if 100 < cells.length then .error (.capacity cells.length) else .ok (ofWords cells) := by
  have hencode : commands.mapM Command.encode = .ok cells := by
    induction h with
    | nil => rfl
    | cons hcommand _ ih =>
      rw [List.mapM_cons, hcommand, ih]
      rfl
  rw [assemble, hencode, h.length_eq]
  rfl

/-- Words that belong to items stand in the cells of these items, and zero stands behind them. -/
theorem Memory.get_ofWords_of_forall₂ {α : Type} {R : α → Word → Prop} {items : List α} {words : List Word}
    (h : List.Forall₂ R items words) (cell : Address) :
    (∀ item, items[cell.val]? = some item → R item ((ofWords words).get cell)) ∧
      (items[cell.val]? = none → (ofWords words).get cell = 0) := by
  have hlength := h.length_eq
  rw [get_ofWords]
  constructor
  · intro item hitem
    obtain ⟨hcell, rfl⟩ := List.getElem?_eq_some_iff.mp hitem
    rw [List.getD_eq_getElem _ _ (hlength ▸ hcell)]
    exact h.get hcell (hlength ▸ hcell)
  · intro hnone
    rw [List.getElem?_eq_none_iff, hlength] at hnone
    exact List.getD_eq_default _ _ hnone

namespace Source

variable {number : Nat} {words : List (List Text)} {lines : List (List Token)}

/-- The tokens of lines that have commands, or are vacant. -/
structure InRange (number : Nat) (words : List (List Text)) (lines : List (List Token)) : Prop where
  lexed : Lexed number words lines
  shape : ∀ line ∈ lines, Line.Shape (line.map Token.tag)
  range : ∀ line ∈ lines, ¬ OutOfRange line

theorem InRange.ofLines (h : InRange number words lines) :
    ∃ commands cells, Command.ofLines (lines.map List.dropLast) = .ok commands ∧
      List.Forall₂ (fun command cell => command.encode = .ok cell) commands cells ∧
      List.Forall₂ Puts (occupying words) cells := by
  obtain ⟨hlexed, hshape, hrange⟩ := h
  induction hlexed with
  | nil => exact ⟨[], [], rfl, .nil, .nil⟩
  | @cons number words others tokens lines hwords _ ih =>
    rw [List.forall_mem_cons] at hshape hrange
    obtain ⟨commands, cells, hcommands, hencode, hputs⟩ := ih hshape.2 hrange.2
    rw [List.map_cons, List.dropLast_concat]
    rcases ofLine?_of_inRange hwords hshape.1 hrange.1 with
      ⟨hvacant, hline⟩ | ⟨command, cell, hcell, hcommand, hline⟩
    · refine ⟨commands, cells, ?_, hencode, ?_⟩
      · rw [Command.ofLines_cons_of_ok hline, hcommands]
        rfl
      · rwa [occupying, List.filter_cons_of_neg (by simpa only [decide_eq_true_eq, not_not] using hvacant)]
    · refine ⟨command :: commands, cell :: cells, ?_, .cons hcommand hencode, ?_⟩
      · rw [Command.ofLines_cons_of_ok hline, hcommands]
        rfl
      · rw [occupying, List.filter_cons_of_pos (by exact decide_eq_true hcell.not_vacant)]
        exact .cons hcell hputs

theorem ofLines_of_first {lead operand : Token} {rest : List Token}
    (hlexed : Lexed number words lines) (hshape : ∀ line ∈ lines, Line.Shape (line.map Token.tag))
    (hfirst : First OutOfRange lines (lead :: operand :: rest)) :
    Command.ofLines (lines.map List.dropLast) =
      .error (.inLine operand.line (.addressRange operand.value)) := by
  induction hlexed with
  | nil => cases hfirst
  | @cons number words others tokens lines hwords _ ih =>
    rw [List.forall_mem_cons] at hshape
    rw [List.map_cons, List.dropLast_concat]
    generalize hline : tokens ++ [Token.endOfLine number] = line at hfirst
    cases hfirst with
    | here hrange =>
      exact Command.ofLines_cons_of_error (ofLine?_of_outOfRange hwords hshape.1 hline hrange) _
    | later hrange hlater =>
      obtain ⟨command, hcommand⟩ : ∃ command, Command.ofLine? tokens = .ok command := by
        rcases ofLine?_of_inRange hwords hshape.1 (hline ▸ hrange) with
          ⟨-, hcommand⟩ | ⟨_, _, -, -, hcommand⟩
        · exact ⟨_, hcommand⟩
        · exact ⟨_, hcommand⟩
      rw [Command.ofLines_cons_of_ok hcommand, ih hshape.2 hlater]
      rfl

/-- The tokens of lines are in range exactly if each line is vacant or puts a word into memory. -/
theorem exists_inRange_iff (number : Nat) {words : List (List Text)} :
    (∃ lines, InRange number words lines) ↔
      ∀ line ∈ words, Vacant line ∨ ∃ word, Puts line word := by
  constructor
  · rintro ⟨lines, hlexed, hshape, hrange⟩
    induction hlexed with
    | nil => simp
    | cons hwords _ ih =>
      rw [List.forall_mem_cons] at hshape hrange ⊢
      refine ⟨?_, ih hshape.2 hrange.2⟩
      rcases ofLine?_of_inRange hwords hshape.1 hrange.1 with ⟨hvacant, -⟩ | ⟨_, cell, hcell, -⟩
      · exact .inl hvacant
      · exact .inr ⟨cell, hcell⟩
  · intro hwords
    induction words generalizing number with
    | nil => exact ⟨[], .nil number, by simp, by simp⟩
    | cons line words ih =>
      rw [List.forall_mem_cons] at hwords
      obtain ⟨tokens, htokens, hshape, hrange⟩ := exists_inRange number hwords.1
      obtain ⟨lines, hlines⟩ := ih (number + 1) hwords.2
      exact ⟨_, .cons htokens hlines.lexed, List.forall_mem_cons.mpr ⟨hshape, hlines.shape⟩,
        List.forall_mem_cons.mpr ⟨hrange, hlines.range⟩⟩

/-! ### The whole source -/

/-- What is wrong with a source. A fault of a kind counts only if there is none of the kinds before it, and
of several of one kind the first counts. -/
inductive Rejected (source : Text) : Fault → Prop where
  | word {line : Nat} {word : Text}
    (hfirst : First (fun numbered => ¬ IsWord numbered.2) (numbered 1 (wordLines source))
      (line, word)) :
    Rejected source (.inLine line (.unknownWord word))
  | shape {lines : List (List Token)} {before : List Token} {token : Token}
    (hlexed : Lexed 1 (wordLines source) lines)
    (hfirst : First Line.Refused (lines.flatMap Line.places) (before, token)) :
    Rejected source (.inLine token.line (.unexpected token))
  | operand {lines : List (List Token)} {lead operand : Token} {rest : List Token}
    (hlexed : Lexed 1 (wordLines source) lines)
    (hshape : ∀ line ∈ lines, Line.Shape (line.map Token.tag))
    (hfirst : First OutOfRange lines (lead :: operand :: rest)) :
    Rejected source (.inLine operand.line (.addressRange operand.value))
  | capacity {lines : List (List Token)} (hlines : InRange 1 (wordLines source) lines)
    (hcount : 100 < (occupying (wordLines source)).length) :
    Rejected source (.capacity (occupying (wordLines source)).length)

variable (assembler : Assembler) {source : Text}

theorem commands_of_shapes (hlexed : Lexed 1 (wordLines source) lines)
    (hshape : ∀ line ∈ lines, Line.Shape (line.map Token.tag)) :
    lex (normalize source) >>= Line.ofTokens >>= Command.ofLines =
      Command.ofLines (lines.map List.dropLast) := by
  rw [lex_bind_ofTokens, lexLines_of_lexed hlexed, ← Command.ofLines_filter]
  change (Line.ofTokens lines.flatten >>= _) = _
  rw [Line.ofTokens_of_shapes hlexed.ended hshape]
  rfl

theorem image_of_shapes (hlexed : Lexed 1 (wordLines source) lines)
    (hshape : ∀ line ∈ lines, Line.Shape (line.map Token.tag)) :
    (assembler.compile source).image =
      (Command.ofLines (lines.map List.dropLast) >>= Memory.assemble) := by
  rw [Assembler.image_compile, commands_of_shapes hlexed hshape]

theorem image_of_inRange (hlines : InRange 1 (wordLines source) lines) :
    ∃ cells, List.Forall₂ Puts (occupying (wordLines source)) cells ∧
      (assembler.compile source).image =
        if 100 < cells.length then .error (.capacity cells.length)
        else .ok (Memory.ofWords cells) := by
  obtain ⟨commands, cells, hcommands, hencode, hputs⟩ := hlines.ofLines
  refine ⟨cells, hputs, ?_⟩
  rw [image_of_shapes assembler hlines.lexed hlines.shape, hcommands,
    ← Memory.assemble_of_encode hencode]
  rfl

theorem image_of_fits (hlines : InRange 1 (wordLines source) lines)
    (hcount : (occupying (wordLines source)).length ≤ 100) :
    ∃ cells, List.Forall₂ Puts (occupying (wordLines source)) cells ∧
      (assembler.compile source).image = .ok (Memory.ofWords cells) := by
  obtain ⟨cells, hputs, himage⟩ := image_of_inRange assembler hlines
  rw [hputs.length_eq] at hcount
  exact ⟨cells, hputs, himage.trans (if_neg (Nat.not_lt_of_le hcount))⟩

theorem image_of_rejected {fault : Fault} (h : Rejected source fault) :
    (assembler.compile source).image = .error fault := by
  cases h with
  | word hfirst =>
    rw [Assembler.image_compile, lex_bind_ofTokens, lexLines_of_first hfirst]
    rfl
  | @shape lines _ _ hlexed hfirst =>
    rw [Assembler.image_compile, lex_bind_ofTokens, lexLines_of_lexed hlexed]
    change (Line.ofTokens lines.flatten >>= _ >>= _) = _
    rw [Line.ofTokens_of_first hlexed.ended hfirst]
    rfl
  | operand hlexed hshape hfirst =>
    rw [image_of_shapes assembler hlexed hshape, ofLines_of_first hlexed hshape hfirst]
    rfl
  | capacity hlines hcount =>
    obtain ⟨cells, hputs, himage⟩ := image_of_inRange assembler hlines
    rw [hputs.length_eq] at hcount ⊢
    rw [himage, if_pos hcount]

/-- A source is in range and fits into the memory, or something is wrong with it. -/
theorem inRange_or_rejected (source : Text) :
    ((∃ lines, InRange 1 (wordLines source) lines) ∧ (occupying (wordLines source)).length ≤ 100) ∨
      ∃ fault, Rejected source fault := by
  rcases lexed_or_first 1 (wordLines source) with ⟨lines, hlexed⟩ | ⟨_, hfirst⟩
  · rcases Line.shapes_or_first hlexed.ended with hshape | ⟨_, hfirst⟩
    · by_cases hrange : ∀ line ∈ lines, ¬ OutOfRange line
      · by_cases hcount : (occupying (wordLines source)).length ≤ 100
        · exact .inl ⟨⟨lines, hlexed, hshape, hrange⟩, hcount⟩
        · exact .inr ⟨_, .capacity ⟨hlexed, hshape, hrange⟩ (Nat.lt_of_not_le hcount)⟩
      · push Not at hrange
        obtain ⟨line, hmem, hline⟩ := hrange
        obtain ⟨first, hfirst⟩ := First.exists_of_mem hmem hline
        obtain ⟨_, lead, operand, rest, rfl, -⟩ := hfirst.property
        exact .inr ⟨_, .operand hlexed hshape hfirst⟩
    · exact .inr ⟨_, .shape hlexed hfirst⟩
  · exact .inr ⟨_, .word hfirst⟩

theorem getElem_ofWords_of_puts {lines : List (List Text)} {cells : List Word}
    (hputs : List.Forall₂ Puts lines cells) (cell : Address) :
    (∀ line, lines[cell.val]? = some line → Puts line (Memory.ofWords cells)[cell]) ∧
      (lines[cell.val]? = none → (Memory.ofWords cells)[cell] = 0) :=
  Memory.get_ofWords_of_forall₂ hputs cell

/-- A source has an image exactly if each of its lines is vacant or puts a word into memory and at most a
hundred do. The image holds these words in the order of their lines, and zero behind them. The
characters of a line are what its bytes encode. -/
theorem image_compile_lays_out_lines (assembler : Assembler) (source : Text) :
    (∀ line cs, Text.chars line = cs ↔ Text.Decodes line cs) ∧
    ((∃ image, (assembler.compile source).image = .ok image) ↔
      (∀ line ∈ wordLines source, Vacant line ∨ ∃ word, Puts line word) ∧
        (occupying (wordLines source)).length ≤ 100) ∧
    ∀ image, (assembler.compile source).image = .ok image → ∀ cell : Address,
      (∀ line, (occupying (wordLines source))[cell.val]? = some line → Puts line image[cell]) ∧
      ((occupying (wordLines source))[cell.val]? = none → image[cell] = 0) := by
  refine ⟨fun _ _ => Text.chars_eq_iff, ?_⟩
  rw [← exists_inRange_iff 1]
  have hok : (∃ lines, InRange 1 (wordLines source) lines) ∧
      (occupying (wordLines source)).length ≤ 100 → ∃ cells,
        List.Forall₂ Puts (occupying (wordLines source)) cells ∧
          (assembler.compile source).image = .ok (Memory.ofWords cells) :=
    fun ⟨⟨_, hlines⟩, hcount⟩ => image_of_fits assembler hlines hcount
  rcases inRange_or_rejected source with haccepted | ⟨fault, hrejected⟩
  · obtain ⟨cells, hputs, himage⟩ := hok haccepted
    refine ⟨iff_of_true ⟨_, himage⟩ haccepted, ?_⟩
    intro image hsame
    obtain rfl : Memory.ofWords cells = image := Except.ok.inj (himage.symm.trans hsame)
    exact getElem_ofWords_of_puts hputs
  · have hnone (image : Memory) : (assembler.compile source).image ≠ .ok image := by
      rw [image_of_rejected assembler hrejected]
      simp
    refine ⟨iff_of_false (fun ⟨image, himage⟩ => hnone image himage) ?_,
      fun image himage => absurd himage (hnone image)⟩
    intro haccepted
    obtain ⟨cells, -, himage⟩ := hok haccepted
    exact hnone _ himage

/-- A source without an image has the fault that is wrong with it: the first word that no line can hold,
or else the first token that its line does not allow there, or else the first operand that names no
cell, or else the number of words that do not fit. A command without a memory word is no such fault. -/
theorem image_compile_eq_error_iff_rejected (assembler : Assembler) (source : Text) :
    (∀ fault, (assembler.compile source).image = .error fault ↔ Rejected source fault) ∧
    ∀ listing, (assembler.compile source).image ≠ .error (.unencodable listing) ∧
      ∀ line, (assembler.compile source).image ≠ .error (.inLine line (.unencodable listing)) := by
  have hiff (fault : Fault) :
      (assembler.compile source).image = .error fault ↔ Rejected source fault := by
    refine ⟨fun herror => ?_, image_of_rejected assembler⟩
    rcases inRange_or_rejected source with ⟨⟨_, hlines⟩, hcount⟩ | ⟨other, hrejected⟩
    · obtain ⟨cells, -, himage⟩ := image_of_fits assembler hlines hcount
      exact absurd (himage.symm.trans herror) (by simp)
    · have hsame := (image_of_rejected assembler hrejected).symm.trans herror
      rwa [← Except.error.inj hsame]
  refine ⟨hiff, fun listing => ⟨fun herror => ?_, fun line herror => ?_⟩⟩
  · cases (hiff _).mp herror
  · cases (hiff _).mp herror

end Source

end LittleMan
