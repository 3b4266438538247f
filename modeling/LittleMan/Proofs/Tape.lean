import LittleMan.Tape
import LittleMan.Proofs.Scanning
import LittleMan.Proofs.Text.Decimal

/-!
# What a tape gives and takes

Reading a tape goes by the text that it has yet to give, `Holds`, and not by how much of it has been read
ahead. A number that was written in plain decimals is read as that number, so a list of numbers comes back
as it was, be it written with blanks between them or one a line.
-/

namespace LittleMan.Tape

open Splitter

/-- The tape has yet to give a text, and then the fault, if there is one, in place of an end. -/
def Holds (tape : Tape) (text : Text) (fault : Option Fault) : Prop :=
  ∃ scanner opened, tape.opened? = some (scanner, opened) ∧ scanner.Sound ∧ scanner.rest = text ∧
    scanner.reader.fault = fault

variable {tape : Tape} {text : Text} {fault : Option Fault}

theorem holds_loaded (text : Text) (fault : Option Fault) (output : Option Writer) :
    Holds { input := .loaded { pending := text, fault }, output } text fault :=
  ⟨{ reader := { pending := text, fault } }, { input := .lent, output }, rfl,
    ⟨Nat.le_refl 0, Nat.zero_le _, .inl rfl⟩, rfl, rfl⟩

theorem opened?_frame {opened : Tape} {scanner : Scanner}
    (hopened : tape.opened? = some (scanner, opened)) :
    opened.output = tape.output ∧ ∀ reader, opened.input = .loaded reader → tape.input = .loaded reader := by
  unfold opened? at hopened
  split at hopened <;> cases hopened <;> simp

theorem output_receive (tape : Tape) : tape.receive.2.output = tape.output := by
  unfold receive
  cases hopened : tape.opened? with
  | none => rfl
  | some opened => exact (opened?_frame hopened).1

theorem input_send (tape : Tape) (value : Word) :
    (tape.send value).2.input = tape.input ∧ (tape.send value).2.scanner = tape.scanner := by
  unfold send
  split <;> exact ⟨rfl, rfl⟩

/-- A tape that has been opened is read through its scanner from then on. -/
theorem opened?_withScanner {opened : Tape} {scanner : Scanner}
    (h : tape.opened? = some (scanner, opened)) (next : Scanner) :
    opened? { opened with scanner := some next } =
      some (next, { opened with scanner := some next }) := by
  have hinput : opened.input ≠ .none := by
    unfold opened? at h
    split at h <;> cases h
    · assumption
    · simp
  unfold opened?
  cases hopened : opened.input with
  | none => exact absurd hopened hinput
  | loaded reader => rfl
  | lent => rfl

theorem opened?_withOutput (tape : Tape) (output : Option Writer) :
    opened? { tape with output } = tape.opened?.map (Prod.map id fun opened => { opened with output }) := by
  rcases tape with ⟨_ | _ | _, _ | _, _⟩ <;> rfl

theorem Holds.withOutput (h : tape.Holds text fault) (output : Option Writer) :
    Holds { tape with output } text fault := by
  obtain ⟨scanner, opened, hopened, hscanner⟩ := h
  refine ⟨scanner, { opened with output }, ?_, hscanner⟩
  rw [opened?_withOutput, hopened]
  rfl

/-- Reading gives the first word of what the tape holds, whatever of it has been read ahead. -/
theorem Holds.receive (h : tape.Holds text fault) (hfits : words.Fits text) :
    tape.receive.1 =
      (match (words text true).1 with
        | some word => number word
        | none => .error (fault.getD .tapeEmpty)) ∧
      tape.receive.2.Holds (text.drop (words text true).2) fault ∧
      tape.receive.2.output = tape.output := by
  obtain ⟨scanner, opened, hopened, hsound, rfl, rfl⟩ := h
  have hnext := Scanner.next_of_fits lawful_words hsound hfits
  have hreader := Scanner.fault_reader_next words scanner
  have hframe := (opened?_frame hopened).1
  unfold receive
  rw [hopened]
  refine ⟨?_, ?_, hframe⟩
  · dsimp only
    rw [← hnext.token]
    cases htoken : (scanner.next words).1 with
    | some word => rfl
    | none =>
      dsimp only
      rw [hnext.fault htoken]
  · exact ⟨_, _, opened?_withScanner hopened _, hnext.sound, hnext.rest, hreader⟩

/-- A first word that does not fit a buffer is refused. -/
theorem Holds.receive_refused (h : tape.Holds text fault) (hlong : ¬ words.Fits text) :
    tape.receive.1 = .error .tokenTooLong := by
  obtain ⟨scanner, opened, hopened, hsound, rfl, -⟩ := h
  obtain ⟨hnone, hrefused⟩ := Scanner.next_of_not_fits lawful_words hsound hlong
  unfold Tape.receive
  rw [hopened]
  dsimp only
  rw [hnone, hrefused]
  rfl

/-! ### Lists of numbers -/

theorem number_plain (value : Word) : number (Decimal.plain value.toInt) = .ok value := by
  simp only [number, Decimal.word?_plain]

/-- A text lists numbers if it has them in plain decimals, each with a space behind it. The last one may go
without. -/
inductive Lists : Text → List Word → Prop where
  | nil : Lists [] []
  | last (value : Word) : Lists (Decimal.plain value.toInt) [value]
  | cons (value : Word) {c : Char} (hblank : isBlank c = true) {rest : Text} {values : List Word}
    (hrest : Lists rest values) :
    Lists (Decimal.plain value.toInt ++ (String.utf8EncodeChar c ++ rest)) (value :: values)

theorem lists_join (values : List Word) :
    Lists (Text.join (utf8 " ") (values.map fun value => Decimal.plain value.toInt)) values := by
  unfold Text.join
  induction values with
  | nil => exact .nil
  | cons value values ih =>
    cases values with
    | nil =>
      rw [List.map_singleton, List.intercalate_singleton]
      exact .last value
    | cons second values =>
      rw [List.map_cons, List.map_cons, List.intercalate_cons_cons, List.append_assoc]
      exact .cons value (c := ' ') (by decide) ih

theorem lists_lines (values : List Word) : Lists (values.flatMap line) values := by
  induction values with
  | nil => exact .nil
  | cons value values ih =>
    rw [List.flatMap_cons, line, List.append_assoc]
    exact .cons value (c := '\n') (by decide) ih

theorem Lists.length_le {values : List Word} (h : Lists text values) : values.length ≤ text.length := by
  induction h with
  | nil => exact Nat.le_refl 0
  | last value => exact List.length_pos_iff.mpr (Decimal.plain_visible value.toInt).1
  | cons value hblank _ ih =>
    have hpos := List.length_pos_iff.mpr (Decimal.plain_visible value.toInt).1
    simp only [List.length_cons, List.length_append]
    omega

theorem length_plain_add_lt (value : Word) :
    (Decimal.plain value.toInt).length + 4 < Scanner.greatestSize := by
  have hlength := Decimal.length_plain_le value
  simp only [Scanner.greatestSize]
  omega

/-- Any number with its space is far from filling a buffer. -/
theorem Lists.fits {values : List Word} (h : Lists text values) : words.Fits text := by
  cases h with
  | nil => exact fits_of_length_lt (by decide)
  | last value =>
    have hlength := length_plain_add_lt value
    exact fits_of_length_lt (by omega)
  | @cons value c hblank rest values _ =>
    have hlength := length_plain_add_lt value
    have hwidth := c.utf8Size_le_four
    exact fits_of_blank (Text.solid_plain _) (Decimal.plain_visible _).1 hblank (by omega) rest

theorem Lists.words_nil (h : Lists text []) : (words text true).1 = none ∧ text = [] := by
  cases h
  exact ⟨rfl, rfl⟩

theorem Lists.words_cons {value : Word} {values : List Word} (h : Lists text (value :: values)) :
    (words text true).1 = some (Decimal.plain value.toInt) ∧
      Lists (text.drop (words text true).2) values := by
  have hne := (Decimal.plain_visible value.toInt).1
  cases h with
  | last =>
    rw [words_of_solid (Text.solid_plain _)]
    simp only [Bool.true_and, Bool.not_eq_true', List.isEmpty_eq_false_iff, ne_eq, hne, not_false_eq_true,
      if_true, List.drop_length, true_and]
    exact .nil
  | @cons _ c hblank rest _ hrest =>
    rw [words_of_blank (Text.solid_plain _) hne hblank]
    refine ⟨rfl, ?_⟩
    rw [← List.append_assoc, List.drop_left' (by simp)]
    exact hrest

/-- The tape gives these numbers and then ends. -/
def Gives (tape : Tape) (values : List Word) : Prop := ∃ text, Lists text values ∧ tape.Holds text none

theorem gives_of_lists {values : List Word} (h : Lists text values) (output : Option Writer) :
    Gives { input := .loaded { pending := text }, output } values :=
  ⟨text, h, holds_loaded text none output⟩

theorem Gives.receive_nil (h : tape.Gives []) :
    tape.receive.1 = .error .tapeEmpty ∧ tape.receive.2.Gives [] ∧
      tape.receive.2.output = tape.output := by
  obtain ⟨text, hlists, hholds⟩ := h
  obtain ⟨hnone, rfl⟩ := hlists.words_nil
  obtain ⟨hresult, hrest, houtput⟩ := hholds.receive hlists.fits
  rw [hnone] at hresult
  rw [List.drop_nil] at hrest
  exact ⟨hresult, ⟨[], .nil, hrest⟩, houtput⟩

theorem Gives.receive_cons {value : Word} {values : List Word} (h : tape.Gives (value :: values)) :
    tape.receive.1 = .ok value ∧ tape.receive.2.Gives values ∧
      tape.receive.2.output = tape.output := by
  obtain ⟨text, hlists, hholds⟩ := h
  obtain ⟨hsome, hvalues⟩ := hlists.words_cons
  obtain ⟨hresult, hrest, houtput⟩ := hholds.receive hlists.fits
  rw [hsome] at hresult
  exact ⟨hresult.trans (number_plain value), ⟨_, hvalues, hrest⟩, houtput⟩

/-- The numbers on a tape are those that it gives one after the other. -/
theorem Gives.numbersWithin {values : List Word} (h : tape.Gives values) {count : Nat}
    (hcount : values.length < count) (read : List Word) :
    numbersWithin count read tape = .ok (read.reverse ++ values) := by
  induction values generalizing tape count read with
  | nil =>
    obtain ⟨count, rfl⟩ := Nat.exists_eq_add_one_of_ne_zero (Nat.ne_of_gt hcount)
    have hreceive : tape.receive = (.error .tapeEmpty, tape.receive.2) := Prod.ext h.receive_nil.1 rfl
    rw [Tape.numbersWithin, hreceive, List.append_nil]
  | cons value values ih =>
    obtain ⟨hvalue, hrest, -⟩ := h.receive_cons
    have hreceive : tape.receive = (.ok value, tape.receive.2) := Prod.ext hvalue rfl
    cases count with
    | zero => omega
    | succ count =>
      rw [Tape.numbersWithin, hreceive]
      dsimp only
      rw [ih hrest (Nat.lt_of_succ_lt_succ hcount), List.reverse_cons, List.append_assoc]
      rfl

/-- Numbers written one a line are read back as they were. -/
theorem numbers_lines (values : List Word) : numbers (values.flatMap line) = .ok values := by
  have hlists := lists_lines values
  exact (gives_of_lists hlists none).numbersWithin (Nat.lt_succ_of_le hlists.length_le) []

/-- The writer on the tape takes whatever comes, and has taken these numbers so far. -/
def Took (tape : Tape) (values : List Word) : Prop :=
  ∃ writer, tape.output = some writer ∧ writer.limit = none ∧ writer.text = values.flatMap line

theorem Took.written {values : List Word} (h : tape.Took values) : tape.written = values.flatMap line := by
  obtain ⟨writer, houtput, -, htext⟩ := h
  rw [Tape.written, houtput]
  exact htext

theorem Took.send {values : List Word} (h : tape.Took values) (value : Word) :
    (tape.send value).1 = none ∧ (tape.send value).2.Took (values ++ [value]) ∧
      ∃ output, (tape.send value).2 = { tape with output } := by
  obtain ⟨writer, houtput, hlimit, htext⟩ := h
  have hfits : writer.fitting (line value) = line value := by rw [Writer.fitting, hlimit]
  have hsend : tape.send value =
      (none, { tape with output := some { writer with taken := writer.taken ++ line value } }) := by
    simp only [Tape.send, houtput, Writer.write, hfits, if_true]
  rw [hsend]
  refine ⟨rfl, ⟨_, rfl, hlimit, ?_⟩, _, rfl⟩
  rw [List.flatMap_append, ← htext]
  simp [Writer.text]

end LittleMan.Tape
