import LittleMan.Proofs.Tape

/-!
# The words that a tape delivers

Said without buffers: a text is words with spaces between them (`Text.Spaced`), and each number that is
asked for is answered from the next word. The buffer shows in one place only. A word has to fit it
together with the space that ends it, and at the end of the text with room for one more byte; the first
word that does not is refused. Written numbers always fit, so they come back as they were sent.
-/

namespace LittleMan

namespace Text

/-- No character of the text is a space. -/
def Spaceless (text : Text) : Prop := ∀ c ∈ chars text, isBlank c = false

/-- The words of a text in order, each with the encoding of the space that ends it. Nothing ends a word at
the end of the text. -/
inductive Spaced : Text → List (Text × Text) → Prop where
  | nil : Spaced [] []
  | blank {c : Char} (hblank : isBlank c = true) {rest : Text} {words : List (Text × Text)}
    (hrest : Spaced rest words) : Spaced (String.utf8EncodeChar c ++ rest) words
  | last {word : Text} (hne : word ≠ []) (hword : Spaceless word) : Spaced word [(word, [])]
  | word {word : Text} (hne : word ≠ []) (hword : Spaceless word) {c : Char}
    (hblank : isBlank c = true) {rest : Text} {words : List (Text × Text)} (hrest : Spaced rest words) :
    Spaced (word ++ (String.utf8EncodeChar c ++ rest)) ((word, String.utf8EncodeChar c) :: words)

theorem exists_spaced (text : Text) : ∃ words, Spaced text words := by
  rcases solid_or_blank text with hsolid | ⟨word, c, rest, hword, hblank, rfl⟩
  · cases text with
    | nil => exact ⟨[], .nil⟩
    | cons byte text => exact ⟨_, .last (List.cons_ne_nil byte text) (solid_iff.mp hsolid)⟩
  · obtain ⟨words, hrest⟩ := exists_spaced rest
    by_cases hne : word = []
    · subst hne
      exact ⟨words, .blank hblank hrest⟩
    · exact ⟨_, .word hne (solid_iff.mp hword) hblank hrest⟩
termination_by text.length
decreasing_by
  have hpos := c.utf8Size_pos
  subst_vars
  simp only [List.length_append, String.length_utf8EncodeChar]
  omega

/-- What stands before the first space of a text tells how its words go on. -/
theorem Spaced.cases_beforeBlank {text : Text} {words : List (Text × Text)} (h : Spaced text words) :
    (beforeBlank? text = none ∧ words = if text = [] then [] else [(text, [])]) ∨
      ∃ word width others, beforeBlank? text = some (word, width) ∧ 0 < width ∧
        width + word.length ≤ text.length ∧ Spaced (text.drop (word.length + width)) others ∧
        words = if word = [] then others else (word, (text.drop word.length).take width) :: others := by
  have hspace (word : Text) (hword : Spaceless word) {c : Char} (hblank : isBlank c = true) {rest : Text}
      {others : List (Text × Text)} (hrest : Spaced rest others) :
      beforeBlank? (word ++ (String.utf8EncodeChar c ++ rest)) = some (word, c.utf8Size) ∧
        0 < c.utf8Size ∧ c.utf8Size + word.length ≤ (word ++ (String.utf8EncodeChar c ++ rest)).length ∧
        Spaced ((word ++ (String.utf8EncodeChar c ++ rest)).drop (word.length + c.utf8Size)) others := by
    refine ⟨beforeBlank?_append_encoding (solid_iff.mpr hword) hblank rest, c.utf8Size_pos, ?_, ?_⟩
    · simp only [List.length_append, String.length_utf8EncodeChar]
      omega
    · rw [← List.append_assoc, List.drop_left' (by simp)]
      exact hrest
  cases h with
  | nil => exact .inl ⟨rfl, rfl⟩
  | last hne hword =>
    exact .inl ⟨beforeBlank?_of_solid (solid_iff.mpr hword), (if_neg hne).symm⟩
  | @blank c hblank rest words hrest =>
    obtain ⟨hbefore, hpos, hlength, hothers⟩ :=
      hspace [] (fun _ hmem => by simp at hmem) hblank hrest
    exact .inr ⟨[], c.utf8Size, words, hbefore, hpos, hlength, hothers, rfl⟩
  | @word word hne hword c hblank rest words hrest =>
    obtain ⟨hbefore, hpos, hlength, hothers⟩ := hspace word hword hblank hrest
    refine .inr ⟨word, c.utf8Size, words, hbefore, hpos, hlength, hothers, ?_⟩
    rw [if_neg hne, List.drop_left, List.take_left' (String.length_utf8EncodeChar c)]

theorem Spaced.unique {text : Text} {words others : List (Text × Text)} (h : Spaced text words)
    (hother : Spaced text others) : words = others := by
  rcases h.cases_beforeBlank with ⟨hnone, rfl⟩ | ⟨word, width, tail, hsome, hpos, hlength, hrest, rfl⟩
  · rcases hother.cases_beforeBlank with ⟨-, rfl⟩ | ⟨word, width, tail, hsome, -⟩
    · rfl
    · cases hnone.symm.trans hsome
  · rcases hother.cases_beforeBlank with ⟨hnone, -⟩ | ⟨_, _, _, hsame, -, -, hothers, rfl⟩
    · cases hnone.symm.trans hsome
    · cases hsome.symm.trans hsame
      rw [hrest.unique hothers]
termination_by text.length
decreasing_by
  rw [List.length_drop]
  omega

/-- The words are the longest runs of characters without a space. -/
theorem Spaced.splitOnP_chars {text : Text} {words : List (Text × Text)} (h : Spaced text words) :
    ((chars text).splitOnP isBlank).filter (· ≠ []) = words.map fun word => chars word.1 := by
  have hsingle {word : Text} (hne : word ≠ []) (hword : Spaceless word) :
      ((chars word).splitOnP isBlank).filter (· ≠ []) = [chars word] := by
    have hchars : chars word ≠ [] := by
      intro hnil
      cases chars_eq_iff.mp hnil
      exact hne rfl
    rw [List.splitOnP_eq_singleton hword]
    simpa using hchars
  induction h with
  | nil => simp
  | last hne hword => exact hsingle hne hword
  | @blank c hblank rest words _ ih =>
    have hchars := chars_append_encoding [] c rest
    rw [List.nil_append] at hchars
    rw [hchars, List.splitOnP_append_cons _ _ hblank, List.filter_append, ih]
    simp
  | @word word hne hword c hblank rest words _ ih =>
    rw [chars_append_encoding, List.splitOnP_append_cons _ _ hblank, List.filter_append,
      hsingle hne hword, ih]
    rfl

end Text

/-! ### Words that fit -/

open Text

/-- A word can be cut off in a buffer: with the space that ends it, or at the end of the text with a byte to
spare. -/
def FitsBuffer (word : Text × Text) : Prop :=
  if word.2 = [] then word.1.length ≤ 65535 else word.1.length + word.2.length ≤ 65536

namespace Splitter

theorem words_encoding {c : Char} (hblank : isBlank c = true) (rest : Text) (atEnd : Bool) :
    words (String.utf8EncodeChar c ++ rest) atEnd =
      Prod.map id (c.utf8Size + ·) (words rest atEnd) := by
  have hpos := c.utf8Size_pos
  have hnil : (String.utf8EncodeChar c).drop c.utf8Size = [] := by simp
  have hwidth : blankWidth (String.utf8EncodeChar c) = c.utf8Size :=
    blankWidth_of_prefix hblank (List.prefix_refl _)
  have hlead : leadingBlanks (String.utf8EncodeChar c) = c.utf8Size := by
    rw [leadingBlanks_of_blank (by omega), hwidth, hnil]
    rfl
  rw [words_append, hlead, hnil, List.nil_append]

theorem fits_encoding_iff {c : Char} (hblank : isBlank c = true) (rest : Text) :
    words.Fits (String.utf8EncodeChar c ++ rest) ↔ words.Fits rest := by
  have hsize := c.utf8Size_le_four
  have hlength : (String.utf8EncodeChar c).length = c.utf8Size := String.length_utf8EncodeChar c
  have hnil : (String.utf8EncodeChar c).drop c.utf8Size = [] := by simp
  have hdrop : words.Fits (String.utf8EncodeChar c ++ rest) ↔
      words.Fits ((String.utf8EncodeChar c).drop c.utf8Size ++ rest) := by
    apply Scanner.fits_drop_iff (Nat.le_of_eq hlength.symm)
    · rw [hlength, Scanner.greatestSize]
      omega
    · rw [hnil]
      exact words_encoding hblank
  rwa [hnil] at hdrop

theorem fits_solid_iff {word : Text} (hword : Solid word) :
    words.Fits word ↔ word.length < Scanner.greatestSize := by
  constructor
  · intro hfits
    exact hfits.length_lt (List.prefix_refl word) (words_of_solid hword false)
  · exact fits_of_length_lt

/-- A word together with the space behind it has to fit: all but the last byte of that space tells nothing
yet. -/
theorem fits_word_iff {word : Text} (hword : Solid word) (hne : word ≠ []) {c : Char}
    (hblank : isBlank c = true) (rest : Text) :
    words.Fits (word ++ (String.utf8EncodeChar c ++ rest)) ↔
      word.length + c.utf8Size ≤ Scanner.greatestSize := by
  constructor
  · intro hfits
    have hpos := c.utf8Size_pos
    have hlength : (String.utf8EncodeChar c).dropLast.length = c.utf8Size - 1 := by simp
    have hpart : (String.utf8EncodeChar c).dropLast <+: String.utf8EncodeChar c :=
      List.dropLast_prefix _
    have hsolid := hword.append_prefix_encoding hpart (by omega)
    have hlt := hfits.length_lt
      ((List.prefix_append_right_inj word).mpr (hpart.trans (List.prefix_append _ rest)))
      (words_of_solid hsolid false)
    rw [List.length_append, hlength] at hlt
    omega
  · intro hsize
    exact fits_of_blank hword hne hblank hsize rest

end Splitter

namespace Text.Spaced

open Splitter

variable {text : Text} {runs : List (Text × Text)}

/-- The first word of a text is cut off, the others are left, and it fits a buffer if it should. -/
theorem first (h : Spaced text runs) :
    (words text true).1 = runs.head?.map Prod.fst ∧
      Spaced (text.drop (words text true).2) runs.tail ∧
      (words.Fits text ↔ ∀ run ∈ runs.head?, FitsBuffer run) := by
  induction h with
  | nil => exact ⟨rfl, .nil, iff_of_true (fits_of_length_lt (by decide)) (by simp)⟩
  | @blank c hblank rest runs _ ih =>
    rw [words_encoding hblank, fits_encoding_iff hblank]
    refine ⟨ih.1, ?_, ih.2.2⟩
    rw [Prod.map_snd, ← List.drop_drop, List.drop_left' (String.length_utf8EncodeChar c)]
    exact ih.2.1
  | @last word hne hword =>
    have hsolid := solid_iff.mpr hword
    have hcut : words word true = (some word, word.length) := by
      rw [words_of_solid hsolid, if_pos (by simpa using hne)]
    rw [hcut, fits_solid_iff hsolid]
    refine ⟨rfl, ?_, ?_⟩
    · rw [List.drop_length]
      exact .nil
    · simp [FitsBuffer, Scanner.greatestSize, Nat.lt_succ_iff]
  | @word word hne hword c hblank rest runs hrest _ =>
    have hsolid := solid_iff.mpr hword
    rw [words_of_blank hsolid hne hblank, fits_word_iff hsolid hne hblank]
    refine ⟨rfl, ?_, ?_⟩
    · rw [← List.append_assoc, List.drop_left' (by simp)]
      exact hrest
    · simp [FitsBuffer, Scanner.greatestSize]

end Text.Spaced

/-! ### One number after the other -/

namespace Tape

/-- What is answered for a word: the number that it spells, or that it is none. -/
inductive Answers (word : Text) : Except Fault Word → Prop where
  | value {value : Word} (hvalue : Decimal.Spells word value.toInt) : Answers word (.ok value)
  | bad (hvalue : ∀ value : Word, ¬ Decimal.Spells word value.toInt) :
    Answers word (.error (.tapeValue word))

theorem answers_number (word : Text) : Answers word (number word) := by
  unfold number
  cases hvalue : Decimal.word? word with
  | some value => exact .value (Decimal.word?_eq_some_iff.mp hvalue)
  | none =>
    refine .bad fun value hspells => ?_
    rw [Decimal.word?_eq_some_iff.mpr hspells] at hvalue
    cases hvalue

/-- The answer to asking for a number after having asked for `count` numbers. -/
def answer (tape : Tape) : Nat → Except Fault Word
  | 0 => tape.receive.1
  | count + 1 => tape.receive.2.answer count

variable {tape : Tape} {text : Text} {fault : Option Fault} {runs : List (Text × Text)}

theorem Holds.receive_fitting (h : tape.Holds text fault) (hruns : Text.Spaced text runs)
    (hfits : ∀ run ∈ runs.head?, FitsBuffer run) :
    (∀ run ∈ runs.head?, Answers run.1 tape.receive.1) ∧
      (runs = [] → tape.receive.1 = .error (fault.getD .tapeEmpty)) ∧
      ∃ rest, tape.receive.2.Holds rest fault ∧ Text.Spaced rest runs.tail := by
  obtain ⟨hword, hrest, hsame⟩ := hruns.first
  obtain ⟨hanswer, hholds, -⟩ := h.receive (hsame.mpr hfits)
  rw [hword] at hanswer
  refine ⟨?_, ?_, _, hholds, hrest⟩
  · intro run hrun
    rw [hanswer, hrun]
    exact answers_number run.1
  · rintro rfl
    exact hanswer

/-- The i-th number is answered from the i-th word while the words fit, and a word that does not is refused
when its turn comes. -/
theorem Holds.answer (h : tape.Holds text fault) (hruns : Text.Spaced text runs) (i : Nat)
    (hearlier : ∀ run ∈ runs.take i, FitsBuffer run) :
    (∀ run, runs[i]? = some run → FitsBuffer run → Answers run.1 (tape.answer i)) ∧
      (∀ run, runs[i]? = some run → ¬ FitsBuffer run → tape.answer i = .error .tokenTooLong) ∧
      (runs[i]? = none → tape.answer i = .error (fault.getD .tapeEmpty)) := by
  induction i generalizing tape text runs with
  | zero =>
    rw [← List.head?_eq_getElem?]
    refine ⟨fun run hrun hfits => ?_, fun run hrun hlong => ?_, fun hnone => ?_⟩
    · exact (h.receive_fitting hruns (by simpa [hrun] using hfits)).1 run hrun
    · exact h.receive_refused (mt hruns.first.2.2.mp (by simpa [hrun] using hlong))
    · have hnil := List.head?_eq_none_iff.mp hnone
      exact (h.receive_fitting hruns (by simp [hnil])).2.1 hnil
  | succ i ih =>
    obtain ⟨hhead, htail⟩ : (∀ run ∈ runs.head?, FitsBuffer run) ∧
        ∀ run ∈ runs.tail.take i, FitsBuffer run := by
      cases runs with
      | nil => simp
      | cons run runs => simpa using hearlier
    obtain ⟨-, -, rest, hholds, hrest⟩ := h.receive_fitting hruns hhead
    rw [← List.getElem?_tail]
    exact ih hholds hrest htail

/-- A text has its words in one way: the longest runs of its characters without a space, each with the
encoding of the space that ends it. A tape with the text on it answers from them, one after the other, and
behind the last one that there are no more, or the fault of the reader. Of the words that do not fit a
buffer the first is refused when its turn comes, and those before it are answered. -/
theorem answer_from_words (text : Text) (fault : Option Fault) (output : Option Writer) :
    (∃! words, Text.Spaced text words) ∧ ∀ words, Text.Spaced text words →
      ((Text.chars text).splitOnP isBlank).filter (· ≠ []) = words.map (fun word => Text.chars word.1) ∧
      ∀ i, (∀ earlier ∈ words.take i, FitsBuffer earlier) →
        let reply := answer { input := .loaded { pending := text, fault }, output } i
        (∀ word, words[i]? = some word → FitsBuffer word → Answers word.1 reply) ∧
        (∀ word, words[i]? = some word → ¬ FitsBuffer word → reply = .error .tokenTooLong) ∧
        (words[i]? = none → reply = .error (fault.getD .tapeEmpty)) := by
  obtain ⟨words, hwords⟩ := Text.exists_spaced text
  refine ⟨⟨words, hwords, fun others hothers => hothers.unique hwords⟩, ?_⟩
  intro words hwords
  refine ⟨hwords.splitOnP_chars, fun i hearlier => ?_⟩
  exact (holds_loaded text fault output).answer hwords i hearlier

/-! ### Written and read back -/

/-- Writes numbers one after the other, with the fault of each writing. -/
def sendAll (tape : Tape) : List Word → List (Option Fault) × Tape
  | [] => ([], tape)
  | value :: values =>
    let rest := (tape.send value).2.sendAll values
    ((tape.send value).1 :: rest.1, rest.2)

theorem Took.sendAll {tape : Tape} {earlier : List Word} (h : tape.Took earlier) (values : List Word) :
    (∀ fault ∈ (tape.sendAll values).1, fault = none) ∧ (tape.sendAll values).2.Took (earlier ++ values) := by
  induction values generalizing tape earlier with
  | nil =>
    rw [List.append_nil]
    exact ⟨by simp [Tape.sendAll], h⟩
  | cons value values ih =>
    obtain ⟨hsent, htook, -⟩ := h.send value
    obtain ⟨hrest, htaken⟩ := ih htook
    rw [List.append_assoc] at htaken
    refine ⟨?_, htaken⟩
    intro fault hfault
    rcases List.mem_cons.mp hfault with rfl | hlater
    · exact hsent
    · exact hrest fault hlater

theorem Gives.answer {tape : Tape} {values : List Word} (h : tape.Gives values) (i : Nat) :
    (∀ value, values[i]? = some value → tape.answer i = .ok value) ∧
      (values.length ≤ i → tape.answer i = .error .tapeEmpty) := by
  induction i generalizing tape values with
  | zero =>
    cases values with
    | nil => exact ⟨by simp, fun _ => h.receive_nil.1⟩
    | cons first values =>
      refine ⟨fun value hvalue => ?_, by simp⟩
      obtain rfl : first = value := by simpa using hvalue
      exact h.receive_cons.1
  | succ i ih =>
    cases values with
    | nil =>
      obtain ⟨-, hrest, -⟩ := h.receive_nil
      exact ⟨by simp, fun _ => (ih hrest).2 (Nat.zero_le i)⟩
    | cons first values =>
      obtain ⟨-, hrest, -⟩ := h.receive_cons
      exact ⟨fun value hvalue => (ih hrest).1 value hvalue,
        fun hlength => (ih hrest).2 (Nat.le_of_succ_le_succ hlength)⟩

/-- Numbers that are written to an empty output come back in their order from a new tape that has the text
on it, and behind them there are no more. So the text tells which numbers were written. -/
theorem answer_from_sent (tape : Tape) (values : List Word) (output : Option Writer) :
    let sent := (tape.setOutput (some {})).sendAll values
    let readback : Tape := { input := .loaded { pending := sent.2.written }, output }
    (∀ fault ∈ sent.1, fault = none) ∧
      (∀ i value, values[i]? = some value → readback.answer i = .ok value) ∧
      (∀ i, values.length ≤ i → readback.answer i = .error .tapeEmpty) ∧
      ∀ (other : Tape) (others : List Word),
        ((other.setOutput (some {})).sendAll others).2.written = sent.2.written → others = values := by
  intro sent readback
  have hempty (tape : Tape) : (tape.setOutput (some {})).Took [] := ⟨{}, rfl, rfl, rfl⟩
  have hwritten (tape : Tape) (values : List Word) :
      ((tape.setOutput (some {})).sendAll values).2.written = values.flatMap line :=
    ((hempty tape).sendAll values).2.written
  have hgives : readback.Gives values := by
    apply gives_of_lists
    rw [hwritten]
    exact lists_lines values
  refine ⟨((hempty tape).sendAll values).1, fun i => (hgives.answer i).1, fun i => (hgives.answer i).2, ?_⟩
  intro other others hsame
  rw [hwritten, hwritten] at hsame
  have hnumbers := congrArg numbers hsame
  rw [numbers_lines, numbers_lines] at hnumbers
  exact Except.ok.inj hnumbers

end Tape

end LittleMan
