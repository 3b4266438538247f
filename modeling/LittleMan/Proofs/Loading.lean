import LittleMan.Proofs.Image

/-!
# Loading an image

Three things can spoil an image: a line that no buffer holds, a number too many, and a line that is not a
number. The lines are taken in order and the first that spoils the image decides, whatever stands behind it
and however the bytes come in. Only if there is none does it matter how the reading ended.
-/

namespace LittleMan

open Text

namespace Splitter

theorem trim_dropReturn (line : Text) : trim (dropReturn line) = trim line := by
  unfold dropReturn
  split
  · next hlast =>
    obtain ⟨front, rfl⟩ := List.getLast?_eq_some_iff.mp hlast
    rw [List.dropLast_concat]
    exact (trim_append_blank front (c := '\r') (by decide)).symm
  · rfl

end Splitter

theorem Text.exists_lined (text : Text) : ∃ lines, Lined text lines := by
  induction text using separatorInduction newline with
  | last line hline =>
    by_cases hne : line = []
    · exact ⟨[], hne ▸ .nil⟩
    · exact ⟨[line], .last hne hline⟩
  | more line rest hline ih =>
    obtain ⟨lines, hlines⟩ := ih
    exact ⟨line :: lines, .line hline hlines⟩

namespace Memory

/-- A line behind others spoils the image that they begin. -/
inductive Spoils (before : List Text) (line : Text) : Fault → Prop where
  | long (hlong : 65535 < line.length) : Spoils before line .tokenTooLong
  | surplus (hlength : line.length ≤ 65535) (hline : trim line ≠ [])
    (hfull : 100 ≤ (entries before).length) : Spoils before line .imageTooLong
  | value (hlength : line.length ≤ 65535) (hline : trim line ≠ [])
    (hroom : (entries before).length < 100)
    (hvalue : ∀ value : Word, ¬ Decimal.Spells (trim line) value.toInt) :
    Spoils before line (.imageValue (trim line))

/-- No line spoils the image. -/
inductive Clean : List Text → Prop where
  | nil : Clean []
  | concat {before : List Text} (hbefore : Clean before) {line : Text}
    (hline : ∀ fault, ¬ Spoils before line fault) : Clean (before ++ [line])

/-- The first line that spoils the image does so with this fault. -/
def Spoiled (lines : List Text) (fault : Fault) : Prop :=
  ∃ before line after, lines = before ++ line :: after ∧ Clean before ∧ Spoils before line fault

theorem clean_or_spoiled (lines : List Text) : Clean lines ∨ ∃ fault, Spoiled lines fault := by
  induction lines using List.reverseRecOn with
  | nil => exact .inl .nil
  | append_singleton before line ih =>
    rcases ih with hclean | ⟨fault, front, other, after, rfl, hclean, hspoils⟩
    · by_cases hline : ∃ fault, Spoils before line fault
      · obtain ⟨fault, hspoils⟩ := hline
        exact .inr ⟨fault, before, line, [], rfl, hclean, hspoils⟩
      · push Not at hline
        exact .inl (.concat hclean hline)
    · refine .inr ⟨fault, front, other, after ++ [line], ?_, hclean, hspoils⟩
      rw [List.append_assoc, List.cons_append]

/-- A clean image has room for its lines in the buffer and for their numbers in the memory. -/
theorem Clean.exists_values {lines : List Text} (h : Clean lines) :
    (∀ line ∈ lines, line.length < Scanner.greatestSize) ∧ ∃ values : List Word,
      List.Forall₂ (fun entry value => Decimal.Spells entry value.toInt) (entries lines) values ∧
      values.length ≤ cellCount := by
  induction h with
  | nil => exact ⟨by simp, [], .nil, by decide⟩
  | @concat before _ line hline ih =>
    obtain ⟨hfits, values, hvalues, hcount⟩ := ih
    have hlength : line.length ≤ 65535 := by
      by_contra hlong
      exact hline _ (.long (by omega))
    have hentries : entries (before ++ [line]) = entries before ++ entries [line] := by
      simp [entries]
    constructor
    · rw [List.forall_mem_append, List.forall_mem_singleton]
      exact ⟨hfits, Nat.lt_succ_of_le hlength⟩
    · by_cases hblank : trim line = []
      · rw [entries_cons_of_blank hblank] at hentries
        rw [hentries]
        exact ⟨values, by simpa [entries] using hvalues, hcount⟩
      · have hroom : (entries before).length < 100 := by
          by_contra hfull
          exact hline _ (.surplus hlength hblank (by omega))
        have hspelled : ∃ value : Word, Decimal.Spells (trim line) value.toInt := by
          by_contra hnone
          push Not at hnone
          exact hline _ (.value hlength hblank hroom hnone)
        obtain ⟨value, hvalue⟩ := hspelled
        rw [hentries, entries_cons_of_not_blank hblank]
        refine ⟨values ++ [value], List.rel_append hvalues (.cons hvalue .nil), ?_⟩
        rw [hvalues.length_eq] at hroom
        rw [List.length_append]
        exact hroom

theorem wordsOfLines_dropReturn (count : Nat) (read : List Word) (lines : List Text) :
    wordsOfLines count read (lines.map Splitter.dropReturn) = wordsOfLines count read lines := by
  induction lines generalizing count read with
  | nil => rfl
  | cons line lines ih =>
    rw [List.map_cons, wordsOfLines, wordsOfLines, Splitter.trim_dropReturn]
    simp only [ih]

theorem wordsOfLines_of_spelled {before : List Text} {values : List Word}
    (hvalues : List.Forall₂ (fun entry value => Decimal.Spells entry value.toInt) (entries before) values)
    (hcount : values.length ≤ cellCount) (rest : List Text) :
    wordsOfLines 0 [] ((before ++ rest).map Splitter.dropReturn) =
      wordsOfLines values.length values.reverse rest := by
  rw [wordsOfLines_dropReturn, wordsOfLines_append hvalues (by omega), Nat.zero_add, List.append_nil]

theorem read_of_spoiled {text : Text} {lines : List Text} (hlined : Lined text lines) {fault : Fault}
    (h : Spoiled lines fault) (failure : Option Fault) :
    Memory.read { pending := text, fault := failure } = .error fault := by
  obtain ⟨before, line, after, rfl, hclean, hspoils⟩ := h
  obtain ⟨hfits, values, hvalues, hcount⟩ := hclean.exists_values
  have hwords := wordsOfLines_of_spelled hvalues hcount
  have hsame := hvalues.length_eq
  have htokens := Scanner.tokens_of_lined hlined failure
  rw [List.takeWhile_append_of_pos fun other hmem => decide_eq_true (hfits other hmem)] at htokens
  unfold cellCount at hcount
  cases hspoils with
  | long hlong =>
    -- The lines in front of it are words, so the fault of the scanner comes through.
    have hover : ¬ line.length < Scanner.greatestSize := Nat.not_lt_of_le hlong
    rw [List.takeWhile_cons_of_neg (by simpa using hover), if_neg fun hall => hover (hall line (by simp))]
      at htokens
    exact read_of_fault htokens (hwords []) rfl
  | surplus hlength hline hfull =>
    have hunder : line.length < Scanner.greatestSize := Nat.lt_succ_of_le hlength
    have hcells : values.length = cellCount := by
      show values.length = 100
      omega
    rw [List.takeWhile_cons_of_pos (by simpa using hunder)] at htokens
    apply read_of_error htokens
    rw [hwords, wordsOfLines, if_neg hline, if_pos hcells]
  | value hlength hline hroom hvalue =>
    have hunder : line.length < Scanner.greatestSize := Nat.lt_succ_of_le hlength
    have hcells : values.length ≠ cellCount := by
      show values.length ≠ 100
      omega
    have hnone : Decimal.word? (trim line) = none := by
      rw [Option.eq_none_iff_forall_ne_some]
      intro value hsome
      exact hvalue value (Decimal.word?_eq_some_iff.mp hsome)
    rw [List.takeWhile_cons_of_pos (by simpa using hunder)] at htokens
    apply read_of_error htokens
    rw [hwords, wordsOfLines, if_neg hline, if_neg hcells, hnone]

/-- The first line of a text that spoils its image decides what reading it gives: the fault of that line. If
there is none, the fault of the reader counts, and then whether there is a line at all that is not blank. The
words of these lines fill the image from cell 0 on, and zeros the rest. A line is taken without the spaces at
its ends. -/
theorem read_decided_by_first_spoiling_line (text : Text) (failure : Option Fault) :
    (∀ line core, trim line = core ↔ Trimmed line core) ∧ (∃ lines, Lined text lines) ∧
    ∀ lines, Lined text lines →
      (Clean lines ∨ ∃ fault, Spoiled lines fault) ∧
      (∀ fault, Spoiled lines fault →
        Memory.read { pending := text, fault := failure } = .error fault) ∧
      (Clean lines →
        (∀ fault, failure = some fault →
          Memory.read { pending := text, fault := failure } = .error fault) ∧
        (failure = none → entries lines = [] →
          Memory.read { pending := text, fault := failure } = .error .imageEmpty) ∧
        (failure = none → entries lines ≠ [] → ∃ (values : List Word) (image : Memory),
          List.Forall₂ (fun entry value => Decimal.Spells entry value.toInt) (entries lines) values ∧
          Memory.read { pending := text, fault := failure } = .ok image ∧
          ∀ cell : Address, image.get cell = values.getD cell 0)) := by
  refine ⟨fun _ _ => trim_eq_iff, exists_lined text, fun lines hlined => ⟨clean_or_spoiled lines, ?_, ?_⟩⟩
  · intro fault hspoiled
    exact read_of_spoiled hlined hspoiled failure
  · intro hclean
    obtain ⟨hfits, values, hvalues, hcount⟩ := hclean.exists_values
    have htokens := Scanner.tokens_of_fitting hlined hfits
    have hwords := wordsOfLines_of_spelled hvalues hcount []
    rw [List.append_nil, wordsOfLines, List.reverse_reverse] at hwords
    refine ⟨fun fault hfailure => ?_, fun hfailure hentries => ?_, fun hfailure hentries => ?_⟩
    · exact read_of_fault (htokens failure) hwords hfailure
    · rw [hentries] at hvalues
      cases hvalues
      rw [hfailure, read_of_words (htokens none) hwords, if_pos rfl]
    · have hne : values ≠ [] := by
        intro hnil
        rw [hnil] at hvalues
        exact hentries (List.forall₂_nil_right_iff.mp hvalues)
      refine ⟨values, ofWords values, hvalues, ?_, get_ofWords values⟩
      rw [hfailure, read_of_words (htokens none) hwords, if_neg hne]

end Memory

end LittleMan
