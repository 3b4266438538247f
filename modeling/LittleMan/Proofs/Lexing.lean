import LittleMan.Proofs.Words

/-!
# Reading a source as it stands

A source need not be normalized to be read: a carriage return is a space like any other, and the end may
come anywhere. Said without the reading, the characters are cut into lines at their line feeds and the lines
into words at their spaces. Each line gives the tokens of its words and an end, but what follows the last
line feed has an end only if the source stops inside a word.
-/

namespace LittleMan.Source

/-- The words of each line of characters. -/
def wordLinesOf (cs : List Char) : List (List Text) := (cs.splitOn '\n').map wordsOf

/-- The last character of a source is not a space, so that its last word is unfinished. -/
def endsInWord (source : Text) : Bool := (Text.chars source).getLast?.any (!isBlank ·)

namespace Progress

variable {p q : Progress}

theorem word_of_endWord (h : p.endWord = .ok q) : q.word = [] := by
  unfold endWord at h
  split at h
  · next hempty =>
    cases h
    exact hempty
  · obtain ⟨token, -, h⟩ := bind_eq_ok_iff.mp h
    cases h
    rfl

theorem word_eq_nil_of_read {c : Char} (h : p.read c = .ok q) : q.word = [] ↔ isBlank c = true := by
  unfold read at h
  split at h
  · next hblank =>
    refine iff_of_true ?_ hblank
    obtain ⟨middle, hend, h⟩ := bind_eq_ok_iff.mp h
    cases h
    have hempty := word_of_endWord hend
    dsimp only
    split <;> exact hempty
  · next hblank =>
    cases h
    exact iff_of_false (List.cons_ne_nil _ _) hblank

/-- After reading, a word is unfinished exactly if the last character was not a space. -/
theorem word_eq_nil_of_foldlM_read {cs : List Char} (h : cs.foldlM read {} = .ok p) :
    p.word = [] ↔ cs.getLast?.any (!isBlank ·) = false := by
  rcases List.eq_nil_or_concat cs with rfl | ⟨before, c, rfl⟩
  · cases h
    simp
  · rw [List.concat_eq_append, List.foldlM_append] at h
    obtain ⟨middle, -, h⟩ := bind_eq_ok_iff.mp h
    simp only [List.foldlM_cons, List.foldlM_nil, bind_pure] at h
    simpa using word_eq_nil_of_read h

/-- The end of the source ends the last word, and the line too if that word was unfinished. -/
theorem finish_eq (p : Progress) :
    p.finish = (fun q => if p.word = [] then q else q.endLine) <$> p.endWord := by
  unfold finish endWord
  by_cases hempty : p.word = []
  · simp [hempty]
  · simp only [hempty, if_false]
    rfl

end Progress

/-- Reading ends the last word, and it ends the last line if the source stops inside a word. -/
theorem lex_eq (source : Text) :
    lex source = (do
      let q ← (Text.chars source).foldlM Progress.read {} >>= Progress.endWord
      return (if endsInWord source then q.endLine else q).tokens.toList) := by
  unfold lex
  cases hread : (Text.chars source).foldlM Progress.read {} with
  | error fault => rfl
  | ok p =>
    have hword := Progress.word_eq_nil_of_foldlM_read hread
    change (p.finish >>= fun finished => return finished.tokens.toList) = (do
      let q ← p.endWord
      return (if endsInWord source then q.endLine else q).tokens.toList)
    rw [Progress.finish_eq, map_eq_pure_bind, bind_assoc]
    simp only [pure_bind]
    refine bind_congr fun q => ?_
    rw [endsInWord]
    cases hlast : (Text.chars source).getLast?.any (!isBlank ·) <;> simp [hlast, hword]

/-- Reading with an end behind the last line is what reading all the lines gives. -/
theorem map_endLine_foldlM_read (cs : List Char) :
    (do
      let q ← cs.foldlM Progress.read {} >>= Progress.endWord
      return q.endLine) = (do
      let lines ← lexLines 1 (wordLinesOf cs)
      return Progress.appendLines {} lines) := by
  have hlines := Progress.foldlM_read_lines cs {} rfl
  rw [List.foldlM_append] at hlines
  simp only [List.foldlM_cons, List.foldlM_nil, bind_pure, Progress.read_newline] at hlines
  rw [bind_assoc]
  exact hlines

theorem length_of_lexed {number : Nat} {lines : List (List Text)} {lexed : List (List Token)}
    (h : Lexed number lines lexed) : lexed.length = lines.length := by
  induction h with
  | nil => rfl
  | cons _ _ ih => rw [List.length_cons, List.length_cons, ih]

theorem lex_of_lexed {source : Text} {lexed : List (List Token)}
    (h : Lexed 1 (wordLinesOf (Text.chars source)) lexed) :
    ∃ tokens, lex source = .ok tokens ∧ lexed.flatten =
      if endsInWord source then tokens
      else tokens ++ [.endOfLine (wordLinesOf (Text.chars source)).length] := by
  -- With an end behind it, the last line is read like the others, so that end is all that can be too much.
  have hread := map_endLine_foldlM_read (Text.chars source)
  rw [lexLines_of_lexed h] at hread
  obtain ⟨q, hq, hend⟩ := bind_eq_ok_iff.mp hread
  have hend : q.endLine = Progress.appendLines {} lexed := Except.ok.inj hend
  rw [lex_eq, hq]
  refine ⟨_, rfl, ?_⟩
  have htokens : q.endLine.tokens.toList = lexed.flatten := by
    rw [hend]
    simp [Progress.appendLines]
  have hline : q.line = (wordLinesOf (Text.chars source)).length := by
    have hnext : q.line + 1 = 1 + lexed.length := congrArg Progress.line hend
    rw [length_of_lexed h] at hnext
    omega
  cases endsInWord source with
  | true => exact htokens.symm
  | false =>
    rw [← htokens, ← hline]
    simp [Progress.endLine]

theorem lex_of_first {source : Text} {line : Nat} {word : Text}
    (h : First (fun numbered => ¬ IsWord numbered.2)
      (numbered 1 (wordLinesOf (Text.chars source))) (line, word)) :
    lex source = .error (.inLine line (.unknownWord word)) := by
  have hread := map_endLine_foldlM_read (Text.chars source)
  rw [lexLines_of_first h] at hread
  rw [lex_eq]
  cases hq : ((Text.chars source).foldlM Progress.read {} >>= Progress.endWord) with
  | error fault =>
    rw [hq] at hread
    cases hread
    rfl
  | ok q =>
    rw [hq] at hread
    cases hread

theorem IsToken.isWord {line : Int} {word : Text} {token : Token} (h : IsToken line word token) :
    IsWord word := by
  cases h with
  | mnemonic m => exact .inl ⟨m, rfl⟩
  | literal hspells => exact .inr ⟨_, hspells⟩

theorem isWord_of_tokens {number : Nat} {words : List Text} {tokens : List Token}
    (h : List.Forall₂ (IsToken number) words tokens) : ∀ word ∈ words, IsWord word := by
  induction h with
  | nil => simp
  | cons hword _ ih => exact List.forall_mem_cons.mpr ⟨hword.isWord, ih⟩

theorem exists_lexed_iff (number : Nat) (lines : List (List Text)) :
    (∃ lexed, Lexed number lines lexed) ↔ ∀ words ∈ lines, ∀ word ∈ words, IsWord word := by
  constructor
  · rintro ⟨lexed, h⟩
    induction h with
    | nil => simp
    | cons hwords _ ih => exact List.forall_mem_cons.mpr ⟨isWord_of_tokens hwords, ih⟩
  · intro h
    induction lines generalizing number with
    | nil => exact ⟨[], .nil number⟩
    | cons words lines ih =>
      rw [List.forall_mem_cons] at h
      obtain ⟨tokens, htokens⟩ := exists_tokens number h.1
      obtain ⟨others, hothers⟩ := ih (number + 1) h.2
      exact ⟨_, .cons htokens hothers⟩

theorem lex_eq_ok_iff {source : Text} {tokens : List Token} :
    lex source = .ok tokens ↔
      ∃ lexed, Lexed 1 (wordLinesOf (Text.chars source)) lexed ∧ lexed.flatten =
        if endsInWord source then tokens
        else tokens ++ [.endOfLine (wordLinesOf (Text.chars source)).length] := by
  constructor
  · intro hlex
    rcases lexed_or_first 1 (wordLinesOf (Text.chars source)) with ⟨lexed, hlexed⟩ | ⟨word, hfirst⟩
    · obtain ⟨others, hothers, hflatten⟩ := lex_of_lexed hlexed
      rw [Except.ok.inj (hlex.symm.trans hothers)]
      exact ⟨lexed, hlexed, hflatten⟩
    · exact absurd (hlex.symm.trans (lex_of_first hfirst)) (by simp)
  · rintro ⟨lexed, hlexed, htokens⟩
    obtain ⟨others, hothers, hflatten⟩ := lex_of_lexed hlexed
    rw [hothers]
    have hsame := hflatten.symm.trans htokens
    by_cases hend : endsInWord source = true
    · rw [if_pos hend, if_pos hend] at hsame
      rw [hsame]
    · rw [if_neg hend, if_neg hend] at hsame
      rw [List.append_cancel_right hsame]

theorem lex_eq_error_iff {source : Text} {fault : Fault} :
    lex source = .error fault ↔
      ∃ line word, First (fun numbered => ¬ IsWord numbered.2)
        (numbered 1 (wordLinesOf (Text.chars source))) (line, word) ∧
        fault = .inLine line (.unknownWord word) := by
  constructor
  · intro hlex
    rcases lexed_or_first 1 (wordLinesOf (Text.chars source)) with ⟨lexed, hlexed⟩ | ⟨⟨line, word⟩, hfirst⟩
    · obtain ⟨tokens, htokens, -⟩ := lex_of_lexed hlexed
      exact absurd (hlex.symm.trans htokens) (by simp)
    · exact ⟨line, word, hfirst, Except.error.inj (hlex.symm.trans (lex_of_first hfirst))⟩
  · rintro ⟨line, word, hfirst, rfl⟩
    exact lex_of_first hfirst

/-- A source has tokens exactly if each of its words is a mnemonic or a number that a memory word holds. They
are those of its words, line by line, each line with an end behind it; the last line goes without one unless
the source stops inside a word. Otherwise the first word that is neither is the fault, with its line. The
characters of the source are what its bytes encode. -/
theorem lex_reads_words_of_lines (source : Text) :
    let lines := wordLinesOf (Text.chars source)
    (∀ cs, Text.chars source = cs ↔ Text.Decodes source cs) ∧
    ((∃ tokens, lex source = .ok tokens) ↔ ∀ words ∈ lines, ∀ word ∈ words, IsWord word) ∧
    (∀ tokens, lex source = .ok tokens ↔
      ∃ lexed, Lexed 1 lines lexed ∧ lexed.flatten =
        if endsInWord source then tokens else tokens ++ [.endOfLine lines.length]) ∧
    ∀ fault, lex source = .error fault ↔
      ∃ line word, First (fun numbered => ¬ IsWord numbered.2) (numbered 1 lines) (line, word) ∧
        fault = .inLine line (.unknownWord word) := by
  intro lines
  refine ⟨fun _ => Text.chars_eq_iff, ?_, fun _ => lex_eq_ok_iff, fun _ => lex_eq_error_iff⟩
  rw [← exists_lexed_iff 1 lines]
  constructor
  · rintro ⟨tokens, htokens⟩
    obtain ⟨lexed, hlexed, -⟩ := lex_eq_ok_iff.mp htokens
    exact ⟨lexed, hlexed⟩
  · rintro ⟨lexed, hlexed⟩
    obtain ⟨tokens, htokens, -⟩ := lex_of_lexed hlexed
    exact ⟨tokens, htokens⟩

end LittleMan.Source
