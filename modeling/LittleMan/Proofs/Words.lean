import LittleMan.Source
import LittleMan.Proofs.Text.Utf8
import LittleMan.Proofs.Text.Decimal

/-!
# The words of a source

Cutting a source into tokens reads its characters one by one. Said without the reading: a source is
freed of its carriage returns and cut into lines at its line feeds, each line is cut into words at its
spaces, and every word is a mnemonic or a number that a memory word holds. The tokens of a source are
those of its words, each line with an end behind it, and they carry the number of their line; the first
word that is neither is the fault.
-/

namespace LittleMan

theorem bind_eq_ok_iff {ε α β : Type} {x : Except ε α} {f : α → Except ε β} {b : β} :
    x >>= f = .ok b ↔ ∃ a, x = .ok a ∧ f a = .ok b := by
  cases x with
  | error fault => exact iff_of_false nofun nofun
  | ok a =>
    constructor
    · intro h
      exact ⟨a, rfl, h⟩
    · intro ⟨other, hother, h⟩
      cases hother
      exact h

/-- An element is the first of a list to have a property. -/
inductive First {α : Type} (p : α → Prop) : List α → α → Prop where
  | here {x : α} {xs : List α} (hx : p x) : First p (x :: xs) x
  | later {x y : α} {xs : List α} (hy : ¬ p y) (hrest : First p xs x) : First p (y :: xs) x

namespace First

variable {α : Type} {p : α → Prop}

theorem append_iff {xs ys : List α} {x : α} :
    First p (xs ++ ys) x ↔ First p xs x ∨ (∀ y ∈ xs, ¬ p y) ∧ First p ys x := by
  induction xs with
  | nil =>
    constructor
    · intro h
      exact .inr ⟨by simp, h⟩
    · rintro (h | ⟨-, h⟩)
      · cases h
      · exact h
  | cons z zs ih =>
    rw [List.cons_append, List.forall_mem_cons]
    constructor
    · intro h
      cases h with
      | here hx => exact .inl (.here hx)
      | later hz hrest =>
        rcases ih.mp hrest with hleft | ⟨hnone, hright⟩
        · exact .inl (.later hz hleft)
        · exact .inr ⟨⟨hz, hnone⟩, hright⟩
    · rintro (h | ⟨⟨hz, hnone⟩, hright⟩)
      · cases h with
        | here hx => exact .here hx
        | later hz hrest => exact .later hz (ih.mpr (.inl hrest))
      · exact .later hz (ih.mpr (.inr ⟨hnone, hright⟩))

theorem property {xs : List α} {x : α} (h : First p xs x) : p x := by
  induction h with
  | here hx => exact hx
  | later _ _ ih => exact ih

theorem mem {xs : List α} {x : α} (h : First p xs x) : x ∈ xs := by
  induction h with
  | here => exact List.mem_cons_self
  | later _ _ ih => exact List.mem_cons_of_mem _ ih

theorem exists_of_mem {xs : List α} {x : α} (hmem : x ∈ xs) (hx : p x) : ∃ y, First p xs y := by
  induction xs with
  | nil => simp at hmem
  | cons z zs ih =>
    by_cases hz : p z
    · exact ⟨z, .here hz⟩
    · have hrest : x ∈ zs := by
        rcases List.mem_cons.mp hmem with rfl | hrest
        · exact absurd hx hz
        · exact hrest
      obtain ⟨y, hy⟩ := ih hrest
      exact ⟨y, .later hz hy⟩

/-- A pass over a list that fails exactly on the elements with the property fails on the first one. -/
theorem mapM_eq_error {β : Type} {f : α → Except Fault β} {xs : List α} {x : α} {fault : Fault}
    (hfirst : First p xs x) (hok : ∀ y, ¬ p y → ∃ b, f y = .ok b) (hfault : f x = .error fault) :
    xs.mapM f = .error fault := by
  induction hfirst with
  | here => rw [List.mapM_cons, hfault]; rfl
  | later hy _ ih =>
    obtain ⟨b, hb⟩ := hok _ hy
    rw [List.mapM_cons, hb, ih hfault]
    rfl

end First

/-! ### Words and their tokens -/

namespace Mnemonic

theorem ofText?_text (m : Mnemonic) : ofText? m.text = some m := by
  rcases m with (_ | _ | _ | _ | _ | _ | _) | _ | _ | _ | _ <;> rfl

theorem ofText?_eq_some_iff {word : Text} {m : Mnemonic} : ofText? word = some m ↔ word = m.text := by
  constructor
  · intro h
    unfold ofText? at h
    have htext := List.find?_some h
    exact (eq_of_beq htext).symm
  · rintro rfl
    exact ofText?_text m

/-- No mnemonic is also a number. -/
theorem not_spells (m : Mnemonic) (n : Int) : ¬ Decimal.Spells m.text n := by
  have hnone : Decimal.int? m.text = none := by
    rcases m with (_ | _ | _ | _ | _ | _ | _) | _ | _ | _ | _ <;> rfl
  rw [← Decimal.int?_eq_some_iff, hnone]
  simp

end Mnemonic

namespace Source

/-- What a word of a line is as a token: a mnemonic, or a number that fits a memory word. -/
inductive IsToken (line : Int) : Text → Token → Prop where
  | mnemonic (m : Mnemonic) : IsToken line m.text { tag := .mnemonic m, line }
  | literal {word : Text} {value : Word} (hspells : Decimal.Spells word value.toInt) :
    IsToken line word { tag := .literal, value, line }

/-- A word that some line can hold. -/
def IsWord (word : Text) : Prop :=
  (∃ m : Mnemonic, word = m.text) ∨ ∃ value : Word, Decimal.Spells word value.toInt

theorem classify_of_isToken {line : Int} {word : Text} {token : Token}
    (h : IsToken line word token) : classify word line = .ok token := by
  cases h with
  | mnemonic m => simp only [classify, Mnemonic.ofText?_text]
  | literal hspells =>
    have hnone : Mnemonic.ofText? word = none := by
      rw [Option.eq_none_iff_forall_ne_some]
      rintro m hm
      rw [Mnemonic.ofText?_eq_some_iff] at hm
      subst hm
      exact m.not_spells _ hspells
    simp only [classify, hnone, Decimal.word?_eq_some_iff.mpr hspells]

theorem exists_isToken {word : Text} (hword : IsWord word) (line : Int) :
    ∃ token, IsToken line word token := by
  rcases hword with ⟨m, rfl⟩ | ⟨value, hspells⟩
  · exact ⟨_, .mnemonic m⟩
  · exact ⟨_, .literal hspells⟩

theorem classify_of_not_isWord {word : Text} (hword : ¬ IsWord word) (line : Int) :
    classify word line = .error (.inLine line (.unknownWord word)) := by
  have hmnemonic : Mnemonic.ofText? word = none := by
    rw [Option.eq_none_iff_forall_ne_some]
    intro m hm
    exact hword (.inl ⟨m, Mnemonic.ofText?_eq_some_iff.mp hm⟩)
  have hnumber : Decimal.word? word = none := by
    rw [Option.eq_none_iff_forall_ne_some]
    intro value hvalue
    exact hword (.inr ⟨value, Decimal.word?_eq_some_iff.mp hvalue⟩)
  simp only [classify, hmnemonic, hnumber]

/-! ### Reading one line -/

/-- The words of a line of characters: its longest runs without a space. -/
def wordsOf (line : List Char) : List Text :=
  ((line.splitOnP isBlank).filter (· ≠ [])).map Text.ofChars

@[simp] theorem wordsOf_nil : wordsOf [] = [] := by
  simp [wordsOf]

theorem wordsOf_append_blank {c : Char} (hc : isBlank c = true) (before after : List Char) :
    wordsOf (before ++ c :: after) = wordsOf before ++ wordsOf after := by
  simp only [wordsOf, List.splitOnP_append_cons before after hc, List.filter_append, List.map_append]

theorem wordsOf_of_no_blank {word : List Char} (hne : word ≠ [])
    (hword : ∀ c ∈ word, isBlank c = false) : wordsOf word = [Text.ofChars word] := by
  simp [wordsOf, List.splitOnP_eq_singleton hword, hne]

namespace Progress

/-- The tokens behind those read before, no word being unfinished. -/
def append (p : Progress) (tokens : List Token) : Progress :=
  { p with tokens := p.tokens ++ tokens.toArray, word := [] }

@[simp] theorem append_line (p : Progress) (tokens : List Token) : (p.append tokens).line = p.line := rfl

@[simp] theorem append_word (p : Progress) (tokens : List Token) : (p.append tokens).word = [] := rfl

theorem append_append (p : Progress) (first second : List Token) :
    (p.append first).append second = p.append (first ++ second) := by
  simp [append, Array.append_assoc]

theorem endWord_eq (p : Progress) (hword : ∀ c ∈ p.word, isBlank c = false) :
    p.endWord = (do
      let tokens ← (wordsOf p.word.reverse).mapM (classify · p.line)
      return p.append tokens) := by
  by_cases hempty : p.word = []
  · rw [endWord, if_pos hempty, hempty]
    obtain ⟨tokens, word, line⟩ := p
    subst hempty
    simp [append]
    rfl
  · have hwords : wordsOf p.word.reverse = [Text.ofChars p.word.reverse] :=
      wordsOf_of_no_blank (by simpa using hempty) (by simpa using hword)
    rw [endWord, if_neg hempty, hwords]
    simp [append]
    rfl

/-- The tokens of a line are those of its words. The word that is unfinished in front of the line is
part of its first one. -/
theorem foldlM_read_line (line : List Char) (hline : '\n' ∉ line) (p : Progress)
    (hword : ∀ c ∈ p.word, isBlank c = false) :
    (line.foldlM read p >>= endWord) = (do
      let tokens ← (wordsOf (p.word.reverse ++ line)).mapM (classify · p.line)
      return p.append tokens) := by
  induction line generalizing p with
  | nil => simpa using endWord_eq p hword
  | cons c line ih =>
    rw [List.mem_cons, not_or] at hline
    rw [List.foldlM_cons]
    by_cases hc : isBlank c = true
    · have hread : read p c = p.endWord := by
        rw [read, if_pos hc]
        cases p.endWord with
        | error fault => rfl
        | ok p => simp [Except.map, Ne.symm hline.1]
      rw [hread, endWord_eq p hword, wordsOf_append_blank hc, List.mapM_append]
      simp only [bind_assoc, pure_bind]
      refine bind_congr fun tokens => ?_
      rw [ih hline.2 (p.append tokens) (by simp)]
      simp [append_append]
    · have hread : read p c = .ok { p with word := c :: p.word } := by
        rw [read, if_neg hc]
      have hnext : ∀ d ∈ c :: p.word, isBlank d = false := by
        rw [List.forall_mem_cons]
        exact ⟨by simpa using hc, hword⟩
      have hrest := ih hline.2 { p with word := c :: p.word } hnext
      rw [List.reverse_cons, List.append_assoc, List.singleton_append] at hrest
      rw [hread]
      exact hrest

end Progress

/-! ### Reading all the lines -/

/-- The tokens of a line with its end. -/
def lexLine (words : List Text) (number : Nat) : Except Fault (List Token) := do
  let tokens ← words.mapM (classify · number)
  return tokens ++ [.endOfLine number]

/-- The tokens of lines, the first of them having a number. -/
def lexLines (number : Nat) (lines : List (List Text)) : Except Fault (List (List Token)) :=
  (lines.zipIdx number).mapM fun line => lexLine line.1 line.2

theorem lexLines_cons (number : Nat) (words : List Text) (lines : List (List Text)) :
    lexLines number (words :: lines) = (do
      let tokens ← lexLine words number
      let others ← lexLines (number + 1) lines
      return tokens :: others) := by
  simp only [lexLines, List.zipIdx_cons, List.mapM_cons]

namespace Progress

/-- The tokens of lines behind those read before, at the start of the next line. -/
def appendLines (p : Progress) (lines : List (List Token)) : Progress :=
  { tokens := p.tokens ++ lines.flatten.toArray, word := [], line := p.line + lines.length }

theorem appendLines_cons (p : Progress) (line : List Token) (lines : List (List Token)) :
    (p.appendLines [line]).appendLines lines = p.appendLines (line :: lines) := by
  simp [appendLines, Array.append_assoc, Nat.add_assoc, Nat.add_comm 1]

/-- A line feed ends the word before it and the line. -/
theorem read_newline (p : Progress) : p.read '\n' = p.endWord >>= fun p => return p.endLine := by
  rw [read, if_pos (by decide)]
  cases p.endWord <;> rfl

theorem foldlM_read_newline (line : List Char) (hline : '\n' ∉ line) (p : Progress)
    (hword : p.word = []) :
    (line ++ ['\n']).foldlM read p = (do
      let tokens ← lexLine (wordsOf line) p.line
      return p.appendLines [tokens]) := by
  have hwords := foldlM_read_line line hline p (by simp [hword])
  rw [hword, List.reverse_nil, List.nil_append] at hwords
  rw [List.foldlM_append]
  simp only [List.foldlM_cons, List.foldlM_nil, bind_pure, read_newline]
  rw [← bind_assoc, hwords, lexLine]
  simp [append, endLine, appendLines]

theorem foldlM_read_lines (body : List Char) (p : Progress) (hword : p.word = []) :
    (body ++ ['\n']).foldlM read p = (do
      let lines ← lexLines p.line ((body.splitOn '\n').map wordsOf)
      return p.appendLines lines) := by
  induction body using Text.separatorInduction '\n' generalizing p with
  | last line hline =>
    rw [foldlM_read_newline line hline p hword, List.splitOn_eq_singleton hline]
    simp [lexLines]
  | more line rest hline ih =>
    rw [show (line ++ '\n' :: rest) ++ ['\n'] = (line ++ ['\n']) ++ (rest ++ ['\n']) by simp,
      List.foldlM_append, foldlM_read_newline line hline p hword,
      List.splitOn_append_cons_self_of_not_mem hline, List.map_cons, lexLines_cons]
    simp only [bind_assoc, pure_bind]
    refine bind_congr fun tokens => ?_
    rw [ih (p.appendLines [tokens]) rfl]
    simp [appendLines_cons]
    rfl

end Progress

/-- The words of each line of a source, its carriage returns being left out. -/
def wordLines (source : Text) : List (List Text) :=
  ((source.filter (· != 13)).splitOn Text.newline).map fun line => wordsOf (Text.chars line)

theorem lex_append_newline (body : Text) :
    lex (body ++ [Text.newline]) = (do
      let lines ← lexLines 1 ((body.splitOn Text.newline).map fun line => wordsOf (Text.chars line))
      return lines.flatten) := by
  have hchars : Text.chars (body ++ [Text.newline]) = Text.chars body ++ ['\n'] :=
    Text.chars_append_newline body []
  rw [lex, hchars, Progress.foldlM_read_lines _ _ rfl, Text.splitOn_chars, List.map_map]
  simp [Progress.appendLines, Progress.finish]
  rfl

/-- A source is read as its lines. The piece behind the last line feed counts as a line only if it is not
empty. -/
theorem lex_normalize (source : Text) : ∃ lines,
    (wordLines source = lines ∨ wordLines source = lines ++ [[]]) ∧
      lex (normalize source) = (do
        let tokens ← lexLines 1 lines
        return tokens.flatten) := by
  unfold normalize wordLines
  dsimp only
  generalize source.filter (· != 13) = kept
  split
  · next hlast =>
    obtain ⟨body, rfl⟩ := List.getLast?_eq_some_iff.mp hlast
    refine ⟨_, .inr ?_, lex_append_newline body⟩
    rw [List.splitOn_append_cons_self, List.map_append]
    simp
  · exact ⟨_, .inl rfl, lex_append_newline kept⟩

/-! ### The tokens, or the first word that is none -/

/-- The tokens of the words of lines, each line with its end, the first line having a number. -/
inductive Lexed : Nat → List (List Text) → List (List Token) → Prop where
  | nil (number : Nat) : Lexed number [] []
  | cons {number : Nat} {words : List Text} {lines : List (List Text)} {tokens : List Token}
    {others : List (List Token)} (hwords : List.Forall₂ (IsToken number) words tokens)
    (hlines : Lexed (number + 1) lines others) :
    Lexed number (words :: lines) ((tokens ++ [.endOfLine number]) :: others)

/-- The words of lines in order, each with the number of its line. -/
def numbered (number : Nat) (lines : List (List Text)) : List (Nat × Text) :=
  (lines.zipIdx number).flatMap fun line => line.1.map (line.2, ·)

theorem numbered_cons (number : Nat) (words : List Text) (lines : List (List Text)) :
    numbered number (words :: lines) = words.map (number, ·) ++ numbered (number + 1) lines := by
  simp only [numbered, List.zipIdx_cons, List.flatMap_cons]

theorem mapM_classify {number : Nat} {words : List Text} {tokens : List Token}
    (hwords : List.Forall₂ (IsToken number) words tokens) :
    words.mapM (classify · number) = .ok tokens := by
  induction hwords with
  | nil => rfl
  | cons hword _ ih =>
    rw [List.mapM_cons, classify_of_isToken hword, ih]
    rfl

theorem tag_ne_endOfLine {number : Nat} {words : List Text} {tokens : List Token}
    (hwords : List.Forall₂ (IsToken number) words tokens) :
    ∀ token ∈ tokens, token.tag ≠ .endOfLine := by
  induction hwords with
  | nil => simp
  | cons hword _ ih =>
    rw [List.forall_mem_cons]
    exact ⟨by cases hword <;> exact Tag.noConfusion, ih⟩

theorem exists_tokens (number : Nat) {words : List Text} (hwords : ∀ word ∈ words, IsWord word) :
    ∃ tokens, List.Forall₂ (IsToken number) words tokens := by
  induction words with
  | nil => exact ⟨[], .nil⟩
  | cons word words ih =>
    rw [List.forall_mem_cons] at hwords
    obtain ⟨token, htoken⟩ := exists_isToken hwords.1 number
    obtain ⟨tokens, htokens⟩ := ih hwords.2
    exact ⟨token :: tokens, .cons htoken htokens⟩

theorem lexLines_of_lexed {number : Nat} {lines : List (List Text)} {tokens : List (List Token)}
    (h : Lexed number lines tokens) : lexLines number lines = .ok tokens := by
  induction h with
  | nil => rfl
  | cons hwords _ ih =>
    rw [lexLines_cons, lexLine, mapM_classify hwords, ih]
    rfl

theorem lexLines_of_first {number line : Nat} {lines : List (List Text)} {word : Text}
    (h : First (fun numbered => ¬ IsWord numbered.2) (numbered number lines) (line, word)) :
    lexLines number lines = .error (.inLine line (.unknownWord word)) := by
  induction lines generalizing number with
  | nil => cases h
  | cons words lines ih =>
    rw [numbered_cons, First.append_iff] at h
    rw [lexLines_cons, lexLine]
    rcases h with hhere | ⟨hgood, hlater⟩
    · have hfault : (words.map (number, ·)).mapM (fun word => classify word.2 word.1) =
          .error (.inLine line (.unknownWord word)) := by
        apply hhere.mapM_eq_error
        · intro other hother
          obtain ⟨token, htoken⟩ := exists_isToken (not_not.mp hother) other.1
          exact ⟨token, classify_of_isToken htoken⟩
        · have hword : ¬ IsWord word := hhere.property
          exact classify_of_not_isWord hword line
      rw [List.mapM_map] at hfault
      change words.mapM (classify · number) = _ at hfault
      rw [hfault]
      rfl
    · have hwords : ∀ word ∈ words, IsWord word := by
        intro word hword
        exact not_not.mp (hgood _ (List.mem_map_of_mem hword))
      obtain ⟨tokens, htokens⟩ := exists_tokens number hwords
      rw [mapM_classify htokens, ih hlater]
      rfl

theorem lexed_or_first (number : Nat) (lines : List (List Text)) :
    (∃ tokens, Lexed number lines tokens) ∨
      ∃ word, First (fun numbered => ¬ IsWord numbered.2) (numbered number lines) word := by
  induction lines generalizing number with
  | nil => exact .inl ⟨[], .nil number⟩
  | cons words lines ih =>
    rw [numbered_cons]
    simp only [First.append_iff]
    by_cases hwords : ∀ word ∈ words, IsWord word
    · obtain ⟨tokens, htokens⟩ := exists_tokens number hwords
      rcases ih (number + 1) with ⟨others, hothers⟩ | ⟨word, hword⟩
      · exact .inl ⟨_, .cons htokens hothers⟩
      · exact .inr ⟨word, .inr ⟨by simpa using hwords, hword⟩⟩
    · push Not at hwords
      obtain ⟨word, hmem, hword⟩ := hwords
      have hmap : (number, word) ∈ words.map (number, ·) := List.mem_map_of_mem hmem
      obtain ⟨found, hfound⟩ := First.exists_of_mem (p := fun numbered => ¬ IsWord numbered.2)
        hmap hword
      exact .inr ⟨found, .inl hfound⟩

theorem lexLines_eq_ok_iff {number : Nat} {lines : List (List Text)} {tokens : List (List Token)} :
    lexLines number lines = .ok tokens ↔ Lexed number lines tokens := by
  constructor
  · intro hlex
    rcases lexed_or_first number lines with ⟨others, hothers⟩ | ⟨⟨line, word⟩, hfirst⟩
    · rw [lexLines_of_lexed hothers] at hlex
      rwa [← Except.ok.inj hlex]
    · rw [lexLines_of_first hfirst] at hlex
      exact absurd hlex (by simp)
  · exact lexLines_of_lexed

theorem lexLines_append_blank (number : Nat) (lines : List (List Text)) :
    lexLines number (lines ++ [[]]) = (do
      let tokens ← lexLines number lines
      return tokens ++ [[.endOfLine ((number + lines.length : Nat) : Int)]]) := by
  simp [lexLines, List.zipIdx_append, lexLine]

end Source

end LittleMan
