import LittleMan.Proofs.Lexing
import LittleMan.Proofs.Sentences

/-!
# Sources that stop without a line feed

Three places provide for a source that does not end in a line feed. Normalizing adds one, reading ends the line
if the source stops inside a word, and grouping completes a last line that has no end. They come to the same.
A line feed more adds at most one token, an end, and that end carries the line of the word in front of it
(`Source.Progress.OnLine`). So grouping takes or refuses it just where it takes or refuses a missing end
(`Line.ofTokens_append_endOfLine`).
-/

namespace LittleMan

/-! ### An end more -/

namespace Line

namespace Progress

variable {p q : Progress}

theorem finish_of_ended (hempty : p.current = #[]) : p.finish = .ok p := by
  simp only [finish, hempty]
  rfl

theorem Sound.has_endOfLine (h : p.Sound) (hempty : p.current = #[]) :
    p.state.permitted.has .endOfLine = true := by
  unfold Sound at h
  rw [hempty] at h
  exact h.has_iff.mpr ⟨[], .blank⟩

/-- An end behind the last line does what the end of the tokens does. -/
theorem read_endOfLine_finish (h : p.Sound) {number : Int}
    (hnumber : ∀ last, p.current.back? = some last → last.line = number) :
    lines <$> (p.read (.endOfLine number) >>= finish) = lines <$> p.finish := by
  have hread (hhas : p.state.permitted.has .endOfLine = true) :
      (p.read (.endOfLine number) >>= finish) = .ok { p.endLine with state := {} } := by
    rw [read_endOfLine_of_has rfl hhas]
    exact finish_of_ended (p := { p.endLine with state := {} }) rfl
  rcases finish_cases p with ⟨hempty, hfinish⟩ | ⟨last, hlast, ⟨hhas, hfinish⟩ | ⟨hno, hfinish⟩⟩
  · have hsame : p.endLine.lines = p.lines := by
      simp [lines_endLine, hempty]
    rw [hread (h.has_endOfLine hempty), hfinish]
    exact congrArg Except.ok hsame
  · rw [hread hhas, hfinish]
    rfl
  · have hrefused : p.read (.endOfLine number) =
        .error (.inLine number (.unexpected (.endOfLine number))) := read_of_not_has hno
    rw [hrefused, hfinish, hnumber last hlast]
    rfl

end Progress

/-- Tokens that stop inside a line are grouped as if an end followed on that line. -/
theorem ofTokens_append_endOfLine {tokens : List Token} {number : Int}
    (hnumber : ∀ last, tokens.getLast? = some last → last.tag ≠ .endOfLine → last.line = number) :
    ofTokens (tokens ++ [.endOfLine number]) = ofTokens tokens := by
  rw [ofTokens_eq, ofTokens_eq, List.foldlM_append]
  simp only [List.foldlM_cons, List.foldlM_nil, bind_pure]
  cases hfold : tokens.foldlM Progress.read {} with
  | error fault => rfl
  | ok p =>
    obtain ⟨hsound, ⟨front, hfront⟩, -⟩ := Progress.foldlM_read_of_ok Progress.sound_start hfold
    -- The last token of the unfinished line is the last of all, and it is no end.
    have hlast : ∀ last, p.current.back? = some last → last.line = number := by
      intro last hback
      rw [← Array.getLast?_toList] at hback
      apply hnumber last
      · rw [List.nil_append] at hfront
        rw [← hfront, List.getLast?_append, hback, Option.some_or]
      · exact hsound.unended last (List.mem_of_getLast? hback)
    exact Progress.read_endOfLine_finish hsound hlast

end Line

/-! ### A line feed more -/

namespace Source

theorem line_of_classify {word : Text} {line : Int} {token : Token} (h : classify word line = .ok token) :
    token.line = line := by
  unfold classify at h
  split at h
  · cases h
    rfl
  · split at h
    · cases h
      rfl
    · cases h

namespace Progress

variable {p q : Progress}

/-- The last token stands on the line that is being read, unless it ended the line before. -/
def OnLine (p : Progress) : Prop :=
  ∀ last, p.tokens.toList.getLast? = some last → last.tag ≠ .endOfLine → last.line = p.line

theorem OnLine.endWord (h : p.OnLine) (hend : p.endWord = .ok q) : q.OnLine := by
  unfold Progress.endWord at hend
  split at hend
  · cases hend
    exact h
  · obtain ⟨token, htoken, hend⟩ := bind_eq_ok_iff.mp hend
    cases hend
    intro last hlast _
    rw [Array.toList_push, List.getLast?_concat] at hlast
    cases hlast
    exact line_of_classify htoken

theorem onLine_endLine (p : Progress) : p.endLine.OnLine := by
  intro last hlast htag
  rw [endLine, Array.toList_push, List.getLast?_concat] at hlast
  cases hlast
  exact absurd rfl htag

theorem OnLine.read {c : Char} (h : p.OnLine) (hread : p.read c = .ok q) : q.OnLine := by
  unfold Progress.read at hread
  split at hread
  · obtain ⟨middle, hend, hread⟩ := bind_eq_ok_iff.mp hread
    cases hread
    dsimp only
    split
    · exact onLine_endLine middle
    · exact h.endWord hend
  · cases hread
    exact h

theorem OnLine.foldlM_read {cs : List Char} (h : p.OnLine) (hfold : cs.foldlM Progress.read p = .ok q) :
    q.OnLine := by
  induction cs generalizing p with
  | nil =>
    cases hfold
    exact h
  | cons c cs ih =>
    rw [List.foldlM_cons] at hfold
    obtain ⟨middle, hread, hrest⟩ := bind_eq_ok_iff.mp hfold
    exact ih (h.read hread) hrest

end Progress

/-- With a line feed behind it, a source is read up to the end of its last word and then of its line. -/
theorem lex_append_newline_eq (source : Text) :
    lex (source ++ [Text.newline]) = (do
      let q ← (Text.chars source).foldlM Progress.read {} >>= Progress.endWord
      return q.endLine.tokens.toList) := by
  have hlines := congrArg ((·.tokens.toList) <$> ·) (map_endLine_foldlM_read (Text.chars source))
  simp only [map_bind, map_pure] at hlines
  rw [hlines, lex_append_newline, wordLinesOf, Text.splitOn_chars, List.map_map]
  simp [Progress.appendLines, Function.comp_def]

/-- A line feed behind a source makes no difference to its words, and it adds at most an end to its tokens, which
grouping can do without. -/
theorem lex_append_newline_cases (source : Text) :
    (∃ fault, lex source = .error fault ∧ lex (source ++ [Text.newline]) = .error fault) ∨
      ∃ tokens ends, lex source = .ok tokens ∧ lex (source ++ [Text.newline]) = .ok (tokens ++ ends) ∧
        (ends = [] ∨ ∃ number, ends = [.endOfLine number]) ∧
        Line.ofTokens (tokens ++ ends) = Line.ofTokens tokens := by
  rw [lex_eq, lex_append_newline_eq]
  cases hread : ((Text.chars source).foldlM Progress.read {} >>= Progress.endWord) with
  | error fault => exact .inl ⟨fault, rfl, rfl⟩
  | ok q =>
    right
    cases endsInWord source with
    | true =>
      refine ⟨q.endLine.tokens.toList, [], rfl, ?_, .inl rfl, ?_⟩
      · rw [List.append_nil]
        rfl
      · rw [List.append_nil]
    | false =>
      obtain ⟨p, hfold, hend⟩ := bind_eq_ok_iff.mp hread
      have hstart : Progress.OnLine {} := by
        intro last hlast
        cases hlast
      have hline : q.OnLine := (hstart.foldlM_read hfold).endWord hend
      refine ⟨q.tokens.toList, [.endOfLine q.line], rfl, ?_, .inr ⟨_, rfl⟩, ?_⟩
      · rw [← Array.toList_push]
        rfl
      · exact Line.ofTokens_append_endOfLine hline

theorem normalize_of_no_return {source : Text} (h : 13 ∉ source) :
    normalize source = source ∨ normalize source = source ++ [Text.newline] := by
  have hkept : source.filter (· != 13) = source := by
    rw [List.filter_eq_self]
    intro byte hbyte
    rw [bne_iff_ne]
    intro hthirteen
    exact h (hthirteen ▸ hbyte)
  unfold normalize
  dsimp only
  rw [hkept]
  split
  · exact .inl rfl
  · exact .inr rfl

/-- A source without carriage returns has the same lines, or the same fault, whether or not it is normalized.
It has the same faulty word, if any; otherwise normalizing adds at most an end to its tokens. -/
theorem grouping_needs_no_final_newline (source : Text) (hreturn : 13 ∉ source) :
    (∀ fault, lex source = .error fault ↔ lex (normalize source) = .error fault) ∧
    (∀ tokens, lex source = .ok tokens → ∃ ends, lex (normalize source) = .ok (tokens ++ ends) ∧
      (ends = [] ∨ ∃ number, ends = [.endOfLine number])) ∧
    (lex source >>= Line.ofTokens) = (lex (normalize source) >>= Line.ofTokens) := by
  rcases normalize_of_no_return hreturn with hsame | hadded
  · rw [hsame]
    refine ⟨fun _ => Iff.rfl, ?_, rfl⟩
    intro tokens htokens
    exact ⟨[], by rw [List.append_nil, htokens], .inl rfl⟩
  · rw [hadded]
    rcases lex_append_newline_cases source with ⟨fault, hlex, hlex'⟩ | ⟨tokens, ends, hlex, hlex', hends, hgroup⟩
    · rw [hlex, hlex']
      refine ⟨fun _ => Iff.rfl, ?_, rfl⟩
      intro tokens htokens
      cases htokens
    · rw [hlex, hlex']
      refine ⟨fun fault => by simp, ?_, hgroup.symm⟩
      intro others hothers
      cases hothers
      exact ⟨ends, rfl, hends⟩

/-- Stops behind a space, where an address is wanted. -/
def unendedStore : Text := utf8 "DAT 7\nSTA "

theorem unendedStore_wants_address :
    13 ∉ unendedStore ∧ unendedStore.getLast? ≠ some Text.newline ∧
      (lex (normalize unendedStore) >>= Line.ofTokens) =
        .error (.inLine 2 (.unexpected (.endOfLine 2))) := by
  have hreturn : 13 ∉ unendedStore := by decide
  refine ⟨hreturn, by decide, ?_⟩
  rw [← (grouping_needs_no_final_newline unendedStore hreturn).2.2]
  rfl

end Source

end LittleMan
