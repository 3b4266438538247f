import LittleMan.Proofs.Grammar

/-!
# Sentences

A sentence is a list of lines, each with its end, and the end of the last line may be missing. The tokens of
the unfinished line and those still to come say together what the lines are going to be, and a step of
grouping changes nothing in that (`Progress.yields_read`). So grouping accepts exactly the sentences and gives
their lines. It stops at the first token up to which no sentence goes, or else behind a mnemonic that still
wants its address.
-/

namespace LittleMan.Line

/-- Tokens are divided into lines, which are given without their ends. The last line may go without one. -/
inductive Divided : List Token → List Line → Prop where
  | nil : Divided [] []
  | last {line : Line} (hshape : Shape (line.map Token.tag ++ [.endOfLine])) : Divided line [line]
  | line {line : Line} {ending : Token} (hending : ending.tag = .endOfLine)
    (hshape : Shape (line.map Token.tag ++ [.endOfLine])) {rest : List Token} {lines : List Line}
    (hrest : Divided rest lines) : Divided (line ++ ending :: rest) (line :: lines)

/-- Tokens that can be divided into lines. -/
def Sentence (tokens : List Token) : Prop := ∃ lines, Divided tokens lines

/-- Tokens that a sentence begins with. -/
def Viable (tokens : List Token) : Prop := ∃ rest, Sentence (tokens ++ rest)

/-- A token, at its place, is the first up to which no sentence goes. -/
structure FirstMisfit (tokens : List Token) (k : Nat) (token : Token) : Prop where
  token_eq : tokens[k]? = some token
  misfit : ¬ Viable (tokens.take (k + 1))
  viable : ∀ j < k, Viable (tokens.take (j + 1))

theorem Viable.take {tokens : List Token} (h : Viable tokens) (k : Nat) : Viable (tokens.take k) := by
  obtain ⟨rest, hrest⟩ := h
  refine ⟨tokens.drop k ++ rest, ?_⟩
  rwa [← List.append_assoc, List.take_append_drop]

theorem Sentence.viable {tokens : List Token} (h : Sentence tokens) : Viable tokens :=
  ⟨[], by rwa [List.append_nil]⟩

theorem FirstMisfit.unique {tokens : List Token} {k j : Nat} {token other : Token}
    (h : FirstMisfit tokens k token) (hother : FirstMisfit tokens j other) : token = other := by
  rcases Nat.lt_trichotomy k j with hlt | rfl | hlt
  · exact absurd (hother.viable k hlt) h.misfit
  · exact Option.some.inj (h.token_eq.symm.trans hother.token_eq)
  · exact absurd (h.viable j hlt) hother.misfit

/-! ### Dividing tokens -/

/-- There is no end of a line among the tokens. -/
def Unended (tokens : List Token) : Prop := ∀ token ∈ tokens, token.tag ≠ .endOfLine

theorem unended_of_shape {line : Line} (hshape : Shape (line.map Token.tag ++ [.endOfLine])) :
    Unended line := by
  intro token hmem htag
  have hmem' : Tag.endOfLine ∈ line.map Token.tag := htag ▸ List.mem_map_of_mem hmem
  rcases hshape.cases_of_endOfLine with h | ⟨m, -, h⟩ | ⟨m, -, h⟩ <;> simp [h] at hmem'

theorem takeWhile_append_of_unended {before : List Token} (h : Unended before) (rest : List Token) :
    (before ++ rest).takeWhile (·.tag ≠ .endOfLine) =
      before ++ rest.takeWhile (·.tag ≠ .endOfLine) :=
  List.takeWhile_append_of_pos fun token hmem => decide_eq_true (h token hmem)

theorem takeWhile_of_ending {line : Line} (hline : Unended line) {ending : Token}
    (hending : ending.tag = .endOfLine) (rest : List Token) :
    (line ++ ending :: rest).takeWhile (·.tag ≠ .endOfLine) = line := by
  rw [takeWhile_append_of_unended hline, List.takeWhile_cons_of_neg (by simpa using hending),
    List.append_nil]

/-- Up to the first end of a line stands the first line. -/
theorem divided_ending_iff {line : Line} (hline : Unended line) {ending : Token}
    (hending : ending.tag = .endOfLine) {rest : List Token} {lines : List Line} :
    Divided (line ++ ending :: rest) lines ↔
      Shape (line.map Token.tag ++ [.endOfLine]) ∧
        ∃ others, lines = line :: others ∧ Divided rest others := by
  constructor
  · intro h
    generalize htokens : line ++ ending :: rest = tokens at h
    cases h with
    | nil => simp at htokens
    | last hshape =>
      have hmem : ending ∈ tokens := by simp [← htokens]
      exact absurd hending (unended_of_shape hshape ending hmem)
    | @line first other hother hshape after others hrest =>
      have hfirst : first = line := by
        rw [← takeWhile_of_ending (unended_of_shape hshape) hother after, ← htokens,
          takeWhile_of_ending hline hending]
      subst hfirst
      obtain ⟨rfl, rfl⟩ := List.cons.inj (List.append_cancel_left htokens)
      exact ⟨hshape, others, rfl, hrest⟩
  · rintro ⟨hshape, others, rfl, hrest⟩
    exact .line hending hshape hrest

/-- Without an end there is at most one line. -/
theorem divided_unended_iff {line : Line} (hline : Unended line) {lines : List Line} :
    Divided line lines ↔
      line = [] ∧ lines = [] ∨ Shape (line.map Token.tag ++ [.endOfLine]) ∧ lines = [line] := by
  constructor
  · intro h
    cases h with
    | nil => exact .inl ⟨rfl, rfl⟩
    | last hshape => exact .inr ⟨hshape, rfl⟩
    | line hending => exact absurd hending (hline _ (by simp))
  · rintro (⟨rfl, rfl⟩ | ⟨hshape, rfl⟩)
    · exact .nil
    · exact .last hshape

/-- A token of a sentence stands where a line has it. -/
theorem Sentence.exists_shape {before rest : List Token} {token : Token} (hbefore : Unended before)
    (h : Sentence (before ++ token :: rest)) :
    ∃ tags, Shape (before.map Token.tag ++ token.tag :: tags) := by
  obtain ⟨lines, h⟩ := h
  by_cases htag : token.tag = .endOfLine
  · rw [divided_ending_iff hbefore htag] at h
    exact ⟨[], htag ▸ h.1⟩
  · generalize htokens : before ++ token :: rest = tokens at h
    cases h with
    | nil => simp at htokens
    | last hshape =>
      rw [← htokens, List.map_append, List.append_assoc] at hshape
      exact ⟨_, hshape⟩
    | @line first ending hending hshape after others hrest =>
      -- The first end of a line comes behind the token, so the first line has the token.
      have hfirst : first = before ++ token :: rest.takeWhile (·.tag ≠ .endOfLine) := by
        rw [← takeWhile_of_ending (unended_of_shape hshape) hending after, ← htokens,
          takeWhile_append_of_unended hbefore, List.takeWhile_cons_of_pos (by simpa using htag)]
      rw [hfirst, List.map_append, List.append_assoc] at hshape
      exact ⟨_, hshape⟩

theorem Shape.getLast?_eq {tags : List Tag} (hshape : Shape tags) : tags.getLast? = some .endOfLine := by
  cases hshape <;> rfl

/-- A line with its end is a sentence. -/
theorem sentence_of_shape {tokens : List Token} (hshape : Shape (tokens.map Token.tag)) :
    Sentence tokens := by
  obtain ⟨tags, htags⟩ := List.getLast?_eq_some_iff.mp hshape.getLast?_eq
  obtain ⟨line, ends, rfl, rfl, hends⟩ := List.map_eq_append_iff.mp htags
  obtain ⟨ending, rfl, hending⟩ := List.map_eq_singleton_iff.mp hends
  exact ⟨[line], .line hending (htags ▸ hshape) .nil⟩

theorem flatten_filter_ne_nil (lines : List Line) : (lines.filter (· ≠ [])).flatten = lines.flatten := by
  induction lines with
  | nil => rfl
  | cons line lines ih => by_cases hempty : line = [] <;> simp_all

/-- Every token but the ends is in a line, and none of them twice. -/
theorem Divided.flatten_filter {tokens : List Token} {lines : List Line} (h : Divided tokens lines) :
    (lines.filter (· ≠ [])).flatten = tokens.filter (·.tag ≠ .endOfLine) := by
  have hkept {line : Line} (hline : Unended line) : line.filter (·.tag ≠ .endOfLine) = line :=
    List.filter_eq_self.mpr fun token hmem => decide_eq_true (hline token hmem)
  rw [flatten_filter_ne_nil]
  induction h with
  | nil => rfl
  | last hshape => rw [hkept (unended_of_shape hshape), List.flatten_singleton]
  | line hending hshape _ ih =>
    rw [List.filter_append, hkept (unended_of_shape hshape), List.filter_cons_of_neg (by simpa using hending),
      List.flatten_cons, ih]

/-! ### Grouping goes through sentences -/

namespace Progress

/-- The lines that ended. -/
def lines (p : Progress) : List Line := p.groups.toList.map Group.line

/-- The state is one that grouping has behind the unfinished line. -/
def Sound (p : Progress) : Prop := p.state.Opens (p.current.toList.map Token.tag)

/-- The lines that come out if the tokens still to come complete a sentence. -/
def Yields (p : Progress) (tokens : List Token) (result : List Line) : Prop :=
  ∃ lines, Divided (p.current.toList ++ tokens) lines ∧ result = p.lines ++ lines.filter (· ≠ [])

variable {p q : Progress} {token : Token} {tokens : List Token}

theorem Sound.unended (h : p.Sound) : Unended p.current.toList := by
  intro token hmem htag
  have hmem' : Tag.endOfLine ∈ p.current.toList.map Token.tag := htag ▸ List.mem_map_of_mem hmem
  unfold Sound at h
  generalize p.state = state, p.current.toList.map Token.tag = tags at h hmem'
  cases h <;> simp at hmem'

theorem lines_endLine (p : Progress) :
    p.endLine.lines = p.lines ++ [p.current.toList].filter (· ≠ []) := by
  rw [← Group.map_line_filterMap]
  cases hgroup : Group.ofLine? p.current.toList <;> simp [lines, endLine, hgroup]

/-- What reading a token can do: it ends the line, or goes to the unfinished line, or is refused. -/
theorem read_cases (p : Progress) (token : Token) :
    (p.state.permitted.has token.tag = true ∧
      (token.tag = .endOfLine ∧ p.read token = .ok { p.endLine with state := {} } ∨
        token.tag ≠ .endOfLine ∧
          p.read token = .ok { p with current := p.current.push token, state := ⟨token.tag, false⟩ })) ∨
    p.state.permitted.has token.tag = false ∧
      p.read token = .error (.inLine token.line (.unexpected token)) := by
  cases hhas : p.state.permitted.has token.tag with
  | false => exact .inr ⟨rfl, read_of_not_has hhas⟩
  | true =>
    refine .inl ⟨rfl, ?_⟩
    by_cases htag : token.tag = .endOfLine
    · exact .inl ⟨htag, read_endOfLine_of_has htag hhas⟩
    · exact .inr ⟨htag, read_of_has htag hhas⟩

theorem cases_of_read_ok (hread : p.read token = .ok q) :
    p.state.permitted.has token.tag = true ∧
      (token.tag = .endOfLine ∧ q = { p.endLine with state := {} } ∨
        token.tag ≠ .endOfLine ∧
          q = { p with current := p.current.push token, state := ⟨token.tag, false⟩ }) := by
  rcases read_cases p token with ⟨hhas, ⟨htag, h⟩ | ⟨htag, h⟩⟩ | ⟨-, h⟩
  · exact ⟨hhas, .inl ⟨htag, Except.ok.inj (hread.symm.trans h)⟩⟩
  · exact ⟨hhas, .inr ⟨htag, Except.ok.inj (hread.symm.trans h)⟩⟩
  · exact absurd (hread.symm.trans h) (by simp)

theorem refused_of_read_error {fault : Fault} (hread : p.read token = .error fault) :
    p.state.permitted.has token.tag = false ∧ fault = .inLine token.line (.unexpected token) := by
  rcases read_cases p token with ⟨-, ⟨-, h⟩ | ⟨-, h⟩⟩ | ⟨hno, h⟩
  · exact absurd (hread.symm.trans h) (by simp)
  · exact absurd (hread.symm.trans h) (by simp)
  · exact ⟨hno, Except.error.inj (hread.symm.trans h)⟩

theorem Sound.read (h : p.Sound) (hread : p.read token = .ok q) : q.Sound := by
  obtain ⟨hhas, ⟨htag, rfl⟩ | ⟨htag, rfl⟩⟩ := cases_of_read_ok hread
  · exact .start
  · have hextend := State.Opens.extend h htag hhas
    simpa [Sound] using hextend

/-- Reading a token changes nothing in what comes out in the end. -/
theorem yields_read (h : p.Sound) (hread : p.read token = .ok q) (rest : List Token) (result : List Line) :
    q.Yields rest result ↔ p.Yields (token :: rest) result := by
  obtain ⟨hhas, ⟨htag, rfl⟩ | ⟨htag, rfl⟩⟩ := cases_of_read_ok hread
  · rw [htag] at hhas
    have hshape := State.Opens.endOfLine h hhas
    have hresult (lines : List Line) :
        p.endLine.lines ++ lines.filter (· ≠ []) =
          p.lines ++ (p.current.toList :: lines).filter (· ≠ []) := by
      rw [lines_endLine, List.append_assoc, ← List.filter_append, List.singleton_append]
    change (∃ lines, Divided ([] ++ rest) lines ∧ result = p.endLine.lines ++ lines.filter (· ≠ [])) ↔ _
    simp only [Yields, divided_ending_iff h.unended htag, hresult, List.nil_append]
    constructor
    · rintro ⟨lines, hlines, rfl⟩
      exact ⟨_, ⟨hshape, lines, rfl, hlines⟩, rfl⟩
    · rintro ⟨_, ⟨-, lines, rfl, hlines⟩, rfl⟩
      exact ⟨lines, hlines, rfl⟩
  · simp only [Yields, lines, Array.toList_push, List.append_assoc, List.singleton_append]

theorem not_yields_of_refused (h : p.Sound) (hno : p.state.permitted.has token.tag = false) (rest : List Token)
    (result : List Line) : ¬ p.Yields (token :: rest) result := by
  rintro ⟨lines, hlines, -⟩
  obtain ⟨tags, hshape⟩ := Sentence.exists_shape h.unended ⟨lines, hlines⟩
  exact (State.Opens.has_eq_false_iff h).mp hno tags hshape

theorem current_suffix_of_read (hread : p.read token = .ok q) :
    q.current.toList <:+ p.current.toList ++ [token] := by
  obtain ⟨-, ⟨-, rfl⟩ | ⟨-, rfl⟩⟩ := cases_of_read_ok hread
  · exact List.nil_suffix
  · simp only [Array.toList_push, List.suffix_refl]

/-- What a whole pass keeps: the state is right, the unfinished line is what was read last, and the lines that
come out in the end are the same. -/
theorem foldlM_read_of_ok (h : p.Sound) (hfold : tokens.foldlM read p = .ok q) :
    q.Sound ∧ q.current.toList <:+ p.current.toList ++ tokens ∧
      ∀ rest result, q.Yields rest result ↔ p.Yields (tokens ++ rest) result := by
  induction tokens generalizing p with
  | nil =>
    cases hfold
    exact ⟨h, by simp, fun _ _ => Iff.rfl⟩
  | cons token tokens ih =>
    rw [List.foldlM_cons] at hfold
    obtain ⟨middle, hread, hrest⟩ := bind_eq_ok_iff.mp hfold
    obtain ⟨hsound, hsuffix, hyields⟩ := ih (h.read hread) hrest
    refine ⟨hsound, hsuffix.trans ?_, fun rest result => ?_⟩
    · obtain ⟨front, hfront⟩ := current_suffix_of_read hread
      exact ⟨front, by rw [← List.append_assoc, hfront, List.append_assoc, List.singleton_append]⟩
    · exact (hyields rest result).trans (yields_read h hread _ _)

/-- A pass breaks off at a token that cannot stand where it does. -/
theorem exists_refused {fault : Fault} (hfold : tokens.foldlM read p = .error fault) :
    ∃ before token after q, tokens = before ++ token :: after ∧ before.foldlM read p = .ok q ∧
      q.state.permitted.has token.tag = false ∧ fault = .inLine token.line (.unexpected token) := by
  induction tokens generalizing p with
  | nil => cases hfold
  | cons token tokens ih =>
    rw [List.foldlM_cons] at hfold
    cases hread : p.read token with
    | error other =>
      rw [hread] at hfold
      cases hfold
      obtain ⟨hno, hfault⟩ := refused_of_read_error hread
      exact ⟨[], token, tokens, p, rfl, rfl, hno, hfault⟩
    | ok middle =>
      rw [hread] at hfold
      obtain ⟨before, other, after, q, rfl, hbefore, hrefused, hfault⟩ := ih hfold
      refine ⟨token :: before, other, after, q, rfl, ?_, hrefused, hfault⟩
      rw [List.foldlM_cons, hread]
      exact hbefore

/-- Whatever the unfinished line has can be made a sentence. -/
theorem Sound.exists_sentence (h : p.Sound) : ∃ rest, Sentence (p.current.toList ++ rest) := by
  obtain ⟨tags, hshape⟩ := State.Opens.exists_shape h
  refine ⟨tags.map fun tag => { tag, line := 0 }, sentence_of_shape ?_⟩
  simpa [Function.comp_def] using hshape

/-- What the end of the tokens can do: there is no unfinished line, or it ends, or it cannot end yet. -/
theorem finish_cases (p : Progress) :
    p.current = #[] ∧ p.finish = .ok p ∨
    ∃ last, p.current.back? = some last ∧
      (p.state.permitted.has .endOfLine = true ∧ p.finish = .ok p.endLine ∨
        p.state.permitted.has .endOfLine = false ∧
          p.finish = .error (.inLine last.line (.unexpected (.endOfLine last.line)))) := by
  cases hlast : p.current.back? with
  | none => exact .inl ⟨by simpa using hlast, by simp only [finish, hlast]⟩
  | some last =>
    refine .inr ⟨last, rfl, ?_⟩
    cases hhas : p.state.permitted.has .endOfLine with
    | false => exact .inr ⟨rfl, by simp [finish, hlast, hhas]⟩
    | true => exact .inl ⟨rfl, by simp [finish, hlast, hhas]⟩

theorem finish_eq_ok_iff (h : p.Sound) (result : List Line) :
    (∃ q, p.finish = .ok q ∧ q.lines = result) ↔ p.Yields [] result := by
  unfold Yields
  simp only [List.append_nil, divided_unended_iff h.unended]
  rcases finish_cases p with ⟨hempty, hfinish⟩ | ⟨last, hlast, hend⟩
  · rw [hfinish]
    constructor
    · rintro ⟨_, hok, rfl⟩
      cases hok
      exact ⟨[], .inl ⟨by simp [hempty], rfl⟩, by simp⟩
    · rintro ⟨lines, hlines | hlines, rfl⟩
      · exact ⟨p, rfl, by simp [hlines]⟩
      · exact ⟨p, rfl, by simp [hlines, hempty]⟩
  · have hne : p.current ≠ #[] := by
      intro hempty
      simp [hempty] at hlast
    rcases hend with ⟨hhas, hfinish⟩ | ⟨hno, hfinish⟩
    · have hshape := State.Opens.endOfLine h hhas
      have hlines := lines_endLine p
      simpa [hfinish, hne, hshape, hlines] using eq_comm
    · have hshape := (State.Opens.has_eq_false_iff h).mp hno []
      simp [hfinish, hne, hshape]

/-- The end is missing where a line cannot do without: behind a mnemonic that wants an address. -/
theorem incomplete_of_finish_error (h : p.Sound) {fault : Fault} (hfinish : p.finish = .error fault) :
    ∃ lead operation, p.current.toList = [lead] ∧ lead.tag = .mnemonic (.addressed operation) ∧
      fault = .inLine lead.line (.unexpected { tag := .endOfLine, value := 0, line := lead.line }) := by
  rcases finish_cases p with ⟨-, hok⟩ | ⟨last, hlast, ⟨-, hok⟩ | ⟨hno, herror⟩⟩
  · exact absurd (hfinish.symm.trans hok) (by simp)
  · exact absurd (hfinish.symm.trans hok) (by simp)
  · obtain ⟨operation, htags⟩ := State.Opens.addressed_of_no_end h hno
    obtain ⟨lead, hcurrent, hlead⟩ := List.map_eq_singleton_iff.mp htags
    rw [← Array.getLast?_toList, hcurrent] at hlast
    cases hlast
    exact ⟨lead, operation, hcurrent, hlead, Except.error.inj (hfinish.symm.trans herror)⟩

theorem sound_start : Sound {} := .start

theorem yields_start_iff {result : List Line} :
    Yields {} tokens result ↔ ∃ lines, Divided tokens lines ∧ result = lines.filter (· ≠ []) := by
  simp [Yields, lines]

end Progress

/-! ### Sentences and faults -/

variable {tokens : List Token}

theorem ofTokens_eq (tokens : List Token) :
    ofTokens tokens =
      Progress.lines <$> (tokens.foldlM Progress.read {} >>= Progress.finish) := by
  change _ <$> groups tokens = _
  simp only [groups, map_eq_pure_bind, bind_assoc, pure_bind]
  rfl

theorem ofTokens_of_foldlM {q : Progress} (hfold : tokens.foldlM Progress.read {} = .ok q) :
    ofTokens tokens = q.finish.map Progress.lines := by
  rw [ofTokens_eq, hfold]
  rfl

theorem ofTokens_eq_ok_iff {result : List Line} :
    ofTokens tokens = .ok result ↔ ∃ lines, Divided tokens lines ∧ result = lines.filter (· ≠ []) := by
  rw [← Progress.yields_start_iff]
  cases hfold : tokens.foldlM Progress.read {} with
  | error fault =>
    rw [ofTokens_eq, hfold]
    obtain ⟨before, token, after, q, rfl, hbefore, hrefused, -⟩ := Progress.exists_refused hfold
    obtain ⟨hsound, -, hyields⟩ := Progress.foldlM_read_of_ok Progress.sound_start hbefore
    rw [← hyields]
    exact iff_of_false (by simp [bind, Except.bind]) (Progress.not_yields_of_refused hsound hrefused after result)
  | ok q =>
    obtain ⟨hsound, -, hyields⟩ := Progress.foldlM_read_of_ok Progress.sound_start hfold
    have hfinish := Progress.finish_eq_ok_iff hsound result
    rw [hyields, List.append_nil] at hfinish
    rw [← hfinish, ofTokens_of_foldlM hfold]
    cases q.finish <;> simp [Except.map]

theorem viable_of_foldlM_read {q : Progress} (hfold : tokens.foldlM Progress.read {} = .ok q) :
    Viable tokens := by
  obtain ⟨hsound, -, hyields⟩ := Progress.foldlM_read_of_ok Progress.sound_start hfold
  obtain ⟨rest, lines, hlines⟩ := hsound.exists_sentence
  obtain ⟨whole, hwhole, -⟩ := Progress.yields_start_iff.mp ((hyields rest _).mp ⟨lines, hlines, rfl⟩)
  exact ⟨rest, whole, hwhole⟩

theorem firstMisfit_of_refused {before after : List Token} {token : Token} {q : Progress}
    (hfold : before.foldlM Progress.read {} = .ok q) (hrefused : q.state.permitted.has token.tag = false) :
    FirstMisfit (before ++ token :: after) before.length token := by
  obtain ⟨hsound, -, hyields⟩ := Progress.foldlM_read_of_ok Progress.sound_start hfold
  refine ⟨by simp, ?_, fun j hj => ?_⟩
  · rintro ⟨rest, lines, hlines⟩
    rw [List.append_cons, List.take_left' (by simp), List.append_assoc] at hlines
    have hwhole := Progress.yields_start_iff.mpr ⟨lines, hlines, rfl⟩
    exact Progress.not_yields_of_refused hsound hrefused rest _ ((hyields _ _).mpr hwhole)
  · rw [List.take_append_of_le_length hj]
    exact (viable_of_foldlM_read hfold).take _

/-- The two faults that tokens can have. -/
theorem cases_of_ofTokens_error {fault : Fault} (h : ofTokens tokens = .error fault) :
    (∃ k token, FirstMisfit tokens k token ∧ fault = .inLine token.line (.unexpected token)) ∨
    Viable tokens ∧ ∃ last operation, tokens.getLast? = some last ∧
      last.tag = .mnemonic (.addressed operation) ∧
      fault = .inLine last.line (.unexpected { tag := .endOfLine, value := 0, line := last.line }) := by
  cases hfold : tokens.foldlM Progress.read {} with
  | error other =>
    rw [ofTokens_eq, hfold] at h
    cases h
    obtain ⟨before, token, after, q, rfl, hbefore, hrefused, hfault⟩ := Progress.exists_refused hfold
    exact .inl ⟨_, token, firstMisfit_of_refused hbefore hrefused, hfault⟩
  | ok q =>
    right
    refine ⟨viable_of_foldlM_read hfold, ?_⟩
    obtain ⟨hsound, hsuffix, -⟩ := Progress.foldlM_read_of_ok Progress.sound_start hfold
    rw [ofTokens_of_foldlM hfold] at h
    cases hfinish : q.finish with
    | ok finished =>
      rw [hfinish] at h
      cases h
    | error other =>
      rw [hfinish] at h
      cases h
      obtain ⟨last, operation, hcurrent, htag, hfault⟩ :=
        Progress.incomplete_of_finish_error hsound hfinish
      obtain ⟨front, hfront⟩ := hcurrent ▸ hsuffix
      have hlast : tokens.getLast? = some last := List.getLast?_eq_some_iff.mpr ⟨front, hfront.symm⟩
      exact ⟨last, operation, hlast, htag, hfault⟩

/-- Grouping accepts exactly the sentences. Of a sentence it gives the lines that are not blank, with every
token but the ends in them. Otherwise the fault is the first token up to which no sentence goes, and if
there is none, the tokens stop behind a mnemonic that wants an address and the fault is the end there. -/
theorem ofTokens_accepts_sentences (tokens : List Token) :
    ((∃ result, ofTokens tokens = .ok result) ↔ Sentence tokens) ∧
    (∀ lines, Divided tokens lines →
      ofTokens tokens = .ok (lines.filter (· ≠ [])) ∧
      (lines.filter (· ≠ [])).flatten = tokens.filter (·.tag ≠ .endOfLine)) ∧
    (∀ k token, FirstMisfit tokens k token →
      ofTokens tokens = .error (.inLine token.line (.unexpected token))) ∧
    (¬ Sentence tokens → (∀ k < tokens.length, Viable (tokens.take (k + 1))) →
      ∃ last operation, tokens.getLast? = some last ∧ last.tag = .mnemonic (.addressed operation) ∧
        ofTokens tokens =
          .error (.inLine last.line (.unexpected { tag := .endOfLine, value := 0, line := last.line }))) := by
  refine ⟨?_, ?_, ?_, ?_⟩
  · constructor
    · rintro ⟨result, hresult⟩
      obtain ⟨lines, hlines, -⟩ := ofTokens_eq_ok_iff.mp hresult
      exact ⟨lines, hlines⟩
    · rintro ⟨lines, hlines⟩
      exact ⟨_, ofTokens_eq_ok_iff.mpr ⟨lines, hlines, rfl⟩⟩
  · intro lines hlines
    exact ⟨ofTokens_eq_ok_iff.mpr ⟨lines, hlines, rfl⟩, hlines.flatten_filter⟩
  · intro k token hmisfit
    cases hresult : ofTokens tokens with
    | ok result =>
      obtain ⟨lines, hlines, -⟩ := ofTokens_eq_ok_iff.mp hresult
      exact absurd ((Sentence.viable ⟨lines, hlines⟩).take _) hmisfit.misfit
    | error fault =>
      rcases cases_of_ofTokens_error hresult with ⟨j, other, hother, rfl⟩ | ⟨hviable, -⟩
      · rw [hmisfit.unique hother]
      · exact absurd (hviable.take _) hmisfit.misfit
  · intro hsentence hviable
    cases hresult : ofTokens tokens with
    | ok result =>
      obtain ⟨lines, hlines, -⟩ := ofTokens_eq_ok_iff.mp hresult
      exact absurd ⟨lines, hlines⟩ hsentence
    | error fault =>
      rcases cases_of_ofTokens_error hresult with
        ⟨k, token, hmisfit, -⟩ | ⟨-, last, operation, hlast, htag, rfl⟩
      · obtain ⟨hk, -⟩ := List.getElem?_eq_some_iff.mp hmisfit.token_eq
        exact absurd (hviable k hk) hmisfit.misfit
      · exact ⟨last, operation, hlast, htag, rfl⟩

end LittleMan.Line
