import LittleMan.Line
import LittleMan.Proofs.Words

/-!
# The grammar of a line

A line is blank, a mnemonic alone, or a mnemonic with a number, and ends. A token can stand behind others
if some line begins so. Grouping looks up what can come next in a table of bit sets, by the tag in front and
by whether the line is empty. A bit set holds the tags it was made of (`TagSet.has_ofTags`), and the states that
grouping goes through know enough of the tokens in front of them: behind the tokens of a line, the table has
exactly what the grammar allows (`State.Opens.has_iff`). So tokens that make up lines are grouped as these lines, and
otherwise the fault is the first token that no line has there.
-/

namespace LittleMan

namespace Mnemonic

/-- The mnemonics that a number can follow. -/
def withNumber : List Mnemonic :=
  [.addressed .load, .addressed .store, .addressed .add, .addressed .subtract, .addressed .branch,
    .addressed .branchIfZero, .addressed .branchIfNotNegative, .data]

/-- The mnemonics that nothing has to follow. -/
def alone : List Mnemonic := [.input, .output, .halt, .data]

theorem addressed_mem_withNumber (operation : Operation) : .addressed operation ∈ withNumber := by
  cases operation <;> decide

theorem mem_all (m : Mnemonic) : m ∈ all := by
  cases m with
  | addressed operation => cases operation <;> decide
  | _ => decide

theorem withNumber_or_alone (m : Mnemonic) : m ∈ withNumber ∨ m ∈ alone := by
  cases m with
  | addressed operation => exact .inl (addressed_mem_withNumber operation)
  | _ => exact .inr (by decide)

end Mnemonic

namespace Line

/-- The tags of a line with its end. -/
inductive Shape : List Tag → Prop where
  | blank : Shape [.endOfLine]
  | alone {m : Mnemonic} (hm : m ∈ Mnemonic.alone) : Shape [.mnemonic m, .endOfLine]
  | number {m : Mnemonic} (hm : m ∈ Mnemonic.withNumber) :
    Shape [.mnemonic m, .literal, .endOfLine]

/-- Each token of a line with the tokens in front of it. -/
def places (line : List Token) : List (List Token × Token) := line.inits.zip line

/-- No line has the token behind those in front of it. -/
def Refused (place : List Token × Token) : Prop :=
  ∀ rest, ¬ Shape (place.1.map Token.tag ++ place.2.tag :: rest)

end Line

/-! ### Sets of tags -/

namespace TagSet

/-- The tags that token classes have. -/
def classes : List Tag := .endOfLine :: .literal :: Mnemonic.all.map .mnemonic

theorem has_of_class {tag : Tag} (htag : tag ∈ classes) (set : TagSet) :
    set.has tag = (set.bits &&& bit tag != 0) := by
  cases tag with
  | unknown code => simp [classes] at htag
  | _ => rfl

theorem mem_classes_of_has {tag : Tag} {set : TagSet} (hhas : set.has tag = true) : tag ∈ classes := by
  cases tag with
  | mnemonic m => exact List.mem_cons_of_mem _ (List.mem_cons_of_mem _ (List.mem_map_of_mem m.mem_all))
  | endOfLine => decide
  | literal => decide
  | unknown code => simp [has] at hhas

theorem bit_and_bit : ∀ first ∈ classes, ∀ second ∈ classes,
    bit first &&& bit second = 0 ↔ first ≠ second := by decide

theorem or_and_distrib (a b c : UInt16) : (a ||| b) &&& c = (a &&& c) ||| (b &&& c) :=
  UInt16.toBitVec_inj.mp (by simp [BitVec.and_or_distrib_right])

theorem foldl_and_bit {tags : List Tag} (htags : ∀ tag ∈ tags, tag ∈ classes) {tag : Tag} (htag : tag ∈ classes)
    (bits : UInt16) :
    tags.foldl (fun bits tag => bits ||| bit tag) bits &&& bit tag = 0 ↔ bits &&& bit tag = 0 ∧ tag ∉ tags := by
  induction tags generalizing bits with
  | nil => simp
  | cons first tags ih =>
    rw [List.forall_mem_cons] at htags
    rw [List.foldl_cons, ih htags.2, or_and_distrib, UInt16.or_eq_zero_iff, bit_and_bit _ htags.1 _ htag,
      List.mem_cons, not_or, and_assoc, ne_comm]

/-- A set has just the tags it was made of. -/
theorem has_ofTags {tags : List Tag} (htags : ∀ tag ∈ tags, tag ∈ classes) (tag : Tag) :
    (ofTags tags).has tag = true ↔ tag ∈ tags := by
  by_cases htag : tag ∈ classes
  · have hand := foldl_and_bit htags htag 0
    simp only [has_of_class htag, ofTags, bne_iff_ne, ne_eq, hand, UInt16.zero_and, true_and, not_not]
  · exact iff_of_false (fun hhas => htag (mem_classes_of_has hhas)) (fun hmem => htag (htags tag hmem))

end TagSet

/-! ### What a state knows -/

namespace Line

namespace State

/-- The states that grouping has behind the tags that a line begins with. -/
inductive Opens : State → List Tag → Prop where
  | start : Opens {} []
  | mnemonic (m : Mnemonic) : Opens ⟨.mnemonic m, false⟩ [.mnemonic m]
  | number {m : Mnemonic} (hm : m ∈ Mnemonic.withNumber) :
    Opens ⟨.literal, false⟩ [.mnemonic m, .literal]

variable {state : State} {before : List Tag} {tag : Tag}

theorem has_start : (permitted {}).has tag = true ↔ tag = .endOfLine ∨ ∃ m, tag = .mnemonic m := by
  have hpermitted : permitted {} = .ofTags (.endOfLine :: Mnemonic.all.map .mnemonic) := by decide
  rw [hpermitted, TagSet.has_ofTags (by decide), List.mem_cons, List.mem_map]
  constructor
  · rintro (rfl | ⟨m, -, rfl⟩)
    · exact .inl rfl
    · exact .inr ⟨m, rfl⟩
  · rintro (rfl | ⟨m, rfl⟩)
    · exact .inl rfl
    · exact .inr ⟨m, Mnemonic.mem_all m, rfl⟩

theorem has_mnemonic (m : Mnemonic) :
    (permitted ⟨.mnemonic m, false⟩).has tag = true ↔
      tag = .literal ∧ m ∈ Mnemonic.withNumber ∨ tag = .endOfLine ∧ m ∈ Mnemonic.alone := by
  have hpermitted : permitted ⟨.mnemonic m, false⟩ =
      .ofTags ((if m ∈ Mnemonic.withNumber then [.literal] else []) ++
        (if m ∈ Mnemonic.alone then [.endOfLine] else [])) := by
    cases m with
    | addressed operation => cases operation <;> decide
    | _ => decide
  rw [hpermitted, TagSet.has_ofTags]
  · split <;> split <;> simp_all
  · split <;> split <;> decide

theorem has_literal : (permitted ⟨.literal, false⟩).has tag = true ↔ tag = .endOfLine := by
  have hpermitted : permitted ⟨.literal, false⟩ = .ofTags [.endOfLine] := by decide
  rw [hpermitted, TagSet.has_ofTags (by decide), List.mem_singleton]

theorem Opens.extend (h : Opens state before) (htag : tag ≠ .endOfLine)
    (hhas : state.permitted.has tag = true) : Opens ⟨tag, false⟩ (before ++ [tag]) := by
  cases h with
  | start =>
    obtain ⟨m, rfl⟩ := (has_start.mp hhas).resolve_left htag
    exact .mnemonic m
  | mnemonic m =>
    rcases (has_mnemonic m).mp hhas with ⟨rfl, hm⟩ | ⟨hend, -⟩
    · exact .number hm
    · exact absurd hend htag
  | number hm => exact absurd (has_literal.mp hhas) htag

/-- The end of a line can be taken exactly where the line is complete. -/
theorem Opens.endOfLine (h : Opens state before) (hhas : state.permitted.has .endOfLine = true) :
    Shape (before ++ [.endOfLine]) := by
  cases h with
  | start => exact .blank
  | mnemonic m =>
    rcases (has_mnemonic m).mp hhas with ⟨hend, -⟩ | ⟨-, hm⟩
    · exact absurd hend (by decide)
    · exact .alone hm
  | number hm => exact .number hm

/-- Whatever a state has behind it can be made a line. -/
theorem Opens.exists_shape (h : Opens state before) : ∃ rest, Shape (before ++ rest) := by
  cases h with
  | start => exact ⟨_, .blank⟩
  | mnemonic m =>
    rcases Mnemonic.withNumber_or_alone m with hm | hm
    · exact ⟨_, .number hm⟩
    · exact ⟨_, .alone hm⟩
  | number hm => exact ⟨_, .number hm⟩

/-- Behind the tags that a line begins with, the table has just what a line can have next. -/
theorem Opens.has_iff (h : Opens state before) :
    state.permitted.has tag = true ↔ ∃ rest, Shape (before ++ tag :: rest) := by
  constructor
  · intro hhas
    by_cases htag : tag = .endOfLine
    · subst htag
      exact ⟨[], h.endOfLine hhas⟩
    · obtain ⟨rest, hshape⟩ := (h.extend htag hhas).exists_shape
      rw [List.append_assoc, List.singleton_append] at hshape
      exact ⟨rest, hshape⟩
  · rintro ⟨rest, hshape⟩
    cases h with
    | start => cases hshape with
      | blank => exact has_start.mpr (.inl rfl)
      | alone hm => exact has_start.mpr (.inr ⟨_, rfl⟩)
      | number hm => exact has_start.mpr (.inr ⟨_, rfl⟩)
    | mnemonic m => cases hshape with
      | alone hm => exact (has_mnemonic m).mpr (.inr ⟨rfl, hm⟩)
      | number hm => exact (has_mnemonic m).mpr (.inl ⟨rfl, hm⟩)
    | number hm => cases hshape with
      | number _ => exact has_literal.mpr rfl

theorem Opens.has_eq_false_iff (h : Opens state before) :
    state.permitted.has tag = false ↔ ∀ rest, ¬ Shape (before ++ tag :: rest) := by
  rw [← Bool.not_eq_true, h.has_iff, not_exists]

/-- Only a mnemonic that wants an address cannot be followed by the end. -/
theorem Opens.addressed_of_no_end (h : Opens state before) (hno : state.permitted.has .endOfLine = false) :
    ∃ operation, before = [.mnemonic (.addressed operation)] := by
  have hopen := h.has_eq_false_iff.mp hno []
  cases h with
  | start => exact absurd .blank hopen
  | number hm => exact absurd (.number hm) hopen
  | mnemonic m =>
    cases m with
    | addressed operation => exact ⟨operation, rfl⟩
    | _ => exact absurd (.alone (by decide)) hopen

end State

end Line

/-! ### Grouping one line -/

namespace Line

/-- Each token of the rest of a line with the tokens in front of it. -/
def placesFrom (before line : List Token) : List (List Token × Token) :=
  (line.inits.map (before ++ ·)).zip line

theorem places_eq_placesFrom (line : List Token) : places line = placesFrom [] line := by
  simp [places, placesFrom]

@[simp] theorem placesFrom_nil (before : List Token) : placesFrom before [] = [] := by
  simp [placesFrom]

theorem placesFrom_cons (before : List Token) (token : Token) (line : List Token) :
    placesFrom before (token :: line) = (before, token) :: placesFrom (before ++ [token]) line := by
  simp [placesFrom, Function.comp_def]

theorem placesFrom_append (before first second : List Token) :
    placesFrom before (first ++ second) =
      placesFrom before first ++ placesFrom (before ++ first) second := by
  induction first generalizing before with
  | nil => simp
  | cons token first ih => simp [placesFrom_cons, ih]

theorem not_refused_of_shape {before line : List Token}
    (hshape : Shape ((before ++ line).map Token.tag)) :
    ∀ place ∈ placesFrom before line, ¬ Refused place := by
  induction line generalizing before with
  | nil => simp
  | cons token line ih =>
    rw [placesFrom_cons, List.forall_mem_cons]
    constructor
    · intro hrefused
      rw [List.map_append, List.map_cons] at hshape
      exact hrefused _ hshape
    · apply ih
      rwa [List.append_assoc, List.singleton_append]

namespace Progress

variable {p : Progress} {tokens : List Token}

theorem read_of_has {token : Token} (htag : token.tag ≠ .endOfLine)
    (hhas : p.state.permitted.has token.tag = true) :
    p.read token = .ok { p with current := p.current.push token, state := ⟨token.tag, false⟩ } := by
  simp [read, hhas, htag]

theorem read_endOfLine_of_has {token : Token} (htag : token.tag = .endOfLine)
    (hhas : p.state.permitted.has token.tag = true) : p.read token = .ok { p.endLine with state := {} } := by
  rw [htag] at hhas
  simp [read, hhas, htag, endLine]

theorem read_of_not_has {token : Token} (hno : p.state.permitted.has token.tag = false) :
    p.read token = .error (.inLine token.line (.unexpected token)) := by
  simp [read, hno]

/-- Tokens that all can stand where they do are taken. -/
theorem foldlM_read_of_allowed (htokens : ∀ token ∈ tokens, token.tag ≠ .endOfLine)
    (hopens : p.state.Opens (p.current.toList.map Token.tag))
    (hallowed : ∀ place ∈ placesFrom p.current.toList tokens, ¬ Refused place) :
    ∃ state, State.Opens state ((p.current.toList ++ tokens).map Token.tag) ∧
      tokens.foldlM read p = .ok { p with current := p.current ++ tokens.toArray, state } := by
  induction tokens generalizing p with
  | nil => exact ⟨p.state, by simpa using hopens, by simp; rfl⟩
  | cons token tokens ih =>
    rw [List.forall_mem_cons] at htokens
    rw [placesFrom_cons, List.forall_mem_cons] at hallowed
    have hhas : p.state.permitted.has token.tag = true :=
      Bool.eq_true_of_not_eq_false fun hno => hallowed.1 (hopens.has_eq_false_iff.mp hno)
    have hextend := hopens.extend htokens.1 hhas
    obtain ⟨state, hstate, hfold⟩ :=
      ih (p := { p with current := p.current.push token, state := ⟨token.tag, false⟩ }) htokens.2
        (by simpa using hextend) (by simpa using hallowed.2)
    refine ⟨state, by simpa using hstate, ?_⟩
    rw [List.foldlM_cons, read_of_has htokens.1 hhas]
    exact hfold.trans (by simp)

/-- The first token that cannot stand where it does is the fault. -/
theorem foldlM_read_of_refused {place : List Token × Token}
    (htokens : ∀ token ∈ tokens, token.tag ≠ .endOfLine)
    (hopens : p.state.Opens (p.current.toList.map Token.tag))
    (hfirst : First Refused (placesFrom p.current.toList tokens) place) :
    tokens.foldlM read p = .error (.inLine place.2.line (.unexpected place.2)) := by
  induction tokens generalizing p with
  | nil =>
    rw [placesFrom_nil] at hfirst
    cases hfirst
  | cons token tokens ih =>
    rw [List.forall_mem_cons] at htokens
    rw [placesFrom_cons] at hfirst
    rw [List.foldlM_cons]
    cases hfirst with
    | here hrefused =>
      rw [read_of_not_has (hopens.has_eq_false_iff.mpr hrefused)]
      rfl
    | later hallowed hrest =>
      have hhas : p.state.permitted.has token.tag = true :=
        Bool.eq_true_of_not_eq_false fun hno => hallowed (hopens.has_eq_false_iff.mp hno)
      have hextend := hopens.extend htokens.1 hhas
      rw [read_of_has htokens.1 hhas]
      exact ih (p := { p with current := p.current.push token, state := ⟨token.tag, false⟩ }) htokens.2
        (by simpa using hextend) (by simpa using hrest)

end Progress

/-- A line whose last token, and no other, is its end. -/
def Ended (line : List Token) : Prop :=
  ∃ tokens number, line = tokens ++ [.endOfLine number] ∧ ∀ token ∈ tokens, token.tag ≠ .endOfLine

/-- Nothing follows the end of a line. -/
theorem Shape.eq_nil_of_endOfLine {before rest : List Tag}
    (hshape : Shape (before ++ .endOfLine :: rest)) : rest = [] := by
  generalize htags : before ++ .endOfLine :: rest = tags at hshape
  cases hshape with
  | blank =>
    rcases before with _ | ⟨first, before⟩ <;> simp_all
  | alone hm =>
    rcases before with _ | ⟨first, _ | ⟨second, before⟩⟩ <;> simp_all
  | number hm =>
    rcases before with _ | ⟨first, _ | ⟨second, _ | ⟨third, before⟩⟩⟩ <;> simp_all

/-- The three ways a line is made up in front of its end. -/
theorem Shape.cases_of_endOfLine {tags : List Tag} (hshape : Shape (tags ++ [.endOfLine])) :
    tags = [] ∨ (∃ m ∈ Mnemonic.alone, tags = [.mnemonic m]) ∨
      ∃ m ∈ Mnemonic.withNumber, tags = [.mnemonic m, .literal] := by
  generalize hwhole : tags ++ [.endOfLine] = whole at hshape
  cases hshape with
  | blank => exact .inl (by simpa using hwhole)
  | @alone m hm =>
    refine .inr (.inl ⟨m, hm, ?_⟩)
    exact List.append_cancel_right (hwhole : tags ++ _ = [.mnemonic m] ++ [.endOfLine])
  | @number m hm =>
    refine .inr (.inr ⟨m, hm, ?_⟩)
    exact List.append_cancel_right (hwhole : tags ++ _ = [.mnemonic m, .literal] ++ [.endOfLine])

theorem shape_of_not_refused {line : List Token} (hended : Ended line)
    (hallowed : ∀ place ∈ places line, ¬ Refused place) : Shape (line.map Token.tag) := by
  obtain ⟨tokens, number, rfl, htokens⟩ := hended
  rw [places_eq_placesFrom, placesFrom_append, List.forall_mem_append] at hallowed
  have hend : ¬ Refused (tokens, .endOfLine number) := by
    simpa [placesFrom_cons] using hallowed.2
  obtain ⟨rest, hshape⟩ := not_forall_not.mp hend
  have hrest : rest = [] := hshape.eq_nil_of_endOfLine
  rw [hrest] at hshape
  rw [List.map_append]
  exact hshape

/-! ### Grouping all the lines -/

namespace Progress

variable {done : Array Group} {line : List Token}

theorem foldlM_read_of_shape (hended : Ended line) (hshape : Shape (line.map Token.tag)) :
    line.foldlM read { groups := done } =
      .ok { groups := done ++ (Group.ofLine? line.dropLast).toArray } := by
  obtain ⟨tokens, number, rfl, htokens⟩ := hended
  have hallowed : ∀ place ∈ placesFrom [] (tokens ++ [.endOfLine number]), ¬ Refused place :=
    not_refused_of_shape hshape
  rw [placesFrom_append, List.forall_mem_append] at hallowed
  obtain ⟨state, hstate, hfold⟩ :=
    foldlM_read_of_allowed (p := { groups := done }) htokens .start (by simpa using hallowed.1)
  have hend : ¬ Refused (tokens, .endOfLine number) := by
    simpa [placesFrom_cons] using hallowed.2
  have hhas : state.permitted.has .endOfLine = true :=
    Bool.eq_true_of_not_eq_false fun hno => hend (hstate.has_eq_false_iff.mp hno)
  rw [List.foldlM_append, hfold]
  change ([Token.endOfLine number].foldlM read _) = _
  rw [List.foldlM_cons, read_endOfLine_of_has rfl hhas]
  simp [endLine, bind, Except.bind, pure, Except.pure]

theorem foldlM_read_of_refused_place {place : List Token × Token} (hended : Ended line)
    (hfirst : First Refused (places line) place) :
    line.foldlM read { groups := done } = .error (.inLine place.2.line (.unexpected place.2)) := by
  obtain ⟨tokens, number, rfl, htokens⟩ := hended
  rw [places_eq_placesFrom, placesFrom_append, First.append_iff] at hfirst
  rw [List.foldlM_append]
  rcases hfirst with hinside | ⟨hallowed, hend⟩
  · rw [foldlM_read_of_refused (p := { groups := done }) htokens .start (by simpa using hinside)]
    rfl
  · obtain ⟨state, hstate, hfold⟩ :=
      foldlM_read_of_allowed (p := { groups := done }) htokens .start (by simpa using hallowed)
    rw [List.nil_append, placesFrom_cons, placesFrom_nil] at hend
    cases hend with
    | later _ hrest => cases hrest
    | here hrefused =>
      have hno : state.permitted.has .endOfLine = false := hstate.has_eq_false_iff.mpr hrefused
      rw [hfold]
      change ([Token.endOfLine number].foldlM read _) = _
      rw [List.foldlM_cons, read_of_not_has hno]
      rfl

theorem foldlM_read_of_shapes {lines : List (List Token)} (hended : ∀ line ∈ lines, Ended line)
    (hshape : ∀ line ∈ lines, Shape (line.map Token.tag)) :
    lines.flatten.foldlM read { groups := done } =
      .ok { groups := done ++ ((lines.map List.dropLast).filterMap Group.ofLine?).toArray } := by
  induction lines generalizing done with
  | nil => simp; rfl
  | cons line lines ih =>
    rw [List.forall_mem_cons] at hended hshape
    rw [List.flatten_cons, List.foldlM_append, foldlM_read_of_shape hended.1 hshape.1]
    refine (ih hended.2 hshape.2).trans ?_
    rw [List.map_cons, List.filterMap_cons]
    cases Group.ofLine? line.dropLast <;> simp

theorem foldlM_read_of_first {lines : List (List Token)} {place : List Token × Token}
    (hended : ∀ line ∈ lines, Ended line) (hfirst : First Refused (lines.flatMap places) place) :
    lines.flatten.foldlM read { groups := done } =
      .error (.inLine place.2.line (.unexpected place.2)) := by
  induction lines generalizing done with
  | nil => cases hfirst
  | cons line lines ih =>
    rw [List.forall_mem_cons] at hended
    rw [List.flatMap_cons, First.append_iff] at hfirst
    rw [List.flatten_cons, List.foldlM_append]
    rcases hfirst with hhere | ⟨hallowed, hlater⟩
    · rw [foldlM_read_of_refused_place hended.1 hhere]
      rfl
    · rw [foldlM_read_of_shape hended.1 (shape_of_not_refused hended.1 hallowed)]
      exact ih hended.2 hlater

end Progress

theorem Group.map_line_filterMap (lines : List Line) :
    (lines.filterMap ofLine?).map line = lines.filter (· ≠ []) := by
  induction lines with
  | nil => rfl
  | cons first lines ih =>
    cases first with
    | nil =>
      rw [List.filterMap_cons_none rfl, List.filter_cons_of_neg (by simp), ih]
    | cons lead rest =>
      have hgroup : ofLine? (lead :: rest) = some { lead, rest } := rfl
      rw [List.filterMap_cons_some hgroup, List.filter_cons_of_pos (by simp), List.map_cons, ih, line]

variable {lines : List (List Token)}

theorem ofTokens_of_shapes (hended : ∀ line ∈ lines, Ended line)
    (hshape : ∀ line ∈ lines, Shape (line.map Token.tag)) :
    ofTokens lines.flatten = .ok ((lines.map List.dropLast).filter (· ≠ [])) := by
  rw [ofTokens, groups, Progress.foldlM_read_of_shapes hended hshape, ← Group.map_line_filterMap]
  simp [bind, Except.bind, pure, Except.pure, Progress.finish, Except.map]

theorem ofTokens_of_first {place : List Token × Token} (hended : ∀ line ∈ lines, Ended line)
    (hfirst : First Refused (lines.flatMap places) place) :
    ofTokens lines.flatten = .error (.inLine place.2.line (.unexpected place.2)) := by
  rw [ofTokens, groups, Progress.foldlM_read_of_first hended hfirst]
  rfl

theorem shapes_or_first (hended : ∀ line ∈ lines, Ended line) :
    (∀ line ∈ lines, Shape (line.map Token.tag)) ∨
      ∃ place, First Refused (lines.flatMap places) place := by
  by_cases hallowed : ∀ place ∈ lines.flatMap places, ¬ Refused place
  · left
    intro line hline
    apply shape_of_not_refused (hended line hline)
    intro place hplace
    exact hallowed place (List.mem_flatMap.mpr ⟨line, hline, hplace⟩)
  · right
    push Not at hallowed
    obtain ⟨place, hplace, hrefused⟩ := hallowed
    exact First.exists_of_mem hplace hrefused

/-- A blank line at the end changes nothing. -/
theorem ofTokens_append_blank (hended : ∀ line ∈ lines, Ended line) (number : Int) :
    ofTokens (lines ++ [[Token.endOfLine number]]).flatten = ofTokens lines.flatten := by
  have hblank : ∀ line ∈ lines ++ [[Token.endOfLine number]], Ended line := by
    rw [List.forall_mem_append]
    exact ⟨hended, List.forall_mem_singleton.mpr ⟨[], number, rfl, by simp⟩⟩
  rcases shapes_or_first hended with hshape | ⟨place, hfirst⟩
  · have hshapes : ∀ line ∈ lines ++ [[Token.endOfLine number]], Shape (line.map Token.tag) := by
      rw [List.forall_mem_append]
      exact ⟨hshape, List.forall_mem_singleton.mpr .blank⟩
    rw [ofTokens_of_shapes hended hshape, ofTokens_of_shapes hblank hshapes]
    simp
  · have hfirsts : First Refused ((lines ++ [[Token.endOfLine number]]).flatMap places) place := by
      rw [List.flatMap_append]
      exact First.append_iff.mpr (.inl hfirst)
    rw [ofTokens_of_first hended hfirst, ofTokens_of_first hblank hfirsts]

end Line

theorem Source.Lexed.ended {number : Nat} {words : List (List Text)} {lines : List (List Token)}
    (h : Lexed number words lines) : ∀ line ∈ lines, Line.Ended line := by
  induction h with
  | nil => simp
  | @cons number words lines tokens others hwords _ ih =>
    rw [List.forall_mem_cons]
    exact ⟨⟨tokens, number, rfl, tag_ne_endOfLine hwords⟩, ih⟩

end LittleMan
