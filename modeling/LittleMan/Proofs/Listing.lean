import LittleMan.Proofs.Requests
import LittleMan.Proofs.Text.Blank

/-!
# Listing a program and assembling it again

A listing has a command on each line, as the words that a source would have for it. These words are read as
the tokens that make the command, so assembling a listing gives back what was listed. What an assembler keeps
of a source can always be listed, since each of its commands has a memory word.
-/

namespace LittleMan

/-! ### The words of a listing -/

/-- A word of visible ASCII. -/
def Text.Visible (word : Text) : Prop := word ≠ [] ∧ ∀ byte ∈ word, 33 ≤ byte ∧ byte < 128

theorem Mnemonic.visible_text (m : Mnemonic) : Text.Visible m.text := by
  have hall : m.text ≠ [] ∧ m.text.all (fun byte => 33 ≤ byte && byte < 128) = true := by
    rcases m with (_ | _ | _ | _ | _ | _ | _) | _ | _ | _ | _ <;> decide
  refine ⟨hall.1, fun byte hbyte => ?_⟩
  simpa using List.all_eq_true.mp hall.2 byte hbyte

theorem Decimal.visible_plain (n : Int) : Text.Visible (plain n) := by
  obtain ⟨hne, hbytes⟩ := plain_visible n
  refine ⟨hne, fun byte hbyte => ?_⟩
  obtain ⟨hlow, hhigh⟩ := hbytes byte hbyte
  exact ⟨UInt8.le_trans (by decide) hlow, UInt8.lt_of_le_of_lt hhigh (by decide)⟩

namespace Source

theorem wordsOf_visible {word : Text} (h : word.Visible) : wordsOf (Text.chars word) = [word] := by
  have hascii : Text.ofChars (Text.chars word) = word :=
    Text.ofChars_chars_of_ascii fun byte hbyte => (h.2 byte hbyte).2
  have hne : Text.chars word ≠ [] := by
    intro hnil
    rw [hnil] at hascii
    exact h.1 hascii.symm
  rw [wordsOf_of_no_blank hne (Text.solid_iff.mp (Text.solid_of_visible h.2)), hascii]

theorem wordsOf_two {first second : Text} (hfirst : first.Visible) (hsecond : second.Visible) :
    wordsOf (Text.chars (first ++ utf8 " " ++ second)) = [first, second] := by
  have hchars : Text.chars (first ++ utf8 " " ++ second) =
      Text.chars first ++ ' ' :: Text.chars second := by
    rw [List.append_assoc]
    exact Text.chars_append_encoding first ' ' second
  rw [hchars, wordsOf_append_blank (by decide), wordsOf_visible hfirst, wordsOf_visible hsecond]
  rfl

end Source

namespace Command

/-- A command with the number of a mnemonic. -/
def Known (command : Command) : Prop :=
  ∃ code address literal, 0 ≤ code ∧ code ≤ 10 ∧ command = ofFields code address literal

theorem Known.ne_unknown {command : Command} (h : command.Known) (code : Int) : command ≠ .unknown code := by
  obtain ⟨number, address, literal, hlow, hhigh, rfl⟩ := h
  have hall : ∀ n : Fin 11, (Mnemonic.ofCode? n.val).isSome = true := by decide
  have hsome := hall ⟨number.toNat, by omega⟩
  rw [Int.toNat_of_nonneg hlow] at hsome
  obtain ⟨m, hm⟩ := Option.isSome_iff_exists.mp hsome
  rw [ofFields, hm]
  cases m <;> exact Command.noConfusion

theorem known_iff {command : Command} : command.Known ↔ ∃ word, command.encode = .ok word := by
  have hcodes (m : Mnemonic) : 0 ≤ m.code ∧ m.code ≤ 10 ∧ Mnemonic.ofCode? m.code = some m := by
    rcases m with (_ | _ | _ | _ | _ | _ | _) | _ | _ | _ | _ <;> decide
  cases command with
  | instruction i =>
    obtain ⟨hlow, hhigh, hcode⟩ := hcodes i.mnemonic
    refine iff_of_true ⟨i.mnemonic.code, address (.instruction i), 0, hlow, hhigh, ?_⟩ ⟨_, encode_instruction i⟩
    rw [ofFields, hcode]
    cases i <;> rfl
  | data value =>
    obtain ⟨hlow, hhigh, hcode⟩ := hcodes .data
    refine iff_of_true ⟨Mnemonic.data.code, address (.data value), value, hlow, hhigh, ?_⟩ ⟨_, encode_data value⟩
    rw [ofFields, hcode]
  | unknown code => exact iff_of_false (fun h => h.ne_unknown code rfl) nofun

/-- The commands in a text, one a line. -/
def listingOf (commands : List Command) : Text :=
  commands.flatMap fun command => command.listing ++ [Text.newline]

/-- The words of a command in a listing. -/
def words : Command → List Text
  | .instruction (.addressed operation address) =>
    [(Mnemonic.addressed operation).text, Decimal.plain address.val]
  | .instruction i => [i.mnemonic.text]
  | .data value => [Mnemonic.data.text, Decimal.plain value.toInt]
  | .unknown _ => []

/-- A command is listed as a word, or as two words with a space between them. -/
theorem listing_cases {command : Command} (h : command.Known) :
    (∃ word, word.Visible ∧ command.listing = word ∧ command.words = [word]) ∨
      ∃ first second, first.Visible ∧ second.Visible ∧ command.listing = first ++ utf8 " " ++ second ∧
        command.words = [first, second] := by
  cases command with
  | instruction i =>
    cases i with
    | addressed operation address =>
      exact .inr ⟨_, _, Mnemonic.visible_text _, Decimal.visible_plain _, rfl, rfl⟩
    | input => exact .inl ⟨_, Mnemonic.visible_text _, rfl, rfl⟩
    | output => exact .inl ⟨_, Mnemonic.visible_text _, rfl, rfl⟩
    | halt => exact .inl ⟨_, Mnemonic.visible_text _, rfl, rfl⟩
  | data value => exact .inr ⟨_, _, Mnemonic.visible_text _, Decimal.visible_plain _, rfl, rfl⟩
  | unknown code => exact absurd rfl (h.ne_unknown code)

theorem wordsOf_listing {command : Command} (h : command.Known) :
    Source.wordsOf (Text.chars command.listing) = command.words := by
  rcases listing_cases h with
    ⟨word, hword, hlisting, hwords⟩ | ⟨first, second, hfirst, hsecond, hlisting, hwords⟩
  · rw [hlisting, hwords, Source.wordsOf_visible hword]
  · rw [hlisting, hwords, Source.wordsOf_two hfirst hsecond]

theorem printable_listing {command : Command} (h : command.Known) : ∀ byte ∈ command.listing, 32 ≤ byte := by
  have hvisible {word : Text} (hword : word.Visible) : ∀ byte ∈ word, 32 ≤ byte := by
    intro byte hbyte
    exact UInt8.le_trans (by decide) (hword.2 byte hbyte).1
  rcases listing_cases h with ⟨word, hword, hlisting, -⟩ | ⟨first, second, hfirst, hsecond, hlisting, -⟩
  · rw [hlisting]
    exact hvisible hword
  · rw [hlisting, List.forall_mem_append, List.forall_mem_append]
    exact ⟨⟨hvisible hfirst, List.forall_mem_singleton.mpr UInt8.le_rfl⟩, hvisible hsecond⟩

theorem splitOn_listingOf {commands : List Command} (h : ∀ command ∈ commands, command.Known) :
    (listingOf commands).splitOn Text.newline = commands.map listing ++ [[]] := by
  induction commands with
  | nil => rfl
  | cons command commands ih =>
    rw [List.forall_mem_cons] at h
    have hline : Text.newline ∉ command.listing := by
      intro hmem
      exact absurd (printable_listing h.1 _ hmem) (by decide)
    rw [listingOf, List.flatMap_cons, List.append_assoc, List.singleton_append,
      List.splitOn_append_cons_self_of_not_mem hline, List.map_cons, List.cons_append]
    exact congrArg (command.listing :: ·) (ih h.2)

theorem wordLines_listingOf {commands : List Command} (h : ∀ command ∈ commands, command.Known) :
    Source.wordLines (listingOf commands) = commands.map words ++ [[]] := by
  have hreturn : (listingOf commands).filter (· != 13) = listingOf commands := by
    rw [List.filter_eq_self]
    intro byte hbyte
    obtain ⟨command, hcommand, hbyte⟩ := List.mem_flatMap.mp hbyte
    rw [bne_iff_ne]
    intro hthirteen
    rw [hthirteen] at hbyte
    rcases List.mem_append.mp hbyte with hbyte | hbyte
    · exact absurd (printable_listing (h command hcommand) _ hbyte) (by decide)
    · exact absurd (List.mem_singleton.mp hbyte) (by decide)
  have hwords : ∀ command ∈ commands, Source.wordsOf (Text.chars command.listing) = command.words :=
    fun command hcommand => wordsOf_listing (h command hcommand)
  rw [Source.wordLines, hreturn, splitOn_listingOf h, List.map_append, List.map_map]
  congr 1
  exact List.map_congr_left hwords

/-- The words of a command are read as tokens that make up a line, and the line makes the command. -/
theorem exists_tokens {command : Command} (h : command.Known) (number : Nat) :
    ∃ tokens, List.Forall₂ (Source.IsToken number) command.words tokens ∧
      Line.Shape ((tokens ++ [Token.endOfLine number]).map Token.tag) ∧
      ofLine? tokens = .ok (some command) := by
  cases command with
  | instruction i =>
    cases i with
    | addressed operation address =>
      have hcell : address.val < 100 := address.isLt
      have hvalue : (Int16.ofInt address.val).toInt = address.val :=
        Int16.toInt_ofInt_of_le (by omega) (by omega)
      have hspells : Decimal.Spells (Decimal.plain address.val) (Int16.ofInt address.val).toInt := by
        rw [hvalue]
        exact Decimal.spells_plain _
      refine ⟨_, .cons (.mnemonic (.addressed operation)) (.cons (.literal hspells) .nil),
        .number (Mnemonic.addressed_mem_withNumber operation), ?_⟩
      simp [ofLine?_cons, ofGroup?, ofOperand, hvalue, Address.ofInt?_val, Except.map]
    | input => exact ⟨_, .cons (.mnemonic .input) .nil, .alone (by decide), rfl⟩
    | output => exact ⟨_, .cons (.mnemonic .output) .nil, .alone (by decide), rfl⟩
    | halt => exact ⟨_, .cons (.mnemonic .halt) .nil, .alone (by decide), rfl⟩
  | data value =>
    exact ⟨_, .cons (.mnemonic .data) (.cons (.literal (Decimal.spells_plain _)) .nil), .number (by decide), rfl⟩
  | unknown code => exact absurd rfl (h.ne_unknown code)

theorem exists_lines {commands : List Command} (h : ∀ command ∈ commands, command.Known) (number : Nat) :
    ∃ lines, Source.Lexed number (commands.map words ++ [[]]) lines ∧
      (∀ line ∈ lines, Line.Shape (line.map Token.tag)) ∧
      ofLines (lines.map List.dropLast) = .ok commands := by
  induction commands generalizing number with
  | nil =>
    refine ⟨_, .cons .nil (.nil _), ?_, rfl⟩
    rw [List.forall_mem_singleton]
    exact .blank
  | cons command commands ih =>
    rw [List.forall_mem_cons] at h
    obtain ⟨tokens, htokens, hshape, hcommand⟩ := exists_tokens h.1 number
    obtain ⟨lines, hlines, hshapes, hcommands⟩ := ih h.2 (number + 1)
    refine ⟨_, .cons htokens hlines, List.forall_mem_cons.mpr ⟨hshape, hshapes⟩, ?_⟩
    rw [List.map_cons, List.dropLast_concat, ofLines_cons_of_ok hcommand, hcommands]
    rfl

end Command

namespace Assembler

theorem stages_of_shapes {source : Text} {lines : List (List Token)}
    (hlexed : Source.Lexed 1 (Source.wordLines source) lines)
    (hshape : ∀ line ∈ lines, Line.Shape (line.map Token.tag)) :
    stages source = (do
      let commands ← Command.ofLines (lines.map List.dropLast)
      let image ← Memory.assemble commands
      return (commands, image)) := by
  rw [stages, ← bind_assoc, ← bind_assoc, Source.commands_of_shapes hlexed hshape]

theorem stages_listingOf {commands : List Command} (h : ∀ command ∈ commands, command.Known) :
    stages (Command.listingOf commands) = (do
      let image ← Memory.assemble commands
      return (commands, image)) := by
  obtain ⟨lines, hlexed, hshape, hcommands⟩ := Command.exists_lines h 1
  rw [← Command.wordLines_listingOf h] at hlexed
  rw [stages_of_shapes hlexed hshape, hcommands]
  rfl

theorem exists_cells {commands : List Command} (h : ∀ command ∈ commands, command.Known) :
    ∃ cells, List.Forall₂ (fun command cell => command.encode = .ok cell) commands cells := by
  induction commands with
  | nil => exact ⟨[], .nil⟩
  | cons command commands ih =>
    rw [List.forall_mem_cons] at h
    obtain ⟨cell, hcell⟩ := Command.known_iff.mp h.1
    obtain ⟨cells, hcells⟩ := ih h.2
    exact ⟨cell :: cells, .cons hcell hcells⟩

/-- The programs that have an image: at most a hundred commands with a memory word each. -/
theorem exists_image_iff {commands : List Command} :
    (∃ image, Memory.assemble commands = .ok image) ↔
      commands.length ≤ 100 ∧ ∀ command ∈ commands, command.Known := by
  constructor
  · intro ⟨image, himage⟩
    unfold Memory.assemble at himage
    split at himage
    · cases himage
    · next hcount =>
      refine ⟨Nat.le_of_not_lt hcount, ?_⟩
      by_contra hunknown
      push Not at hunknown
      obtain ⟨command, hmem, hcommand⟩ := hunknown
      obtain ⟨first, hfirst⟩ := First.exists_of_mem (p := fun command => ¬ command.Known) hmem hcommand
      cases hencode : first.encode with
      | ok word => exact hfirst.property (Command.known_iff.mpr ⟨word, hencode⟩)
      | error fault =>
        have hmapM := hfirst.mapM_eq_error (fun other hother => Command.known_iff.mp (not_not.mp hother)) hencode
        rw [hmapM] at himage
        cases himage
  · rintro ⟨hcount, hknown⟩
    obtain ⟨cells, hcells⟩ := exists_cells hknown
    refine ⟨Memory.ofWords cells, ?_⟩
    rw [Memory.assemble_of_encode hcells, if_neg]
    rw [← hcells.length_eq]
    exact Nat.not_lt_of_le hcount

theorem exists_commands {assembler : Assembler} {source : Text} {image : Memory}
    (h : (assembler.compile source).image = .ok image) : ∃ commands, stages source = .ok (commands, image) := by
  rw [image_compile_eq_stages] at h
  cases hstages : stages source with
  | error fault =>
    rw [hstages] at h
    cases h
  | ok result =>
    rw [hstages] at h
    cases h
    exact ⟨result.1, rfl⟩

theorem assemble_of_stages {source : Text} {commands : List Command} {image : Memory}
    (h : stages source = .ok (commands, image)) : Memory.assemble commands = .ok image := by
  rw [stages, ← bind_assoc, ← bind_assoc] at h
  obtain ⟨others, -, h⟩ := bind_eq_ok_iff.mp h
  obtain ⟨memory, hassemble, h⟩ := bind_eq_ok_iff.mp h
  cases h
  exact hassemble

theorem compile_of_stages (assembler : Assembler) {source : Text} {commands : List Command} {image : Memory}
    (h : stages source = .ok (commands, image)) :
    (assembler.compile source).image = .ok image ∧ (assembler.compile source).assembler.commands = commands := by
  rw [image_compile_eq_stages, assembler_compile, h]
  exact ⟨rfl, rfl⟩

/-- Listing and assembling a program gives it back. At most a hundred commands, whatever they are, assemble from
their listing to themselves and their image; so does what an assembler kept of a source. -/
theorem listing_assembles_back (assembler again : Assembler) :
    (∀ commands : List Command, commands.length ≤ 100 → (∀ command ∈ commands, command.Known) →
      ∃ image, Memory.assemble commands = .ok image ∧
        (assembler.compile (Command.listingOf commands)).image = .ok image ∧
        (assembler.compile (Command.listingOf commands)).assembler.commands = commands) ∧
    ∀ source image, (assembler.compile source).image = .ok image →
      let commands := (assembler.compile source).assembler.commands
      (again.compile (Command.listingOf commands)).image = .ok image ∧
        (again.compile (Command.listingOf commands)).assembler.commands = commands := by
  constructor
  · intro commands hcount hknown
    obtain ⟨image, himage⟩ := exists_image_iff.mpr ⟨hcount, hknown⟩
    have hstages : stages (Command.listingOf commands) = .ok (commands, image) := by
      rw [stages_listingOf hknown, himage]
      rfl
    exact ⟨image, himage, compile_of_stages assembler hstages⟩
  · intro source image himage
    obtain ⟨commands, hstages⟩ := exists_commands himage
    obtain ⟨-, hcommands⟩ := compile_of_stages assembler hstages
    have hassemble := assemble_of_stages hstages
    obtain ⟨-, hknown⟩ := exists_image_iff.mp ⟨image, hassemble⟩
    dsimp only
    rw [hcommands]
    apply compile_of_stages
    rw [stages_listingOf hknown, hassemble]
    rfl

theorem mixed_listing_assembles_back :
    let commands : List Command :=
      [.instruction (.addressed .load ⟨99, by decide⟩), .instruction .input, .data (-32768), .instruction .halt]
    ∃ image, Memory.assemble commands = .ok image ∧
      (compile {} (Command.listingOf commands)).image = .ok image ∧
      (compile {} (Command.listingOf commands)).assembler.commands = commands := by
  apply (listing_assembles_back {} {}).1
  · decide
  · simp only [List.forall_mem_cons, Command.known_iff]
    exact ⟨⟨_, rfl⟩, ⟨_, rfl⟩, ⟨_, rfl⟩, ⟨_, rfl⟩, by simp⟩

end Assembler

end LittleMan
