import LittleMan.Proofs.Compilation

/-!
# Messages that tell faults apart

Messages are made of fixed wording, numbers and words of the source, and such a word can be anything, the wording of
another message included. Still the message of a fault in a source has only one reading. The number of the line ends
at the first space, the byte behind it tells the kind of the fault, and what follows is one word, token or number
between texts that are the same for all faults of its kind.
-/

namespace LittleMan

theorem Text.ne_of_head? {text other : Text} {first second : UInt8} (htext : text.head? = some first)
    (hother : other.head? = some second) (hne : first ≠ second) : text ≠ other := by
  intro h
  rw [h, hother] at htext
  exact hne (Option.some.inj htext).symm

/-! ### Tokens -/

namespace Token

/-- A token as reading makes it: its class is known, and only a number has a value. -/
inductive FromSource : Token → Prop where
  | mnemonic (m : Mnemonic) (line : Int) : FromSource { tag := .mnemonic m, line }
  | endOfLine (line : Int) : FromSource (.endOfLine line)
  | literal (value : Word) (line : Int) : FromSource { tag := .literal, value, line }

theorem mnemonic_text_ne {m : Mnemonic} {text : Text} (htext : Mnemonic.ofText? text = none) : m.text ≠ text := by
  intro h
  rw [← h, Mnemonic.ofText?_text] at htext
  cases htext

theorem mnemonic_text_inj {m m' : Mnemonic} (h : m.text = m'.text) : m = m' := by
  have hsame := Mnemonic.ofText?_text m
  rw [h, Mnemonic.ofText?_text] at hsame
  exact (Option.some.inj hsame).symm

theorem literal_text_inj {value value' : Word} {line line' : Int}
    (h : text { tag := .literal, value, line } = text { tag := .literal, value := value', line := line' }) :
    value = value' := by
  simp only [text, List.append_assoc] at h
  have hplain := List.append_cancel_right (List.append_cancel_left (List.append_cancel_left h))
  exact Int16.toInt_inj.mp (Decimal.plain_injective hplain)

theorem text_inj {token other : Token} (htoken : token.FromSource) (hother : other.FromSource)
    (hline : token.line = other.line) (h : token.text = other.text) : token = other := by
  cases htoken with
  | mnemonic m line =>
    obtain rfl : line = other.line := hline
    cases hother with
    | mnemonic m' line' =>
      obtain rfl : m = m' := mnemonic_text_inj h
      rfl
    | endOfLine line' => exact absurd h (mnemonic_text_ne rfl)
    | literal value' line' => exact absurd h (mnemonic_text_ne rfl)
  | endOfLine line =>
    obtain rfl : line = other.line := hline
    cases hother with
    | mnemonic m' line' => exact absurd h.symm (mnemonic_text_ne rfl)
    | endOfLine line' => rfl
    | literal value' line' => exact absurd h (Text.ne_of_head? rfl rfl (by decide))
  | literal value line =>
    obtain rfl : line = other.line := hline
    cases hother with
    | mnemonic m' line' => exact absurd h.symm (mnemonic_text_ne rfl)
    | endOfLine line' => exact absurd h (Text.ne_of_head? rfl rfl (by decide))
    | literal value' line' =>
      obtain rfl := literal_text_inj h
      rfl

end Token

/-! ### Faults -/

namespace Fault

/-- What can be wrong on a line of a source. -/
inductive OnLine (line : Int) : Fault → Prop where
  | word (word : Text) : OnLine line (.unknownWord word)
  | token {token : Token} (htoken : token.FromSource) (hline : token.line = line) :
    OnLine line (.unexpected token)
  | operand (value : Word) : OnLine line (.addressRange value)

/-- What can be wrong with a source. -/
inductive FromSource : Fault → Prop where
  | inLine {line : Int} {cause : Fault} (hcause : OnLine line cause) : FromSource (.inLine line cause)
  | capacity (count : Int) : FromSource (.capacity count)

theorem unknownWord_message_inj {word word' : Text} (h : message (.unknownWord word) = message (.unknownWord word')) :
    word = word' := by
  simp only [message, List.append_assoc] at h
  exact List.append_cancel_right (List.append_cancel_left h)

theorem addressRange_message_inj {value value' : Word}
    (h : message (.addressRange value) = message (.addressRange value')) : value = value' := by
  simp only [message, List.append_assoc] at h
  have hnumber := List.append_cancel_right (List.append_cancel_left h)
  exact Int16.toInt_inj.mp (Decimal.inMessage_injective hnumber)

theorem capacity_message_inj {count count' : Int} (h : message (.capacity count) = message (.capacity count')) :
    count = count' := by
  simp only [message, List.append_assoc] at h
  exact Decimal.inMessage_injective (List.append_cancel_right (List.append_cancel_left h))

theorem inLine_message_inj {line line' : Int} {cause cause' : Fault}
    (h : message (.inLine line cause) = message (.inLine line' cause')) :
    line = line' ∧ cause.message = cause'.message := by
  simp only [message, List.append_assoc] at h
  have hnumber := List.append_cancel_left h
  have hparts := (Decimal.numeric_inMessage line).append_inj (Decimal.numeric_inMessage line') (by decide) hnumber
  exact ⟨Decimal.inMessage_injective hparts.1, hparts.2⟩

/-- On one line, a message has one cause: a quote, a `u` or an `a` tells its kind. -/
theorem OnLine.message_inj {line : Int} {cause cause' : Fault} (hcause : OnLine line cause)
    (hcause' : OnLine line cause') (h : cause.message = cause'.message) : cause = cause' := by
  cases hcause with
  | word word =>
    cases hcause' with
    | word word' => rw [unknownWord_message_inj h]
    | token => exact absurd h (Text.ne_of_head? rfl rfl (by decide))
    | operand => exact absurd h (Text.ne_of_head? rfl rfl (by decide))
  | @token token htoken hline =>
    cases hcause' with
    | word => exact absurd h (Text.ne_of_head? rfl rfl (by decide))
    | @token token' htoken' hline' =>
      have htext : token.text = token'.text := List.append_cancel_left h
      rw [Token.text_inj htoken htoken' (hline.trans hline'.symm) htext]
    | operand => exact absurd h (Text.ne_of_head? rfl rfl (by decide))
  | operand value =>
    cases hcause' with
    | word => exact absurd h (Text.ne_of_head? rfl rfl (by decide))
    | token => exact absurd h (Text.ne_of_head? rfl rfl (by decide))
    | operand value' => rw [addressRange_message_inj h]

theorem FromSource.message_inj {fault fault' : Fault} (hfault : fault.FromSource) (hfault' : fault'.FromSource)
    (h : fault.message = fault'.message) : fault = fault' := by
  cases hfault with
  | inLine hcause =>
    cases hfault' with
    | inLine hcause' =>
      obtain ⟨rfl, hmessage⟩ := inLine_message_inj h
      rw [hcause.message_inj hcause' hmessage]
    | capacity => exact absurd h (Text.ne_of_head? rfl rfl (by decide))
  | capacity count =>
    cases hfault' with
    | inLine => exact absurd h (Text.ne_of_head? rfl rfl (by decide))
    | capacity count' => rw [capacity_message_inj h]

end Fault

/-! ### What compiling complains of -/

namespace Source

theorem IsToken.fromSource {line : Int} {word : Text} {token : Token} (h : IsToken line word token) :
    token.FromSource := by
  cases h with
  | mnemonic m => exact .mnemonic m line
  | literal => exact .literal _ line

theorem fromSource_of_tokens {number : Nat} {words : List Text} {tokens : List Token}
    (h : List.Forall₂ (IsToken number) words tokens) : ∀ token ∈ tokens, token.FromSource := by
  induction h with
  | nil => simp
  | cons hword _ ih => exact List.forall_mem_cons.mpr ⟨hword.fromSource, ih⟩

theorem Lexed.fromSource {number : Nat} {words : List (List Text)} {lines : List (List Token)}
    (h : Lexed number words lines) : ∀ line ∈ lines, ∀ token ∈ line, token.FromSource := by
  induction h with
  | nil => simp
  | @cons number _ _ _ _ hwords _ ih =>
    refine List.forall_mem_cons.mpr ⟨?_, ih⟩
    rw [List.forall_mem_append, List.forall_mem_singleton]
    exact ⟨fromSource_of_tokens hwords, .endOfLine number⟩

theorem Rejected.fromSource {source : Text} {fault : Fault} (h : Rejected source fault) : fault.FromSource := by
  cases h with
  | word => exact .inLine (.word _)
  | @shape lines before token hlexed hfirst =>
    obtain ⟨line, hline, hplace⟩ := List.mem_flatMap.mp hfirst.mem
    have htoken : token ∈ line := (List.of_mem_zip hplace).2
    exact .inLine (.token (hlexed.fromSource line hline token htoken) rfl)
  | operand => exact .inLine (.operand _)
  | capacity => exact .capacity _

theorem fromSource_of_compile {assembler : Assembler} {source : Text} {fault : Fault}
    (h : (assembler.compile source).image = .error fault) : fault.FromSource := by
  rcases inRange_or_rejected source with ⟨⟨_, hlines⟩, hcount⟩ | ⟨other, hrejected⟩
  · obtain ⟨cells, -, himage⟩ := image_of_fits assembler hlines hcount
    rw [himage] at h
    cases h
  · rw [image_of_rejected assembler hrejected] at h
    cases h
    exact hrejected.fromSource

/-- The faults that compiling finds, in whatever sources, are told apart by their messages. -/
theorem compile_faults_told_apart (assembler other : Assembler) {source another : Text} {fault fault' : Fault}
    (h : (assembler.compile source).image = .error fault) (h' : (other.compile another).image = .error fault')
    (hmessage : fault.message = fault'.message) : fault = fault' :=
  (fromSource_of_compile h).message_inj (fromSource_of_compile h') hmessage

/-- In two sources a number is grouped by a comma, as it is in messages, and so it is none. -/
theorem grouped_number_told_alike :
    ∃ fault fault',
      (Assembler.compile {} (utf8 "BRA 1,000")).image = .error fault ∧
      (Assembler.compile { verbose := true } (utf8 "\r1,000 LDA")).image = .error fault' ∧
      fault.message = utf8 "line 1 '1,000' is not a mnemonic or number" ∧ fault.message = fault'.message ∧
      fault = fault' := by
  have h : (Assembler.compile {} (utf8 "BRA 1,000")).image = .error (.inLine 1 (.unknownWord (utf8 "1,000"))) := rfl
  have h' : (Assembler.compile { verbose := true } (utf8 "\r1,000 LDA")).image =
      .error (.inLine 1 (.unknownWord (utf8 "1,000"))) := rfl
  have hmessage : Fault.message (.inLine 1 (.unknownWord (utf8 "1,000"))) =
      utf8 "line 1 '1,000' is not a mnemonic or number" := rfl
  exact ⟨_, _, h, h', hmessage, rfl, compile_faults_told_apart {} _ h h' rfl⟩

end Source

end LittleMan
