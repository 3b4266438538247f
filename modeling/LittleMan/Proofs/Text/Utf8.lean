import LittleMan.Text.Utf8
import Mathlib.Data.List.Basic
import Mathlib.Tactic.SplitIfs

/-!
# Characters and the bytes of their encodings

The character at the front of a text is the one whose encoding the text begins with, and reading goes
on behind that encoding. A line feed stands for itself in every text: no other character has its byte in
its encoding, so cutting a text into lines and reading characters can be done in either order.
-/

namespace LittleMan.Text

/-! ### The character at the front -/

/-- The bits that an encoding spreads over its bytes are the code point again. -/
theorem frontCode_encode_append (c : Char) (rest : Text) :
    frontCode (String.utf8EncodeChar c ++ rest) = c.toNat := by
  have hvalid : c.val.toNat < 0x110000 := by
    have h := c.valid
    simp only [UInt32.isValidChar, Nat.isValidChar] at h
    omega
  change _ = c.val.toNat
  unfold String.utf8EncodeChar
  generalize c.val.toNat = v at *
  dsimp only
  split_ifs with hone htwo hthree
  · simp [frontCode, UInt8.lt_iff_toNat_lt, Nat.mod_eq_of_lt (show v < 256 by omega)]
    omega
  · simp [frontCode, UInt8.lt_iff_toNat_lt]
    rw [if_neg (by omega), if_pos (by omega)]
    omega
  · simp [frontCode, UInt8.lt_iff_toNat_lt]
    rw [if_neg (by omega), if_neg (by omega), if_pos (by omega)]
    omega
  · simp [frontCode, UInt8.lt_iff_toNat_lt]
    rw [if_neg (by omega), if_neg (by omega), if_neg (by omega)]
    omega

theorem front?_eq_some_iff {text : Text} {c : Char} :
    front? text = some c ↔ String.utf8EncodeChar c <+: text := by
  constructor
  · intro hfront
    unfold front? at hfront
    dsimp only at hfront
    split_ifs at hfront with hstarts
    rw [← Option.some.inj hfront]
    exact List.isPrefixOf_iff_prefix.mp hstarts
  · rintro ⟨rest, rfl⟩
    unfold front?
    simp only [frontCode_encode_append, Char.ofNat_toNat]
    rw [if_pos (List.isPrefixOf_iff_prefix.mpr (List.prefix_append _ _))]

/-- Only its first byte can be the first byte of an encoding, so no encoding starts inside another. -/
theorem first_byte_not_inside {c : Char} {byte : UInt8} {before rest : Text}
    (hbyte : byte.IsUTF8FirstByte) (hbefore : before ≠ [])
    (hencoding : String.utf8EncodeChar c = before ++ byte :: rest) : False := by
  have hlength : before.length < (String.utf8EncodeChar c).length := by
    rw [hencoding]
    simp
  have hfirst : (String.utf8EncodeChar c)[before.length].IsUTF8FirstByte := by
    simpa [hencoding] using hbyte
  have hzero := UInt8.isUTF8FirstByte_getElem_utf8EncodeChar.mp hfirst
  exact hbefore (List.length_eq_zero_iff.mp hzero)

theorem exists_first_byte (c : Char) :
    ∃ byte rest, String.utf8EncodeChar c = byte :: rest ∧ byte.IsUTF8FirstByte := by
  have hfirst := UInt8.isUTF8FirstByte_getElem_zero_utf8EncodeChar (c := c)
  cases hencoding : String.utf8EncodeChar c with
  | nil => exact absurd hencoding String.utf8EncodeChar_ne_nil
  | cons byte rest =>
    simp only [hencoding, List.getElem_cons_zero] at hfirst
    exact ⟨byte, rest, rfl, hfirst⟩

/-- What stands behind a text has no part in the character at its front, if an encoding starts there. -/
theorem front?_append_encoding {text : Text} (htext : text ≠ []) (d : Char) (rest : Text) :
    front? (text ++ (String.utf8EncodeChar d ++ rest)) = front? text := by
  obtain ⟨first, more, hd, hfirst⟩ := exists_first_byte d
  ext c
  rw [front?_eq_some_iff, front?_eq_some_iff, hd, List.cons_append]
  constructor
  · intro hstarts
    rcases List.prefix_or_prefix_of_prefix hstarts (List.prefix_append text (first :: (more ++ rest)))
      with hshort | ⟨tail, htail⟩
    · exact hshort
    · cases tail with
      | nil => exact ⟨[], by rw [List.append_nil] at htail ⊢; exact htail.symm⟩
      | cons byte tail =>
        rw [← htail, List.prefix_append_right_inj, List.cons_prefix_cons] at hstarts
        rw [hstarts.1] at htail
        exact (first_byte_not_inside hfirst htext htail.symm).elim
  · intro hstarts
    exact hstarts.trans (List.prefix_append _ _)

/-! ### All the characters -/

theorem charsFrom_eq (skip : Nat) (read : List Char) (text : Text) :
    charsFrom skip read text = read.reverse ++ chars (text.drop skip) := by
  induction text generalizing skip read with
  | nil => simp [chars, charsFrom]
  | cons byte rest ih =>
    cases skip with
    | succ skip => rw [charsFrom, ih, List.drop_succ_cons]
    | zero =>
      rw [List.drop_zero, chars, charsFrom, charsFrom]
      cases front? (byte :: rest) with
      | some c => simp [ih]
      | none => simp [ih]

@[simp] theorem chars_nil : chars [] = [] := rfl

theorem chars_of_front {text : Text} {c : Char} (hfront : front? text = some c) :
    chars text = c :: chars (text.drop c.utf8Size) := by
  have hpos := c.utf8Size_pos
  cases text with
  | nil =>
    have hlength := (front?_eq_some_iff.mp hfront).length_le
    rw [String.length_utf8EncodeChar, List.length_nil] at hlength
    omega
  | cons byte rest =>
    rw [chars, charsFrom, hfront]
    simp [charsFrom_eq, List.drop_cons hpos]

theorem chars_of_no_front {byte : UInt8} {rest : Text} (hfront : front? (byte :: rest) = none) :
    chars (byte :: rest) = replacement :: chars rest := by
  rw [chars, charsFrom, hfront]
  simp [charsFrom_eq]

/-- Induction over a text as it is read: a character and what stands behind its encoding, or a byte that
starts no character. -/
@[elab_as_elim]
theorem readingInduction {motive : Text → Prop} (nil : motive [])
    (front : ∀ text c, front? text = some c → motive (text.drop c.utf8Size) → motive text)
    (stray : ∀ byte rest, front? (byte :: rest) = none → motive rest → motive (byte :: rest))
    (text : Text) : motive text := by
  match text with
  | [] => exact nil
  | byte :: rest =>
    cases hfront : front? (byte :: rest) with
    | some c =>
      have hpos := c.utf8Size_pos
      exact front _ c hfront (readingInduction nil front stray _)
    | none => exact stray byte rest hfront (readingInduction nil front stray rest)
termination_by text.length
decreasing_by
  · simp
  · simp only [List.length_drop, List.length_cons]
    omega

/-- What a text is read as: an encoding as its character, and a byte at which none starts as U+FFFD. -/
inductive Decodes : Text → List Char → Prop where
  | nil : Decodes [] []
  | char (c : Char) {rest : Text} {cs : List Char} (hrest : Decodes rest cs) :
    Decodes (String.utf8EncodeChar c ++ rest) (c :: cs)
  | stray {byte : UInt8} {rest : Text} {cs : List Char}
    (hstray : ∀ c, ¬ String.utf8EncodeChar c <+: byte :: rest) (hrest : Decodes rest cs) :
    Decodes (byte :: rest) (Char.ofNat 0xFFFD :: cs)

theorem decodes_chars (text : Text) : Decodes text (chars text) := by
  induction text using readingInduction with
  | nil => exact .nil
  | front text c hfront ih =>
    obtain ⟨rest, rfl⟩ := front?_eq_some_iff.mp hfront
    rw [chars_of_front hfront]
    rw [← String.length_utf8EncodeChar, List.drop_left] at ih ⊢
    exact .char c ih
  | stray byte rest hfront ih =>
    rw [chars_of_no_front hfront]
    refine .stray (fun c hstarts => ?_) ih
    rw [front?_eq_some_iff.mpr hstarts] at hfront
    exact Option.some_ne_none c hfront

theorem chars_eq_iff {text : Text} {cs : List Char} : chars text = cs ↔ Decodes text cs := by
  constructor
  · rintro rfl
    exact decodes_chars text
  · intro h
    induction h with
    | nil => rfl
    | @char c rest cs _ ih =>
      have hfront : front? (String.utf8EncodeChar c ++ rest) = some c :=
        front?_eq_some_iff.mpr (List.prefix_append _ _)
      rw [chars_of_front hfront, ← String.length_utf8EncodeChar, List.drop_left, ih]
    | @stray byte rest cs hstray _ ih =>
      have hfront : front? (byte :: rest) = none := by
        rw [Option.eq_none_iff_forall_ne_some]
        exact fun c hc => hstray c (front?_eq_some_iff.mp hc)
      rw [chars_of_no_front hfront, ih]
      rfl

/-- Where an encoding starts, the characters before it are read without it. -/
theorem chars_append_encoding (text : Text) (d : Char) (rest : Text) :
    chars (text ++ (String.utf8EncodeChar d ++ rest)) = chars text ++ d :: chars rest := by
  induction text using readingInduction with
  | nil =>
    have hfront : front? (String.utf8EncodeChar d ++ rest) = some d :=
      front?_eq_some_iff.mpr (List.prefix_append _ _)
    rw [List.nil_append, chars_of_front hfront, ← String.length_utf8EncodeChar, List.drop_left]
    rfl
  | front text c hfront ih =>
    have hstarts := front?_eq_some_iff.mp hfront
    have hsize : c.utf8Size ≤ text.length := by
      rw [← String.length_utf8EncodeChar]
      exact hstarts.length_le
    have hwhole : front? (text ++ (String.utf8EncodeChar d ++ rest)) = some c :=
      front?_eq_some_iff.mpr (hstarts.trans (List.prefix_append _ _))
    rw [chars_of_front hwhole, chars_of_front hfront, List.drop_append_of_le_length hsize, ih,
      List.cons_append]
  | stray byte text hfront ih =>
    have hwhole := front?_append_encoding (List.cons_ne_nil byte text) d rest
    rw [hfront, List.cons_append] at hwhole
    rw [List.cons_append, chars_of_no_front hwhole, chars_of_no_front hfront, ih, List.cons_append]

theorem chars_append_newline (line rest : Text) :
    chars (line ++ newline :: rest) = chars line ++ '\n' :: chars rest :=
  chars_append_encoding line '\n' rest

theorem newline_mem_of_mem_chars {text : Text} (hmem : '\n' ∈ chars text) : newline ∈ text := by
  induction text using readingInduction with
  | nil => simp at hmem
  | front text c hfront ih =>
    rw [chars_of_front hfront, List.mem_cons] at hmem
    rcases hmem with rfl | hmem
    · exact (front?_eq_some_iff.mp hfront).subset (by decide)
    · exact List.mem_of_mem_drop (ih hmem)
  | stray byte rest hfront ih =>
    rw [chars_of_no_front hfront, List.mem_cons] at hmem
    rcases hmem with hreplacement | hmem
    · exact absurd hreplacement (by decide)
    · exact List.mem_cons_of_mem _ (ih hmem)

/-! ### Lines -/

theorem encode_ascii {byte : UInt8} (hbyte : byte < 128) :
    String.utf8EncodeChar (Char.ofNat byte.toNat) = [byte] := by
  have hall : ∀ n : Fin 128, String.utf8EncodeChar (Char.ofNat n) = [UInt8.ofNat n] := by decide
  have hlt : byte.toNat < 128 := UInt8.lt_iff_toNat_lt.mp hbyte
  simpa using hall ⟨byte.toNat, hlt⟩

theorem ofChars_chars_of_ascii {text : Text} (h : ∀ byte ∈ text, byte < 128) :
    ofChars (chars text) = text := by
  induction text with
  | nil => rfl
  | cons byte rest ih =>
    rw [List.forall_mem_cons] at h
    have hencode := encode_ascii h.1
    have hchars := chars_append_encoding [] (Char.ofNat byte.toNat) rest
    rw [hencode, List.nil_append, List.singleton_append, chars_nil, List.nil_append] at hchars
    rw [hchars, ofChars, List.flatMap_cons, hencode]
    exact congrArg (byte :: ·) (ih h.2)

/-- Induction over a list from one separator to the next. -/
@[elab_as_elim]
theorem separatorInduction {α : Type} (separator : α) {motive : List α → Prop}
    (last : ∀ line, separator ∉ line → motive line)
    (more : ∀ line rest, separator ∉ line → motive rest → motive (line ++ separator :: rest))
    (xs : List α) : motive xs := by
  by_cases hmem : separator ∈ xs
  · obtain ⟨line, rest, rfl, hline⟩ := List.eq_append_cons_of_mem hmem
    exact more line rest hline (separatorInduction separator last more rest)
  · exact last xs hmem
termination_by xs.length
decreasing_by
  subst_vars
  simp only [List.length_append, List.length_cons]
  omega

/-- The lines of the characters are the characters of the lines. -/
theorem splitOn_chars (text : Text) :
    (chars text).splitOn '\n' = (text.splitOn newline).map chars := by
  induction text using separatorInduction newline with
  | last line hline =>
    rw [List.splitOn_eq_singleton (mt newline_mem_of_mem_chars hline),
      List.splitOn_eq_singleton hline, List.map_singleton]
  | more line rest hline ih =>
    rw [chars_append_newline, List.splitOn_append_cons_self_of_not_mem hline,
      List.splitOn_append_cons_self_of_not_mem (mt newline_mem_of_mem_chars hline), ih,
      List.map_cons]

end LittleMan.Text
