import LittleMan.Text.Blank
import LittleMan.Proofs.Text.Decimal
import LittleMan.Proofs.Text.Utf8

/-!
# Spaces and the words between them

A space is found where its encoding stands, and since no encoding starts inside another, a word that ends
at a space is the same word whatever follows. Only at the end of a text can more bytes make a difference:
there the first bytes of a space may stand without the rest of it. Trimming goes through a text from its front,
and what it leaves is the part between the spaces at the two ends (`trim_eq_iff`).
-/

namespace LittleMan.Text

/-! ### One space -/

theorem blankWidth_encoding (c : Char) (rest : Text) :
    blankWidth (String.utf8EncodeChar c ++ rest) = if isBlank c then c.utf8Size else 0 := by
  have hfront : front? (String.utf8EncodeChar c ++ rest) = some c :=
    front?_eq_some_iff.mpr (List.prefix_append _ _)
  simp only [blankWidth, hfront]

theorem blankWidth_of_prefix {text : Text} {c : Char} (hblank : isBlank c = true)
    (hstarts : String.utf8EncodeChar c <+: text) : blankWidth text = c.utf8Size := by
  obtain ⟨rest, rfl⟩ := hstarts
  rw [blankWidth_encoding, if_pos hblank]

theorem exists_blank {text : Text} (h : blankWidth text ≠ 0) :
    ∃ c rest, isBlank c = true ∧ text = String.utf8EncodeChar c ++ rest ∧
      blankWidth text = c.utf8Size := by
  unfold blankWidth at h
  split at h
  · next c hfront =>
    split at h
    · next hblank =>
      have hstarts := front?_eq_some_iff.mp hfront
      obtain ⟨rest, hrest⟩ := hstarts
      exact ⟨c, rest, hblank, hrest.symm, blankWidth_of_prefix hblank ⟨rest, hrest⟩⟩
    · exact absurd rfl h
  · exact absurd rfl h

theorem blankWidth_append {text : Text} (h : blankWidth text ≠ 0) (more : Text) :
    blankWidth (text ++ more) = blankWidth text := by
  obtain ⟨c, rest, hblank, rfl, hwidth⟩ := exists_blank h
  rw [hwidth, List.append_assoc]
  exact blankWidth_of_prefix hblank (List.prefix_append _ _)

theorem blankWidth_le_length (text : Text) : blankWidth text ≤ text.length := by
  by_cases h : blankWidth text = 0
  · omega
  · obtain ⟨c, rest, -, rfl, hwidth⟩ := exists_blank h
    rw [hwidth, List.length_append, String.length_utf8EncodeChar]
    omega

theorem blankWidth_nil : blankWidth [] = 0 := Nat.le_zero.mp (blankWidth_le_length [])

theorem blankWidth_append_encoding {text : Text} (htext : text ≠ []) (d : Char) (rest : Text) :
    blankWidth (text ++ (String.utf8EncodeChar d ++ rest)) = blankWidth text := by
  unfold blankWidth
  rw [front?_append_encoding htext]

/-- A visible byte of ASCII starts no space. -/
theorem blankWidth_cons_of_visible {byte : UInt8} (hlow : 33 ≤ byte) (hhigh : byte < 128)
    (rest : Text) : blankWidth (byte :: rest) = 0 := by
  by_contra h
  obtain ⟨c, tail, hblank, htext, -⟩ := exists_blank h
  have hcode : byte.toNat = c.toNat := by
    have hfront := frontCode_encode_append c tail
    rw [← htext, frontCode, if_pos hhigh] at hfront
    exact hfront
  have hlow' : 33 ≤ byte.toNat := UInt8.le_iff_toNat_le.mp hlow
  have hhigh' : byte.toNat < 128 := UInt8.lt_iff_toNat_lt.mp hhigh
  simp [isBlank] at hblank
  omega

/-- No space starts inside the encoding of a character. -/
theorem blankWidth_inside (c : Char) {k : Nat} (hpos : 0 < k) (hk : k < c.utf8Size) (rest : Text) :
    blankWidth ((String.utf8EncodeChar c).drop k ++ rest) = 0 := by
  by_contra h
  obtain ⟨d, tail, -, htext, -⟩ := exists_blank h
  obtain ⟨first, more, hd, hfirst⟩ := exists_first_byte d
  have hsplit := List.take_append_drop k (String.utf8EncodeChar c)
  rw [← String.length_utf8EncodeChar] at hk
  rw [List.drop_eq_getElem_cons hk] at htext hsplit
  rw [hd, List.cons_append, List.cons_append] at htext
  rw [(List.cons.inj htext).1] at hsplit
  apply first_byte_not_inside hfirst _ hsplit.symm
  rw [ne_eq, List.take_eq_nil_iff]
  rintro (hzero | hnil)
  · omega
  · exact String.utf8EncodeChar_ne_nil hnil

/-! ### Spaces at the front -/

theorem leadingBlanksFrom_eq (count skip : Nat) (text : Text) :
    leadingBlanksFrom count skip text = count + leadingBlanks (text.drop skip) := by
  induction text generalizing count skip with
  | nil => simp [leadingBlanks, leadingBlanksFrom]
  | cons byte rest ih =>
    cases skip with
    | succ skip => rw [leadingBlanksFrom, ih, List.drop_succ_cons]
    | zero =>
      rw [List.drop_zero, leadingBlanks, leadingBlanksFrom, leadingBlanksFrom]
      cases blankWidth (byte :: rest) with
      | zero => rfl
      | succ width =>
        dsimp only
        rw [ih, ih]
        omega

theorem leadingBlanks_of_not_blank {text : Text} (h : blankWidth text = 0) : leadingBlanks text = 0 := by
  cases text with
  | nil => rfl
  | cons byte rest => rw [leadingBlanks, leadingBlanksFrom, h]

theorem leadingBlanks_of_blank {text : Text} (h : blankWidth text ≠ 0) :
    leadingBlanks text = blankWidth text + leadingBlanks (text.drop (blankWidth text)) := by
  cases text with
  | nil => exact absurd blankWidth_nil h
  | cons byte rest =>
    rw [leadingBlanks, leadingBlanksFrom]
    cases hwidth : blankWidth (byte :: rest) with
    | zero => exact absurd hwidth h
    | succ width =>
      dsimp only
      rw [leadingBlanksFrom_eq, List.drop_succ_cons, Nat.zero_add]

/-- Induction over the spaces at the front of a text. -/
@[elab_as_elim]
theorem blankInduction {motive : Text → Prop} (word : ∀ text, blankWidth text = 0 → motive text)
    (blank : ∀ text, blankWidth text ≠ 0 → motive (text.drop (blankWidth text)) → motive text)
    (text : Text) : motive text := by
  by_cases h : blankWidth text = 0
  · exact word text h
  · exact blank text h (blankInduction word blank _)
termination_by text.length
decreasing_by
  have hle := blankWidth_le_length text
  rw [List.length_drop]
  omega

theorem leadingBlanks_le_length (text : Text) : leadingBlanks text ≤ text.length := by
  induction text using blankInduction with
  | word text h =>
    rw [leadingBlanks_of_not_blank h]
    omega
  | blank text h ih =>
    have hle := blankWidth_le_length text
    rw [List.length_drop] at ih
    rw [leadingBlanks_of_blank h]
    omega

theorem blankWidth_drop_leadingBlanks (text : Text) :
    blankWidth (text.drop (leadingBlanks text)) = 0 := by
  induction text using blankInduction with
  | word text h => rwa [leadingBlanks_of_not_blank h, List.drop_zero]
  | blank text h ih => rwa [leadingBlanks_of_blank h, ← List.drop_drop]

theorem leadingBlanks_append (text more : Text) :
    leadingBlanks (text ++ more) =
      leadingBlanks text + leadingBlanks (text.drop (leadingBlanks text) ++ more) := by
  induction text using blankInduction with
  | word text h => rw [leadingBlanks_of_not_blank h, List.drop_zero, Nat.zero_add]
  | blank text h ih =>
    have hwhole := blankWidth_append h more
    have hle := blankWidth_le_length text
    rw [leadingBlanks_of_blank (hwhole ▸ h), hwhole, List.drop_append_of_le_length hle, ih,
      leadingBlanks_of_blank h, ← List.drop_drop, Nat.add_assoc]

/-! ### The word before a space -/

/-- No space starts anywhere in the text. -/
def Solid (text : Text) : Prop := ∀ k, blankWidth (text.drop k) = 0

theorem solid_nil : Solid [] := fun k => by rw [List.drop_nil, blankWidth_nil]

theorem solid_cons_iff {byte : UInt8} {rest : Text} :
    Solid (byte :: rest) ↔ blankWidth (byte :: rest) = 0 ∧ Solid rest := by
  constructor
  · intro h
    exact ⟨h 0, fun k => h (k + 1)⟩
  · rintro ⟨hfirst, hrest⟩ k
    cases k with
    | zero => exact hfirst
    | succ k => exact hrest k

theorem solid_of_visible {text : Text} (h : ∀ byte ∈ text, 33 ≤ byte ∧ byte < 128) : Solid text := by
  induction text with
  | nil => exact solid_nil
  | cons byte rest ih =>
    have hbyte := h byte List.mem_cons_self
    rw [solid_cons_iff]
    exact ⟨blankWidth_cons_of_visible hbyte.1 hbyte.2 rest,
      ih fun other hother => h other (List.mem_cons_of_mem _ hother)⟩

theorem solid_plain (n : Int) : Solid (Decimal.plain n) := by
  apply solid_of_visible
  intro byte hbyte
  obtain ⟨hlow, hhigh⟩ := (Decimal.plain_visible n).2 byte hbyte
  exact ⟨UInt8.le_trans (by decide) hlow, UInt8.lt_of_le_of_lt hhigh (by decide)⟩

theorem Solid.drop {text : Text} (h : Solid text) (count : Nat) : Solid (text.drop count) := fun k => by
  rw [List.drop_drop]
  exact h (count + k)

/-- Looking for a space at every byte finds the characters that are spaces. -/
theorem solid_iff {text : Text} : Solid text ↔ ∀ c ∈ chars text, isBlank c = false := by
  induction text using readingInduction with
  | nil => exact ⟨fun _ _ hmem => by simp at hmem, fun _ => solid_nil⟩
  | front text c hfront ih =>
    obtain ⟨rest, rfl⟩ := front?_eq_some_iff.mp hfront
    have hwidth : blankWidth (String.utf8EncodeChar c ++ rest) = 0 ↔ isBlank c = false := by
      have hpos := c.utf8Size_pos
      rw [blankWidth_encoding]
      cases isBlank c <;> simp
      omega
    rw [chars_of_front hfront, List.forall_mem_cons, ← ih]
    constructor
    · intro h
      exact ⟨hwidth.mp (h 0), h.drop c.utf8Size⟩
    · rintro ⟨hblank, hrest⟩ k
      -- A space would have to start at the character, inside its encoding, or behind it.
      rcases Nat.eq_zero_or_pos k with rfl | hpos
      · exact hwidth.mpr hblank
      · by_cases hk : k < c.utf8Size
        · rw [List.drop_append_of_le_length (by rw [String.length_utf8EncodeChar]; omega)]
          exact blankWidth_inside c hpos hk rest
        · have hbehind := hrest (k - c.utf8Size)
          rwa [List.drop_drop, Nat.add_sub_cancel' (Nat.le_of_not_lt hk)] at hbehind
  | stray byte rest hfront ih =>
    rw [chars_of_no_front hfront, List.forall_mem_cons, ← ih, solid_cons_iff]
    have hwidth : blankWidth (byte :: rest) = 0 := by simp only [blankWidth, hfront]
    exact and_congr_left fun _ => iff_of_true hwidth (by decide)

/-- The first bytes of a character that is not complete hold no space. -/
theorem solid_of_prefix_encoding {c : Char} {part : Text} (hpart : part <+: String.utf8EncodeChar c)
    (hshort : part.length < c.utf8Size) : Solid part := by
  obtain ⟨tail, htail⟩ := hpart
  intro k
  by_contra h
  have hwhole := blankWidth_append h tail
  have hk : k < part.length := by
    by_contra hk
    rw [List.drop_eq_nil_of_le (Nat.le_of_not_lt hk)] at h
    exact h blankWidth_nil
  rw [← List.drop_append_of_le_length (Nat.le_of_lt hk), htail] at hwhole
  rcases Nat.eq_zero_or_pos k with rfl | hpos
  · have hle := blankWidth_le_length part
    rw [List.drop_zero] at h
    rw [List.drop_zero, List.drop_zero, ← List.append_nil (String.utf8EncodeChar c),
      blankWidth_encoding] at hwhole
    split at hwhole <;> omega
  · have hinside := blankWidth_inside c hpos (by omega) []
    rw [List.append_nil] at hinside
    exact h (hwhole ▸ hinside)

theorem Solid.append_prefix_encoding {word : Text} (hword : Solid word) {c : Char} {part : Text}
    (hpart : part <+: String.utf8EncodeChar c) (hshort : part.length < c.utf8Size) :
    Solid (word ++ part) := by
  induction word with
  | nil => exact solid_of_prefix_encoding hpart hshort
  | cons byte word ih =>
    rw [solid_cons_iff] at hword
    rw [List.cons_append, solid_cons_iff]
    refine ⟨?_, ih hword.2⟩
    by_contra h
    obtain ⟨tail, htail⟩ := hpart
    have hwhole := blankWidth_append h tail
    have hfirst := blankWidth_append_encoding (List.cons_ne_nil byte word) c []
    rw [← List.cons_append, List.append_assoc, htail] at hwhole
    rw [List.append_nil, hword.1] at hfirst
    exact h (hwhole.symm.trans hfirst)

theorem beforeBlankFrom_eq (seen text : Text) :
    beforeBlankFrom seen text = (beforeBlank? text).map (Prod.map (seen.reverse ++ ·) id) := by
  induction text generalizing seen with
  | nil => rfl
  | cons byte rest ih =>
    rw [beforeBlank?, beforeBlankFrom, beforeBlankFrom]
    cases blankWidth (byte :: rest) with
    | zero =>
      dsimp only
      rw [ih, ih [byte], Option.map_map]
      congr 1
      funext ⟨word, width⟩
      simp
    | succ width => simp

theorem beforeBlank?_cons (byte : UInt8) (rest : Text) :
    beforeBlank? (byte :: rest) =
      if blankWidth (byte :: rest) = 0 then (beforeBlank? rest).map (Prod.map (byte :: ·) id)
      else some ([], blankWidth (byte :: rest)) := by
  rw [beforeBlank?, beforeBlankFrom]
  cases blankWidth (byte :: rest) with
  | zero => exact beforeBlankFrom_eq [byte] rest
  | succ width => rfl

theorem beforeBlank?_of_solid {text : Text} (h : Solid text) : beforeBlank? text = none := by
  induction text with
  | nil => rfl
  | cons byte rest ih =>
    rw [solid_cons_iff] at h
    rw [beforeBlank?_cons, if_pos h.1, ih h.2, Option.map_none]

/-- A word that ends at a space is found, whatever stands behind the space. -/
theorem beforeBlank?_append_encoding {word : Text} (hword : Solid word) {c : Char}
    (hblank : isBlank c = true) (rest : Text) :
    beforeBlank? (word ++ (String.utf8EncodeChar c ++ rest)) = some (word, c.utf8Size) := by
  induction word with
  | nil =>
    have hwidth : blankWidth (String.utf8EncodeChar c ++ rest) = c.utf8Size :=
      blankWidth_of_prefix hblank (List.prefix_append _ _)
    have hpos := c.utf8Size_pos
    obtain ⟨byte, more, hc, -⟩ := exists_first_byte c
    rw [hc, List.cons_append] at hwidth
    rw [hc, List.nil_append, List.cons_append, beforeBlank?_cons, hwidth, if_neg (by omega)]
  | cons byte word ih =>
    rw [solid_cons_iff] at hword
    have hfirst := blankWidth_append_encoding (List.cons_ne_nil byte word) c rest
    rw [hword.1, List.cons_append] at hfirst
    rw [List.cons_append, beforeBlank?_cons, if_pos hfirst, ih hword.2, Option.map_some, Prod.map_apply, id]

theorem solid_or_blank (text : Text) :
    Solid text ∨ ∃ word c rest, Solid word ∧ isBlank c = true ∧
      text = word ++ (String.utf8EncodeChar c ++ rest) := by
  induction text with
  | nil => exact .inl solid_nil
  | cons byte rest ih =>
    by_cases hfirst : blankWidth (byte :: rest) = 0
    · rcases ih with hsolid | ⟨word, c, tail, hword, hblank, rfl⟩
      · exact .inl (solid_cons_iff.mpr ⟨hfirst, hsolid⟩)
      · refine .inr ⟨byte :: word, c, tail, solid_cons_iff.mpr ⟨?_, hword⟩, hblank, rfl⟩
        rw [← hfirst, ← List.cons_append]
        exact (blankWidth_append_encoding (List.cons_ne_nil byte word) c tail).symm
    · obtain ⟨c, tail, hblank, htext, -⟩ := exists_blank hfirst
      exact .inr ⟨[], c, tail, solid_nil, hblank, htext⟩

/-! ### Trimming -/

/-- What is left of a text without the spaces at its two ends. -/
structure Trimmed (text core : Text) : Prop where
  around : ∃ front back, (∀ c ∈ front, isBlank c = true) ∧ (∀ c ∈ back, isBlank c = true) ∧
    text = ofChars front ++ (core ++ ofChars back)
  bare : ∀ c, isBlank c = true → ¬ String.utf8EncodeChar c <+: core ∧ ¬ String.utf8EncodeChar c <:+ core

/-- Induction over a text from space to space and from byte to byte outside the spaces. -/
@[elab_as_elim]
theorem spacingInduction {motive : Text → Prop} (nil : motive [])
    (blank : ∀ c rest, isBlank c = true → motive rest → motive (String.utf8EncodeChar c ++ rest))
    (byte : ∀ byte rest, blankWidth (byte :: rest) = 0 → motive rest → motive (byte :: rest))
    (text : Text) : motive text := by
  match text with
  | [] => exact nil
  | first :: rest =>
    by_cases h : blankWidth (first :: rest) = 0
    · exact byte first rest h (spacingInduction nil blank byte rest)
    · obtain ⟨c, tail, hblank, htext, -⟩ := exists_blank h
      have hpos := c.utf8Size_pos
      rw [htext]
      exact blank c tail hblank (spacingInduction nil blank byte tail)
termination_by text.length
decreasing_by
  · simp
  · rw [htext, List.length_append, String.length_utf8EncodeChar]
    omega

theorem lengthTrimmedFrom_skip (length kept : Nat) {skip : Nat} {text : Text} (h : skip ≤ text.length) :
    lengthTrimmedFrom length kept skip text = lengthTrimmedFrom (length + skip) kept 0 (text.drop skip) := by
  induction text generalizing length skip with
  | nil =>
    obtain rfl : skip = 0 := Nat.le_zero.mp h
    rfl
  | cons byte rest ih =>
    cases skip with
    | zero => rfl
    | succ skip =>
      rw [lengthTrimmedFrom, ih _ (Nat.le_of_succ_le_succ h), List.drop_succ_cons, Nat.add_right_comm]
      rfl

theorem lengthTrimmedFrom_blank (length kept : Nat) {c : Char} (hblank : isBlank c = true) (rest : Text) :
    lengthTrimmedFrom length kept 0 (String.utf8EncodeChar c ++ rest) =
      lengthTrimmedFrom (length + c.utf8Size) kept 0 rest := by
  have hwidth : blankWidth (String.utf8EncodeChar c ++ rest) = c.utf8Size :=
    blankWidth_of_prefix hblank (List.prefix_append _ _)
  have hlength := String.length_utf8EncodeChar c
  obtain ⟨first, more, hc, -⟩ := exists_first_byte c
  rw [hc, List.length_cons] at hlength
  rw [hc, List.cons_append, ← hlength] at hwidth
  rw [hc, List.cons_append, lengthTrimmedFrom, hwidth]
  dsimp only
  rw [lengthTrimmedFrom_skip _ _ (by simp), List.drop_left, ← hlength, Nat.add_assoc, Nat.add_comm 1]

theorem lengthTrimmedFrom_byte (length kept : Nat) {byte : UInt8} {rest : Text}
    (h : blankWidth (byte :: rest) = 0) :
    lengthTrimmedFrom length kept 0 (byte :: rest) = lengthTrimmedFrom (length + 1) (length + 1) 0 rest := by
  rw [lengthTrimmedFrom, h]

theorem lengthTrimmedFrom_append_blank (length kept : Nat) (text : Text) {c : Char} (hblank : isBlank c = true) :
    lengthTrimmedFrom length kept 0 (text ++ String.utf8EncodeChar c) = lengthTrimmedFrom length kept 0 text := by
  induction text using spacingInduction generalizing length kept with
  | nil =>
    rw [List.nil_append, ← List.append_nil (String.utf8EncodeChar c), lengthTrimmedFrom_blank _ _ hblank]
    rfl
  | blank d rest hd ih =>
    rw [List.append_assoc, lengthTrimmedFrom_blank _ _ hd, lengthTrimmedFrom_blank _ _ hd, ih]
  | byte byte rest hbyte ih =>
    have hwhole := blankWidth_append_encoding (List.cons_ne_nil byte rest) c []
    rw [List.append_nil, List.cons_append, hbyte] at hwhole
    rw [List.cons_append, lengthTrimmedFrom_byte _ _ hwhole, lengthTrimmedFrom_byte _ _ hbyte, ih]

theorem lengthTrimmedFrom_append_blanks (length kept : Nat) (text : Text) {back : List Char}
    (hback : ∀ c ∈ back, isBlank c = true) :
    lengthTrimmedFrom length kept 0 (text ++ ofChars back) = lengthTrimmedFrom length kept 0 text := by
  induction back generalizing text with
  | nil => rw [ofChars, List.flatMap_nil, List.append_nil]
  | cons c back ih =>
    rw [List.forall_mem_cons] at hback
    rw [ofChars, List.flatMap_cons, ← List.append_assoc]
    exact (ih _ hback.2).trans (lengthTrimmedFrom_append_blank _ _ _ hback.1)

/-- Nothing is cut off a text without a space at its end. -/
theorem lengthTrimmedFrom_of_bare (length : Nat) {kept : Nat} {text : Text} (hkept : text = [] → kept = length)
    (hbare : ∀ c, isBlank c = true → ¬ String.utf8EncodeChar c <:+ text) :
    lengthTrimmedFrom length kept 0 text = length + text.length := by
  induction text using spacingInduction generalizing length kept with
  | nil => exact hkept rfl
  | blank c rest hblank ih =>
    -- The space stands inside the text, so there is a byte behind it that is kept.
    have hrest : rest ≠ [] := by
      intro hnil
      exact hbare c hblank (by simp [hnil])
    have hbare' : ∀ d, isBlank d = true → ¬ String.utf8EncodeChar d <:+ rest := by
      intro d hd hsuffix
      exact hbare d hd (hsuffix.trans (List.suffix_append _ _))
    rw [lengthTrimmedFrom_blank _ _ hblank, ih _ (absurd · hrest) hbare', List.length_append,
      String.length_utf8EncodeChar, Nat.add_assoc]
  | byte byte rest hbyte ih =>
    have hbare' : ∀ d, isBlank d = true → ¬ String.utf8EncodeChar d <:+ rest := by
      intro d hd hsuffix
      exact hbare d hd (hsuffix.trans (List.suffix_cons _ _))
    rw [lengthTrimmedFrom_byte _ _ hbyte, ih _ (fun _ => rfl) hbare', List.length_cons, Nat.add_assoc,
      Nat.add_comm 1]

theorem leadingBlanks_blanks_append {front : List Char} (hfront : ∀ c ∈ front, isBlank c = true) (rest : Text) :
    leadingBlanks (ofChars front ++ rest) = (ofChars front).length + leadingBlanks rest := by
  induction front with
  | nil => simp [ofChars]
  | cons c front ih =>
    rw [List.forall_mem_cons] at hfront
    have hlength := String.length_utf8EncodeChar c
    have hpos := c.utf8Size_pos
    have hwidth : blankWidth (String.utf8EncodeChar c ++ (ofChars front ++ rest)) = c.utf8Size :=
      blankWidth_of_prefix hfront.1 (List.prefix_append _ _)
    have hchars : ofChars (c :: front) = String.utf8EncodeChar c ++ ofChars front := rfl
    rw [hchars, List.append_assoc, leadingBlanks_of_blank (by omega), hwidth, List.drop_left' hlength,
      ih hfront.2, List.length_append, hlength, Nat.add_assoc]

namespace Trimmed

variable {text core : Text}

theorem trim_eq (h : Trimmed text core) : trim text = core := by
  obtain ⟨⟨front, back, hfront, hback, rfl⟩, hbare⟩ := h
  have hend : trimEnd (core ++ ofChars back) = core := by
    rw [trimEnd, lengthTrimmedFrom_append_blanks _ _ _ hback,
      lengthTrimmedFrom_of_bare 0 (fun _ => rfl) fun c hblank => (hbare c hblank).2, Nat.zero_add,
      List.take_left]
  rw [trim, leadingBlanks_blanks_append hfront, ← List.drop_drop, List.drop_left]
  by_cases hcore : core = []
  · have hall := leadingBlanks_blanks_append hback []
    rw [List.append_nil] at hall
    rw [hcore, List.nil_append, hall, ← List.drop_drop, List.drop_length]
    rfl
  · have hfirst : blankWidth core = 0 := by
      by_contra hblank
      obtain ⟨c, rest, hc, hrest, -⟩ := exists_blank hblank
      exact (hbare c hc).1 ⟨rest, hrest.symm⟩
    have hwhole : blankWidth (core ++ ofChars back) = 0 := by
      cases back with
      | nil => rwa [ofChars, List.flatMap_nil, List.append_nil]
      | cons c back => rw [ofChars, List.flatMap_cons, blankWidth_append_encoding hcore, hfirst]
    rw [leadingBlanks_of_not_blank hwhole, List.drop_zero, hend]

theorem cons_blank (h : Trimmed text core) {c : Char} (hblank : isBlank c = true) :
    Trimmed (String.utf8EncodeChar c ++ text) core := by
  obtain ⟨⟨front, back, hfront, hback, rfl⟩, hbare⟩ := h
  refine ⟨⟨c :: front, back, List.forall_mem_cons.mpr ⟨hblank, hfront⟩, hback, ?_⟩, hbare⟩
  rw [← List.append_assoc]
  rfl

theorem concat_blank (h : Trimmed text core) {c : Char} (hblank : isBlank c = true) :
    Trimmed (text ++ String.utf8EncodeChar c) core := by
  obtain ⟨⟨front, back, hfront, hback, rfl⟩, hbare⟩ := h
  refine ⟨⟨front, back ++ [c], hfront, ?_, ?_⟩, hbare⟩
  · rw [List.forall_mem_append, List.forall_mem_singleton]
    exact ⟨hback, hblank⟩
  · simp [ofChars]

end Trimmed

theorem exists_trimmed (text : Text) : ∃ core, Trimmed text core := by
  by_cases hbare : ∀ c, isBlank c = true →
      ¬ String.utf8EncodeChar c <+: text ∧ ¬ String.utf8EncodeChar c <:+ text
  · exact ⟨text, ⟨[], [], by simp, by simp, by simp [ofChars]⟩, hbare⟩
  · push Not at hbare
    obtain ⟨c, hblank, hsuffix⟩ := hbare
    have hlength := String.length_utf8EncodeChar c
    have hpos := c.utf8Size_pos
    by_cases hstarts : String.utf8EncodeChar c <+: text
    · obtain ⟨rest, htext⟩ := hstarts
      obtain ⟨core, hcore⟩ := exists_trimmed rest
      exact ⟨core, htext ▸ hcore.cons_blank hblank⟩
    · obtain ⟨rest, htext⟩ := hsuffix hstarts
      obtain ⟨core, hcore⟩ := exists_trimmed rest
      exact ⟨core, htext ▸ hcore.concat_blank hblank⟩
termination_by text.length
decreasing_by
  all_goals
    rw [← htext, List.length_append]
    omega

theorem trim_eq_iff {text core : Text} : trim text = core ↔ Trimmed text core := by
  constructor
  · intro h
    obtain ⟨other, hother⟩ := exists_trimmed text
    rwa [← h, hother.trim_eq]
  · exact Trimmed.trim_eq

theorem trim_append_blank (text : Text) {c : Char} (hblank : isBlank c = true) :
    trim (text ++ String.utf8EncodeChar c) = trim text :=
  trim_eq_iff.mpr ((trim_eq_iff.mp rfl).concat_blank hblank)

theorem trim_of_solid {text : Text} (h : Solid text) : trim text = text := by
  refine Trimmed.trim_eq ⟨⟨[], [], by simp, by simp, by simp [ofChars]⟩, fun c hblank => ?_⟩
  have hpos := c.utf8Size_pos
  constructor
  · intro hstarts
    have hwidth := blankWidth_of_prefix hblank hstarts
    have hnone := h 0
    rw [List.drop_zero] at hnone
    omega
  · intro hends
    obtain ⟨before, hends⟩ := hends
    have hwidth := blankWidth_of_prefix hblank (List.prefix_refl _)
    have hnone := h before.length
    rw [← hends, List.drop_left] at hnone
    omega

end LittleMan.Text
