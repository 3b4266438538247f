import LittleMan.Scanner
import LittleMan.Proofs.Text.Blank

/-!
# Scanning through a buffer

A scanner sees a text through a window that moves and grows, and asks its splitter again whenever the
window has changed. What the splitter has to promise for the windows not to matter is `Splitter.Lawful`:
a token that is complete stays the first one whatever follows, and bytes that are used up without a token
can be left out. Then the next token of a scanner is the first token of all that is still to be read, if
the buffer is large enough for it (`Scanner.next_of_fits`), and the scanner refuses it if not
(`Scanner.next_of_not_fits`).
-/

namespace LittleMan

namespace Splitter

/-- What a scanner relies on. -/
structure Lawful (split : Splitter) : Prop where
  used_le : ∀ window atEnd, (split window atEnd).2 ≤ window.length
  found : ∀ {window token count}, split window false = (some token, count) →
    ∀ more atEnd, split (window ++ more) atEnd = (some token, count)
  skipped : ∀ {window}, (split window false).1 = none → ∀ more atEnd,
    split (window ++ more) atEnd =
      Prod.map id ((split window false).2 + ·) (split (window.drop (split window false).2 ++ more) atEnd)
  ended : ∀ {window}, (split window true).1 = none → (split window true).2 = window.length

/-- The first token fits a buffer: no beginning of the text leaves as many bytes as a buffer holds without
completing a token. -/
def Fits (split : Splitter) (text : Text) : Prop :=
  ∀ window, window <+: text → (split window false).1 = none →
    window.length < (split window false).2 + Scanner.greatestSize

theorem fits_of_length_lt {split : Splitter} {text : Text} (hsize : text.length < Scanner.greatestSize) :
    split.Fits text := by
  intro window hwindow _
  have hlength := hwindow.length_le
  omega

theorem Fits.length_lt {split : Splitter} {text window : Text} (h : split.Fits text)
    (hwindow : window <+: text) (hnone : split window false = (none, 0)) :
    window.length < Scanner.greatestSize := by
  have hbound := h window hwindow (congrArg Prod.fst hnone)
  rwa [hnone, Nat.zero_add] at hbound

/-- A beginning of the text that a buffer holds need not be cut short to see whether the token fits. -/
theorem fits_append_iff {split : Splitter} {text : Text} (hsize : text.length ≤ Scanner.greatestSize)
    (more : Text) :
    split.Fits (text ++ more) ↔
      ∀ beyond, beyond <+: more → (split (text ++ beyond) false).1 = none →
        (text ++ beyond).length < (split (text ++ beyond) false).2 + Scanner.greatestSize := by
  constructor
  · intro hfits beyond hbeyond hnone
    exact hfits _ ((List.prefix_append_right_inj text).mpr hbeyond) hnone
  · intro hlong window hwindow hnone
    rcases List.prefix_or_prefix_of_prefix hwindow (List.prefix_append text more) with
      ⟨tail, htail⟩ | ⟨beyond, rfl⟩
    · cases tail with
      | nil =>
        rw [List.append_nil] at htail
        rw [htail, ← List.append_nil text] at hnone ⊢
        exact hlong [] List.nil_prefix hnone
      | cons byte tail =>
        -- A window that is shorter than the text is shorter than a buffer.
        have hlength := congrArg List.length htail
        simp only [List.length_append, List.length_cons] at hlength
        omega
    · exact hlong beyond ((List.prefix_append_right_inj text).mp hwindow) hnone

/-- A token that is complete at the end of a text which a buffer holds fits. -/
theorem Lawful.fits_of_found {split : Splitter} (hsplit : split.Lawful) {text token : Text} {count : Nat}
    (hsize : text.length ≤ Scanner.greatestSize) (hfound : split text false = (some token, count))
    (more : Text) : split.Fits (text ++ more) := by
  rw [fits_append_iff hsize]
  intro beyond _ hnone
  rw [hsplit.found hfound beyond false] at hnone
  cases hnone

open Text

/-! ### Cutting words -/

/-- Spaces at the front make no difference but to the count. -/
theorem words_skip (window : Text) (atEnd : Bool) :
    words window atEnd =
      Prod.map id (leadingBlanks window + ·) (words (window.drop (leadingBlanks window)) atEnd) := by
  have hzero := leadingBlanks_of_not_blank (blankWidth_drop_leadingBlanks window)
  unfold words
  dsimp only
  rw [hzero, List.drop_zero]
  cases beforeBlank? (window.drop (leadingBlanks window)) with
  | some found => simp [Nat.add_assoc]
  | none =>
    dsimp only
    split <;> simp

theorem words_of_solid {word : Text} (hword : Solid word) (atEnd : Bool) :
    words word atEnd = if atEnd && !word.isEmpty then (some word, word.length) else (none, 0) := by
  have hzero : leadingBlanks word = 0 := leadingBlanks_of_not_blank (hword 0)
  unfold words
  simp only [hzero, List.drop_zero, beforeBlank?_of_solid hword, Nat.zero_add]

theorem words_of_blank {word : Text} (hword : Solid word) (hne : word ≠ []) {c : Char}
    (hblank : isBlank c = true) (rest : Text) (atEnd : Bool) :
    words (word ++ (String.utf8EncodeChar c ++ rest)) atEnd =
      (some word, word.length + c.utf8Size) := by
  have hzero : leadingBlanks (word ++ (String.utf8EncodeChar c ++ rest)) = 0 := by
    apply leadingBlanks_of_not_blank
    rw [blankWidth_append_encoding hne]
    exact hword 0
  unfold words
  simp only [hzero, List.drop_zero, beforeBlank?_append_encoding hword hblank, Nat.zero_add]

/-- A window has spaces at its front and then either bytes without a space or a word with a space behind
it. -/
theorem window_cases (window : Text) :
    Solid (window.drop (leadingBlanks window)) ∨
      ∃ word c rest, Solid word ∧ word ≠ [] ∧ isBlank c = true ∧
        window.drop (leadingBlanks window) = word ++ (String.utf8EncodeChar c ++ rest) := by
  rcases solid_or_blank (window.drop (leadingBlanks window)) with
    hsolid | ⟨word, c, rest, hword, hblank, htext⟩
  · exact .inl hsolid
  · refine .inr ⟨word, c, rest, hword, ?_, hblank, htext⟩
    rintro rfl
    have hfront := blankWidth_drop_leadingBlanks window
    have hpos := c.utf8Size_pos
    rw [htext, List.nil_append, blankWidth_of_prefix hblank (List.prefix_append _ _)] at hfront
    omega

theorem words_append (window more : Text) (atEnd : Bool) :
    words (window ++ more) atEnd =
      Prod.map id (leadingBlanks window + ·)
        (words (window.drop (leadingBlanks window) ++ more) atEnd) := by
  have hlead := leadingBlanks_le_length window
  rw [words_skip, leadingBlanks_append, ← List.drop_drop, List.drop_append_of_le_length hlead,
    words_skip (window.drop (leadingBlanks window) ++ more)]
  exact Prod.ext rfl (Nat.add_assoc _ _ _)

theorem lawful_words : Lawful words where
  used_le window atEnd := by
    have hlead := leadingBlanks_le_length window
    have hlength := List.length_drop (i := leadingBlanks window) (l := window)
    rw [words_skip]
    rcases window_cases window with hsolid | ⟨word, c, rest, hword, hne, hblank, htext⟩
    · rw [words_of_solid hsolid]
      split <;> simp only [Prod.map_apply] <;> omega
    · rw [htext, List.length_append, List.length_append, String.length_utf8EncodeChar] at hlength
      rw [htext, words_of_blank hword hne hblank]
      simp only [Prod.map_apply]
      omega
  found {window token count} h more atEnd := by
    rw [words_skip] at h
    rw [words_append]
    rcases window_cases window with hsolid | ⟨word, c, rest, hword, hne, hblank, htext⟩
    · rw [words_of_solid hsolid] at h
      simp at h
    · rw [htext, words_of_blank hword hne hblank] at h
      rw [htext, List.append_assoc, List.append_assoc, words_of_blank hword hne hblank]
      exact h
  skipped {window} h more atEnd := by
    have hcount : (words window false).2 = leadingBlanks window := by
      rw [words_skip] at h ⊢
      rcases window_cases window with hsolid | ⟨word, c, rest, hword, hne, hblank, htext⟩
      · rw [words_of_solid hsolid]
        simp
      · rw [htext, words_of_blank hword hne hblank] at h
        cases h
    rw [hcount]
    exact words_append window more atEnd
  ended {window} h := by
    have hlead := leadingBlanks_le_length window
    have hlength := List.length_drop (i := leadingBlanks window) (l := window)
    rw [words_skip] at h ⊢
    rcases window_cases window with hsolid | ⟨word, c, rest, hword, hne, hblank, htext⟩
    · rw [words_of_solid hsolid] at h ⊢
      cases hrest : window.drop (leadingBlanks window) with
      | nil =>
        rw [hrest, List.length_nil] at hlength
        simp only [List.isEmpty_nil, Bool.not_true, Bool.and_false, Bool.false_eq_true, if_false,
          Prod.map_apply]
        omega
      | cons byte rest =>
        rw [hrest] at h
        cases h
    · rw [htext, words_of_blank hword hne hblank] at h
      cases h

theorem fits_of_blank {word : Text} (hword : Solid word) (hne : word ≠ []) {c : Char}
    (hblank : isBlank c = true) (hsize : word.length + c.utf8Size ≤ Scanner.greatestSize)
    (rest : Text) : words.Fits (word ++ (String.utf8EncodeChar c ++ rest)) := by
  have hfound := words_of_blank hword hne hblank [] false
  rw [List.append_nil] at hfound
  rw [← List.append_assoc]
  apply lawful_words.fits_of_found _ hfound
  rwa [List.length_append, String.length_utf8EncodeChar]

end Splitter

/-! ### Windows that move and grow -/

namespace Scanner

/-- All that is still to be cut, whether or not it has been read. -/
def rest (s : Scanner) : Text := s.window ++ s.reader.pending

/-- A scanner whose buffer holds what it should, and which has stopped reading only where its reader
gives no more, with room left in the buffer. -/
structure Sound (s : Scanner) : Prop where
  inBuffer : s.used + s.window.length ≤ s.size
  size_le : s.size ≤ greatestSize
  stop : s.stop = none ∨
    s.stop = some s.ending ∧ s.reader.pending = [] ∧ s.window.length < greatestSize

@[simp] theorem shift_window (s : Scanner) : s.shift.window = s.window := by
  unfold shift
  split <;> rfl

@[simp] theorem grow_window (s : Scanner) : s.grow.window = s.window := by
  unfold grow
  split <;> rfl

variable {s : Scanner} {split : Splitter}

/-- A buffer that is full although its window was moved has nothing but the window in it. -/
theorem used_shift (hs : s.Sound) :
    s.shift.size = s.size ∧ s.shift.used + s.window.length ≤ s.size ∧
      (s.shift.isFull = true → s.shift.used = 0 ∧ s.window.length = s.size) := by
  have hin := hs.inBuffer
  unfold shift
  by_cases hmoves : (s.isFull || s.size / 2 < s.used) = true
  · rw [if_pos hmoves]
    refine ⟨rfl, by dsimp only; omega, fun hfull => ⟨rfl, ?_⟩⟩
    simpa [isFull] using hfull
  · rw [if_neg hmoves]
    refine ⟨rfl, hin, fun hfull => ?_⟩
    rw [hfull, Bool.true_or] at hmoves
    exact absurd rfl hmoves

/-- Room is made for more unless the window alone fills the largest buffer. -/
theorem room_ready (hs : s.Sound) : s.shift.grow.used + s.window.length ≤ s.shift.grow.size ∧
    s.shift.grow.size ≤ greatestSize ∧
    (s.shift.grow.room = 0 → s.window.length = greatestSize) := by
  have hsize := hs.size_le
  obtain ⟨hsame, hin, hfull⟩ := used_shift hs
  by_cases hgrows : s.shift.isFull = true ∧ s.shift.size < greatestSize
  · have hgrow : s.shift.grow =
        { s.shift with used := 0, size := min (max leastSize (2 * s.shift.size)) greatestSize } :=
      if_pos (by simpa using hgrows)
    obtain ⟨-, hwindow⟩ := hfull hgrows.1
    have hlarger : s.window.length < min (max leastSize (2 * s.shift.size)) greatestSize := by
      simp only [leastSize, greatestSize] at hgrows ⊢
      omega
    simp only [room, hgrow, shift_window]
    omega
  · have hgrow : s.shift.grow = s.shift := if_neg (by simpa using hgrows)
    simp only [room, hgrow, shift_window, hsame]
    refine ⟨hin, hsize, fun hroom => ?_⟩
    have hfilled : s.shift.isFull = true := by
      simp only [isFull, shift_window, hsame, beq_iff_eq]
      omega
    have hgreatest := not_and.mp hgrows hfilled
    obtain ⟨-, hwindow⟩ := hfull hfilled
    omega

theorem rest_advance {count : Nat} (hcount : count ≤ s.window.length) :
    (s.advance count).rest = s.rest.drop count :=
  (List.drop_append_of_le_length hcount).symm

theorem sound_advance (hs : s.Sound) {count : Nat} (hcount : count ≤ s.window.length) :
    (s.advance count).Sound := by
  have hin := hs.inBuffer
  have hlength : (s.advance count).window.length = s.window.length - count := List.length_drop
  refine ⟨?_, hs.size_le, ?_⟩
  · change s.used + count + _ ≤ s.size
    rw [hlength]
    omega
  · refine hs.stop.imp id fun ⟨hended, hpending, hshort⟩ => ⟨hended, hpending, ?_⟩
    rw [hlength]
    omega

/-- A token that is cut off the window is the first one of all that is left. -/
theorem cut_of_some (hsplit : split.Lawful) (hs : s.Sound) {token : Text}
    (h : (s.cut split).1 = some token) :
    ∃ count ≤ s.window.length, split s.rest true = (some token, count) ∧
      (s.cut split).2 = s.advance count := by
  unfold cut at h ⊢
  split at h
  · cases h
  · next hwindow =>
    rw [if_neg hwindow]
    refine ⟨_, hsplit.used_le _ _, ?_, rfl⟩
    rcases hs.stop with hreading | ⟨hended, hpending, -⟩
    · rw [hreading] at h ⊢
      exact hsplit.found (Prod.ext h rfl) s.reader.pending true
    · rw [hended] at h ⊢
      rw [rest, hpending, List.append_nil]
      exact Prod.ext h rfl

/-- A cut without a token, while the scanner is reading, uses up bytes that make no difference to what is
found behind them. -/
theorem cut_of_none (hsplit : split.Lawful) (hreading : s.stop = none) (h : (s.cut split).1 = none) :
    ∃ count ≤ s.window.length, (s.cut split).2 = s.advance count ∧
      (s.window ≠ [] → split s.window false = (none, count)) ∧
      ∀ more atEnd, split (s.window ++ more) atEnd =
        Prod.map id (count + ·) (split (s.window.drop count ++ more) atEnd) := by
  unfold cut at h ⊢
  split at h
  · next hempty =>
    rw [if_pos hempty]
    have hnil : s.window = [] := by
      simpa [hreading] using hempty
    refine ⟨0, Nat.zero_le _, rfl, fun hne => absurd hnil hne, fun more atEnd => ?_⟩
    rw [List.drop_zero]
    exact Prod.ext rfl (Nat.zero_add _).symm
  · next hwindow =>
    rw [if_neg hwindow]
    simp only [hreading, Option.isSome_none] at h ⊢
    exact ⟨_, hsplit.used_le _ _, rfl, fun _ => Prod.ext h rfl, hsplit.skipped h⟩

/-- Behind bytes that are used up without a token, the token fits if it did before. -/
theorem fits_drop_iff {text more : Text} {count : Nat} (hcount : count ≤ text.length)
    (hsize : text.length ≤ greatestSize)
    (hskip : ∀ more atEnd, split (text ++ more) atEnd =
      Prod.map id (count + ·) (split (text.drop count ++ more) atEnd)) :
    split.Fits (text ++ more) ↔ split.Fits (text.drop count ++ more) := by
  have hdropped : (text.drop count).length ≤ greatestSize := by
    rw [List.length_drop]
    omega
  rw [Splitter.fits_append_iff hsize, Splitter.fits_append_iff hdropped]
  refine forall_congr' fun beyond => imp_congr_right fun _ => ?_
  rw [hskip beyond false]
  refine imp_congr_right fun _ => ?_
  simp only [Prod.map_snd, List.length_append, List.length_drop]
  omega

theorem fault?_of_ending (h : s.stop = some s.ending) : s.fault? = s.reader.fault := by
  unfold fault?
  rw [h]
  unfold ending
  cases s.reader.fault <;> rfl

theorem fault_reader_next (split : Splitter) (s : Scanner) :
    (s.next split).2.reader.fault = s.reader.fault := by
  fun_induction next split s with
  | case1 s found hfound => simp [found]
  | case2 s found hfound hstop => simp [found]
  | case3 s found hfound hstop ready hroom => simp [ready, found]
  | case4 s found hfound hstop ready hroom hpending ih =>
    rw [ih]
    simp [ready, found]
  | case5 s found hfound hstop ready hroom hpending ih =>
    rw [ih]
    simp [ready, found, fill, Reader.read]

/-- What a scanner gives is the first token of all that is left, or the fault of its reader if there is
none. -/
structure Delivers (split : Splitter) (s : Scanner) (result : Option Text × Scanner) : Prop where
  token : result.1 = (split s.rest true).1
  rest : result.2.rest = s.rest.drop (split s.rest true).2
  sound : result.2.Sound
  fault : result.1 = none → result.2.fault? = s.reader.fault

/-- A scanner delivers what it delivers behind bytes that are used up without a token. -/
theorem Delivers.of_skipped {s ready : Scanner} {result : Option Text × Scanner} {count : Nat}
    (h : Delivers split ready result) (hrest : ready.rest = s.rest.drop count)
    (hskip : split s.rest true = Prod.map id (count + ·) (split ready.rest true))
    (hfault : ready.reader.fault = s.reader.fault) : Delivers split s result := by
  refine ⟨?_, ?_, h.sound, fun hnone => hfault ▸ h.fault hnone⟩
  · rw [h.token, hskip]
    rfl
  · rw [h.rest, hskip, hrest, List.drop_drop]
    rfl

/-- The window after a cut without a token, with room made for more. There is none only if the token does
not fit. -/
theorem ready_of_none (hsplit : split.Lawful) (hs : s.Sound) (hreading : s.stop = none)
    (h : (s.cut split).1 = none) :
    ∃ count, (s.cut split).2.shift.grow.rest = s.rest.drop count ∧
      split s.rest true =
        Prod.map id (count + ·) (split (s.cut split).2.shift.grow.rest true) ∧
      (split.Fits s.rest ↔ split.Fits (s.cut split).2.shift.grow.rest) ∧
      (s.cut split).2.shift.grow.Sound ∧
      ((s.cut split).2.shift.grow.room = 0 → ¬ split.Fits s.rest) := by
  obtain ⟨count, hcount, hcut, hwindow, hskip⟩ := cut_of_none hsplit hreading h
  have hrest : (s.cut split).2.shift.grow.rest = s.window.drop count ++ s.reader.pending := by
    simp only [rest, grow_window, shift_window, grow_reader, shift_reader, hcut]
    rfl
  have hsize : s.window.length ≤ greatestSize := by
    have hin := hs.inBuffer
    have hsize := hs.size_le
    omega
  have hroom := room_ready (hcut ▸ sound_advance hs hcount)
  have hlength : (s.cut split).2.window.length = s.window.length - count := by
    rw [hcut]
    exact List.length_drop
  refine ⟨count, ?_, ?_, ?_, ⟨?_, hroom.2.1, ?_⟩, ?_⟩
  · rw [hrest]
    exact (List.drop_append_of_le_length hcount).symm
  · rw [hrest]
    exact hskip s.reader.pending true
  · rw [hrest]
    exact fits_drop_iff hcount hsize hskip
  · simpa only [grow_window, shift_window] using hroom.1
  · left
    simp only [grow_stop, shift_stop, cut_stop, hreading]
  · intro hzero hfits
    -- A full window without a token would be a beginning of the text that does not fit.
    have hfull := hroom.2.2 hzero
    have hne : s.window ≠ [] := by
      intro hnil
      rw [hlength, hnil] at hfull
      exact absurd hfull (by simp [greatestSize])
    have hbound := hfits s.window (List.prefix_append _ _) (congrArg Prod.fst (hwindow hne))
    rw [hwindow hne] at hbound
    dsimp only at hbound
    omega

theorem sound_fill (hs : s.Sound) (hreading : s.stop = none) : s.fill.Sound := by
  have hin := hs.inBuffer
  refine ⟨?_, hs.size_le, .inl hreading⟩
  change s.used + (s.window ++ s.reader.pending.take s.room).length ≤ s.size
  rw [List.length_append, List.length_take, room]
  omega

/-- A reader that has no more bytes is found out only with room left for one. -/
theorem sound_ended (hs : s.Sound) (hroom : s.room ≠ 0) (hpending : s.reader.pending = []) :
    Sound { s with stop := some s.ending } := by
  have hsize := hs.size_le
  refine ⟨hs.inBuffer, hs.size_le, .inr ⟨rfl, hpending, ?_⟩⟩
  dsimp only
  rw [room] at hroom
  omega

theorem rest_fill (s : Scanner) : s.fill.rest = s.rest := by
  change (s.window ++ s.reader.pending.take s.room) ++ s.reader.pending.drop s.room = _
  rw [List.append_assoc, List.take_append_drop]
  rfl

theorem next_of_fits (hsplit : split.Lawful) (hs : s.Sound) (hfits : split.Fits s.rest) :
    Delivers split s (s.next split) := by
  -- Along the reading loop the text that is left stays the same but for what was used up, and what fits a
  -- buffer goes on fitting, so the loop never gives up for want of room.
  fun_induction next split s with
  | case1 s found hfound =>
    obtain ⟨token, htoken⟩ := Option.isSome_iff_exists.mp hfound
    obtain ⟨count, hcount, hsplits, hcut⟩ := cut_of_some hsplit hs htoken
    have hafter : found.2 = s.advance count := hcut
    refine ⟨?_, ?_, hafter ▸ sound_advance hs hcount, fun hnone => ?_⟩
    · rw [hsplits]
      exact htoken
    · rw [hsplits, hafter, rest_advance hcount]
    · rw [hnone] at hfound
      cases hfound
  | case2 s found hfound hstop =>
    have hended : s.stop = some s.ending ∧ s.reader.pending = [] := by
      rcases hs.stop with hnone | hended
      · simp [found, hnone] at hstop
      · exact ⟨hended.1, hended.2.1⟩
    have hcut : found = ((split s.window true).1, s.advance (split s.window true).2) := by
      simp [found, cut, hended.1]
    have hnone : (split s.window true).1 = none := by
      rw [hcut] at hfound
      simpa using hfound
    have hrest : s.rest = s.window := by rw [Scanner.rest, hended.2, List.append_nil]
    rw [hcut]
    refine ⟨?_, ?_, ⟨Nat.zero_le _, hs.size_le, .inr ⟨hended.1, hended.2, Nat.succ_pos _⟩⟩,
      fun _ => fault?_of_ending hended.1⟩
    · rw [hrest, hnone]
    · rw [hrest, hsplit.ended hnone, List.drop_length]
      exact hended.2
  | case3 s found hfound hstop ready hroom =>
    have hreading : s.stop = none := by simpa [found] using hstop
    obtain ⟨count, -, -, -, -, hready⟩ :=
      ready_of_none hsplit hs hreading (by simpa [found] using hfound)
    exact absurd hfits (hready hroom)
  | case4 s found hfound hstop ready hroom hpending ih =>
    have hreading : s.stop = none := by simpa [found] using hstop
    have hready : ready = (s.cut split).2.shift.grow := rfl
    have hfault : ready.reader.fault = s.reader.fault := by simp [ready, found]
    obtain ⟨count, hrest, hskip, hsame, hsound, -⟩ :=
      ready_of_none hsplit hs hreading (by simpa [found] using hfound)
    rw [← hready] at hrest hskip hsame hsound
    clear_value ready found
    exact (ih (sound_ended hsound hroom hpending) (hsame.mp hfits)).of_skipped hrest hskip hfault
  | case5 s found hfound hstop ready hroom hpending ih =>
    have hreading : s.stop = none := by simpa [found] using hstop
    have hready : ready = (s.cut split).2.shift.grow := rfl
    have hfault : ready.fill.reader.fault = s.reader.fault := by simp [ready, found, fill, Reader.read]
    have hstopped : ready.stop = none := by simp [ready, found, hreading]
    obtain ⟨count, hrest, hskip, hsame, hsound, -⟩ :=
      ready_of_none hsplit hs hreading (by simpa [found] using hfound)
    rw [← hready, ← rest_fill ready] at hrest hskip hsame
    rw [← hready] at hsound
    clear_value ready found
    exact (ih (sound_fill hsound hstopped) (hsame.mp hfits)).of_skipped hrest hskip hfault

/-- What is left of a text that has been read to its end is less than a buffer. -/
theorem fits_of_ended (hs : s.Sound) (hended : s.stop ≠ none) : split.Fits s.rest := by
  obtain ⟨-, hpending, hshort⟩ := hs.stop.resolve_left hended
  apply Splitter.fits_of_length_lt
  rwa [rest, hpending, List.append_nil]

theorem fits_of_cut (hsplit : split.Lawful) (hs : s.Sound) {token : Text}
    (h : (s.cut split).1 = some token) : split.Fits s.rest := by
  by_cases hreading : s.stop = none
  · have hsize : s.window.length ≤ greatestSize := by
      have hin := hs.inBuffer
      have hsize := hs.size_le
      omega
    unfold cut at h
    split at h
    · cases h
    · rw [hreading] at h
      exact hsplit.fits_of_found hsize (Prod.ext h rfl) _
  · exact fits_of_ended hs hreading

/-- A token that does not fit a buffer is refused. -/
theorem next_of_not_fits (hsplit : split.Lawful) (hs : s.Sound) (hlong : ¬ split.Fits s.rest) :
    (s.next split).1 = none ∧ (s.next split).2.fault? = some .tokenTooLong := by
  fun_induction next split s with
  | case1 s found hfound =>
    obtain ⟨token, htoken⟩ := Option.isSome_iff_exists.mp hfound
    exact absurd (fits_of_cut hsplit hs htoken) hlong
  | case2 s found hfound hstop =>
    have hended : s.stop ≠ none := by
      intro hnone
      simp [found, hnone] at hstop
    exact absurd (fits_of_ended hs hended) hlong
  | case3 s found hfound hstop ready hroom => exact ⟨rfl, rfl⟩
  | case4 s found hfound hstop ready hroom hpending ih =>
    have hreading : s.stop = none := by simpa [found] using hstop
    have hready : ready = (s.cut split).2.shift.grow := rfl
    obtain ⟨count, -, -, hsame, hsound, -⟩ :=
      ready_of_none hsplit hs hreading (by simpa [found] using hfound)
    rw [← hready] at hsame hsound
    clear_value ready found
    exact ih (sound_ended hsound hroom hpending) (mt hsame.mpr hlong)
  | case5 s found hfound hstop ready hroom hpending ih =>
    have hreading : s.stop = none := by simpa [found] using hstop
    have hready : ready = (s.cut split).2.shift.grow := rfl
    have hstopped : ready.stop = none := by simp [ready, found, hreading]
    obtain ⟨count, -, -, hsame, hsound, -⟩ :=
      ready_of_none hsplit hs hreading (by simpa [found] using hfound)
    rw [← hready, ← rest_fill ready] at hsame
    rw [← hready] at hsound
    clear_value ready found
    exact ih (sound_fill hsound hstopped) (mt hsame.mpr hlong)

end Scanner

end LittleMan
