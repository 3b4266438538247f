import LittleMan.Proofs.Delivery
import Mathlib.Data.List.Forall2
import Mathlib.Data.List.ReduceOption

/-!
# Where the words of a tape come from

A tape may be rewound between two numbers, its words may be too long for the buffer, and the window of a
scanner that has given up is cut like a text. Whatever happens, what a scanner has yet to give only gets
shorter from the front (`Scanner.Gives`), so the words that are answered for are ranges of the text which
follow one another, and none of them goes back behind what had been read when the tape was rewound.
-/

namespace LittleMan

open Text Splitter

/-- A word that is found in a window stands in the part that is used up with it. -/
theorem Splitter.words_found {window word : Text} {atEnd : Bool} {count : Nat}
    (h : words window atEnd = (some word, count)) :
    word ≠ [] ∧ Spaceless word ∧ ∃ skipped behind,
      window = skipped ++ (word ++ behind) ∧ skipped.length + word.length ≤ count := by
  have hlead := leadingBlanks_le_length window
  have htake : (window.take (leadingBlanks window)).length = leadingBlanks window := by
    rw [List.length_take]
    omega
  have hwindow := List.take_append_drop (leadingBlanks window) window
  rw [words_skip] at h
  rcases window_cases window with hsolid | ⟨found, c, rest, hfound, hne, hblank, htext⟩
  · rw [words_of_solid hsolid] at h
    split at h
    · next hatEnd =>
      cases h
      refine ⟨?_, solid_iff.mp hsolid, window.take (leadingBlanks window), [], ?_, ?_⟩
      · intro hnil
        simp [hnil] at hatEnd
      · rw [List.append_nil]
        exact hwindow.symm
      · rw [htake]
    · cases h
  · rw [htext, words_of_blank hfound hne hblank] at h
    cases h
    refine ⟨hne, solid_iff.mp hfound, window.take (leadingBlanks window),
      String.utf8EncodeChar c ++ rest, ?_, ?_⟩
    · rw [← htext]
      exact hwindow.symm
    · rw [htake]
      dsimp only
      omega

namespace Scanner

variable {s : Scanner}

/-- What a scanner gives stands in what it had yet to give, and what it has yet to give stands behind. -/
structure Gives (s : Scanner) (result : Option Text × Scanner) : Prop where
  rest : result.2.rest <:+ s.rest
  word : ∀ word, result.1 = some word → word ≠ [] ∧ Spaceless word ∧
    ∃ skipped behind, s.rest = skipped ++ (word ++ behind) ∧ result.2.rest <:+ behind

theorem Gives.of_suffix {s ready : Scanner} {result : Option Text × Scanner} (h : ready.Gives result)
    (hrest : ready.rest <:+ s.rest) : s.Gives result := by
  refine ⟨h.rest.trans hrest, fun word hword => ?_⟩
  obtain ⟨hne, hspaceless, skipped, behind, hsplit, hbehind⟩ := h.word word hword
  obtain ⟨front, hfront⟩ := hrest
  refine ⟨hne, hspaceless, front ++ skipped, behind, ?_, hbehind⟩
  rw [← hfront, hsplit, List.append_assoc]

theorem rest_withStop (s : Scanner) (stop : Option Stop) : rest { s with stop } = s.rest := rfl

theorem rest_cut_suffix (s : Scanner) : (s.cut words).2.rest <:+ s.rest := by
  unfold cut
  split
  · exact List.suffix_refl _
  · exact List.suffix_append_self_iff.mpr (List.drop_suffix _ _)

theorem rest_ready_suffix (s : Scanner) : (s.cut words).2.shift.grow.rest <:+ s.rest := by
  have hrest : (s.cut words).2.shift.grow.rest = (s.cut words).2.rest := by
    simp only [rest, grow_window, shift_window, grow_reader, shift_reader]
  rw [hrest]
  exact rest_cut_suffix s

theorem gives_cut (s : Scanner) : s.Gives (s.cut words) := by
  refine ⟨rest_cut_suffix s, fun word hword => ?_⟩
  unfold cut at hword ⊢
  split at hword
  · cases hword
  · next hwindow =>
    rw [if_neg hwindow]
    obtain ⟨hne, hspaceless, skipped, behind, hsplit, hcount⟩ :=
      words_found (Prod.ext hword rfl : words s.window s.stop.isSome = (some word, _))
    refine ⟨hne, hspaceless, skipped, behind ++ s.reader.pending, ?_, ?_⟩
    · rw [rest, hsplit]
      simp only [List.append_assoc]
    · have hbehind : s.window.drop (skipped.length + word.length) = behind := by
        rw [hsplit, ← List.append_assoc, List.drop_left' (by simp)]
      rw [← hbehind]
      exact List.suffix_append_self_iff.mpr (List.drop_suffix_drop_left _ hcount)

theorem gives_next (s : Scanner) : s.Gives (s.next words) := by
  fun_induction next words s with
  | case1 s found hfound => exact gives_cut s
  | case2 s found hfound hstop =>
    refine ⟨?_, fun word hword => by cases hword⟩
    have hpending : found.2.reader.pending <:+ found.2.rest := List.suffix_append _ _
    exact hpending.trans (rest_cut_suffix s)
  | case3 s found hfound hstop ready hroom =>
    refine ⟨?_, fun word hword => by cases hword⟩
    rw [rest_withStop]
    exact rest_ready_suffix s
  | case4 s found hfound hstop ready hroom hpending ih =>
    apply ih.of_suffix
    rw [rest_withStop]
    exact rest_ready_suffix s
  | case5 s found hfound hstop ready hroom hpending ih =>
    apply ih.of_suffix
    rw [rest_fill]
    exact rest_ready_suffix s

/-- A scanner stops where its reader does, or at a token that is too long. -/
def Settled (s : Scanner) : Prop :=
  s.stop = none ∨ s.stop = some s.ending ∨ s.stop = some (.failed .tokenTooLong)

theorem Settled.congr {s other : Scanner} (h : s.Settled) (hstop : other.stop = s.stop)
    (hfault : other.reader.fault = s.reader.fault) : other.Settled := by
  have hending : other.ending = s.ending := by simp only [ending, hfault]
  rwa [Settled, hstop, hending]

theorem settled_ended (s : Scanner) : Settled { s with stop := some s.ending } := .inr (.inl rfl)

theorem settled_next (split : Splitter) (hs : s.Settled) : (s.next split).2.Settled := by
  fun_induction next split s with
  | case1 s found hfound => exact hs.congr (cut_stop split s) (by simp [found])
  | case2 s found hfound hstop => exact hs.congr (cut_stop split s) (by simp [found])
  | case3 s found hfound hstop ready hroom => exact .inr (.inr rfl)
  | case4 s found hfound hstop ready hroom hpending ih => exact ih (settled_ended ready)
  | case5 s found hfound hstop ready hroom hpending ih =>
    exact ih (hs.congr (by simp [ready, found]) (by simp [ready, found, fill, Reader.read]))

theorem stop_next_of_none {split : Splitter} (h : (s.next split).1 = none) :
    (s.next split).2.stop ≠ none := by
  fun_induction next split s with
  | case1 s found hfound =>
    rw [h] at hfound
    cases hfound
  | case2 s found hfound hstop => exact Option.isSome_iff_ne_none.mp hstop
  | case3 s found hfound hstop ready hroom => exact Option.some_ne_none _
  | case4 s found hfound hstop ready hroom hpending ih => exact ih h
  | case5 s found hfound hstop ready hroom hpending ih => exact ih h

theorem fault?_next_of_none {split : Splitter} (hs : s.Settled) (h : (s.next split).1 = none) :
    (s.next split).2.fault? = s.reader.fault ∨ (s.next split).2.fault? = some .tokenTooLong := by
  rcases (settled_next split hs).resolve_left (stop_next_of_none h) with hended | hlong
  · left
    rw [fault?_of_ending hended, fault_reader_next]
  · right
    rw [fault?, hlong]

end Scanner

/-! ### Moves on one tape -/

namespace Tape

/-- What can be done with the input of a tape that is never exchanged. -/
inductive Move where
  | receive
  | rewind

/-- The tape after a move, with the answer if a number was asked for. -/
def move (tape : Tape) : Move → Option (Except Fault Word) × Tape
  | .receive => (some tape.receive.1, tape.receive.2)
  | .rewind => (none, tape.rewind)

/-- The answers to moves that are made one after the other. -/
def replies (tape : Tape) : List Move → List (Option (Except Fault Word))
  | [] => []
  | move :: moves => (tape.move move).1 :: (tape.move move).2.replies moves

/-- The tape after moves that are made one after the other. -/
def afterMoves (tape : Tape) (moves : List Move) : Tape :=
  moves.foldl (fun tape move => (tape.move move).2) tape

/-- What has not been read off the input. -/
def unread (tape : Tape) : Text :=
  match tape.scanner, tape.input with
  | some scanner, _ => scanner.reader.pending
  | none, .loaded reader => reader.pending
  | none, _ => []

/-- How much of a text has been read off the input. -/
def readTo (text : Text) (tape : Tape) : Nat := text.length - tape.unread.length

/-- A range of the text that a move is answered from, if it is: a word gives its number or is none, and
without a word there are no more, the reader has broken off, or a word is too long. -/
inductive Tells (text : Text) (fault : Option Fault) :
    Option (Except Fault Word) → Option (Nat × Nat) → Prop where
  | rewound : Tells text fault none none
  | word {start stop : Nat} {answer : Except Fault Word} (hstart : start < stop)
    (hstop : stop ≤ text.length) (hword : Spaceless (text.extract start stop))
    (hanswer : Answers (text.extract start stop) answer) :
    Tells text fault (some answer) (some (start, stop))
  | ended : Tells text fault (some (.error (fault.getD .tapeEmpty))) none
  | refused : Tells text fault (some (.error .tokenTooLong)) none

/-- The tape is read through a scanner, which is still to be made while the reader is on the tape. -/
inductive ReadBy : Tape → Scanner → Prop where
  | ready (reader : Reader) (output : Option Writer) :
    ReadBy { input := .loaded reader, output } { reader }
  | going (scanner : Scanner) (output : Option Writer) :
    ReadBy { input := .lent, scanner := some scanner, output } scanner

variable {tape : Tape} {s : Scanner} {text : Text}

theorem ReadBy.unread (h : tape.ReadBy s) : tape.unread = s.reader.pending := by
  cases h <;> rfl

theorem ReadBy.rewind (h : tape.ReadBy s) : tape.rewind.ReadBy { reader := s.reader } := by
  cases h with
  | ready reader output => exact .ready reader output
  | going _ output => exact .ready s.reader output

theorem ReadBy.receive (h : tape.ReadBy s) :
    tape.receive.2.ReadBy (s.next words).2 ∧
      tape.receive.1 =
        match (s.next words).1 with
        | some word => number word
        | none => .error ((s.next words).2.fault?.getD .tapeEmpty) := by
  cases h with
  | ready reader output => exact ⟨.going _ output, rfl⟩
  | going _ output => exact ⟨.going _ output, rfl⟩

/-- Each number that is asked for is answered from a range of what the scanner had yet to give, in front of
what it has then yet to give, or from none. -/
theorem ReadBy.tells (h : tape.ReadBy s) (hs : s.Settled) (hsuffix : s.rest <:+ text) :
    ∃ range, Tells text s.reader.fault (some tape.receive.1) range ∧
      ∀ found ∈ range, text.length - s.rest.length ≤ found.1 ∧
        found.2 ≤ text.length - (s.next words).2.rest.length := by
  obtain ⟨-, hanswer⟩ := h.receive
  have hgives := Scanner.gives_next s
  cases hword : (s.next words).1 with
  | none =>
    rw [hword] at hanswer
    refine ⟨none, ?_, by simp⟩
    rcases Scanner.fault?_next_of_none hs hword with hfault | hlong
    · rw [hanswer, hfault]
      exact .ended
    · rw [hanswer, hlong]
      exact .refused
  | some word =>
    rw [hword] at hanswer
    obtain ⟨hne, hspaceless, skipped, behind, hsplit, hbehind⟩ := hgives.word word hword
    obtain ⟨front, rfl⟩ := hsuffix
    have hpos := List.length_pos_iff.mpr hne
    have hle := hbehind.length_le
    have hrest := congrArg List.length hsplit
    have hextract : (front ++ s.rest).extract (front.length + skipped.length)
        (front.length + skipped.length + word.length) = word := by
      rw [List.extract_eq_take_drop, hsplit, ← List.append_assoc, List.drop_left' (by simp),
        Nat.add_sub_cancel_left, List.take_left]
    simp only [List.length_append] at hrest
    refine ⟨some (front.length + skipped.length, front.length + skipped.length + word.length), ?_, ?_⟩
    · refine .word (by omega) ?_ ?_ ?_
      · rw [List.length_append]
        omega
      · rwa [hextract]
      · rw [hextract, hanswer]
        exact answers_number word
    · intro found hfound
      cases hfound
      rw [List.length_append]
      omega

theorem exists_ranges (h : tape.ReadBy s) (hs : s.Settled) (hsuffix : s.rest <:+ text)
    (moves : List Move) :
    ∃ ranges, List.Forall₂ (Tells text s.reader.fault) (tape.replies moves) ranges ∧
      (∀ range, some range ∈ ranges → text.length - s.rest.length ≤ range.1) ∧
      ranges.reduceOption.Pairwise (fun range later => range.2 ≤ later.1) ∧
      ∀ before after, moves = before ++ .rewind :: after →
        ∀ range, some range ∈ ranges.drop before.length →
          (tape.afterMoves before).readTo text ≤ range.1 := by
  induction moves generalizing tape s with
  | nil => exact ⟨[], .nil, by simp, by simp, by simp⟩
  | cons move moves ih =>
    cases move with
    | receive =>
      have hrest := (Scanner.gives_next s).rest
      have hle := hrest.length_le
      obtain ⟨range, htells, hrange⟩ := h.tells hs hsuffix
      obtain ⟨ranges, hranges, hlow, hpairs, hrewinds⟩ :=
        ih h.receive.1 (Scanner.settled_next words hs) (hrest.trans hsuffix)
      rw [Scanner.fault_reader_next] at hranges
      refine ⟨range :: ranges, .cons htells hranges, ?_, ?_, ?_⟩
      · intro found hfound
        rcases List.mem_cons.mp hfound with hfirst | hlater
        · exact (hrange found hfirst.symm).1
        · have hbound := hlow found hlater
          omega
      · cases range with
        | none => rwa [List.reduceOption_cons_of_none]
        | some range =>
          rw [List.reduceOption_cons_of_some, List.pairwise_cons]
          refine ⟨fun later hlater => ?_, hpairs⟩
          have hbound := hlow later (List.reduceOption_mem_iff.mp hlater)
          have hstop := (hrange range rfl).2
          omega
      · intro before after hmoves
        cases before with
        | nil => cases hmoves
        | cons first before =>
          obtain ⟨rfl, hothers⟩ := List.cons.inj hmoves
          exact hrewinds before after hothers
    | rewind =>
      have hrest : s.reader.pending <:+ s.rest := List.suffix_append _ _
      have hle := hrest.length_le
      obtain ⟨ranges, hranges, hlow, hpairs, hrewinds⟩ :=
        ih h.rewind (.inl rfl) (hrest.trans hsuffix)
      have hlow' (range : Nat × Nat) (hrange : some range ∈ none :: ranges) :
          text.length - s.reader.pending.length ≤ range.1 := by
        rcases List.mem_cons.mp hrange with hfirst | hlater
        · cases hfirst
        · exact hlow range hlater
      refine ⟨none :: ranges, .cons .rewound hranges, ?_, ?_, ?_⟩
      · intro range hrange
        have hbound := hlow' range hrange
        omega
      · rwa [List.reduceOption_cons_of_none]
      · intro before after hmoves range hrange
        cases before with
        | nil =>
          change text.length - tape.unread.length ≤ range.1
          rw [h.unread]
          exact hlow' range hrange
        | cons first before =>
          obtain ⟨rfl, hothers⟩ := List.cons.inj hmoves
          exact hrewinds before after hothers range hrange

/-- Whatever numbers are asked for and whenever the tape is rewound, each answer that is not a fault of the
reader, or about a word that is too long, is made from a range of the text without a space in it. Later
ranges start where earlier ones end or behind, and none that follows a rewinding starts before what had
been read by then. -/
theorem replies_from_later_ranges (text : Text) (fault : Option Fault) (output : Option Writer)
    (moves : List Move) :
    let tape : Tape := { input := .loaded { pending := text, fault }, output }
    ∃ ranges, List.Forall₂ (Tells text fault) (tape.replies moves) ranges ∧
      ranges.reduceOption.Pairwise (fun range later => range.2 ≤ later.1) ∧
      ∀ before after, moves = before ++ .rewind :: after →
        ∀ range, some range ∈ ranges.drop before.length →
          (tape.afterMoves before).readTo text ≤ range.1 := by
  obtain ⟨ranges, htells, -, hpairs, hrewinds⟩ :=
    exists_ranges (.ready { pending := text, fault } output) (.inl rfl) (List.suffix_refl text) moves
  exact ⟨ranges, htells, hpairs, hrewinds⟩

end Tape

end LittleMan
