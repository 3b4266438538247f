import LittleMan.Image
import LittleMan.Proofs.Scanning
import LittleMan.Proofs.Text.Decimal
import Mathlib.Data.List.Forall2
import Mathlib.Data.List.Induction
import Mathlib.Data.List.TakeWhile

/-!
# Images as texts

An image is written one number a line and read line by line through a scanner. Lines are cut at their line
feeds whatever the buffer holds, a carriage return in front of the line feed is dropped, and the cells that
no line gives are zero. So the text of an image can be read back, with either kind of line end and with or
without one behind the last line, and can be cut short as far as the cells behind the cut hold zero.
-/

namespace LittleMan

open Text

/-! ### Lines through a buffer -/

namespace Splitter

theorem lines_of_newline {line : Text} (hline : newline ∉ line) (rest : Text) (atEnd : Bool) :
    lines (line ++ newline :: rest) atEnd = (some (dropReturn line), line.length + 1) := by
  have hfirst : (line ++ newline :: rest).idxOf? newline = some line.length := by
    rw [List.idxOf?_eq_some_iff]
    refine ⟨by simp, by simp, fun j hj => ?_⟩
    rw [List.getElem_append_left hj]
    intro hnewline
    exact hline (hnewline ▸ List.getElem_mem hj)
  simp only [lines, hfirst, List.take_left]

theorem lines_of_no_newline {line : Text} (hline : newline ∉ line) (atEnd : Bool) :
    lines line atEnd =
      if atEnd && !line.isEmpty then (some (dropReturn line), line.length) else (none, 0) := by
  simp only [lines, List.idxOf?_eq_none_iff.mpr hline]

theorem line_cases (window : Text) :
    newline ∉ window ∨ ∃ line rest, newline ∉ line ∧ window = line ++ newline :: rest := by
  by_cases hmem : newline ∈ window
  · obtain ⟨line, rest, htext, hline⟩ := List.eq_append_cons_of_mem hmem
    exact .inr ⟨line, rest, hline, htext⟩
  · exact .inl hmem

theorem lawful_lines : Lawful lines where
  used_le window atEnd := by
    rcases line_cases window with hline | ⟨line, rest, hline, rfl⟩
    · rw [lines_of_no_newline hline]
      split <;> simp
    · rw [lines_of_newline hline]
      simp
  found {window token count} h more atEnd := by
    rcases line_cases window with hline | ⟨line, rest, hline, rfl⟩
    · rw [lines_of_no_newline hline] at h
      cases h
    · rw [lines_of_newline hline] at h
      rw [List.append_assoc, List.cons_append, lines_of_newline hline]
      exact h
  skipped {window} h more atEnd := by
    rcases line_cases window with hline | ⟨line, rest, hline, rfl⟩
    · rw [lines_of_no_newline hline]
      simp only [Bool.false_and, Bool.false_eq_true, if_false, List.drop_zero]
      exact Prod.ext rfl (Nat.zero_add _).symm
    · rw [lines_of_newline hline] at h
      cases h
  ended {window} h := by
    rcases line_cases window with hline | ⟨line, rest, hline, rfl⟩
    · rw [lines_of_no_newline hline] at h ⊢
      cases window with
      | nil => rfl
      | cons byte window => cases h
    · rw [lines_of_newline hline] at h
      cases h

theorem fits_line_iff {line : Text} (hline : newline ∉ line) (rest : Text) :
    lines.Fits (line ++ newline :: rest) ↔ line.length < Scanner.greatestSize := by
  constructor
  · intro hfits
    exact hfits.length_lt (List.prefix_append _ _) (lines_of_no_newline hline false)
  · intro hsize
    have hlength : (line ++ [newline]).length ≤ Scanner.greatestSize := by
      rw [List.length_append]
      exact hsize
    have hfits := lawful_lines.fits_of_found hlength (lines_of_newline hline [] false) rest
    rwa [List.append_assoc] at hfits

theorem fits_last_iff {line : Text} (hline : newline ∉ line) :
    lines.Fits line ↔ line.length < Scanner.greatestSize := by
  constructor
  · intro hfits
    exact hfits.length_lt (List.prefix_refl _) (lines_of_no_newline hline false)
  · exact fits_of_length_lt

end Splitter

namespace Text

/-- The lines of a text, each up to a line feed, and what stands behind the last line feed if that is not
empty. -/
inductive Lined : Text → List Text → Prop where
  | nil : Lined [] []
  | last {line : Text} (hne : line ≠ []) (hline : newline ∉ line) : Lined line [line]
  | line {line : Text} (hline : newline ∉ line) {rest : Text} {lines : List Text}
    (hrest : Lined rest lines) : Lined (line ++ newline :: rest) (line :: lines)

namespace Lined

variable {text : Text} {ls : List Text}

theorem length_le (h : Lined text ls) : ls.length ≤ text.length := by
  induction h with
  | nil => exact Nat.le_refl 0
  | last hne _ => exact List.length_pos_iff.mpr hne
  | line hline _ ih =>
    simp only [List.length_cons, List.length_append]
    omega

/-- The first line of a text is cut off, the others are left, and it fits a buffer if that is larger. -/
theorem first (h : Lined text ls) :
    (Splitter.lines text true).1 = ls.head?.map Splitter.dropReturn ∧
      Lined (text.drop (Splitter.lines text true).2) ls.tail ∧
      (Splitter.lines.Fits text ↔ ∀ line ∈ ls.head?, line.length < Scanner.greatestSize) := by
  cases h with
  | nil =>
    exact ⟨rfl, .nil, iff_of_true (Splitter.fits_of_length_lt (by decide)) (by simp)⟩
  | @last line hne hline =>
    have hcut : Splitter.lines text true = (some (Splitter.dropReturn text), text.length) := by
      rw [Splitter.lines_of_no_newline hline, if_pos (by simpa using hne)]
    rw [hcut, Splitter.fits_last_iff hline]
    refine ⟨rfl, ?_, by simp⟩
    rw [List.drop_length]
    exact .nil
  | @line line hline rest ls hrest =>
    rw [Splitter.lines_of_newline hline, Splitter.fits_line_iff hline]
    refine ⟨rfl, ?_, by simp⟩
    rw [List.append_cons, List.drop_left' (by simp)]
    exact hrest

end Lined

end Text

namespace Scanner

variable {split : Splitter} {s : Scanner} {text : Text} {ls : List Text}

theorem tokensWithin_of_none (h : (s.next split).1 = none) (count : Nat) (found : List Text) :
    s.tokensWithin split (count + 1) found = (found.reverse, (s.next split).2.fault?) := by
  have hresult : s.next split = (none, (s.next split).2) := Prod.ext h rfl
  rw [tokensWithin, hresult]

theorem tokensWithin_of_some {token : Text} (h : (s.next split).1 = some token) (count : Nat)
    (found : List Text) :
    s.tokensWithin split (count + 1) found =
      (s.next split).2.tokensWithin split count (token :: found) := by
  have hresult : s.next split = (some token, (s.next split).2) := Prod.ext h rfl
  rw [tokensWithin, hresult]

/-- A scanner gives the lines up to the first that it has no room for. If it has room for all of them, it ends
with the fault of its reader. -/
theorem tokensWithin_of_lined (h : Lined text ls) (hs : s.Sound) (hrest : s.rest = text) {count : Nat}
    (hcount : ls.length < count) (found : List Text) :
    s.tokensWithin Splitter.lines count found =
      (found.reverse ++ (ls.takeWhile (·.length < greatestSize)).map Splitter.dropReturn,
        if ∀ line ∈ ls, line.length < greatestSize then s.reader.fault else some .tokenTooLong) := by
  induction ls generalizing text s count found with
  | nil =>
    obtain ⟨count, rfl⟩ := Nat.exists_eq_add_one_of_ne_zero (Nat.ne_of_gt hcount)
    obtain ⟨hnone, -, hsame⟩ := h.first
    have hnext := next_of_fits Splitter.lawful_lines hs (hrest ▸ hsame.mpr (by simp))
    have htoken : (s.next Splitter.lines).1 = none := by
      rw [hnext.token, hrest, hnone]
      rfl
    rw [tokensWithin_of_none htoken, hnext.fault htoken, if_pos (by simp), List.takeWhile_nil,
      List.map_nil, List.append_nil]
  | cons line ls ih =>
    obtain ⟨count, rfl⟩ := Nat.exists_eq_add_one_of_ne_zero (Nat.ne_zero_of_lt hcount)
    obtain ⟨hline, hlines, hsame⟩ := h.first
    simp only [List.forall_mem_cons]
    by_cases hfits : line.length < greatestSize
    · have hnext := next_of_fits Splitter.lawful_lines hs (hrest ▸ hsame.mpr (by simpa using hfits))
      have htoken : (s.next Splitter.lines).1 = some (Splitter.dropReturn line) := by
        rw [hnext.token, hrest, hline]
        rfl
      rw [tokensWithin_of_some htoken,
        ih hlines hnext.sound (by rw [hnext.rest, hrest]) (Nat.lt_of_succ_lt_succ hcount),
        fault_reader_next, List.reverse_cons, List.append_assoc,
        List.takeWhile_cons_of_pos (by simpa using hfits)]
      simp only [hfits, true_and]
      rfl
    · obtain ⟨htoken, hfault⟩ :=
        next_of_not_fits Splitter.lawful_lines hs (hrest ▸ mt hsame.mp (by simpa using hfits))
      rw [tokensWithin_of_none htoken, hfault, if_neg (fun h => hfits h.1),
        List.takeWhile_cons_of_neg (by simpa using hfits), List.map_nil, List.append_nil]

theorem tokens_of_lined (h : Lined text ls) (fault : Option Fault) :
    tokens Splitter.lines { reader := { pending := text, fault } } =
      ((ls.takeWhile (·.length < greatestSize)).map Splitter.dropReturn,
        if ∀ line ∈ ls, line.length < greatestSize then fault else some .tokenTooLong) := by
  have hlength := h.length_le
  have hsound : Sound { reader := { pending := text, fault } } :=
    ⟨Nat.le_refl 0, Nat.zero_le _, .inl rfl⟩
  exact tokensWithin_of_lined h hsound rfl (by simp only [left, List.length_nil]; omega) []

theorem tokens_of_fitting (h : Lined text ls) (hfits : ∀ line ∈ ls, line.length < greatestSize)
    (fault : Option Fault) :
    tokens Splitter.lines { reader := { pending := text, fault } } =
      (ls.map Splitter.dropReturn, fault) := by
  have hall : ls.takeWhile (·.length < greatestSize) = ls :=
    List.takeWhile_eq_self_iff.mpr fun line hmem => decide_eq_true (hfits line hmem)
  rw [tokens_of_lined h, if_pos hfits, hall]

end Scanner

/-! ### Numbers one a line -/

namespace Memory

/-- The lines that are not blank, without the spaces at their ends. -/
def entries (lines : List Text) : List Text := (lines.map trim).filter (· ≠ [])

theorem entries_cons_of_blank {line : Text} (hline : trim line = []) (lines : List Text) :
    entries (line :: lines) = entries lines := by
  simp [entries, hline]

theorem entries_cons_of_not_blank {line : Text} (hline : trim line ≠ []) (lines : List Text) :
    entries (line :: lines) = trim line :: entries lines := by
  simp [entries, hline]

/-- Lines that spell words add these to the words read before them. -/
theorem wordsOfLines_append {lines : List Text} {values : List Word}
    (hvalues : List.Forall₂ (fun entry value => Decimal.Spells entry value.toInt) (entries lines) values)
    {count : Nat} (hcount : count + values.length ≤ cellCount) (read : List Word) (rest : List Text) :
    wordsOfLines count read (lines ++ rest) =
      wordsOfLines (count + values.length) (values.reverse ++ read) rest := by
  induction lines generalizing count read values with
  | nil =>
    cases hvalues
    rfl
  | cons line lines ih =>
    rw [List.cons_append, wordsOfLines]
    by_cases hline : trim line = []
    · rw [entries_cons_of_blank hline] at hvalues
      rw [if_pos hline, ih hvalues hcount]
    · rw [entries_cons_of_not_blank hline] at hvalues
      cases hvalues with
      | @cons _ value _ values hvalue hvalues =>
        rw [List.length_cons] at hcount
        rw [if_neg hline, if_neg (by omega), Decimal.word?_eq_some_iff.mpr hvalue]
        dsimp only
        rw [ih hvalues (by omega), List.length_cons, List.reverse_cons, List.append_assoc, Nat.add_assoc,
          Nat.add_comm 1]
        rfl

theorem entries_plain (values : List Word) :
    entries (values.map fun value => Decimal.plain value.toInt) =
      values.map fun value => Decimal.plain value.toInt := by
  have htrim (value : Word) : trim (Decimal.plain value.toInt) = Decimal.plain value.toInt :=
    trim_of_solid (solid_plain _)
  rw [entries, List.map_map, List.filter_eq_self.mpr]
  · exact List.map_congr_left fun value _ => htrim value
  · intro entry hmem
    obtain ⟨value, -, rfl⟩ := List.mem_map.mp hmem
    rw [Function.comp_apply, htrim]
    exact decide_eq_true (Decimal.plain_visible _).1

theorem wordsOfLines_plain (values : List Word) {count : Nat} (hcount : count + values.length ≤ cellCount)
    (read : List Word) :
    wordsOfLines count read (values.map fun value => Decimal.plain value.toInt) =
      .ok (read.reverse ++ values) := by
  have hvalues : List.Forall₂ (fun entry value => Decimal.Spells entry value.toInt)
      (entries (values.map fun value => Decimal.plain value.toInt)) values := by
    rw [entries_plain, List.forall₂_map_left_iff, List.forall₂_same]
    intro value _
    exact Decimal.spells_plain _
  have hread := wordsOfLines_append hvalues hcount read []
  rw [List.append_nil] at hread
  rw [hread, wordsOfLines, List.reverse_append, List.reverse_reverse]

/-- A text has numbers one a line, each in plain decimals and with either kind of line end behind it. The
last one may go without. -/
inductive Sheet : Text → List Word → Prop where
  | nil : Sheet [] []
  | last (value : Word) : Sheet (Decimal.plain value.toInt) [value]
  | cons (value : Word) {ending : Text} (hending : ending = [newline] ∨ ending = [13, newline])
    {rest : Text} {values : List Word} (hrest : Sheet rest values) :
    Sheet (Decimal.plain value.toInt ++ (ending ++ rest)) (value :: values)

theorem newline_not_mem_plain (n : Int) : newline ∉ Decimal.plain n := by
  intro hmem
  exact absurd ((Decimal.plain_visible n).2 newline hmem).1 (by decide)

theorem dropReturn_plain (n : Int) : Splitter.dropReturn (Decimal.plain n) = Decimal.plain n := by
  refine if_neg fun hlast => ?_
  have hmem := List.mem_of_getLast? hlast
  exact absurd ((Decimal.plain_visible n).2 13 hmem).1 (by decide)

theorem Sheet.lined {text : Text} {values : List Word} (h : Sheet text values) :
    ∃ ls, Lined text ls ∧ (∀ line ∈ ls, line.length < Scanner.greatestSize) ∧
      ls.map Splitter.dropReturn = values.map fun value => Decimal.plain value.toInt := by
  have hshort (value : Word) : (Decimal.plain value.toInt).length + 1 < Scanner.greatestSize := by
    have hlength := Decimal.length_plain_le value
    simp only [Scanner.greatestSize]
    omega
  induction h with
  | nil => exact ⟨[], .nil, by simp, rfl⟩
  | last value =>
    have hsize := hshort value
    refine ⟨_, .last (Decimal.plain_visible _).1 (newline_not_mem_plain _), ?_, ?_⟩
    · rw [List.forall_mem_singleton]
      omega
    · rw [List.map_singleton, dropReturn_plain, List.map_singleton]
  | @cons value ending hending rest values _ ih =>
    have hsize := hshort value
    have hplain := newline_not_mem_plain value.toInt
    obtain ⟨ls, hlined, hfits, hls⟩ := ih
    rcases hending with rfl | rfl
    · refine ⟨_, .line hplain hlined, List.forall_mem_cons.mpr ⟨by omega, hfits⟩, ?_⟩
      rw [List.map_cons, List.map_cons, dropReturn_plain, hls]
    · -- The carriage return is part of the line until it is dropped.
      have hline : newline ∉ Decimal.plain value.toInt ++ [13] := by
        rw [List.mem_append, not_or]
        exact ⟨hplain, by decide⟩
      have hreturn : Splitter.dropReturn (Decimal.plain value.toInt ++ [13]) =
          Decimal.plain value.toInt := by
        rw [Splitter.dropReturn, if_pos List.getLast?_concat, List.dropLast_concat]
      refine ⟨(Decimal.plain value.toInt ++ [13]) :: ls, ?_, List.forall_mem_cons.mpr ⟨?_, hfits⟩, ?_⟩
      · have hlined' := Lined.line hline hlined
        rwa [List.append_assoc] at hlined'
      · rw [List.length_append]
        exact hsize
      · rw [List.map_cons, List.map_cons, hreturn, hls]

section Reading

variable {reader : Reader} {lines : List Text} {stop : Option Fault}

theorem read_of_error (htokens : Scanner.tokens Splitter.lines { reader } = (lines, stop)) {fault : Fault}
    (hwords : wordsOfLines 0 [] lines = .error fault) : Memory.read reader = .error fault := by
  unfold Memory.read
  rw [htokens]
  dsimp only
  rw [hwords]

theorem read_of_fault (htokens : Scanner.tokens Splitter.lines { reader } = (lines, stop)) {words : List Word}
    (hwords : wordsOfLines 0 [] lines = .ok words) {fault : Fault} (hstop : stop = some fault) :
    Memory.read reader = .error fault := by
  unfold Memory.read
  rw [htokens, hstop]
  dsimp only
  rw [hwords]

theorem read_of_words (htokens : Scanner.tokens Splitter.lines { reader } = (lines, none)) {words : List Word}
    (hwords : wordsOfLines 0 [] lines = .ok words) :
    Memory.read reader = if words = [] then .error .imageEmpty else .ok (ofWords words) := by
  unfold Memory.read
  rw [htokens]
  dsimp only
  rw [hwords]
  cases words <;> rfl

end Reading

theorem read_of_sheet {text : Text} {values : List Word} (h : Sheet text values) (hne : values ≠ [])
    (hcount : values.length ≤ cellCount) : Memory.read { pending := text } = .ok (ofWords values) := by
  obtain ⟨ls, hlined, hfits, hls⟩ := h.lined
  have hwords : wordsOfLines 0 [] (ls.map Splitter.dropReturn) = .ok values := by
    rw [hls]
    exact wordsOfLines_plain values (by omega) []
  rw [read_of_words (Scanner.tokens_of_fitting hlined hfits none) hwords, if_neg hne]

/-! ### The text of an image -/

/-- Numbers that are joined by line ends, with or without one behind the last. -/
theorem sheet_join {ending : Text} (hending : ending = [newline] ∨ ending = [13, newline]) {final : Text}
    (hfinal : final = [] ∨ final = ending) {values : List Word} (hne : values ≠ []) :
    Sheet (Text.join ending (values.map fun value => Decimal.plain value.toInt) ++ final) values := by
  unfold Text.join
  induction values with
  | nil => exact absurd rfl hne
  | cons value values ih =>
    cases values with
    | nil =>
      rw [List.map_singleton, List.intercalate_singleton]
      rcases hfinal with rfl | rfl
      · rw [List.append_nil]
        exact .last value
      · have hsheet := Sheet.cons value hending .nil
        rwa [List.append_nil] at hsheet
    | cons second values =>
      rw [List.map_cons, List.map_cons, List.intercalate_cons_cons, List.append_assoc, List.append_assoc]
      exact .cons value hending (ih (List.cons_ne_nil _ _))

/-- The text with a carriage return in front of each line feed. -/
def withReturns (text : Text) : Text :=
  text.flatMap fun byte => if byte = newline then [13, newline] else [byte]

theorem withReturns_of_no_newline {line : Text} (hline : newline ∉ line) : withReturns line = line := by
  induction line with
  | nil => rfl
  | cons byte line ih =>
    rw [List.mem_cons, not_or] at hline
    have hrest := ih hline.2
    rw [withReturns] at hrest ⊢
    rw [List.flatMap_cons, if_neg (Ne.symm hline.1), hrest]
    rfl

theorem withReturns_join {ls : List Text} (hls : ∀ line ∈ ls, newline ∉ line) :
    withReturns (Text.join [newline] ls) = Text.join [13, newline] ls := by
  unfold Text.join
  induction ls with
  | nil => rfl
  | cons line ls ih =>
    rw [List.forall_mem_cons] at hls
    have hline := withReturns_of_no_newline hls.1
    cases ls with
    | nil => rwa [List.intercalate_singleton, List.intercalate_singleton]
    | cons second ls =>
      have hrest := ih hls.2
      rw [List.intercalate_cons_cons, List.intercalate_cons_cons, ← hrest]
      unfold withReturns at hline ⊢
      rw [List.flatMap_append, List.flatMap_append, hline]
      rfl

theorem toList_ofWords {words : List Word} (hcount : words.length ≤ cellCount) :
    (ofWords words).toList = words ++ List.replicate (cellCount - words.length) 0 := by
  apply List.ext_getElem
  · simp only [Vector.length_toList, List.length_append, List.length_replicate]
    omega
  · intro i _ _
    by_cases hi : i < words.length
    · simp [ofWords, hi]
    · have hle := Nat.le_of_not_lt hi
      simp [ofWords, List.getElem_append_right hle, List.getElem?_eq_none hle]

/-- The zeros at the end of a list reach back to a place exactly if there is nothing else behind it. -/
theorem length_sub_zeros_le_iff (words : List Word) (k : Nat) :
    words.length - (words.reverse.takeWhile (· == 0)).length ≤ k ↔
      ∀ word ∈ words.drop k, word = 0 := by
  induction words using List.reverseRecOn with
  | nil => simp
  | append_singleton words word ih =>
    rw [List.reverse_append, List.reverse_singleton, List.singleton_append, List.takeWhile_cons,
      List.length_append, List.length_singleton]
    by_cases hzero : word = 0
    · rw [if_pos (by simpa using hzero), List.length_cons, Nat.add_sub_add_right, ih, List.drop_append,
        List.forall_mem_append]
      refine (and_iff_left ?_).symm
      intro other hother
      exact (List.mem_singleton.mp (List.mem_of_mem_drop hother)).trans hzero
    · rw [if_neg (by simpa using hzero), List.length_nil, Nat.sub_zero]
      constructor
      · intro hk
        rw [List.drop_eq_nil_of_le (by simpa using hk)]
        simp
      · intro hall
        by_contra hk
        refine hzero (hall word ?_)
        rw [List.drop_append_of_le_length (by omega)]
        simp

theorem usedCount_le_iff (memory : Memory) (k : Nat) :
    memory.usedCount ≤ k ↔ ∀ word ∈ memory.toList.drop k, word = 0 := by
  rw [← length_sub_zeros_le_iff, Vector.length_toList, usedCount]

theorem ofWords_take_eq_iff (memory : Memory) (k : Nat) :
    ofWords (memory.toList.take k) = memory ↔ memory.usedCount ≤ k := by
  have hlength : (memory.toList.take k).length ≤ cellCount := by
    rw [List.length_take, Vector.length_toList]
    exact Nat.min_le_right _ _
  have hsplit := List.take_append_drop k memory.toList
  rw [usedCount_le_iff, ← Vector.toList_inj, toList_ofWords hlength]
  nth_rewrite 3 [← hsplit]
  rw [List.append_cancel_left_eq, eq_comm, List.eq_replicate_iff]
  refine and_iff_right ?_
  rw [List.length_drop, List.length_take, Vector.length_toList]
  omega

/-- The first lines of an image's text, with either line end and with or without one at the end. -/
theorem read_head_iff (memory : Memory) {ending : Text}
    (hending : ending = [newline] ∨ ending = [13, newline]) {final : Text}
    (hfinal : final = [] ∨ final = ending) {k : Nat} (hpos : 1 ≤ k) :
    Memory.read
        { pending :=
            Text.join ending ((memory.toList.take k).map fun value => Decimal.plain value.toInt) ++ final } =
      .ok memory ↔ memory.usedCount ≤ k := by
  have hlength : (memory.toList.take k).length = min k cellCount := by
    rw [List.length_take, Vector.length_toList]
  have hne : memory.toList.take k ≠ [] := by
    rw [← List.length_pos_iff, hlength, cellCount]
    omega
  have hcount : (memory.toList.take k).length ≤ cellCount := by omega
  rw [read_of_sheet (sheet_join hending hfinal hne) hne hcount, ← ofWords_take_eq_iff]
  exact ⟨Except.ok.inj, congrArg Except.ok⟩

theorem read_lines (memory : Memory) {ending : Text}
    (hending : ending = [newline] ∨ ending = [13, newline]) {final : Text}
    (hfinal : final = [] ∨ final = ending) :
    Memory.read
        { pending :=
            Text.join ending (memory.toList.map fun value => Decimal.plain value.toInt) ++ final } =
      .ok memory := by
  have hwhole : memory.toList.take cellCount = memory.toList :=
    List.take_of_length_le (Nat.le_of_eq Vector.length_toList)
  have hread := (read_head_iff memory hending hfinal (k := cellCount) (by decide)).mpr (Nat.sub_le _ _)
  rwa [hwhole] at hread

theorem newline_not_mem_lines (memory : Memory) :
    ∀ line ∈ memory.toList.map fun value => Decimal.plain value.toInt, newline ∉ line := by
  intro line hline
  obtain ⟨value, -, rfl⟩ := List.mem_map.mp hline
  exact newline_not_mem_plain _

theorem splitOn_text (memory : Memory) :
    memory.text.splitOn newline = memory.toList.map fun value => Decimal.plain value.toInt := by
  apply List.splitOn_intercalate _ (newline_not_mem_lines memory)
  rw [← List.length_pos_iff, List.length_map, Vector.length_toList]
  decide

/-- What is written of an image is read back as that image, also with a line end behind the last line, and
with carriage returns in front of the line feeds. The first lines alone are enough exactly if they have
all the cells in use. -/
theorem read_written_image (memory : Memory) :
    let written := (Writer.write {} memory.text).2.text
    (Writer.write {} memory.text).1 = none ∧
    Memory.read { pending := written } = .ok memory ∧
    Memory.read { pending := written ++ [newline] } = .ok memory ∧
    Memory.read { pending := withReturns written } = .ok memory ∧
    Memory.read { pending := withReturns (written ++ [newline]) } = .ok memory ∧
    ∀ k, 1 ≤ k → k ≤ 100 →
      let head := Text.join [newline] ((written.splitOn newline).take k)
      (Memory.read { pending := head } = .ok memory ↔ memory.usedCount ≤ k) ∧
      (Memory.read { pending := head ++ [newline] } = .ok memory ↔ memory.usedCount ≤ k) := by
  have hwritten : (Writer.write {} memory.text).2.text = memory.text := by
    simp [Writer.write, Writer.fitting, Writer.text]
  have hreturns : withReturns memory.text =
      Text.join [13, newline] (memory.toList.map fun value => Decimal.plain value.toInt) :=
    withReturns_join (newline_not_mem_lines memory)
  have hlast : withReturns (memory.text ++ [newline]) = withReturns memory.text ++ [13, newline] := by
    simp [withReturns]
  dsimp only
  rw [hwritten, hlast, hreturns, splitOn_text]
  refine ⟨?_, ?_, ?_, ?_, ?_, fun k hpos _ => ?_⟩
  · simp [Writer.write, Writer.fitting]
  · have hread := read_lines memory (.inl rfl) (.inl rfl)
    rwa [List.append_nil] at hread
  · exact read_lines memory (.inl rfl) (.inr rfl)
  · have hread := read_lines memory (.inr rfl) (.inl rfl)
    rwa [List.append_nil] at hread
  · exact read_lines memory (.inr rfl) (.inr rfl)
  · rw [← List.map_take]
    have hhead := read_head_iff memory (.inl rfl) (.inl rfl) hpos
    rw [List.append_nil] at hhead
    exact ⟨hhead, read_head_iff memory (.inl rfl) (.inr rfl) hpos⟩

end Memory

end LittleMan
