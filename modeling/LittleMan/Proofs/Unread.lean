import LittleMan.Proofs.Compilation
import LittleMan.Proofs.Desk

/-!
# Input that is not read

What lies behind the numbers that a program reads makes no difference to it. On a tape this is not plain to
see: with more text behind it the last number ends at a blank and not at the end, and the buffer is filled
differently. At the desk it is: more numbers at the bottom of the in tray are reached only by a program that
would have found the tray empty without them.
-/

namespace LittleMan

namespace Desk

/-- The desk with more numbers behind those in the in tray. -/
def withMore (d : Desk) (more : List Int) : Desk := { d with inTray := d.inTray ++ more }

variable {limit : Int} {d : Desk}

theorem obey_withMore {i : Instruction} (h : (d.obey i).1 ≠ some .tapeEmpty) (more : List Int) :
    (d.withMore more).obey i = ((d.obey i).1, (d.obey i).2.withMore more) := by
  cases i with
  | input =>
    cases hin : d.inTray with
    | nil =>
      apply absurd _ h
      simp only [obey, hin]
    | cons value rest => simp only [obey, withMore, hin, List.cons_append]
  | output => rfl
  | halt => rfl
  | addressed operation address => rfl

theorem obeyWord_withMore {word : Word} (h : (d.obeyWord word).1.bare ≠ .failed .tapeEmpty)
    (more : List Int) :
    (d.withMore more).obeyWord word = ((d.obeyWord word).1, (d.obeyWord word).2.withMore more) := by
  unfold obeyWord at h ⊢
  cases hi : Instruction.decode? word with
  | none => rfl
  | some i =>
    rw [hi] at h
    dsimp only at h ⊢
    rw [Outcome.bare_locate] at h
    have hread : (d.obey i).1 ≠ some .tapeEmpty := by
      intro hempty
      apply h
      rw [hempty]
      rfl
    rw [obey_withMore hread]
    rfl

theorem step_withMore (h : (d.step limit).1.bare ≠ .failed .tapeEmpty) (more : List Int) :
    (d.withMore more).step limit = ((d.step limit).1, (d.step limit).2.withMore more) := by
  unfold step at h ⊢
  rw [show (d.withMore more).state = d.state from rfl, show (d.withMore more).ticks = d.ticks from rfl]
  by_cases hhalted : d.state.halted = true
  · simp only [hhalted, if_true]
  · by_cases hspent : limit ≤ d.ticks
    · simp only [hhalted, hspent, if_true]
      rfl
    · simp only [hhalted, hspent, if_false] at h ⊢
      cases hcell : Address.ofInt? d.state.ip with
      | none => rfl
      | some address =>
        rw [hcell] at h
        exact obeyWord_withMore (d := { d with ticks := d.ticks + 1 }) h more

end Desk

theorem Ends.withMore {limit : Int} {d last : Desk} {n : Nat} {outcome : Outcome}
    (h : Ends (Desk.step limit) d n outcome last) (hread : outcome.bare ≠ .failed .tapeEmpty)
    (more : List Int) : Ends (Desk.step limit) (d.withMore more) n outcome (last.withMore more) := by
  have hstep {s t u : Desk} {o : Outcome} (hrel : u = s.withMore more) (hs : s.step limit = (o, t))
      (ho : o.bare ≠ .failed .tapeEmpty) : ∃ v, u.step limit = (o, v) ∧ v = t.withMore more := by
    have hmore := Desk.step_withMore (by rw [hs]; exact ho) more
    rw [hs] at hmore
    exact ⟨_, hrel ▸ hmore, rfl⟩
  have hrunning : Outcome.running.bare ≠ .failed .tapeEmpty := by simp [Outcome.bare]
  obtain ⟨v, hends, rfl⟩ := h.transfer (R := fun s u => u = s.withMore more)
    (P := fun o => o.bare ≠ .failed .tapeEmpty) hrunning hstep hread rfl
  exact hends

namespace Machine

variable {limit : Int64} {image : Memory} {xs : List Word}

theorem WorksAt.numbers_written {limit : Int} {m : Machine} {d : Desk} (h : m.WorksAt limit d) :
    Tape.numbers m.tape.written = .ok (d.outTray.map Int16.ofInt) := by
  obtain ⟨values, htook, hvalues⟩ := h.tape.outTray
  have hwords : (values.map Int16.toInt).map Int16.ofInt = values := by
    rw [List.map_map]
    exact List.map_id'' Int16.ofInt_toInt values
  rw [htook.written, Tape.numbers_lines, hvalues, hwords]

theorem checking_append (hlimit : 0 < limit)
    (hread : (checking limit image xs).run.1.bare ≠ .failed .tapeEmpty) (ys : List Word) :
    (checking limit image (xs ++ ys)).run.1 = (checking limit image xs).run.1 ∧
      Tape.numbers (checking limit image (xs ++ ys)).run.2.tape.written =
        Tape.numbers (checking limit image xs).run.2.tape.written := by
  have hpos : 0 < limit.toInt := Int64.lt_iff_toInt_lt.mp hlimit
  obtain ⟨n, d, hends, hworks⟩ := (worksAt_checking limit image xs).run hpos
  obtain ⟨n', d', hends', hworks'⟩ := (worksAt_checking limit image (xs ++ ys)).run hpos
  have hstart : Desk.start image ((xs ++ ys).map Int16.toInt) =
      (Desk.start image (xs.map Int16.toInt)).withMore (ys.map Int16.toInt) := by
    rw [List.map_append]
    rfl
  rw [hstart] at hends'
  obtain ⟨-, houtcome, rfl⟩ := hends'.unique (hends.withMore hread _)
  refine ⟨houtcome, ?_⟩
  rw [hworks'.numbers_written, hworks.numbers_written]
  rfl

theorem run_eq_of_bare {m : Machine} (hlimit : 0 < m.maxTicks) {cause : Fault}
    (h : m.run.1.bare = .failed cause) : ∃ ip word, m.run.1 = .failed (.running ip word cause) := by
  cases hrun : m.run.1 with
  | running =>
    rw [hrun] at h
    cases h
  | halted =>
    rw [hrun] at h
    cases h
  | failed fault =>
    obtain ⟨ip, word, found, rfl⟩ := run_failed hlimit hrun
    rw [hrun] at h
    cases h
    exact ⟨ip, word, rfl⟩

end Machine

/-- A program that does not run out of input gives the same with more input behind it, be it output, a fault
of its source, or a fault at an instruction. -/
theorem runSource_append_unread (maxTicks : Int64) (source : Text) (xs ys : List Word)
    (h : ∀ ip word, runSource maxTicks source xs ≠ .error (.running ip word .tapeEmpty)) :
    runSource maxTicks source (xs ++ ys) = runSource maxTicks source xs := by
  cases hcompile : compile source with
  | error fault =>
    rw [runSource, runSource, hcompile]
    rfl
  | ok image =>
    rw [runSource_of_compile hcompile] at h ⊢
    rw [runSource_of_compile hcompile]
    have hlimit : 0 < (if 0 < maxTicks then maxTicks else defaultTicks) := by
      split
      · assumption
      · decide
    dsimp only at h ⊢
    generalize (if 0 < maxTicks then maxTicks else defaultTicks) = limit at *
    have hread : (Machine.checking limit image xs).run.1.bare ≠ .failed .tapeEmpty := by
      intro hempty
      obtain ⟨ip, word, hfailed⟩ := Machine.run_eq_of_bare (m := .checking limit image xs) hlimit hempty
      apply h ip word
      rw [show (Machine.checking limit image xs).run = (_, _) from Prod.ext hfailed rfl]
    obtain ⟨houtcome, hnumbers⟩ := Machine.checking_append hlimit hread ys
    rcases hshort : (Machine.checking limit image xs).run with ⟨outcome, last⟩
    rcases hlong : (Machine.checking limit image (xs ++ ys)).run with ⟨longer, lastOfLonger⟩
    rw [hshort, hlong] at houtcome hnumbers
    obtain rfl : longer = outcome := houtcome
    cases longer with
    | running => exact hnumbers
    | halted => exact hnumbers
    | failed fault => rfl

/-- Reads a number and writes it. -/
def echo : Text := utf8 "INP\nOUT\nHLT\n"

theorem echo_leaves_rest_unread :
    (∀ ip word, runSource 5 echo [7] ≠ .error (.running ip word .tapeEmpty)) ∧
      runSource 5 echo ([7] ++ [-8, 9]) = .ok [7] := by
  have hlexed : Source.Lexed 1 (Source.wordLines echo) _ :=
    .cons (.cons (.mnemonic .input) .nil) (.cons (.cons (.mnemonic .output) .nil)
      (.cons (.cons (.mnemonic .halt) .nil) (.cons .nil (.nil 5))))
  have hcompile : compile echo = .ok (Memory.ofWords [901, 902, 0]) := by
    rw [compile, Source.image_of_shapes {} hlexed]
    · exact Memory.assemble_of_encode (.cons (Command.encode_instruction .input)
        (.cons (Command.encode_instruction .output) (.cons (Command.encode_instruction .halt) .nil)))
    · simp only [List.forall_mem_cons]
      exact ⟨.alone (by decide), .alone (by decide), .alone (by decide), .blank, by simp⟩
  have hdesk : Ends (Desk.step 5) (Desk.start (Memory.ofWords [901, 902, 0]) [7]) 2 .halted _ :=
    .more rfl (.more rfl (.last rfl (by simp)))
  obtain ⟨n, d, hends, hworks⟩ :=
    (Machine.worksAt_checking 5 (Memory.ofWords [901, 902, 0]) [7]).run (by decide)
  obtain ⟨-, houtcome, rfl⟩ := hends.unique hdesk
  have hresult : runSource 5 echo [7] = .ok [7] := by
    rw [runSource_of_compile hcompile]
    dsimp only
    rw [if_pos (by decide)]
    generalize (Machine.checking 5 (Memory.ofWords [901, 902, 0]) [7]).run = result at houtcome hworks ⊢
    obtain ⟨outcome, last⟩ := result
    obtain rfl : outcome = .halted := houtcome
    exact hworks.numbers_written
  have hread : ∀ ip word, runSource 5 echo [7] ≠ .error (.running ip word .tapeEmpty) := by
    simp [hresult]
  refine ⟨hread, ?_⟩
  rw [runSource_append_unread 5 echo [7] [-8, 9] hread, hresult]

end LittleMan
