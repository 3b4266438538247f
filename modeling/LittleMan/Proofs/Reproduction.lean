import LittleMan.Proofs.Invariant

/-!
# Runs that can be repeated

A machine that is loaded, given a limit and connected anew runs as one that was never used, whatever has
been done to it before: with `Deed` that is anything that its user can do. Two things carry this. What a
verbose machine notes down is only written (`tick_quiet`), so it can be left out of the comparison. And
no instruction reaches the image, so a reset brings back what was loaded.
-/

namespace LittleMan

namespace Tape

variable (tape : Tape)

theorem rewind_setInput (reader : Option Reader) :
    (tape.setInput reader).rewind = tape.rewind.setInput reader := by
  rcases tape with ⟨_ | _ | _, _ | _, _⟩ <;> cases reader <;> rfl

theorem rewind_setOutput (writer : Option Writer) :
    (tape.setOutput writer).rewind = tape.rewind.setOutput writer := by
  rcases tape with ⟨_ | _ | _, _ | _, _⟩ <;> rfl

theorem scanner_rewind : tape.rewind.scanner = none := by
  rcases tape with ⟨_ | _ | _, _ | _, _⟩ <;> rfl

/-- A tape that is rewound and connected anew has nothing left of what was read ahead. -/
theorem rewind_connected (reader : Reader) (writer : Writer) :
    (tape.rewind.setInput (some reader)).setOutput (some writer) =
      { input := .loaded reader, output := some writer } := by
  simp only [setInput, setOutput, scanner_rewind]

end Tape

namespace Machine

/-! ### Without notes -/

/-- The machine without its notes. -/
def quiet (m : Machine) : Machine := { m with verbose := false, trace := #[] }

/-- Two results that differ in nothing but notes. -/
def Alike (result other : Outcome × Machine) : Prop :=
  result.1 = other.1 ∧ result.2.quiet = other.2.quiet

theorem Alike.written {result other : Outcome × Machine} (h : Alike result other) :
    result.2.tape.written = other.2.tape.written := by
  change result.2.quiet.tape.written = other.2.quiet.tape.written
  rw [h.2]

theorem tick_quiet (m : Machine) : m.quiet.tick = (m.tick.1, m.tick.2.quiet) := by
  have hsame : m.quiet.word? = m.word? := rfl
  cases hword : m.word? with
  | none =>
    rw [tick_of_no_word (hsame.trans hword), tick_of_no_word hword]
    rfl
  | some word =>
    obtain ⟨himage, hticks, hmax, -, -⟩ := frame_tick_of_word hword
    have hobey := (tick_of_word hword).1
    exact tick_eq_of_obeyWord (hsame.trans hword) hobey.symm himage hticks hmax rfl rfl

theorem runFor_quiet (count : Nat) (m : Machine) :
    runFor count m.quiet = ((runFor count m).1, (runFor count m).2.quiet) := by
  induction count generalizing m with
  | zero => rfl
  | succ count ih =>
    rw [runFor, runFor, tick_quiet]
    rcases m.tick with ⟨outcome, after⟩
    cases outcome with
    | running => exact ih after
    | halted => rfl
    | failed fault => rfl

theorem alike_runFor {m other : Machine} (h : m.quiet = other.quiet) (count : Nat) :
    Alike (runFor count m) (runFor count other) := by
  have hrun := runFor_quiet count m
  rw [h, runFor_quiet count other] at hrun
  exact ⟨(congrArg Prod.fst hrun).symm, (congrArg Prod.snd hrun).symm⟩

theorem alike_run {m other : Machine} (h : m.quiet = other.quiet) : Alike m.run other.run := by
  have hbudget : m.budget = other.budget := by
    change m.quiet.budget = other.quiet.budget
    rw [h]
  unfold run
  rw [hbudget]
  exact alike_runFor h other.budget

/-- No tick reaches the image or the limit. -/
theorem frame_tick (m : Machine) : m.tick.2.image = m.image ∧ m.tick.2.maxTicks = m.maxTicks := by
  refine ⟨?_, maxTicks_tick m⟩
  cases hword : m.word? with
  | none => rw [tick_of_no_word hword]
  | some word => exact (frame_tick_of_word hword).1

theorem frame_runFor (count : Nat) (m : Machine) :
    (runFor count m).2.image = m.image ∧ (runFor count m).2.maxTicks = m.maxTicks := by
  apply runFor_keeps (P := fun after => after.image = m.image ∧ after.maxTicks = m.maxTicks)
  · intro after hafter
    have hframe := frame_tick after
    exact ⟨hframe.1.trans hafter.1, hframe.2.trans hafter.2⟩
  · exact ⟨rfl, rfl⟩

/-! ### What a user can do -/

/-- What the user of a machine can do: load, reset, tick and run it, assign to its fields, and use the tape.
Only the halting flag and the tape's scanner are out of reach. -/
inductive Deed where
  | load (image : Option Memory)
  | reset
  | tick
  | run
  | setImage (image : Option Memory)
  | setMemory (memory : Memory)
  | setAccumulator (value : Word)
  | setIp (ip : Int)
  | setTicks (ticks : Int64)
  | setMaxTicks (limit : Int64)
  | setVerbose (verbose : Bool)
  | setInput (reader : Option Reader)
  | setOutput (writer : Option Writer)
  | rewind
  | receive
  | send (value : Word)

/-- The machine after a deed, whether or not that failed. -/
def handle (m : Machine) : Deed → Machine
  | .load image => m.load image
  | .reset => m.reset
  | .tick => m.tick.2
  | .run => m.run.2
  | .setImage image => { m with image }
  | .setMemory memory => { m with memory }
  | .setAccumulator value => { m with accumulator := value }
  | .setIp ip => { m with ip }
  | .setTicks ticks => { m with ticks }
  | .setMaxTicks limit => { m with maxTicks := limit }
  | .setVerbose verbose => { m with verbose }
  | .setInput reader => { m with tape := m.tape.setInput reader }
  | .setOutput writer => { m with tape := m.tape.setOutput writer }
  | .rewind => { m with tape := m.tape.rewind }
  | .receive => { m with tape := m.tape.receive.2 }
  | .send value => { m with tape := (m.tape.send value).2 }

/-- The machine after deeds that are done one after the other. -/
def handleAll (m : Machine) (deeds : List Deed) : Machine := deeds.foldl handle m

/-- A machine at the start of an image, just connected. -/
def poised (image : Option Memory) (limit : Int64) (reader : Reader) (writer : Writer) : Machine where
  image := image
  memory := image.getD .zero
  maxTicks := limit
  tape := { input := .loaded reader, output := some writer }

/-- Setting a limit and connecting the tape, in their order. -/
def settings (limit : Int64) (reader : Option Reader) (writer : Option Writer) : List Deed :=
  [.setMaxTicks limit, .setInput reader, .setOutput writer]

section Settings

variable {limit : Int64} {reader : Option Reader} {writer : Option Writer} {deed other start : Deed}

theorem handle_settings_comm (m : Machine) (hdeed : deed ∈ settings limit reader writer)
    (hother : other ∈ settings limit reader writer) :
    (m.handle deed).handle other = (m.handle other).handle deed := by
  simp only [settings, List.mem_cons, List.not_mem_nil, or_false] at hdeed hother
  rcases hdeed with rfl | rfl | rfl <;> rcases hother with rfl | rfl | rfl <;> rfl

theorem reset_handle (m : Machine) (hdeed : deed ∈ settings limit reader writer) :
    (m.handle deed).reset = m.reset.handle deed := by
  simp only [settings, List.mem_cons, List.not_mem_nil, or_false] at hdeed
  rcases hdeed with rfl | rfl | rfl
  · rfl
  · simp only [handle, reset, Tape.rewind_setInput]
  · simp only [handle, reset, Tape.rewind_setOutput]

theorem load_handle (m : Machine) (image : Option Memory) (hdeed : deed ∈ settings limit reader writer) :
    (m.handle deed).load image = (m.load image).handle deed := by
  have himage : { m.handle deed with image } = handle { m with image } deed := by
    simp only [settings, List.mem_cons, List.not_mem_nil, or_false] at hdeed
    rcases hdeed with rfl | rfl | rfl <;> rfl
  unfold load
  rw [himage, reset_handle _ hdeed]

/-- Going back to the start and the settings can be done in any order. -/
theorem handle_comm (m : Machine) (hstart : start = .reset ∨ ∃ image, start = .load image)
    (hdeed : deed ∈ start :: settings limit reader writer)
    (hother : other ∈ start :: settings limit reader writer) :
    (m.handle deed).handle other = (m.handle other).handle deed := by
  have hafter {setting : Deed} (h : setting ∈ settings limit reader writer) :
      (m.handle setting).handle start = (m.handle start).handle setting := by
    rcases hstart with rfl | ⟨image, rfl⟩
    · exact reset_handle m h
    · exact load_handle m image h
  rcases List.mem_cons.mp hdeed with rfl | hsetting
  · rcases List.mem_cons.mp hother with rfl | hsetting
    · rfl
    · exact (hafter hsetting).symm
  · rcases List.mem_cons.mp hother with rfl | hsetting'
    · exact hafter hsetting
    · exact handle_settings_comm m hsetting hsetting'

end Settings

section Preparation

variable {m : Machine} {deeds : List Deed} {image : Option Memory} {limit : Int64} {reader : Reader}
  {writer : Writer}

theorem quiet_of_load
    (hdeeds : deeds.Perm (.load image :: settings limit (some reader) (some writer))) :
    (m.handleAll deeds).quiet = poised image limit reader writer := by
  have horder : m.handleAll deeds =
      m.handleAll (.load image :: settings limit (some reader) (some writer)) := by
    apply hdeeds.foldl_eq'
    intro deed hdeed other hother between
    exact handle_comm between (.inr ⟨image, rfl⟩) (hdeeds.subset hdeed) (hdeeds.subset hother)
  have htape := m.tape.rewind_connected reader writer
  rw [horder]
  simp only [handleAll, settings, List.foldl_cons, List.foldl_nil, handle, load, reset, htape]
  rfl

/-- A reset keeps the limit, so that is not set again. -/
theorem quiet_of_reset
    (hdeeds : deeds.Perm [.reset, .setInput (some reader), .setOutput (some writer)]) :
    (m.handleAll deeds).quiet = poised m.image m.maxTicks reader writer := by
  have hsubset : [Deed.reset, .setInput (some reader), .setOutput (some writer)] ⊆
      .reset :: settings m.maxTicks (some reader) (some writer) :=
    List.cons_subset_cons _ (List.subset_cons_self _ _)
  have horder : m.handleAll deeds =
      m.handleAll [.reset, .setInput (some reader), .setOutput (some writer)] := by
    apply hdeeds.foldl_eq'
    intro deed hdeed other hother between
    exact handle_comm between (.inl rfl) (hsubset (hdeeds.subset hdeed)) (hsubset (hdeeds.subset hother))
  have htape := m.tape.rewind_connected reader writer
  rw [horder]
  simp only [handleAll, List.foldl_cons, List.foldl_nil, handle, reset, htape]
  rfl

end Preparation

/-- Whatever has been done to a machine, if it is then loaded, given a limit and connected, in any order, it
runs as a new machine does: it ends alike, and so it does after any number of ticks. If it is then reset and
connected again, at the end of the run or after any number of ticks, the run repeats itself. With a limit that is
not positive, the run is the one that is broken off after the ticks of its budget; what is said about any number of
ticks goes beyond them. -/
theorem runs_alike_after_any_history (history : List Deed) (image : Option Memory) (limit : Int64)
    (reader : Reader) (writer : Writer) {setup again : List Deed}
    (hsetup : setup.Perm
      [.load image, .setMaxTicks limit, .setInput (some reader), .setOutput (some writer)])
    (hagain : again.Perm [.reset, .setInput (some reader), .setOutput (some writer)]) :
    let fresh : Machine := handleAll {} setup
    let used : Machine := (handleAll {} history).handleAll setup
    Alike used.run fresh.run ∧
      Alike (used.run.2.handleAll again).run fresh.run ∧
      ∀ count, Alike (runFor count used) (runFor count fresh) ∧
        ∀ more, Alike (runFor more ((runFor count used).2.handleAll again)) (runFor more fresh) := by
  intro fresh used
  have hfresh : fresh.quiet = poised image limit reader writer := quiet_of_load hsetup
  have hused : used.quiet = fresh.quiet := (quiet_of_load hsetup).trans hfresh.symm
  have hrepeated (count : Nat) : ((runFor count used).2.handleAll again).quiet = fresh.quiet := by
    have hframe := frame_runFor count used
    have himage : used.image = image := congrArg Machine.image (hused.trans hfresh)
    have hlimit : used.maxTicks = limit := congrArg Machine.maxTicks (hused.trans hfresh)
    rw [quiet_of_reset hagain, hframe.1, hframe.2, himage, hlimit, hfresh]
  refine ⟨alike_run hused, alike_run (hrepeated used.budget), fun count => ⟨alike_runFor hused count, ?_⟩⟩
  intro more
  exact alike_runFor (hrepeated count) more

/-- A user who has a verbose machine write until it runs out of ticks, with input that is left unread. -/
def spending : List Deed :=
  [.setVerbose true, .load (some (Memory.ofWords [902, 600])), .setInput (some { pending := utf8 "1 2 3" }),
    .setOutput (some {}), .setMaxTicks 9, .receive, .run]

/-- Writes a seven. -/
def seven : Memory := Memory.ofWords [503, 902, 0, 7]

/-- Connects the tape before the image is loaded, and sets the limit after it. -/
def preparing : List Deed :=
  [.setInput (some { pending := [] }), .setOutput (some {}), .load (some seven), .setMaxTicks 3]

/-- Connects the output before a reset, and the input after it. -/
def repeating : List Deed := [.setOutput (some {}), .reset, .setInput (some { pending := [] })]

theorem seven_after_spending :
    preparing.Perm
        [.load (some seven), .setMaxTicks 3, .setInput (some { pending := [] }), .setOutput (some {})] ∧
      repeating.Perm [.reset, .setInput (some { pending := [] }), .setOutput (some {})] ∧
      ((handleAll {} spending).handleAll preparing).run.1 = .halted ∧
      ((handleAll {} spending).handleAll preparing).run.2.tape.written = utf8 "7\n" ∧
      (((handleAll {} spending).handleAll preparing).run.2.handleAll repeating).run.1 = .halted ∧
      (((handleAll {} spending).handleAll preparing).run.2.handleAll repeating).run.2.tape.written =
        utf8 "7\n" := by
  have hsetup : preparing.Perm
      [.load (some seven), .setMaxTicks 3, .setInput (some { pending := [] }), .setOutput (some {})] :=
    @List.perm_append_comm _ [_, _] [_, _]
  have hagain : repeating.Perm [.reset, .setInput (some { pending := [] }), .setOutput (some {})] :=
    @List.perm_append_comm _ [_] [_, _]
  obtain ⟨hfirst, hsecond, -⟩ := runs_alike_after_any_history spending _ _ _ _ hsetup hagain
  refine ⟨hsetup, hagain, ?_, ?_, ?_, ?_⟩
  · rw [hfirst.1]
    decide
  · rw [hfirst.written]
    decide
  · rw [hsecond.1]
    decide
  · rw [hsecond.written]
    decide

end Machine

end LittleMan
