import LittleMan.CommandLine
import LittleMan.Proofs.Files
import LittleMan.Proofs.Output
import LittleMan.Proofs.Reproduction

/-!
# What the driver has done

The driver keeps account of the files that it writes: whatever it says, opens and writes, the files it knows
of make the disk that it started from what it is now (`Work.At`).
-/

namespace LittleMan

namespace Disk

open CommandLine

/-- The disk with all that goes to an outlet written. -/
def put (disk : Disk) (outlet : Outlet) (content : Text) : Disk :=
  match outlet with
  | .file location => disk.write location content
  | _ => disk

end Disk

namespace CommandLine

/-! ### What the driver has done -/

namespace Work

/-- The driver has come so far from a disk: it has made it this one and left so much of the standard input,
and knows all the files that it has written. -/
structure At (work : Work) (origin disk : Disk) (stdin : Text) : Prop where
  disk_eq : work.disk = disk
  stdin_eq : work.stdin = stdin
  written_eq : origin.writeAll work.written = disk
  proper : ∀ file ∈ work.written, Disk.Proper file.1

variable {work : Work} {origin disk : Disk} {stdin : Text}

theorem at_start (disk : Disk) (stdin : Text) : At { disk, stdin } disk disk stdin :=
  ⟨rfl, rfl, rfl, by simp⟩

theorem At.home (h : work.At origin disk stdin) : disk.home = origin.home := by
  rw [← h.written_eq]
  exact Disk.home_writeAll origin work.written

theorem At.of_eq (h : work.At origin disk stdin) {other : Work} (hdisk : other.disk = work.disk)
    (hstdin : other.stdin = work.stdin) (hwritten : other.written = work.written) :
    other.At origin disk stdin :=
  ⟨hdisk.trans h.disk_eq, hstdin.trans h.stdin_eq, hwritten ▸ h.written_eq, hwritten ▸ h.proper⟩

theorem At.complain (h : work.At origin disk stdin) (text : Text) : (work.complain text).At origin disk stdin :=
  h.of_eq rfl rfl rfl

theorem At.print (h : work.At origin disk stdin) (text : Text) : (work.print text).At origin disk stdin :=
  h.of_eq rfl rfl rfl

theorem At.log (h : work.At origin disk stdin) (message : Text) : (work.log message).At origin disk stdin :=
  h.complain _

theorem At.logAll (h : work.At origin disk stdin) (messages : List Text) :
    (work.logAll messages).At origin disk stdin := by
  induction messages generalizing work with
  | nil => exact h
  | cons message messages ih => exact ih (h.log message)

theorem At.withStdin (h : work.At origin disk stdin) (left : Text) :
    At { work with stdin := left } origin disk left :=
  ⟨h.disk_eq, rfl, h.written_eq, h.proper⟩

theorem At.write (h : work.At origin disk stdin) {outlet : Outlet}
    (hproper : ∀ location, outlet = .file location → Disk.Proper location) (content : Text) :
    (work.write outlet content).At origin (disk.put outlet content) stdin := by
  cases outlet with
  | stream stream =>
    cases stream with
    | input => exact h
    | output => exact h.print content
    | errors => exact h.complain content
  | nowhere => exact h
  | file location =>
    refine ⟨congrArg (Disk.write · location content) h.disk_eq, h.stdin_eq, ?_, ?_⟩
    · change origin.writeAll (_ ++ [(location, content)]) = disk.write location content
      rw [Disk.writeAll_append, ← h.written_eq]
      exact Disk.writeAll_filter_write origin work.written location content
    · intro file hfile
      rcases List.mem_append.mp hfile with hbefore | hlast
      · exact h.proper file (List.mem_filter.mp hbefore).1
      · rw [List.mem_singleton.mp hlast]
        exact hproper location rfl

/-- The files that are left make the disk what it was at the end. -/
theorem At.finish (h : work.At origin disk stdin) (status : Nat) :
    origin.withFiles (work.finish status).written = disk := by
  rw [Disk.withFiles, Work.finish, List.map_map]
  refine Eq.trans (congrArg origin.writeAll ?_) h.written_eq
  refine (List.map_congr_left ?_).trans (List.map_id _)
  intro file hfile
  have hpath : origin.place (Disk.pathTo work.disk.home file.1) = file.1 := by
    rw [h.disk_eq, h.home]
    exact Disk.destination_pathTo origin.home (h.proper file hfile)
  exact Prod.ext hpath rfl

/-- Opening a file goes by the disk and the standard input, and changes nothing but that. -/
theorem openFile_eq (work : Work) (path : Text) :
    work.openFile path =
      (Work.openFile { disk := work.disk, stdin := work.stdin } path).map fun opened =>
        (opened.1, { work with stdin := opened.2.stdin }) := by
  unfold openFile
  cases work.disk.readable path with
  | error fault => rfl
  | ok node =>
    cases node with
    | stream stream => cases stream <;> rfl
    | _ => rfl

theorem exists_of_openFile {path : Text} {reader : Reader}
    (h : Work.openFile { disk, stdin } path = .ok (reader, work)) : ∃ left, work = { disk, stdin := left } := by
  have hsame := openFile_eq { disk, stdin } path
  rw [h] at hsame
  exact ⟨_, congrArg Prod.snd (Except.ok.inj hsame)⟩

theorem createFile_eq (work : Work) (path : Text) :
    work.createFile path = Work.createFile { disk := work.disk } path := rfl

/-- What is written goes to a file if there is one or can be one. -/
theorem createFile_file_iff {path : Text} {location : Location} {writer : Writer} :
    Work.createFile { disk } path = .ok (.file location, writer) ↔
      path ≠ standard ∧ disk.creatable path = .ok location ∧ writer = {} ∧
        (disk.node location = .vacant ∨ ∃ content, disk.node location = .file content) := by
  unfold createFile
  by_cases hpath : path = standard
  · simp [hpath, pure, Except.pure]
  · cases hcreatable : disk.creatable path with
    | error fault => simp [hpath, bind, Except.bind]
    | ok place =>
      have hplace := (Disk.creatable_ok_iff.mp hcreatable).2
      constructor
      · intro h
        simp only [hpath, bind, Except.bind, pure, Except.pure, if_false] at h
        split at h <;> cases h
        · exact ⟨hpath, rfl, rfl, .inr ⟨_, ‹_›⟩⟩
        · exact ⟨hpath, rfl, rfl, .inl ‹_›⟩
        · exact absurd ‹_› hplace
      · rintro ⟨-, ⟨⟩, rfl, hvacant | ⟨content, hfile⟩⟩
        · simp [hpath, hvacant, bind, Except.bind, pure, Except.pure]
        · simp [hpath, hfile, bind, Except.bind, pure, Except.pure]

end Work

theorem place_of_createFile {disk : Disk} {path : Text} {location : Location} {writer : Writer}
    (h : Work.createFile { disk } path = .ok (.file location, writer)) : location = disk.place path :=
  Disk.locate_eq_place (Disk.creatable_ok_iff.mp (Work.createFile_file_iff.mp h).2.1).1

/-- The driver ends with a status and leaves a disk. -/
def Finished.Leaves (finished : Finished) (origin disk : Disk) (status : Nat) : Prop :=
  finished.status = status ∧ origin.withFiles finished.written = disk

/-- Two paths that are not those of one file. -/
def Apart (disk : Disk) (path other : Text) : Prop :=
  path = standard ∨ other = standard ∨ disk.place path ≠ disk.place other

section Stages

variable {work : Work} {origin disk : Disk} {stdin path : Text} {options : Options} {image : Memory}

theorem Work.At.leaves (h : work.At origin disk stdin) (status : Nat) :
    (work.finish status).Leaves origin disk status :=
  ⟨rfl, h.finish status⟩

theorem Work.At.fatal (h : work.At origin disk stdin) (message : Text) :
    (work.fatal message).Leaves origin disk 1 :=
  (h.log message).leaves 1

/-- Opening the tape goes by the disk and the standard input too. -/
theorem openTape_eq (work : Work) (options : Options) :
    openTape work options =
      (openTape { disk := work.disk, stdin := work.stdin } options).map fun opened =>
        (opened.1, { work with stdin := opened.2.stdin }) := by
  unfold openTape
  split
  · rfl
  · exact work.openFile_eq options.tapeInput

/-- On a disk that paths start from properly, an outlet is at a proper place. -/
theorem proper_of_createFile {outlet : Outlet} {writer : Writer} (hhome : Disk.Proper disk.home)
    (h : Work.createFile { disk } path = .ok (outlet, writer)) (location : Location)
    (houtlet : outlet = .file location) : Disk.Proper location := by
  rw [houtlet] at h
  rw [place_of_createFile h]
  exact Disk.proper_destination hhome path

/-- A file takes all that is written to it. -/
theorem put_of_createFile {outlet : Outlet} {writer : Writer}
    (h : Work.createFile { disk } path = .ok (outlet, writer)) (content : Text) :
    disk.put outlet (writer.write content).2.text = disk.put outlet content := by
  cases outlet with
  | stream stream => rfl
  | nowhere => rfl
  | file location =>
    rw [(Work.createFile_file_iff.mp h).2.2.1]
    simp [Writer.write, Writer.fitting, Writer.text]

theorem writeImage_ok_iff {output : Text} {after : Work} :
    writeImage work output image = .ok after ↔
      ∃ outlet writer, work.createFile output = .ok (outlet, writer) ∧
        (writer.write image.text).1 = none ∧ after = work.write outlet (writer.write image.text).2.text := by
  unfold writeImage
  cases hcreate : work.createFile output with
  | error fault => simp [bind, Except.bind]
  | ok created =>
    obtain ⟨outlet, writer⟩ := created
    rcases hwrite : writer.write image.text with ⟨_ | fault, after⟩
    · simp [bind, Except.bind, pure, Except.pure, hwrite, eq_comm]
    · simp [bind, Except.bind, throw, throwThe, MonadExceptOf.throw, hwrite]

theorem exists_of_openTape {reader : Reader}
    (h : openTape { disk, stdin } options = .ok (reader, work)) :
    ∃ left, work = { disk, stdin := left } := by
  have hsame := openTape_eq { disk, stdin } options
  rw [h] at hsame
  exact ⟨_, congrArg Prod.snd (Except.ok.inj hsame)⟩

theorem Work.At.writeRun (h : work.At origin disk stdin) {outlet : Outlet}
    (hproper : ∀ location, outlet = .file location → Disk.Proper location) (machine : Machine) :
    (writeRun work outlet machine).At origin (disk.put outlet machine.tape.written) stdin := by
  unfold CommandLine.writeRun
  dsimp only
  split
  · next herrors =>
    rw [herrors.1]
    change At _ origin disk stdin
    generalize machine.trace.toList = trace
    induction trace generalizing work with
    | nil => exact h
    | cons entry trace ih =>
      rw [List.foldl_cons]
      apply ih
      split
      · exact (h.log _).complain _
      · exact h.log _
  · exact (h.logAll _).write hproper _

/-! ### A run and its end -/

/-- The status that an outcome is reported with. -/
def outcomeStatus : Outcome → Nat
  | .failed _ => 1
  | _ => 0

theorem runImage_eq (work : Work) (options : Options) (image : Memory) (reader : Reader) (outlet : Outlet)
    (writer : Writer) :
    runImage work options image reader outlet writer =
      conclude work outlet
        (runConnected (isLooped { disk := work.disk } options outlet) options image reader writer) := by
  rfl

theorem runStage_of_unopened {fault : Fault}
    (hopen : openTape { disk := work.disk, stdin := work.stdin } options = .error fault) :
    runStage work options image = work.fatalAbout options.tapeInput fault := by
  rw [runStage, openTape_eq, hopen]
  rfl

theorem runStage_of_uncreated {reader : Reader} {left : Text} {fault : Fault}
    (hopen : openTape { disk := work.disk, stdin := work.stdin } options =
      .ok (reader, { disk := work.disk, stdin := left }))
    (hcreate : Work.createFile { disk := work.disk } options.tapeOutput = .error fault) :
    runStage work options image = Work.fatalAbout { work with stdin := left } options.tapeOutput fault := by
  have hcreated : Work.createFile { work with stdin := left } options.tapeOutput = .error fault := by
    rw [Work.createFile_eq, hcreate]
  rw [runStage, openTape_eq, hopen]
  simp only [Except.map]
  rw [hcreated]

theorem runStage_of_created {reader : Reader} {left : Text} {outlet : Outlet} {writer : Writer}
    (hopen : openTape { disk := work.disk, stdin := work.stdin } options =
      .ok (reader, { disk := work.disk, stdin := left }))
    (hcreate : Work.createFile { disk := work.disk } options.tapeOutput = .ok (outlet, writer)) :
    runStage work options image =
      runImage { work with stdin := left } options image reader outlet writer := by
  have hcreated : Work.createFile { work with stdin := left } options.tapeOutput = .ok (outlet, writer) := by
    rw [Work.createFile_eq, hcreate]
  rw [runStage, openTape_eq, hopen]
  simp only [Except.map]
  rw [hcreated]

theorem runImage_of_not_looped {reader : Reader} {outlet : Outlet} {writer : Writer}
    (h : isLooped { disk := work.disk } options outlet = false) :
    runImage work options image reader outlet writer =
      conclude work outlet (connected options image reader writer).run := by
  rw [runImage_eq, h, runConnected, if_neg Bool.false_ne_true, if_neg Bool.false_ne_true]

theorem Work.At.conclude (h : work.At origin disk stdin) {outlet : Outlet}
    (hproper : ∀ location, outlet = .file location → Disk.Proper location) (result : Outcome × Machine) :
    (conclude work outlet result).Leaves origin (disk.put outlet result.2.tape.written)
      (outcomeStatus result.1) := by
  have hwork := h.writeRun hproper result.2
  obtain ⟨outcome, machine⟩ := result
  cases outcome with
  | running => exact hwork.leaves 0
  | halted => exact hwork.leaves 0
  | failed fault => exact hwork.fatal _

theorem isLooped_of_apart {outlet : Outlet} {writer : Writer}
    (hapart : Apart disk options.tapeInput options.tapeOutput)
    (hcreate : Work.createFile { disk } options.tapeOutput = .ok (outlet, writer)) :
    isLooped { disk } options outlet = false := by
  unfold isLooped
  rw [Bool.and_eq_false_iff]
  by_cases hinput : options.tapeInput = standard
  · left
    simp [hinput]
  · right
    split
    · next location other hlocate =>
      have hstandard := (Work.createFile_file_iff.mp hcreate).1
      have hplaces := (hapart.resolve_left hinput).resolve_left hstandard
      rw [place_of_createFile hcreate, Disk.locate_eq_place hlocate]
      simpa using hplaces.symm
    · rfl

end Stages

end CommandLine

end LittleMan
