import LittleMan.Proofs.Driver
import LittleMan.Proofs.Image

/-!
# Running an image that was written

Assembling a source and running its image does what loading the image that was written and running that
does. The two runs say the same, and the first has written the image before (`Work.Follows`). They find
different disks: on the second the tape of the first has been written, so a tape that is read from the file
it goes to has other contents, but such a tape starts out empty anyway.
-/

namespace LittleMan.CommandLine

/-! ### Work behind other work -/

/-- Both have read and said the same from the same directory, and the one has written files before it wrote
those of the other. -/
structure Work.Follows (home : Location) (before : List (Location × Text)) (work other : Work) : Prop where
  work_home : work.disk.home = home
  other_home : other.disk.home = home
  stdin : work.stdin = other.stdin
  stdout : work.stdout = other.stdout
  stderr : work.stderr = other.stderr
  written : work.written = before ++ other.written

/-- Both ended alike, and the one left files before those of the other. -/
structure Finished.Follows (home : Location) (before : List (Location × Text)) (finished other : Finished) :
    Prop where
  status : finished.status = other.status
  stdout : finished.stdout = other.stdout
  stderr : finished.stderr = other.stderr
  written : finished.written = before.map (fun file => (Disk.pathTo home file.1, file.2)) ++ other.written

namespace Work.Follows

variable {home : Location} {before : List (Location × Text)} {work other : Work}

theorem complain (h : Follows home before work other) (text : Text) :
    Follows home before (work.complain text) (other.complain text) :=
  { h with stderr := by rw [Work.complain, Work.complain, h.stderr] }

theorem print (h : Follows home before work other) (text : Text) :
    Follows home before (work.print text) (other.print text) :=
  { h with stdout := by rw [Work.print, Work.print, h.stdout] }

theorem log (h : Follows home before work other) (message : Text) :
    Follows home before (work.log message) (other.log message) :=
  h.complain _

theorem logAll (h : Follows home before work other) (messages : List Text) :
    Follows home before (work.logAll messages) (other.logAll messages) := by
  induction messages generalizing work other with
  | nil => exact h
  | cons message messages ih => exact ih (h.log message)

theorem write (h : Follows home before work other) {outlet : Outlet}
    (hapart : ∀ file ∈ before, outlet ≠ .file file.1) (content : Text) :
    Follows home before (work.write outlet content) (other.write outlet content) := by
  cases outlet with
  | stream stream =>
    cases stream with
    | input => exact h
    | output => exact h.print content
    | errors => exact h.complain content
  | nowhere => exact h
  | file location =>
    have hbefore : before.filter (fun file => file.1 != location) = before := by
      rw [List.filter_eq_self]
      intro file hfile
      have hother : file.1 ≠ location := fun hsame => hapart file hfile (congrArg Outlet.file hsame.symm)
      simpa using hother
    refine { h with written := ?_ }
    change work.written.filter _ ++ _ = before ++ (other.written.filter _ ++ _)
    rw [h.written, List.filter_append, hbefore, List.append_assoc]

theorem writeRun (h : Follows home before work other) {outlet : Outlet}
    (hapart : ∀ file ∈ before, outlet ≠ .file file.1) (machine : Machine) :
    Follows home before (writeRun work outlet machine) (writeRun other outlet machine) := by
  unfold CommandLine.writeRun
  dsimp only
  split
  · generalize machine.trace.toList = trace
    induction trace generalizing work other with
    | nil => exact h
    | cons entry trace ih =>
      rw [List.foldl_cons, List.foldl_cons]
      apply ih
      split
      · exact (h.log _).complain _
      · exact h.log _
  · exact (h.logAll _).write hapart _

theorem finish (h : Follows home before work other) (status : Nat) :
    Finished.Follows home before (work.finish status) (other.finish status) := by
  refine ⟨rfl, congrArg Array.toList h.stdout, congrArg Array.toList h.stderr, ?_⟩
  change List.map _ work.written = _ ++ List.map _ other.written
  rw [h.work_home, h.other_home, h.written, List.map_append]

theorem fatal (h : Follows home before work other) (message : Text) :
    Finished.Follows home before (work.fatal message) (other.fatal message) :=
  (h.log message).finish 1

theorem conclude (h : Follows home before work other) {outlet : Outlet}
    (hapart : ∀ file ∈ before, outlet ≠ .file file.1) (result : Outcome × Machine) :
    Finished.Follows home before (conclude work outlet result) (conclude other outlet result) := by
  have hrun := h.writeRun hapart result.2
  obtain ⟨outcome, machine⟩ := result
  cases outcome with
  | running => exact hrun.finish 0
  | halted => exact hrun.finish 0
  | failed fault => exact hrun.fatal _

end Work.Follows

/-! ### Disks with a tape -/

/-- A disk after a run whose tape could be opened: with the file of the tape written, if it goes to one. -/
inductive Retaped (disk : Disk) (stdin : Text) (options : Options) : Disk → Prop where
  | same : Retaped disk stdin options disk
  | written {reader : Reader} {left : Text} {location : Location}
    (hopen : openTape { disk, stdin } options = .ok (reader, { disk, stdin := left }))
    (hcreate : Work.createFile { disk } options.tapeOutput = .ok (.file location, {})) (content : Text) :
    Retaped disk stdin options (disk.write location content)

section Retaping

variable {work : Work} {origin disk other : Disk} {stdin left path : Text} {options : Options}
  {location : Location} {reader : Reader} {image : Memory}

theorem openFile_of_file {content : Text} (h : disk.readable path = .ok (.file content)) :
    Work.openFile { disk, stdin } path = .ok ({ pending := content }, { disk, stdin }) := by
  unfold Work.openFile
  simp [h, bind, Except.bind, pure, Except.pure]

theorem readable_of_openFile (h : Work.openFile { disk, stdin } path = .ok (reader, work)) :
    ∃ node, disk.readable path = .ok node := by
  unfold Work.openFile at h
  cases hnode : disk.readable path with
  | error fault => simp [hnode, bind, Except.bind] at h
  | ok node => exact ⟨node, rfl⟩

theorem openFile_of_readable (hsame : other.readable path = disk.readable path)
    (h : Work.openFile { disk, stdin } path = .ok (reader, { disk, stdin := left })) :
    Work.openFile { disk := other, stdin } path = .ok (reader, { disk := other, stdin := left }) := by
  obtain ⟨node, hnode⟩ := readable_of_openFile h
  unfold Work.openFile at h ⊢
  simp only [hsame, hnode, bind, Except.bind, pure, Except.pure] at h ⊢
  cases node with
  | stream stream => cases stream <;> cases h <;> rfl
  | _ => cases h; rfl

/-- A tape that could be opened can be opened again when its file has been written. It gives the same, unless
it is read from the very file that it goes to. -/
theorem openTape_again (hopen : openTape { disk, stdin } options = .ok (reader, { disk, stdin := left }))
    (hcreate : Work.createFile { disk } options.tapeOutput = .ok (.file location, {})) (content : Text) :
    isLooped { disk := disk.write location content } options (.file location) =
        isLooped { disk } options (.file location) ∧
      ∃ reader', openTape { disk := disk.write location content, stdin } options =
          .ok (reader', { disk := disk.write location content, stdin := left }) ∧
        (isLooped { disk } options (.file location) = true ∨ reader = reader') := by
  obtain ⟨-, hcreatable, -, hholds⟩ := Work.createFile_file_iff.mp hcreate
  have hdirectories : disk.SameDirectories (disk.write location content) :=
    Disk.sameDirectories_write (Disk.creatable_ok_iff.mp hcreatable).2 content
  by_cases hinput : options.tapeInput = standard
  · rw [openTape, if_pos hinput] at hopen ⊢
    cases hopen
    refine ⟨?_, _, rfl, .inr rfl⟩
    simp [isLooped, hinput]
  · rw [openTape, if_neg hinput] at hopen ⊢
    obtain ⟨node, hnode⟩ := readable_of_openFile hopen
    obtain ⟨place, hlocate, hplace, hthere⟩ := Disk.readable_ok_iff.mp hnode
    have hlocate' := hdirectories.locate.mpr hlocate
    refine ⟨by simp only [isLooped, hlocate, hlocate'], ?_⟩
    by_cases hsame : place = location
    · subst hsame
      obtain hvacant | ⟨old, hold⟩ := hholds
      · exact absurd (hplace.symm.trans hvacant) hthere
      · have hsecond : (disk.write place content).readable options.tapeInput = .ok (.file content) := by
          rw [Disk.readable_ok_iff]
          exact ⟨place, hlocate', if_pos rfl, nofun⟩
        have hfirst : disk.readable options.tapeInput = .ok (.file old) := by rw [hnode, ← hplace, hold]
        rw [openFile_of_file hfirst] at hopen
        cases hopen
        refine ⟨_, openFile_of_file hsecond, .inl ?_⟩
        simp [isLooped, hinput, hlocate]
    · have hsecond : (disk.write location content).readable options.tapeInput =
          disk.readable options.tapeInput := by
        rw [hnode, Disk.readable_ok_iff]
        exact ⟨place, hlocate', (if_neg hsame).trans hplace, hthere⟩
      exact ⟨reader, openFile_of_readable hsecond hopen, .inr rfl⟩

/-- What does not go to the tape is still there. -/
theorem Retaped.readable (h : Retaped disk stdin options other) {content : Text}
    (hlocate : disk.locate false path = .ok location) (hnode : disk.node location = .file content)
    (hapart : ∀ outlet writer, Work.createFile { disk } options.tapeOutput = .ok (outlet, writer) →
      outlet ≠ .file location) : other.readable path = .ok (.file content) := by
  rw [Disk.readable_ok_iff]
  cases h with
  | same => exact ⟨location, hlocate, hnode, nofun⟩
  | @written _ _ place _ hcreate _ =>
    obtain ⟨-, hcreatable, -, -⟩ := Work.createFile_file_iff.mp hcreate
    have hplace : location ≠ place := by
      rintro rfl
      exact hapart _ _ hcreate rfl
    refine ⟨location, ?_, (if_neg hplace).trans hnode, nofun⟩
    exact (Disk.sameDirectories_write (Disk.creatable_ok_iff.mp hcreatable).2 _).locate.mpr hlocate

theorem runStage_retaped (h : work.At origin disk stdin) (hhome : Disk.Proper disk.home) :
    Retaped disk stdin options (origin.withFiles (runStage work options image).written) := by
  obtain ⟨rfl, rfl⟩ := And.intro h.disk_eq h.stdin_eq
  cases hopen : openTape { disk := work.disk, stdin := work.stdin } options with
  | error fault =>
    rw [runStage_of_unopened hopen, Work.fatalAbout, (h.fatal _).2]
    exact .same
  | ok opened =>
    obtain ⟨reader, opened⟩ := opened
    obtain ⟨left, rfl⟩ := exists_of_openTape hopen
    have hopened := h.withStdin left
    cases hcreate : Work.createFile { disk := work.disk } options.tapeOutput with
    | error fault =>
      rw [runStage_of_uncreated hopen hcreate, Work.fatalAbout, (hopened.fatal _).2]
      exact .same
    | ok created =>
      obtain ⟨outlet, writer⟩ := created
      rw [runStage_of_created hopen hcreate, runImage_eq,
        (hopened.conclude (proper_of_createFile hhome hcreate) _).2]
      cases outlet with
      | stream stream => exact .same
      | nowhere => exact .same
      | file location =>
        obtain rfl := (Work.createFile_file_iff.mp hcreate).2.2.1
        exact .written hopen hcreate _

theorem runConnected_of_looped {looped : Bool} {reader' : Reader} {writer : Writer}
    (h : looped = true ∨ reader = reader') :
    runConnected looped options image reader writer = runConnected looped options image reader' writer := by
  obtain rfl | rfl := h
  · rfl
  · rfl

/-- A file that has been written can be created again. -/
theorem createFile_again (hcreate : Work.createFile { disk } path = .ok (.file location, {}))
    (content : Text) :
    Work.createFile { disk := disk.write location content } path = .ok (.file location, {}) := by
  obtain ⟨hstandard, hcreatable, -, -⟩ := Work.createFile_file_iff.mp hcreate
  obtain ⟨hlocate, hnode⟩ := Disk.creatable_ok_iff.mp hcreatable
  have hfile : (disk.write location content).node location = .file content := if_pos rfl
  rw [Work.createFile_file_iff, Disk.creatable_ok_iff, (Disk.sameDirectories_write hnode content).locate,
    hfile]
  exact ⟨hstandard, ⟨hlocate, nofun⟩, rfl, .inr ⟨content, rfl⟩⟩

end Retaping

/-- The same image runs alike on a disk and on one where its tape has been written. -/
theorem Work.Follows.runStage {home : Location} {before : List (Location × Text)} {work other : Work}
    {options : Options} (h : Follows home before work other)
    (hdisk : Retaped work.disk work.stdin options other.disk)
    (hapart : ∀ file ∈ before, ∀ outlet writer,
      Work.createFile { disk := work.disk } options.tapeOutput = .ok (outlet, writer) → outlet ≠ .file file.1)
    (image : Memory) :
    Finished.Follows home before (runStage work options image) (runStage other options image) := by
  have hleft (left : Text) : Follows home before { work with stdin := left } { other with stdin := left } :=
    { h with stdin := rfl }
  generalize hother : other.disk = disk at hdisk
  cases hdisk with
  | same =>
    have hopens : openTape { disk := other.disk, stdin := other.stdin } options =
        openTape { disk := work.disk, stdin := work.stdin } options := by rw [hother, h.stdin]
    cases hopen : openTape { disk := work.disk, stdin := work.stdin } options with
    | error fault =>
      rw [runStage_of_unopened hopen, runStage_of_unopened (hopens.trans hopen)]
      exact h.fatal _
    | ok opened =>
      obtain ⟨reader, opened⟩ := opened
      obtain ⟨left, rfl⟩ := exists_of_openTape hopen
      rw [hopen, ← hother] at hopens
      cases hcreate : Work.createFile { disk := work.disk } options.tapeOutput with
      | error fault =>
        rw [runStage_of_uncreated hopen hcreate, runStage_of_uncreated hopens (by rw [hother, hcreate])]
        exact (hleft left).fatal _
      | ok created =>
        obtain ⟨outlet, writer⟩ := created
        have hlooped : isLooped { disk := other.disk } options outlet =
            isLooped { disk := work.disk } options outlet := by rw [hother]
        rw [runStage_of_created hopen hcreate, runStage_of_created hopens (by rw [hother, hcreate]),
          runImage_eq, runImage_eq, hlooped]
        exact (hleft left).conclude (fun file hfile => hapart file hfile _ _ hcreate) _
  | @written reader left location hopen hcreate content =>
    obtain ⟨hlooped, reader', hopen', hreader⟩ := openTape_again hopen hcreate content
    have hcreate' := createFile_again hcreate content
    rw [← hother] at hlooped hopen' hcreate'
    rw [h.stdin] at hopen'
    rw [runStage_of_created hopen hcreate, runStage_of_created hopen' hcreate', runImage_eq, runImage_eq,
      hlooped, runConnected_of_looped hreader]
    exact (hleft left).conclude (fun file hfile => hapart file hfile _ _ hcreate) _

/-! ### Both ways to an image -/

theorem notes_compile (source : Text) : (Assembler.compile {} source).notes = [] := by
  unfold Assembler.compile
  dsimp only
  cases Source.lex (Source.normalize source) >>= Line.groups with
  | error fault => rfl
  | ok groups =>
    dsimp only
    cases (Assembler.commandsWithNotes #[] #[] groups).1 with
    | error fault => rfl
    | ok commands =>
      dsimp only
      cases Memory.assemble commands <;> rfl

section Ways

variable {disk : Disk} {stdin source path image tapeInput tapeOutput text : Text} {memory : Memory}
  {location : Location} (language : Language)

theorem path_ne_nil {creating : Bool} (h : disk.locate creating path = .ok location) : path ≠ [] :=
  (Disk.locate_ok_iff.mp h).2.2.1

/-- Assembling a source says nothing, and leaves the image to be run. -/
theorem runOptions_of_source (hsource : disk.readable source = .ok (.file text))
    (hcompile : compile text = .ok memory)
    (hcreate : Work.createFile { disk } image = .ok (.file location, {})) :
    runOptions language { disk, stdin } { source, output := image, run := true, tapeInput, tapeOutput } [] =
      runStage (Work.write { disk, stdin } (.file location) memory.text)
        { source, output := image, run := true, tapeInput, tapeOutput } memory := by
  obtain ⟨place, hlocate, -, -⟩ := Disk.readable_ok_iff.mp hsource
  have hwrite : writeImage { disk, stdin } image memory =
      .ok (Work.write { disk, stdin } (.file location) memory.text) := by
    rw [writeImage_ok_iff]
    refine ⟨.file location, {}, hcreate, ?_, ?_⟩
    · simp [Writer.write, Writer.fitting]
    · simp [Writer.write, Writer.fitting, Writer.text]
  have himage : imageStage { disk, stdin } { source, output := image, run := true, tapeInput, tapeOutput } =
      .ok (Work.write { disk, stdin } (.file location) memory.text, memory) := by
    rw [imageStage, if_neg (by simp), if_pos (by simpa using path_ne_nil hlocate), assembleStage,
      openFile_of_file hsource]
    have himage : (Assembler.parse { verbose := false } { pending := text }).image = .ok memory := hcompile
    have hnotes : (Assembler.parse { verbose := false } { pending := text }).notes = [] := notes_compile text
    have hlogged : logAssembly { disk, stdin } { source, output := image, run := true, tapeInput, tapeOutput }
        (Assembler.parse { verbose := false } { pending := text }) memory = { disk, stdin } := by
      rw [logAssembly, hnotes]
      rfl
    dsimp only
    rw [himage]
    dsimp only
    rw [hlogged, hwrite]
  rw [runOptions, if_neg (by simp), if_neg (by simp), himage]
  rfl

/-- Loading an image that was written says nothing either. -/
theorem runOptions_of_image (himage : disk.readable image = .ok (.file memory.text)) :
    runOptions language { disk, stdin } { image, run := true, tapeInput, tapeOutput } [] =
      runStage { disk, stdin } { image, run := true, tapeInput, tapeOutput } memory := by
  obtain ⟨place, hlocate, -, -⟩ := Disk.readable_ok_iff.mp himage
  have hread : Memory.read { pending := memory.text } = .ok memory := by
    have hread := Memory.read_lines memory (.inl rfl) (.inl rfl)
    rwa [List.append_nil] at hread
  have hstage : imageStage { disk, stdin } { image, run := true, tapeInput, tapeOutput } =
      .ok ({ disk, stdin }, memory) := by
    rw [imageStage, if_pos (by simpa using path_ne_nil hlocate), loadStage, openFile_of_file himage]
    dsimp only
    rw [hread]
  rw [runOptions, if_neg (by simp), if_neg (by simp), hstage]
  rfl

end Ways

/-- A source that is assembled and run with its image written does what loading that image and running it
does: it ends with the same status, says the same, and writes the same tape. -/
theorem reloaded_image_runs_alike (language : Language) {disk : Disk} (hhome : Disk.Proper disk.home) (stdin : Text)
    {first second : List Text} {source image tapeInput tapeOutput text : Text} {memory : Memory}
    {location : Location}
    (hfirst : parse {} first = .options { source, output := image, run := true, tapeInput, tapeOutput } [])
    (hsecond : parse {} second = .options { image, run := true, tapeInput, tapeOutput } [])
    (hsource : disk.readable source = .ok (.file text)) (hcompile : compile text = .ok memory)
    (hcreate : Work.createFile { disk } image = .ok (.file location, {}))
    (hapart : Apart disk image tapeOutput) :
    let one := runWith language disk stdin first
    let two := runWith language (disk.withFiles one.written) stdin second
    one.status = two.status ∧ one.stdout = two.stdout ∧ one.stderr = two.stderr ∧
      one.written = (Disk.pathTo disk.home location, memory.text) :: two.written := by
  intro one two
  let options : Options := { image, run := true, tapeInput, tapeOutput }
  let work : Work := Work.write { disk, stdin } (.file location) memory.text
  obtain ⟨hstandard, hcreatable, -, -⟩ := Work.createFile_file_iff.mp hcreate
  obtain ⟨hlocate, hnode⟩ := Disk.creatable_ok_iff.mp hcreatable
  have hat : work.At disk (disk.write location memory.text) stdin :=
    (Work.at_start disk stdin).write (proper_of_createFile hhome hcreate) memory.text
  have hone : one = runStage work options memory := by
    change runWith language disk stdin first = _
    rw [runWith, hfirst]
    exact runOptions_of_source language hsource hcompile hcreate
  have htape : ∀ outlet writer, Work.createFile { disk := work.disk } options.tapeOutput = .ok (outlet, writer) →
      outlet ≠ .file location := by
    rintro _ writer hcreate' rfl
    have hplaces := (hapart.resolve_left hstandard).resolve_left (Work.createFile_file_iff.mp hcreate').1
    have hplace := place_of_createFile hcreate'
    exact hplaces ((place_of_createFile hcreate).symm.trans hplace)
  have hdisk : Retaped work.disk work.stdin options (disk.withFiles one.written) := by
    rw [hone]
    exact runStage_retaped hat hhome
  have hread : (disk.withFiles one.written).readable image = .ok (.file memory.text) := by
    have hdirectories := Disk.sameDirectories_write hnode memory.text
    exact hdisk.readable (hdirectories.locate.mpr (Disk.locate_reading hlocate)) (if_pos rfl) htape
  have htwo : two = runStage { disk := disk.withFiles one.written, stdin } options memory := by
    change runWith language (disk.withFiles one.written) stdin second = _
    rw [runWith, hsecond]
    exact runOptions_of_image language hread
  have hfollows : Work.Follows disk.home [(location, memory.text)] work
      { disk := disk.withFiles one.written, stdin } := by
    refine ⟨rfl, ?_, rfl, rfl, rfl, rfl⟩
    exact Disk.home_writeAll _ _
  obtain ⟨hstatus, hstdout, hstderr, hwritten⟩ := hfollows.runStage hdisk (by simpa using htape) memory
  rw [← hone, ← htwo] at hstatus hstdout hstderr hwritten
  exact ⟨hstatus, hstdout, hstderr, hwritten⟩

/-- A source that writes a seven. -/
def writingSeven : Text := utf8 "LDA 3\nOUT\nHLT\nDAT 7"

/-- A disk with nothing else on it. -/
def workshop : Disk where
  home := []
  node location :=
    if location = [] then .directory else if location = [utf8 "source"] then .file writingSeven else .vacant

/-- Assembles the source, writes its image and runs it on a tape. -/
def building : List Text := ["-i", "source", "-o", "image", "-r", "-T", "tape"].map utf8

/-- Loads the image and runs it on a tape. -/
def reloading : List Text := ["-m", "image", "-r", "-T", "tape"].map utf8

theorem workshop_reloads :
    let after := workshop.withFiles (run workshop [] building).written
    (run after [] reloading).status = (run workshop [] building).status ∧
      (run after [] reloading).written = [(utf8 "tape", utf8 "7\n")] := by
  have hhome : Disk.Proper workshop.home := by
    unfold Disk.Proper Disk.IsName
    decide
  have hbuilding : parse {} building = .options
      { source := utf8 "source", output := utf8 "image", run := true, tapeOutput := utf8 "tape" } [] := by
    decide
  have hreloading : parse {} reloading = .options
      { image := utf8 "image", run := true, tapeOutput := utf8 "tape" } [] := by
    decide
  have hcompiles : (compile writingSeven).toOption.isSome = true := by decide +kernel
  have htape : (runWith Script.language workshop [] building).written.tail = [(utf8 "tape", utf8 "7\n")] := by
    decide +kernel
  have hapart : workshop.place (utf8 "image") ≠ workshop.place (utf8 "tape") := by decide
  cases hcompile : compile writingSeven with
  | error fault =>
    rw [hcompile] at hcompiles
    cases hcompiles
  | ok memory =>
    obtain ⟨hsame, -, -, hwritten⟩ :=
      reloaded_image_runs_alike Script.language hhome [] hbuilding hreloading rfl hcompile rfl
        (.inr (.inr hapart))
    rw [hwritten, List.tail_cons] at htape
    exact ⟨hsame.symm, htape⟩

end LittleMan.CommandLine
