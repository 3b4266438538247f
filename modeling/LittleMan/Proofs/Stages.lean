import LittleMan.Proofs.Compilation
import LittleMan.Proofs.Driver

/-!
# The stages of the command line

The driver obtains an image, opens the tape and runs, and each stage can end it. `Obtains` and `Runs` say
when a stage is reached and what it finds there, `Course` that nothing else can happen, and what the disk
and the status are at each way out. Whatever is said about files that were written is read off `Course`.
-/

namespace LittleMan.CommandLine

/-! ### The stages -/

/-- The source is assembled, with so much left of the standard input. -/
inductive Assembles (disk : Disk) (stdin : Text) (options : Options) : Memory → Text → Prop where
  | intro {reader : Reader} {image : Memory} {left : Text} (hnone : options.image = [])
    (hsource : options.source ≠ [])
    (hopen : Work.openFile { disk, stdin } options.source = .ok (reader, { disk, stdin := left }))
    (hreader : reader.fault = none) (hcompile : compile reader.pending = .ok image) :
    Assembles disk stdin options image left

/-- An image is obtained, with so much left of the standard input: from an image file, or by assembling the
source and writing the image, which may change the disk. -/
inductive Obtains (disk : Disk) (stdin : Text) (options : Options) : Memory → Text → Disk → Prop where
  | loaded {reader : Reader} {image : Memory} {left : Text} (hsome : options.image ≠ [])
    (hopen : Work.openFile { disk, stdin } options.image = .ok (reader, { disk, stdin := left }))
    (hread : Memory.read reader = .ok image) : Obtains disk stdin options image left disk
  | assembled {image : Memory} {left : Text} {outlet : Outlet} {writer : Writer}
    (himage : Assembles disk stdin options image left)
    (hcreate : Work.createFile { disk } options.output = .ok (outlet, writer))
    (hwrite : (writer.write image.text).1 = none) :
    Obtains disk stdin options image left (disk.put outlet image.text)

/-- An image is obtained and run on a tape: on the disk as it was then, where the tape went, the numbers that
were sent, and how the run came out. -/
inductive Runs (disk : Disk) (stdin : Text) (options : Options) :
    Disk → Outlet → List Word → Outcome → Prop where
  | ended {image : Memory} {left : Text} {between : Disk} {reader : Reader} {rest : Text} {outlet : Outlet}
    {writer : Writer} {n : Nat} {outcome : Outcome} {last : Machine} (hrun : options.run = true)
    (himage : Obtains disk stdin options image left between)
    (htape : openTape { disk := between, stdin := left } options =
      .ok (reader, { disk := between, stdin := rest }))
    (hcreate : Work.createFile { disk := between } options.tapeOutput = .ok (outlet, writer))
    (hends : Ends Machine.tick (.poised (some image) defaultTicks reader writer) n outcome last) :
    Runs disk stdin options between outlet
      ((Machine.poised (some image) defaultTicks reader writer).sent (n + 1)) outcome

/-- What the driver can come to without a script: the disk that it leaves, and its status. -/
inductive Course (disk : Disk) (stdin : Text) (options : Options) : Disk → Nat → Prop where
  | unobtained (hnone : ∀ image left between, ¬ Obtains disk stdin options image left between) :
    Course disk stdin options disk 1
  | obtained {image : Memory} {left : Text} {between : Disk} (hrun : options.run = false)
    (himage : Obtains disk stdin options image left between) : Course disk stdin options between 0
  | stopped {image : Memory} {left : Text} {between : Disk} (hrun : options.run = true)
    (himage : Obtains disk stdin options image left between)
    (hnone : ∀ between outlet values outcome, ¬ Runs disk stdin options between outlet values outcome) :
    Course disk stdin options between 1
  | ran {between : Disk} {outlet : Outlet} {values : List Word} {outcome : Outcome}
    (hruns : Runs disk stdin options between outlet values outcome) :
    Course disk stdin options (between.put outlet (values.flatMap Tape.line))
      (if outcome = .halted then 0 else 1)

/-! ### What each stage does -/

section Stages

variable {work : Work} {origin disk between : Disk} {stdin left path : Text} {options : Options}
  {image : Memory}

theorem image_parse (verbose : Bool) (reader : Reader) :
    (Assembler.parse { verbose } reader).image =
      match reader.fault with
      | some fault => .error fault
      | none => compile reader.pending := by
  unfold Assembler.parse
  cases reader.fault with
  | some fault => rfl
  | none =>
    dsimp only
    rw [compile, Assembler.image_compile, Assembler.image_compile]

theorem Work.At.logAssembly (h : work.At origin disk stdin) (options : Options) (assembly : Assembly)
    (image : Memory) : (logAssembly work options assembly image).At origin disk stdin := by
  unfold CommandLine.logAssembly
  dsimp only
  split
  · exact (h.logAll _).log _
  · exact h.logAll _

theorem imageStage_of_obtains (hhome : Disk.Proper disk.home)
    (h : Obtains disk stdin options image left between) :
    ∃ work, imageStage { disk, stdin } options = .ok (work, image) ∧ work.At disk between left := by
  cases h with
  | loaded hsome hopen hread =>
    refine ⟨{ disk, stdin := left }, ?_, Work.at_start disk left⟩
    rw [imageStage, if_pos (by simpa using hsome), loadStage, hopen]
    dsimp only
    rw [hread]
  | @assembled _ _ outlet writer himage hcreate hwrite =>
    obtain @⟨reader, _, _, hnone, hsource, hopen, hreader, hcompile⟩ := himage
    let logged := logAssembly { disk, stdin := left } options
      (Assembler.parse { verbose := options.verbose } reader) image
    have hlogged : logged.At disk disk left := (Work.at_start disk left).logAssembly options _ image
    have hcreated : logged.createFile options.output = .ok (outlet, writer) := by
      rw [Work.createFile_eq, hlogged.disk_eq, hcreate]
    have hwritten := hlogged.write (proper_of_createFile hhome hcreate) (writer.write image.text).2.text
    rw [put_of_createFile hcreate] at hwritten
    refine ⟨_, ?_, hwritten⟩
    have hparsed : (Assembler.parse { verbose := options.verbose } reader).image = .ok image := by
      rw [image_parse, hreader, hcompile]
    have hstored : writeImage logged options.output image =
        .ok (logged.write outlet (writer.write image.text).2.text) :=
      writeImage_ok_iff.mpr ⟨outlet, writer, hcreated, hwrite, rfl⟩
    rw [imageStage, if_neg (by simpa using hnone), if_pos (by simpa using hsource), assembleStage, hopen]
    dsimp only
    rw [hparsed]
    dsimp only
    rw [hstored]

/-- An image that was obtained, or an end that leaves the disk as it was. -/
def ComesTo (disk : Disk) (stdin : Text) (options : Options) : Except Finished (Work × Memory) → Prop
  | .ok (_, image) => ∃ left between, Obtains disk stdin options image left between
  | .error finished => finished.Leaves disk disk 1

theorem comesTo_loadStage (hsome : options.image ≠ []) :
    ComesTo disk stdin options (loadStage { disk, stdin } options) := by
  unfold loadStage
  cases hopen : Work.openFile { disk, stdin } options.image with
  | error fault => exact (Work.at_start disk stdin).fatal _
  | ok opened =>
    obtain ⟨reader, work⟩ := opened
    obtain ⟨left, rfl⟩ := Work.exists_of_openFile hopen
    dsimp only
    cases hread : Memory.read reader with
    | error fault => exact (Work.at_start disk left).fatal _
    | ok image => exact ⟨left, disk, .loaded hsome hopen hread⟩

theorem comesTo_assembleStage (hnone : options.image = []) (hsource : options.source ≠ []) :
    ComesTo disk stdin options (assembleStage { disk, stdin } options) := by
  unfold assembleStage
  cases hopen : Work.openFile { disk, stdin } options.source with
  | error fault => exact (Work.at_start disk stdin).fatal _
  | ok opened =>
    obtain ⟨reader, work⟩ := opened
    obtain ⟨left, rfl⟩ := Work.exists_of_openFile hopen
    have hopened := Work.at_start disk left
    have hparsed := image_parse options.verbose reader
    dsimp only
    cases himage : (Assembler.parse { verbose := options.verbose } reader).image with
    | error fault => exact (hopened.logAll _).fatal _
    | ok image =>
      have hlogged := hopened.logAssembly options (Assembler.parse { verbose := options.verbose } reader) image
      dsimp only
      cases hwrite : writeImage (logAssembly _ _ _ image) options.output image with
      | error fault => exact hlogged.fatal _
      | ok after =>
        obtain ⟨outlet, writer, hcreate, hfits, -⟩ := writeImage_ok_iff.mp hwrite
        rw [Work.createFile_eq, hlogged.disk_eq] at hcreate
        rw [himage] at hparsed
        cases hreader : reader.fault with
        | some fault => simp [hreader] at hparsed
        | none =>
          rw [hreader] at hparsed
          exact ⟨left, _, .assembled (.intro hnone hsource hopen hreader hparsed.symm) hcreate hfits⟩

theorem comesTo_imageStage (disk : Disk) (stdin : Text) (options : Options) :
    ComesTo disk stdin options (imageStage { disk, stdin } options) := by
  unfold imageStage
  split
  · next hsome => exact comesTo_loadStage (by simpa using hsome)
  · next hnone =>
    split
    · next hsource => exact comesTo_assembleStage (by simpa using hnone) (by simpa using hsource)
    · exact (Work.at_start disk stdin).fatal _

theorem Obtains.unique {image' : Memory} {left' : Text} {between' : Disk} (hhome : Disk.Proper disk.home)
    (h : Obtains disk stdin options image left between)
    (h' : Obtains disk stdin options image' left' between') :
    image = image' ∧ left = left' ∧ between = between' := by
  obtain ⟨work, hwork, hat⟩ := imageStage_of_obtains hhome h
  obtain ⟨work', hwork', hat'⟩ := imageStage_of_obtains hhome h'
  rw [hwork] at hwork'
  cases hwork'
  exact ⟨rfl, hat.stdin_eq.symm.trans hat'.stdin_eq, hat.disk_eq.symm.trans hat'.disk_eq⟩

theorem put_of_ends {outlet : Outlet} {reader : Reader} {writer : Writer} {n : Nat} {outcome : Outcome}
    {last : Machine} (hcreate : Work.createFile { disk } path = .ok (outlet, writer))
    (hends : Ends Machine.tick (.poised (some image) defaultTicks reader writer) n outcome last) :
    disk.put outlet last.tape.written =
      disk.put outlet
        (((Machine.poised (some image) defaultTicks reader writer).sent (n + 1)).flatMap Tape.line) := by
  cases outlet with
  | stream stream => rfl
  | nowhere => rfl
  | file location =>
    rw [Machine.written_of_ends ⟨writer, rfl, ?_, ?_⟩ hends]
    all_goals rw [(Work.createFile_file_iff.mp hcreate).2.2.1]
    rfl

theorem limited_poised (image : Option Memory) (reader : Reader) (writer : Writer) :
    0 < (Machine.poised image defaultTicks reader writer).maxTicks := by
  change 0 < defaultTicks
  decide

theorem leaves_runImage {outlet : Outlet} {reader : Reader} {writer : Writer} {n : Nat} {outcome : Outcome}
    {last : Machine} (h : work.At origin disk stdin) (hhome : Disk.Proper disk.home)
    (hapart : Apart disk options.tapeInput options.tapeOutput)
    (hcreate : Work.createFile { disk } options.tapeOutput = .ok (outlet, writer))
    (hends : Ends Machine.tick (.poised (some image) defaultTicks reader writer) n outcome last) :
    (runImage work options image reader outlet writer).Leaves origin
      (disk.put outlet
        (((Machine.poised (some image) defaultTicks reader writer).sent (n + 1)).flatMap Tape.line))
      (if outcome = .halted then 0 else 1) := by
  have hlooped : isLooped { disk := work.disk } options outlet = false := by
    rw [h.disk_eq]
    exact isLooped_of_apart hapart hcreate
  have hquiet : (connected options image reader writer).quiet =
      (Machine.poised (some image) defaultTicks reader writer).quiet := rfl
  have halike := Machine.alike_run hquiet
  rw [Machine.run_of_ends (limited_poised (some image) reader writer) hends] at halike
  have hleaves := h.conclude (proper_of_createFile hhome hcreate) (connected options image reader writer).run
  rw [halike.1, halike.written, put_of_ends hcreate hends] at hleaves
  rw [runImage_of_not_looped hlooped]
  cases outcome with
  | running => exact absurd rfl hends.ne_running
  | halted => exact hleaves
  | failed fault => exact hleaves

theorem course_of_runStage (hhome : Disk.Proper disk.home)
    (hapart : Apart disk options.tapeInput options.tapeOutput) (hrun : options.run = true)
    (himage : Obtains disk stdin options image left between) (hat : work.At disk between left) :
    ∃ after status, (runStage work options image).Leaves disk after status ∧
      Course disk stdin options after status := by
  have hhome' : Disk.Proper between.home := hat.home ▸ hhome
  have hapart' : Apart between options.tapeInput options.tapeOutput := by
    unfold Apart Disk.place
    rw [hat.home]
    exact hapart
  obtain ⟨rfl, rfl⟩ := And.intro hat.disk_eq hat.stdin_eq
  cases htape : openTape { disk := work.disk, stdin := work.stdin } options with
  | error fault =>
    rw [runStage_of_unopened htape]
    refine ⟨work.disk, 1, hat.fatal _, .stopped hrun himage ?_⟩
    rintro _ _ _ _ ⟨_, himage', htape', _, _⟩
    obtain ⟨rfl, rfl, rfl⟩ := himage.unique hhome himage'
    rw [htape] at htape'
    cases htape'
  | ok opened =>
    obtain ⟨reader, opened⟩ := opened
    obtain ⟨rest, rfl⟩ := exists_of_openTape htape
    have hopened := hat.withStdin rest
    cases hcreate : Work.createFile { disk := work.disk } options.tapeOutput with
    | error fault =>
      rw [runStage_of_uncreated htape hcreate]
      refine ⟨work.disk, 1, hopened.fatal _, .stopped hrun himage ?_⟩
      rintro _ _ _ _ ⟨_, himage', _, hcreate', _⟩
      obtain ⟨rfl, rfl, rfl⟩ := himage.unique hhome himage'
      rw [hcreate] at hcreate'
      cases hcreate'
    | ok created =>
      obtain ⟨outlet, writer⟩ := created
      obtain ⟨n, -, hends⟩ := Machine.ends_run (limited_poised (some image) reader writer)
      rw [runStage_of_created htape hcreate]
      exact ⟨_, _, leaves_runImage hopened hhome' hapart' hcreate hends,
        .ran (.ended hrun himage htape hcreate hends)⟩

/-- Without a script and without arguments that are left over, the driver takes its course. -/
theorem course_of_runOptions (language : Language) (hhome : Disk.Proper disk.home)
    (hapart : Apart disk options.tapeInput options.tapeOutput) (hscript : options.script = []) :
    ∃ after status, (runOptions language { disk, stdin } options []).Leaves disk after status ∧
      Course disk stdin options after status := by
  have hreached := comesTo_imageStage disk stdin options
  rw [runOptions, if_neg (by simp), if_neg (by simp [hscript])]
  cases hstage : imageStage { disk, stdin } options with
  | error finished =>
    rw [hstage] at hreached
    refine ⟨disk, 1, hreached, .unobtained ?_⟩
    intro image left between himage
    obtain ⟨work, hwork, -⟩ := imageStage_of_obtains hhome himage
    rw [hstage] at hwork
    cases hwork
  | ok obtained =>
    obtain ⟨work, image⟩ := obtained
    rw [hstage] at hreached
    obtain ⟨left, between, himage⟩ := hreached
    obtain ⟨_, hwork, hat⟩ := imageStage_of_obtains hhome himage
    rw [hstage] at hwork
    cases hwork
    dsimp only
    split
    · next hrun => exact course_of_runStage hhome hapart hrun himage hat
    · next hrun => exact ⟨between, 0, hat.leaves 0, .obtained (by simpa using hrun) himage⟩

/-! ### What a course leaves -/

theorem Runs.unique {between' : Disk} {outlet outlet' : Outlet} {values values' : List Word}
    {outcome outcome' : Outcome} (hhome : Disk.Proper disk.home)
    (h : Runs disk stdin options between outlet values outcome)
    (h' : Runs disk stdin options between' outlet' values' outcome') :
    between = between' ∧ outlet = outlet' ∧ values = values' ∧ outcome = outcome' := by
  obtain ⟨-, himage, htape, hcreate, hends⟩ := h
  obtain ⟨-, himage', htape', hcreate', hends'⟩ := h'
  obtain ⟨rfl, rfl, rfl⟩ := himage.unique hhome himage'
  rw [htape] at htape'
  cases htape'
  rw [hcreate] at hcreate'
  cases hcreate'
  obtain ⟨rfl, rfl, -⟩ := hends.unique hends'
  exact ⟨rfl, rfl, rfl, rfl⟩

theorem put_node {outlet : Outlet} {content : Text} {place : Location} :
    (disk.put outlet content).node place = disk.node place ∨
      outlet = .file place ∧ (disk.put outlet content).node place = .file content := by
  cases outlet with
  | stream stream => exact .inl rfl
  | nowhere => exact .inl rfl
  | file location =>
    by_cases hplace : place = location
    · exact .inr ⟨congrArg Outlet.file hplace.symm, if_pos hplace⟩
    · exact .inl (if_neg hplace)

theorem put_file_node (disk : Disk) (location : Location) (content : Text) :
    (disk.put (.file location) content).node location = .file content :=
  if_pos rfl

/-- Obtaining an image changes the disk only where the image is written. -/
theorem Obtains.node (h : Obtains disk stdin options image left between) (place : Location) :
    between.node place = disk.node place ∨
      place = disk.place options.output ∧ Assembles disk stdin options image left ∧
        between.node place = .file image.text := by
  cases h with
  | loaded => exact .inl rfl
  | @assembled _ _ outlet writer himage hcreate hwrite =>
    rcases @put_node disk outlet image.text place with hsame | ⟨rfl, hfile⟩
    · exact .inl hsame
    · exact .inr ⟨place_of_createFile hcreate, himage, hfile⟩

theorem Runs.obtains {outlet : Outlet} {values : List Word} {outcome : Outcome}
    (h : Runs disk stdin options between outlet values outcome) :
    ∃ image left, Obtains disk stdin options image left between := by
  obtain ⟨-, himage, -, -, -⟩ := h
  exact ⟨_, _, himage⟩

theorem Runs.place {location : Location} {values : List Word} {outcome : Outcome}
    (hhome : Disk.Proper disk.home) (h : Runs disk stdin options between (.file location) values outcome) :
    options.tapeOutput ≠ standard ∧ location = disk.place options.tapeOutput := by
  obtain ⟨-, himage, -, hcreate, -⟩ := h
  obtain ⟨work, -, hat⟩ := imageStage_of_obtains hhome himage
  refine ⟨(Work.createFile_file_iff.mp hcreate).1, ?_⟩
  rw [place_of_createFile hcreate, Disk.place, hat.home]
  rfl

variable {after : Disk} {status : Nat}

/-- A course changes the disk only where the image and the tape are written, each behind the stages before
it. -/
theorem Course.node (hhome : Disk.Proper disk.home) (h : Course disk stdin options after status)
    {place : Location} (hchanged : after.node place ≠ disk.node place) :
    (place = disk.place options.output ∧ ∃ image left, Assembles disk stdin options image left ∧
        after.node place = .file image.text) ∨
      (place = disk.place options.tapeOutput ∧ ∃ between values outcome,
        Runs disk stdin options between (.file place) values outcome ∧
          after.node place = .file (values.flatMap Tape.line)) := by
  cases h with
  | unobtained hnone => exact absurd rfl hchanged
  | obtained hrun himage =>
    obtain ⟨hplace, hassembles, hfile⟩ := (himage.node place).resolve_left hchanged
    exact .inl ⟨hplace, _, _, hassembles, hfile⟩
  | stopped hrun himage hnone =>
    obtain ⟨hplace, hassembles, hfile⟩ := (himage.node place).resolve_left hchanged
    exact .inl ⟨hplace, _, _, hassembles, hfile⟩
  | @ran between outlet values outcome hruns =>
    rcases @put_node between outlet (values.flatMap Tape.line) place with hsame | ⟨rfl, hfile⟩
    · obtain ⟨image, left, himage⟩ := hruns.obtains
      rw [hsame] at hchanged ⊢
      obtain ⟨hplace, hassembles, hfile⟩ := (himage.node place).resolve_left hchanged
      exact .inl ⟨hplace, _, _, hassembles, hfile⟩
    · exact .inr ⟨(hruns.place hhome).2, _, _, _, hruns, hfile⟩

/-- An image that is assembled and can be written is there in the end. -/
theorem Course.image_written (hhome : Disk.Proper disk.home) (h : Course disk stdin options after status)
    (hapart : Apart disk options.output options.tapeOutput)
    (hassembles : Assembles disk stdin options image left) {location : Location} {writer : Writer}
    (hcreate : Work.createFile { disk } options.output = .ok (.file location, writer)) :
    after.node location = .file image.text := by
  obtain ⟨hstandard, -, hwriter, -⟩ := Work.createFile_file_iff.mp hcreate
  have himage : Obtains disk stdin options image left (disk.put (.file location) image.text) := by
    refine .assembled hassembles hcreate ?_
    rw [hwriter]
    simp [Writer.write, Writer.fitting]
  have hfile := put_file_node disk location image.text
  cases h with
  | unobtained hnone => exact absurd himage (hnone _ _ _)
  | obtained hrun himage' =>
    obtain ⟨-, -, rfl⟩ := himage.unique hhome himage'
    exact hfile
  | stopped hrun himage' hnone =>
    obtain ⟨-, -, rfl⟩ := himage.unique hhome himage'
    exact hfile
  | @ran between outlet values outcome hruns =>
    obtain ⟨image', left', himage'⟩ := hruns.obtains
    obtain ⟨-, -, rfl⟩ := himage.unique hhome himage'
    rcases @put_node (disk.put (.file location) image.text) outlet (values.flatMap Tape.line) location
      with hsame | ⟨rfl, -⟩
    · rw [hsame, hfile]
    · obtain ⟨htape, hplace⟩ := hruns.place hhome
      have hplaces := (hapart.resolve_left hstandard).resolve_left htape
      exact absurd ((place_of_createFile hcreate).symm.trans hplace) hplaces

/-- A tape that is written to a file is there in the end. -/
theorem Course.tape_written (hhome : Disk.Proper disk.home) (h : Course disk stdin options after status)
    {location : Location} {values : List Word} {outcome : Outcome}
    (hruns : Runs disk stdin options between (.file location) values outcome) :
    after.node location = .file (values.flatMap Tape.line) := by
  cases h with
  | unobtained hnone =>
    obtain ⟨image, left, himage⟩ := hruns.obtains
    exact absurd himage (hnone _ _ _)
  | obtained hrun himage =>
    obtain ⟨hrun', -, -, -, -⟩ := hruns
    rw [hrun] at hrun'
    cases hrun'
  | stopped hrun himage hnone => exact absurd hruns (hnone _ _ _ _)
  | ran hruns' =>
    obtain ⟨rfl, rfl, rfl, -⟩ := hruns.unique hhome hruns'
    exact put_file_node between location _

/-- A course is a success if an image is obtained and, if it is to be run, its run halts. -/
theorem Course.status_eq_zero_iff (hhome : Disk.Proper disk.home)
    (h : Course disk stdin options after status) :
    status = 0 ↔ (∃ image left between, Obtains disk stdin options image left between) ∧
      (options.run = true → ∃ between outlet values, Runs disk stdin options between outlet values .halted) := by
  cases h with
  | unobtained hnone =>
    refine ⟨nofun, ?_⟩
    rintro ⟨⟨image, left, between, himage⟩, -⟩
    exact absurd himage (hnone _ _ _)
  | obtained hrun himage =>
    refine ⟨fun _ => ⟨⟨_, _, _, himage⟩, ?_⟩, fun _ => rfl⟩
    rw [hrun]
    nofun
  | stopped hrun himage hnone =>
    refine ⟨nofun, ?_⟩
    rintro ⟨-, hruns⟩
    obtain ⟨between, outlet, values, hruns⟩ := hruns hrun
    exact absurd hruns (hnone _ _ _ _)
  | @ran between outlet values outcome hruns =>
    obtain ⟨image, left, himage⟩ := hruns.obtains
    constructor
    · intro hstatus
      obtain rfl : outcome = .halted := by
        by_contra houtcome
        rw [if_neg houtcome] at hstatus
        cases hstatus
      exact ⟨⟨_, _, _, himage⟩, fun _ => ⟨_, _, _, hruns⟩⟩
    · rintro ⟨-, hhalts⟩
      obtain ⟨hrun, -, -, -, -⟩ := id hruns
      obtain ⟨_, _, _, hruns'⟩ := hhalts hrun
      obtain ⟨-, -, -, rfl⟩ := hruns.unique hhome hruns'
      rfl

end Stages

/-! ### Scripts -/

/-- The script is read and run to its end, with a report. -/
inductive Executes (language : Language) (disk : Disk) (stdin : Text) (options : Options) : Report → Prop where
  | intro {reader : Reader} {left : Text} {session : Session}
    (hopen : Work.openFile { disk, stdin } options.script = .ok (reader, { disk, stdin := left }))
    (hreader : reader.fault = none) (hrun : language.run 0 reader.pending = (none, session)) :
    Executes language disk stdin options session.report.toList

section Scripts

variable {disk : Disk} {stdin : Text} {options : Options}

theorem written_logAll (work : Work) (messages : List Text) : (work.logAll messages).written = work.written := by
  induction messages generalizing work with
  | nil => rfl
  | cons message messages ih => exact ih (work.log message)

theorem written_finish {work : Work} (h : work.written = []) (status : Nat) :
    (work.finish status).written = [] := by
  rw [Work.finish, h]
  rfl

theorem written_reportStage {work : Work} (h : work.written = []) (script : Text) (report : Report) :
    (reportStage work script report).written = [] := by
  have hprinted : (report.foldl (fun work result => work.print (result.text ++ [Text.newline])) work).written =
      [] := by
    induction report generalizing work with
    | nil => exact h
    | cons result report ih => exact ih h
  unfold reportStage
  dsimp only
  split
  · exact written_finish hprinted 0
  · exact written_finish hprinted 1

theorem status_reportStage (work : Work) (script : Text) (report : Report) :
    (reportStage work script report).status = 0 ↔ ∀ result ∈ report, result.passed = true := by
  unfold reportStage
  dsimp only
  rw [← List.all_eq_true]
  change _ ↔ report.passed = true
  split
  · next hpassed => exact ⟨fun _ => hpassed, fun _ => rfl⟩
  · next hfailed => exact ⟨nofun, fun hpassed => absurd hpassed hfailed⟩

/-- A script writes no file, and succeeds if it comes to its end and all its checks pass. -/
theorem scriptStage_spec (language : Language) (disk : Disk) (stdin : Text) (options : Options) :
    (scriptStage language { disk, stdin } options).written = [] ∧
      ((scriptStage language { disk, stdin } options).status = 0 ↔
        ∃ report, Executes language disk stdin options report ∧ ∀ result ∈ report, result.passed = true) := by
  unfold scriptStage
  dsimp only
  cases hopen : Work.openFile { disk, stdin } options.script with
  | error fault =>
    refine ⟨rfl, nofun, ?_⟩
    rintro ⟨-, ⟨hopen', -, -⟩, -⟩
    rw [hopen] at hopen'
    cases hopen'
  | ok opened =>
    obtain ⟨⟨text, fault⟩, work⟩ := opened
    obtain ⟨left, rfl⟩ := Work.exists_of_openFile hopen
    cases fault with
    | some fault =>
      refine ⟨rfl, nofun, ?_⟩
      rintro ⟨-, ⟨hopen', hreader, -⟩, -⟩
      rw [hopen] at hopen'
      cases hopen'
      cases hreader
    | none =>
      dsimp only
      rcases hrun : language.run 0 text with ⟨_ | failure, session⟩
      · dsimp only
        refine ⟨written_reportStage (written_logAll _ _) _ _, ?_⟩
        rw [status_reportStage]
        refine ⟨fun hpassed => ⟨_, .intro hopen rfl hrun, hpassed⟩, ?_⟩
        rintro ⟨-, ⟨hopen', -, hrun'⟩, hpassed⟩
        rw [hopen] at hopen'
        cases hopen'
        rw [hrun] at hrun'
        cases hrun'
        exact hpassed
      · refine ⟨written_finish (written_logAll _ _) 1, nofun, ?_⟩
        rintro ⟨-, ⟨hopen', -, hrun'⟩, -⟩
        rw [hopen] at hopen'
        cases hopen'
        rw [hrun] at hrun'
        cases hrun'

end Scripts

/-- Files are written only behind the stages before them. Without a script, the file that changes is that of
the image, and holds the image of the source, which was assembled, or that of the tape, and holds the lines of
what an image that was obtained sent to it until it halted or failed. The status tells whether everything that
was asked for has come about. With a script, no file changes, and the status tells whether it came to its end
with all checks passed. -/
theorem run_writes_after_success (language : Language) (disk : Disk) (stdin : Text) (arguments : List Text)
    {options : Options} {rest : List Text} (hparse : parse {} arguments = .options options rest)
    (hhome : Disk.Proper disk.home) (himage : Apart disk options.output options.tapeOutput)
    (htape : Apart disk options.tapeInput options.tapeOutput) :
    let finished := runWith language disk stdin arguments
    let after := disk.withFiles finished.written
    (options.script = [] →
      (∀ place, after.node place ≠ disk.node place →
        rest = [] ∧
          ((place = disk.place options.output ∧ ∃ image left, Assembles disk stdin options image left ∧
              after.node place = .file image.text) ∨
            (place = disk.place options.tapeOutput ∧ ∃ between values outcome,
              Runs disk stdin options between (.file place) values outcome ∧
                after.node place = .file (values.flatMap Tape.line)))) ∧
      (rest = [] → ∀ image left location writer, Assembles disk stdin options image left →
        Work.createFile { disk } options.output = .ok (.file location, writer) →
          after.node location = .file image.text) ∧
      (rest = [] → ∀ between location values outcome,
        Runs disk stdin options between (.file location) values outcome →
          after.node location = .file (values.flatMap Tape.line)) ∧
      (finished.status = 0 ↔
        rest = [] ∧ (∃ image left between, Obtains disk stdin options image left between) ∧
          (options.run = true →
            ∃ between outlet values, Runs disk stdin options between outlet values .halted))) ∧
    (options.script ≠ [] → rest = [] →
      finished.written = [] ∧
        (finished.status = 0 ↔
          ∃ report, Executes language disk stdin options report ∧ ∀ result ∈ report, result.passed = true)) := by
  intro finished after
  have hfinished : finished = runOptions language { disk, stdin } options rest := by
    change runWith language disk stdin arguments = _
    rw [runWith, hparse]
  constructor
  · intro hscript
    cases rest with
    | cons argument rest =>
      have hleaves : finished.Leaves disk disk 1 := by
        rw [hfinished]
        exact (Work.at_start disk stdin).fatal _
      refine ⟨fun place hchanged => ?_, nofun, nofun, ?_⟩
      · exact absurd (congrArg (Disk.node · place) hleaves.2) hchanged
      · rw [hleaves.1]
        exact ⟨nofun, fun h => nomatch h.1⟩
    | nil =>
      obtain ⟨ended, status, ⟨hstatus, hdisk⟩, hcourse⟩ :=
        @course_of_runOptions disk stdin options language hhome htape hscript
      rw [← hfinished] at hstatus hdisk
      obtain rfl : after = ended := hdisk
      refine ⟨fun place hchanged => ⟨rfl, hcourse.node hhome hchanged⟩, ?_, ?_, ?_⟩
      · intro _ image left location writer hassembles hcreate
        exact hcourse.image_written hhome himage hassembles hcreate
      · intro _ between location values outcome hruns
        exact hcourse.tape_written hhome hruns
      · rw [hstatus, hcourse.status_eq_zero_iff hhome]
        exact ⟨fun h => ⟨rfl, h⟩, fun h => h.2⟩
  · rintro hscript rfl
    have hstage : finished = scriptStage language { disk, stdin } options := by
      rw [hfinished, runOptions, if_neg (by simp), if_pos (by simpa using hscript)]
    rw [hstage]
    exact scriptStage_spec language disk stdin options

/-- A directory with a source that has no meaning, and an image of an older one. -/
def spoiled : Disk := .ofFiles [(utf8 "source", utf8 "NOPE"), (utf8 "image", utf8 "5")]

/-- Assembles the source anew and runs it. -/
def rebuilding : List Text := ["-i", "source", "-o", "image", "-r"].map utf8

def rebuildingOptions : Options := { source := utf8 "source", output := utf8 "image", run := true }

theorem not_assembles_spoiled (image : Memory) (left : Text) :
    ¬ Assembles spoiled [] rebuildingOptions image left := by
  have hopen : Work.openFile { disk := spoiled } rebuildingOptions.source =
      .ok ({ pending := utf8 "NOPE" }, { disk := spoiled }) := rfl
  have hnone : (compile (utf8 "NOPE")).toOption = none := by decide
  rintro ⟨-, -, hopen', -, hcompile⟩
  cases hopen.symm.trans hopen'
  rw [hcompile] at hnone
  cases hnone

theorem not_obtains_spoiled (image : Memory) (left : Text) (between : Disk) :
    ¬ Obtains spoiled [] rebuildingOptions image left between := by
  rintro (⟨hsome, -, -⟩ | ⟨hassembles, -, -⟩)
  · exact hsome rfl
  · exact not_assembles_spoiled image left hassembles

theorem spoiled_keeps_image :
    parse {} rebuilding = .options rebuildingOptions [] ∧ (run spoiled [] rebuilding).status ≠ 0 ∧
      (spoiled.withFiles (run spoiled [] rebuilding).written).node (spoiled.place (utf8 "image")) =
        .file (utf8 "5") := by
  have hparse : parse {} rebuilding = .options rebuildingOptions [] := by decide
  have hhome : Disk.Proper spoiled.home := by
    unfold Disk.Proper Disk.IsName
    decide
  obtain ⟨hfiles, -⟩ :=
    run_writes_after_success Script.language spoiled [] rebuilding hparse hhome (.inr (.inl rfl)) (.inl rfl)
  obtain ⟨hchange, -, -, hstatus⟩ := hfiles rfl
  refine ⟨hparse, fun hzero => ?_, ?_⟩
  · obtain ⟨-, ⟨image, left, between, himage⟩, -⟩ := hstatus.mp hzero
    exact not_obtains_spoiled image left between himage
  · by_contra hother
    obtain ⟨-, ⟨-, image, left, himage, -⟩ | ⟨-, between, values, outcome, hruns, -⟩⟩ := hchange _ hother
    · exact not_assembles_spoiled image left himage
    · obtain ⟨image, left, himage⟩ := hruns.obtains
      exact not_obtains_spoiled image left between himage

end LittleMan.CommandLine
