import LittleMan.Disk
import Mathlib.Data.List.Induction

/-!
# Places and what stands at them

A path that can be followed leads to the place it names (`locate_eq_place`), and a place that is made
of names has a path back to it (`destination_pathTo`). Writing a file changes what stands at one place and
makes no directory come or go, so the paths that could be followed before lead to the same places
afterwards.
-/

namespace LittleMan.Disk

/-! ### Steps -/

/-- A step that leads into a directory. -/
def IsName (step : Text) : Prop := step ≠ [] ∧ slash ∉ step ∧ step ≠ here ∧ step ≠ up

/-- A place that is made of names only. -/
def Proper (location : Location) : Prop := ∀ step ∈ location, IsName step

/-- The place that a path names on a disk. -/
def place (disk : Disk) (path : Text) : Location := destination disk.home path

theorem piecesFrom_of_no_slash (read : Text) {piece : Text} (h : slash ∉ piece) :
    piecesFrom read piece = [read.reverse ++ piece] := by
  induction piece generalizing read with
  | nil => simp [piecesFrom]
  | cons byte piece ih =>
    rw [List.mem_cons, not_or] at h
    rw [piecesFrom, if_neg (Ne.symm h.1), ih _ h.2]
    simp

theorem piecesFrom_append (read : Text) {piece : Text} (h : slash ∉ piece) (rest : Text) :
    piecesFrom read (piece ++ slash :: rest) = (read.reverse ++ piece) :: piecesFrom [] rest := by
  induction piece generalizing read with
  | nil => simp [piecesFrom]
  | cons byte piece ih =>
    rw [List.mem_cons, not_or] at h
    rw [List.cons_append, piecesFrom, if_neg (Ne.symm h.1), ih _ h.2]
    simp

theorem slash_not_mem_piecesFrom {read path piece : Text} (hread : slash ∉ read)
    (h : piece ∈ piecesFrom read path) : slash ∉ piece := by
  induction path generalizing read with
  | nil =>
    rw [piecesFrom, List.mem_singleton] at h
    rwa [h, List.mem_reverse]
  | cons byte path ih =>
    rw [piecesFrom] at h
    split at h
    · rcases List.mem_cons.mp h with rfl | hrest
      · rwa [List.mem_reverse]
      · exact ih (by simp) hrest
    · next hbyte =>
      apply ih _ h
      rw [List.mem_cons, not_or]
      exact ⟨Ne.symm hbyte, hread⟩

theorem of_mem_steps {path step : Text} (h : step ∈ steps path) : step ≠ [] ∧ slash ∉ step := by
  rw [steps, List.mem_filter] at h
  exact ⟨by simpa using h.2, slash_not_mem_piecesFrom (by simp) h.1⟩

theorem steps_cons_slash (path : Text) : steps (slash :: path) = steps path := by
  simp [steps, piecesFrom]

/-- Names with slashes between them are taken apart again. -/
theorem steps_join {names : List Text} (h : ∀ name ∈ names, IsName name) :
    steps (Text.join [slash] names) = names := by
  unfold Text.join
  induction names with
  | nil => simp [steps, piecesFrom]
  | cons name names ih =>
    rw [List.forall_mem_cons] at h
    obtain ⟨hne, hslash, -, -⟩ := h.1
    have hrest := ih h.2
    cases names with
    | nil =>
      rw [List.intercalate_singleton, steps, piecesFrom_of_no_slash [] hslash]
      simpa using hne
    | cons second names =>
      rw [steps] at hrest ⊢
      rw [List.intercalate_cons_cons, List.append_assoc, List.singleton_append,
        piecesFrom_append [] hslash, List.filter_cons_of_pos (by simpa using hne), hrest]
      rfl

theorem isAbsolute_join {names : List Text} (h : ∀ name ∈ names, IsName name) :
    isAbsolute (Text.join [slash] names) = false := by
  unfold Text.join
  cases names with
  | nil => rfl
  | cons name names =>
    obtain ⟨hne, hslash, -, -⟩ := h name List.mem_cons_self
    obtain ⟨byte, rest, rfl⟩ := List.exists_cons_of_ne_nil hne
    have hbyte : byte ≠ slash := fun hbyte => hslash (hbyte ▸ List.mem_cons_self)
    cases names <;> simp [isAbsolute, List.intercalate, hbyte]

/-! ### Places -/

theorem move_of_isName (location : Location) {step : Text} (h : IsName step) :
    move location step = step :: location := by
  rw [move, if_neg h.2.2.1, if_neg h.2.2.2]

theorem foldl_move_of_isName (location : Location) {names : List Text} (h : ∀ name ∈ names, IsName name) :
    names.foldl move location = names.reverse ++ location := by
  induction names generalizing location with
  | nil => rfl
  | cons name names ih =>
    rw [List.forall_mem_cons] at h
    rw [List.foldl_cons, move_of_isName location h.1, ih _ h.2, List.reverse_cons, List.append_assoc]
    rfl

theorem Proper.move {location : Location} (h : Proper location) {step : Text} (hne : step ≠ [])
    (hslash : slash ∉ step) : Proper (move location step) := by
  unfold Disk.move
  split
  · exact h
  · split
    · intro other hother
      exact h other (List.mem_of_mem_tail hother)
    · next hhere hup => exact List.forall_mem_cons.mpr ⟨⟨hne, hslash, hhere, hup⟩, h⟩

theorem Proper.foldl_move {location : Location} (h : Proper location) {names : List Text}
    (hnames : ∀ name ∈ names, name ≠ [] ∧ slash ∉ name) : Proper (names.foldl Disk.move location) := by
  induction names generalizing location with
  | nil => exact h
  | cons name names ih =>
    rw [List.forall_mem_cons] at hnames
    exact ih (h.move hnames.1.1 hnames.1.2) hnames.2

theorem proper_destination {home : Location} (h : Proper home) (path : Text) :
    Proper (destination home path) := by
  have hstart : Proper (start home path) := by
    unfold start
    split
    · simp [Proper]
    · exact h
  exact hstart.foldl_move fun step hstep => of_mem_steps hstep

/-- The path to a place leads to it. -/
theorem destination_pathTo (home : Location) {location : Location} (h : Proper location) :
    destination home (pathTo home location) = location := by
  unfold pathTo
  dsimp only
  split
  · next hinside =>
    obtain ⟨front, rfl⟩ := List.isSuffixOf_iff_suffix.mp hinside
    have hfront : (front ++ home).take ((front ++ home).length - home.length) = front := by
      rw [List.length_append, Nat.add_sub_cancel, List.take_left]
    have hnames : ∀ name ∈ front.reverse, IsName name := by
      intro name hname
      exact h name (List.mem_append_left _ (List.mem_reverse.mp hname))
    rw [hfront, destination, steps_join hnames, start, isAbsolute_join hnames,
      if_neg Bool.false_ne_true, foldl_move_of_isName home hnames, List.reverse_reverse]
  · have hnames : ∀ name ∈ location.reverse, IsName name := by
      intro name hname
      exact h name (List.mem_reverse.mp hname)
    have habsolute : isAbsolute (slash :: Text.join [slash] location.reverse) = true := by
      simp [isAbsolute]
    rw [destination, steps_cons_slash, steps_join hnames, start, if_pos habsolute,
      foldl_move_of_isName [] hnames, List.reverse_reverse, List.append_nil]

/-! ### Following paths -/

variable {disk other : Disk} {path : Text} {location : Location}

theorem enter_cons_ok_iff {name : Text} {names : List Text} {directory : Location} :
    disk.enter location (name :: names) = .ok directory ↔
      name.length ≤ stepLimit ∧ disk.node (move location name) = .directory ∧
        disk.enter (move location name) names = .ok directory := by
  rw [enter]
  by_cases hlong : stepLimit < name.length
  · simp [hlong, Nat.not_le_of_lt hlong]
  · cases hnode : disk.node (move location name) <;> simp [hlong, Nat.le_of_not_lt hlong, hnode]

theorem enter_eq_foldl {names : List Text} {directory : Location}
    (h : disk.enter location names = .ok directory) : directory = names.foldl move location := by
  induction names generalizing location with
  | nil => exact (Except.ok.inj h).symm
  | cons name names ih => exact ih (enter_cons_ok_iff.mp h).2.2

theorem lastPlace_eq_move {creating slashed : Bool} {directory : Location} {step : Text}
    (h : disk.lastPlace creating slashed directory step = .ok location) : location = move directory step := by
  unfold lastPlace at h
  split at h
  · exact (Except.ok.inj h).symm
  · next hname =>
    rw [not_or] at hname
    split at h
    · split at h
      · cases h
      · exact enter_eq_foldl h
    · split at h
      · cases h
      · rw [move, if_neg hname.1, if_neg hname.2]
        exact (Except.ok.inj h).symm

/-- A path can be followed if it is well formed, there is a directory before its last step, and the last
step can be made in it. -/
theorem locate_ok_iff {creating : Bool} :
    disk.locate creating path = .ok location ↔
      path.contains 0 = false ∧ path.length ≤ pathLimit ∧ path ≠ [] ∧
        match (steps path).reverse with
        | [] => start disk.home path = location
        | last :: before => ∃ directory, disk.enter (start disk.home path) before.reverse = .ok directory ∧
          disk.lastPlace creating (endsInSlash path) directory last = .ok location := by
  unfold locate
  by_cases hzero : path.contains 0 = true
  · rw [if_pos hzero, hzero]
    exact ⟨nofun, fun h => nomatch h.1⟩
  by_cases hlong : pathLimit < path.length
  · rw [if_neg hzero, if_pos hlong]
    exact ⟨nofun, fun h => absurd h.2.1 (Nat.not_le_of_lt hlong)⟩
  by_cases hempty : path.isEmpty = true
  · rw [if_neg hzero, if_neg hlong, if_pos hempty]
    exact ⟨nofun, fun h => absurd (List.isEmpty_iff.mp hempty) h.2.2.1⟩
  rw [if_neg hzero, if_neg hlong, if_neg hempty]
  have hvalid : path.contains 0 = false ∧ path.length ≤ pathLimit ∧ path ≠ [] :=
    ⟨by simpa using hzero, Nat.le_of_not_lt hlong, by simpa using hempty⟩
  simp only [hvalid, ne_eq, not_false_eq_true, true_and]
  cases (steps path).reverse with
  | nil => exact ⟨Except.ok.inj, fun h => congrArg Except.ok h⟩
  | cons last before =>
    cases henter : disk.enter (start disk.home path) before.reverse with
    | error obstacle => simp [henter, bind, Except.bind]
    | ok directory => simp [henter, bind, Except.bind]

theorem locate_eq_place {creating : Bool} (h : disk.locate creating path = .ok location) :
    location = disk.place path := by
  obtain ⟨-, -, -, hlast⟩ := locate_ok_iff.mp h
  rw [place, destination]
  split at hlast
  · next hnone =>
    rw [List.reverse_eq_nil_iff.mp hnone]
    exact hlast.symm
  · next last before hsome =>
    obtain ⟨directory, henter, hplace⟩ := hlast
    rw [List.reverse_eq_cons_iff.mp hsome, List.foldl_append, ← enter_eq_foldl henter]
    exact lastPlace_eq_move hplace

/-- Where a file can be created, one can be opened. -/
theorem locate_reading (h : disk.locate true path = .ok location) : disk.locate false path = .ok location := by
  have hlast {directory : Location} {step : Text}
      (h : disk.lastPlace true (endsInSlash path) directory step = .ok location) :
      disk.lastPlace false (endsInSlash path) directory step = .ok location := by
    unfold lastPlace at h ⊢
    split at h
    · rwa [if_pos ‹_›]
    · rw [if_neg ‹_›]
      split at h
      · cases h
      · rwa [if_neg ‹_›]
  rw [locate_ok_iff] at h ⊢
  obtain ⟨hzero, hlength, hne, hsteps⟩ := h
  refine ⟨hzero, hlength, hne, ?_⟩
  split at hsteps
  · exact hsteps
  · obtain ⟨directory, henter, hplace⟩ := hsteps
    exact ⟨directory, henter, hlast hplace⟩

/-! ### Writing files -/

/-- Two disks with the same directories, where all paths start from the same one. -/
structure SameDirectories (disk other : Disk) : Prop where
  home : other.home = disk.home
  directory : ∀ location, other.node location = .directory ↔ disk.node location = .directory

theorem sameDirectories_write (h : disk.node location ≠ .directory) (content : Text) :
    SameDirectories disk (disk.write location content) := by
  refine ⟨rfl, fun place => ?_⟩
  by_cases hplace : place = location
  · simp [write, hplace, h]
  · simp [write, hplace]

theorem SameDirectories.enter (h : SameDirectories disk other) {names : List Text} {directory : Location} :
    other.enter location names = .ok directory ↔ disk.enter location names = .ok directory := by
  induction names generalizing location with
  | nil => rfl
  | cons name names ih => rw [enter_cons_ok_iff, enter_cons_ok_iff, h.directory, ih]

theorem SameDirectories.lastPlace (h : SameDirectories disk other) {creating slashed : Bool}
    {directory : Location} {step : Text} :
    other.lastPlace creating slashed directory step = .ok location ↔
      disk.lastPlace creating slashed directory step = .ok location := by
  unfold Disk.lastPlace
  split
  · rfl
  · split
    · split
      · rfl
      · exact h.enter
    · rfl

/-- The same paths lead to the same places. -/
theorem SameDirectories.locate (h : SameDirectories disk other) {creating : Bool} :
    other.locate creating path = .ok location ↔ disk.locate creating path = .ok location := by
  rw [locate_ok_iff, locate_ok_iff, h.home]
  simp only [h.enter, h.lastPlace]

theorem readable_ok_iff {node : Node} :
    disk.readable path = .ok node ↔
      ∃ location, disk.locate false path = .ok location ∧ disk.node location = node ∧ node ≠ .vacant := by
  unfold readable
  cases hlocate : disk.locate false path with
  | error obstacle => simp [throw, throwThe, MonadExceptOf.throw]
  | ok location =>
    cases hnode : disk.node location <;>
      simp [hnode, throw, throwThe, MonadExceptOf.throw, pure, Except.pure]
    all_goals rintro rfl; simp

theorem creatable_ok_iff :
    disk.creatable path = .ok location ↔
      disk.locate true path = .ok location ∧ disk.node location ≠ .directory := by
  unfold creatable
  cases hlocate : disk.locate true path with
  | error obstacle => simp [throw, throwThe, MonadExceptOf.throw]
  | ok place =>
    cases hnode : disk.node place <;>
      simp [hnode, throw, throwThe, MonadExceptOf.throw, pure, Except.pure]
    all_goals rintro rfl; simp [hnode]

theorem write_write (disk : Disk) (location : Location) (first second : Text) :
    (disk.write location first).write location second = disk.write location second := by
  unfold write
  congr
  funext place
  split
  · rfl
  · next hplace => exact if_neg hplace

theorem write_comm (disk : Disk) {location place : Location} (h : location ≠ place) (first second : Text) :
    (disk.write location first).write place second = (disk.write place second).write location first := by
  unfold write
  congr
  funext other
  dsimp only
  split
  · next hother =>
    rw [if_neg]
    rintro rfl
    exact h hother
  · rfl

/-- The disk with files written at their places, one after another. -/
def writeAll (disk : Disk) (files : List (Location × Text)) : Disk :=
  files.foldl (fun disk file => disk.write file.1 file.2) disk

/-- The disk with files written at their paths, one after another. -/
def withFiles (disk : Disk) (files : List (Text × Text)) : Disk :=
  disk.writeAll (files.map fun file => (disk.place file.1, file.2))

theorem writeAll_append (disk : Disk) (files more : List (Location × Text)) :
    disk.writeAll (files ++ more) = (disk.writeAll files).writeAll more :=
  List.foldl_append

theorem home_writeAll (disk : Disk) (files : List (Location × Text)) :
    (disk.writeAll files).home = disk.home := by
  induction files generalizing disk with
  | nil => rfl
  | cons file files ih => exact ih (disk.write file.1 file.2)

/-- What was written before at a place that is written does not matter. -/
theorem writeAll_filter_write (disk : Disk) (files : List (Location × Text)) (location : Location)
    (content : Text) :
    (disk.writeAll (files.filter fun file => file.1 != location)).write location content =
      (disk.writeAll files).write location content := by
  induction files using List.reverseRecOn with
  | nil => rfl
  | append_singleton files file ih =>
    rw [List.filter_append, writeAll_append, writeAll_append]
    by_cases hfile : file.1 = location
    · rw [List.filter_cons_of_neg (by simpa using hfile)]
      change _ = ((disk.writeAll files).write file.1 file.2).write location content
      rw [hfile, write_write]
      exact ih
    · rw [List.filter_cons_of_pos (by simpa using hfile)]
      change (Disk.write _ file.1 file.2).write location content =
        ((disk.writeAll files).write file.1 file.2).write location content
      rw [write_comm _ hfile, ih, write_comm _ hfile]

end LittleMan.Disk
