import LittleMan.Proofs.Compilation

/-!
# Requests to an assembler

One assembler serves request after request: to assemble a source, or what a reader gives. What it answers
depends on the text of the request alone, and is what the stages give one after the other. The commands
that it keeps are those of the last text that could be read to its end, and none if that text was refused
by any stage; a reader that breaks off leaves no trace.
-/

namespace LittleMan.Assembler

/-- The commands and the image of a source, taken from stage to stage. -/
def stages (source : Text) : Except Fault (List Command × Memory) := do
  let tokens ← Source.lex (Source.normalize source)
  let lines ← Line.ofTokens tokens
  let commands ← Command.ofLines lines
  let image ← Memory.assemble commands
  return (commands, image)

/-- The commands that the stages leave behind: none if one of them fails. -/
def commandsLeft : Except Fault (List Command × Memory) → List Command
  | .ok (commands, _) => commands
  | .error _ => []

theorem image_compile_eq_stages (assembler : Assembler) (source : Text) :
    (assembler.compile source).image = Prod.snd <$> stages source := by
  rw [image_compile, stages]
  simp only [bind_assoc, map_bind, map_pure, bind_pure]

theorem assembler_compile (assembler : Assembler) (source : Text) :
    (assembler.compile source).assembler =
      { assembler with commands := commandsLeft (stages source) } := by
  unfold compile stages
  rw [← bind_assoc, Line.bind_ofTokens]
  dsimp only
  cases Source.lex (Source.normalize source) >>= Line.groups with
  | error fault => rfl
  | ok groups =>
    have hcommands := fst_commandsWithNotes #[] #[] groups
    simp only [List.nil_append, bind_pure] at hcommands
    change _ = { assembler with commands := commandsLeft (do
      let commands ← Command.ofLines (groups.map Line.Group.line)
      let image ← Memory.assemble commands
      return (commands, image)) }
    rw [← hcommands]
    dsimp only
    cases (commandsWithNotes #[] #[] groups).1 with
    | error fault => rfl
    | ok commands =>
      change _ = { assembler with commands := commandsLeft (do
        let image ← Memory.assemble commands
        return (commands, image)) }
      dsimp only
      cases Memory.assemble commands <;> rfl

/-! ### One request after the other -/

/-- What an assembler can be asked to assemble: a source, or what a reader gives. -/
inductive Job where
  | compile (source : Text)
  | parse (reader : Reader)

/-- A job, and whether notes are wanted. -/
structure Request where
  job : Job
  verbose : Bool

namespace Request

/-- The text of a request, or the fault of a reader that breaks off. -/
def text (request : Request) : Except Fault Text :=
  match request.job with
  | .compile source => .ok source
  | .parse reader =>
    match reader.fault with
    | none => .ok reader.pending
    | some fault => .error fault

/-- The image that a request gets. -/
def image (request : Request) : Except Fault Memory := do
  let text ← request.text
  Prod.snd <$> stages text

/-- The commands that are kept after a request, given those that were kept before it. -/
def keep (kept : List Command) (request : Request) : List Command :=
  match request.text with
  | .ok text => commandsLeft (stages text)
  | .error _ => kept

end Request

/-- What an assembler answers to a request, noting down what it does if that is wanted. -/
def serve (assembler : Assembler) (request : Request) : Assembly :=
  match request.job with
  | .compile source => { assembler with verbose := request.verbose }.compile source
  | .parse reader => { assembler with verbose := request.verbose }.parse reader

/-- What an assembler answers to requests that come one after the other. -/
def serveAll (assembler : Assembler) : List Request → List Assembly
  | [] => []
  | request :: requests =>
    assembler.serve request :: (assembler.serve request).assembler.serveAll requests

theorem serve_request (assembler : Assembler) (request : Request) :
    (assembler.serve request).image = request.image ∧
      (assembler.serve request).assembler.commands = request.keep assembler.commands := by
  have hcompiled (verbose : Bool) (text : Text) :
      ({ assembler with verbose }.compile text).image = Prod.snd <$> stages text ∧
        ({ assembler with verbose }.compile text).assembler.commands = commandsLeft (stages text) :=
    ⟨image_compile_eq_stages _ text, congrArg Assembler.commands (assembler_compile _ text)⟩
  obtain ⟨source | reader, verbose⟩ := request
  · exact hcompiled verbose source
  · simp only [serve, parse, Request.image, Request.keep, Request.text]
    cases reader.fault with
    | none => exact hcompiled verbose reader.pending
    | some fault => exact ⟨rfl, rfl⟩

/-- Each of many requests to one assembler gets what the stages make of its text alone, whether or not notes
are wanted, or the fault of its reader. After each, the commands kept are those of its text, none if the
text was refused, and the ones from before if the text could not be read to its end. -/
theorem serveAll_serves_each_alone (start : Assembler) (requests : List Request) :
    (start.serveAll requests).map Assembly.image = requests.map Request.image ∧
      (start.serveAll requests).map (fun served => served.assembler.commands) =
        (requests.scanl Request.keep start.commands).tail := by
  induction requests generalizing start with
  | nil => exact ⟨rfl, rfl⟩
  | cons request requests ih =>
    obtain ⟨himage, hcommands⟩ := serve_request start request
    obtain ⟨himages, hkept⟩ := ih (start.serve request).assembler
    constructor
    · rw [serveAll, List.map_cons, List.map_cons, himage, himages]
    · rw [serveAll, List.map_cons, hkept, hcommands, List.scanl_cons, List.tail_cons]
      cases requests <;> simp

end LittleMan.Assembler
