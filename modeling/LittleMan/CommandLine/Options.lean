import LittleMan.Text.Quoted

/-!
# Options of the command line

An option begins with one dash or two. Its value follows an equals sign or is the next argument; a switch
takes a value only behind an equals sign. Options end at the first argument that is not one, at a single
dash, or behind two dashes.
-/

namespace LittleMan.CommandLine

/-- What the options say. -/
structure Options where
  /-- The source file to assemble. -/
  source : Text := []
  /-- The file that the image is written to. -/
  output : Text := utf8 "out_mem_map.txt"
  /-- The image file to load instead of assembling. -/
  image : Text := []
  /-- Whether the image is run. -/
  run : Bool := false
  /-- Where the tape is read from. -/
  tapeInput : Text := utf8 "-"
  /-- Where the tape is written to. -/
  tapeOutput : Text := utf8 "-"
  /-- The check script to run. -/
  script : Text := []
  /-- Whether everything is logged. -/
  verbose : Bool := false
deriving DecidableEq, Repr

/-- What the command line says of its options. -/
def usage : Text := utf8
  "Usage of lmc:
  -T string
    \tTape output (default \"-\")
  -i string
    \t.lmc source file to compile
  -m string
    \tMemory image file to load instead of compiling
  -o string
    \tMemory image output file (default \"out_mem_map.txt\")
  -r\tRun the memory image
  -s string
    \t.star check script to run
  -t string
    \tTape input (default \"-\")
  -v\tVerbose mode
"

/-- What is wrong with the arguments. -/
inductive OptionFault where
  | malformed (argument : Text)
  | unknown (name : Text)
  | missingValue (name : Text)
  | notABoolean (name value : Text)
deriving DecidableEq, Repr

/-- The wording of what is wrong. -/
def OptionFault.message : OptionFault → Text
  | .malformed argument => utf8 "bad flag syntax: " ++ argument
  | .unknown name => utf8 "flag provided but not defined: -" ++ name
  | .missingValue name => utf8 "flag needs an argument: -" ++ name
  | .notABoolean name value =>
    utf8 "invalid boolean value " ++ value.quoted ++ utf8 " for -" ++ name ++ utf8 ": parse error"

/-- What the arguments come to. -/
inductive Parsed where
  | options (options : Options) (rest : List Text)
  | help
  | wrong (fault : OptionFault)
deriving DecidableEq, Repr

/-- An option: a text to be set, or a switch. -/
inductive Setting where
  | text (set : Options → Text → Options)
  | switch (set : Options → Bool → Options)

/-- The option with a name. -/
def setting? (name : Text) : Option Setting :=
  let settings : List (String × Setting) :=
    [("i", .text fun o v => { o with source := v }), ("o", .text fun o v => { o with output := v }),
      ("m", .text fun o v => { o with image := v }), ("r", .switch fun o v => { o with run := v }),
      ("t", .text fun o v => { o with tapeInput := v }),
      ("T", .text fun o v => { o with tapeOutput := v }),
      ("s", .text fun o v => { o with script := v }),
      ("v", .switch fun o v => { o with verbose := v })]
  (settings.find? fun entry => utf8 entry.1 == name).map Prod.snd

/-- The boolean that a word spells. -/
def boolean? (word : Text) : Option Bool :=
  if (["1", "t", "T", "TRUE", "true", "True"].map utf8).contains word then some true
  else if (["0", "f", "F", "FALSE", "false", "False"].map utf8).contains word then some false
  else none

/-- An argument that is an option: its name, and its value behind an equals sign. -/
def split (body : Text) : Text × Option Text :=
  match body.idxOf? 61 with
  | some i => (body.take i, some (body.drop (i + 1)))
  | none => (body, none)

/-- What an argument is. -/
inductive ArgumentShape where
  /-- The first argument that is not an option. -/
  | plain
  /-- Two dashes. -/
  | terminator
  | malformed
  | named (name : Text) (value : Option Text)

/-- The shape of the name behind the dashes. -/
def shapeOfBody : Text → ArgumentShape
  | [] | 45 :: _ | 61 :: _ => .malformed
  | body => .named (split body).1 (split body).2

/-- The shape of an argument. -/
def shape : Text → ArgumentShape
  | [45, 45] => .terminator
  | 45 :: 45 :: body => shapeOfBody body
  | [45] => .plain
  | 45 :: body => shapeOfBody body
  | _ => .plain

/-- Goes through the arguments. -/
def parse (options : Options) : List Text → Parsed
  | [] => .options options []
  | argument :: rest =>
    match shape argument with
    | .plain => .options options (argument :: rest)
    | .terminator => .options options rest
    | .malformed => .wrong (.malformed argument)
    | .named name value =>
      match setting? name, value, rest with
      | none, _, _ =>
        if name = utf8 "help" ∨ name = utf8 "h" then .help else .wrong (.unknown name)
      | some (.switch set), none, rest => parse (set options true) rest
      | some (.switch set), some value, rest =>
        match boolean? value with
        | some b => parse (set options b) rest
        | none => .wrong (.notABoolean name value)
      | some (.text set), some value, rest => parse (set options value) rest
      | some (.text set), none, value :: rest => parse (set options value) rest
      | some (.text _), none, [] => .wrong (.missingValue name)

end LittleMan.CommandLine
