import LittleMan.Fault

/-!
# Lines

A source line is blank, or a mnemonic with what it takes: an address for the addressed ones, at most
a number for data, and nothing for the others. `Line.ofTokens` cuts tokens into lines and stops at the
first token that cannot stand where it does. What can stand somewhere is looked up in a table, by the
tag in front of it and by whether the line is still empty.
-/

namespace LittleMan

/-- A set of tags, with one bit for each. -/
structure TagSet where
  bits : UInt16 := 0
deriving DecidableEq, Repr

namespace TagSet

/-- The bit of a tag. -/
def bit (tag : Tag) : UInt16 := 1 <<< UInt16.ofNat tag.code.toNat

/-- The set of some tags. -/
def ofTags (tags : List Tag) : TagSet := ⟨tags.foldl (fun bits tag => bits ||| bit tag) 0⟩

/-- Whether a tag is in a set. One that no token class has is in none. -/
def has (set : TagSet) : Tag → Bool
  | .unknown _ => false
  | tag => set.bits &&& bit tag != 0

end TagSet

/-- The tokens of a line, without its end. -/
abbrev Line := List Token

namespace Line

/-- What decides on the next token: the tag in front of it, and whether the line has no tokens yet. A source
begins as if an empty line stood in front of it. -/
structure State where
  previous : Tag := .endOfLine
  lineEmpty : Bool := true
deriving DecidableEq, Repr

namespace State

/-- What can follow a tag, for the tags behind which it is the same on an empty line as on any other. -/
def rules : List (Tag × TagSet) :=
  let addressed := TagSet.ofTags [.literal]
  let final := TagSet.ofTags [.endOfLine]
  let lineStart := TagSet.ofTags (.endOfLine :: Mnemonic.all.map .mnemonic)
  [(.mnemonic (.addressed .load), addressed), (.mnemonic (.addressed .store), addressed),
    (.mnemonic (.addressed .add), addressed), (.mnemonic (.addressed .subtract), addressed),
    (.mnemonic (.addressed .branch), addressed), (.mnemonic (.addressed .branchIfZero), addressed),
    (.mnemonic (.addressed .branchIfNotNegative), addressed), (.literal, final),
    (.mnemonic .halt, final), (.mnemonic .output, final), (.mnemonic .input, final),
    (.endOfLine, lineStart)]

/-- What can follow each state. -/
def transitions : List (State × TagSet) :=
  rules.flatMap (fun rule => [(⟨rule.1, true⟩, rule.2), (⟨rule.1, false⟩, rule.2)]) ++
    [(⟨.mnemonic .data, true⟩, .ofTags [.literal]),
      (⟨.mnemonic .data, false⟩, .ofTags [.literal, .endOfLine])]

/-- The tags that can follow a state, and none behind a state that the table does not have. -/
def permitted (state : State) : TagSet := (transitions.lookup state).getD {}

end State

/-- A line that is not blank: the token that leads it and those behind. -/
structure Group where
  lead : Token
  rest : List Token
deriving DecidableEq, Repr

namespace Group

/-- The tokens of a group. -/
def line (group : Group) : Line := group.lead :: group.rest

/-- The group of a line that is not blank. -/
def ofLine? : Line → Option Group
  | [] => none
  | lead :: rest => some { lead, rest }

end Group

/-- What has been grouped of a token list: the lines that ended, the tokens of the one that has not,
and the state behind the last token. -/
structure Progress where
  groups : Array Group := #[]
  current : Array Token := #[]
  state : State := {}
deriving Repr

namespace Progress

/-- The line ends here; a blank one leaves nothing behind. -/
def endLine (p : Progress) : Progress :=
  { p with groups := p.groups ++ (Group.ofLine? p.current.toList).toArray, current := #[] }

/-- The next token. -/
def read (p : Progress) (token : Token) : Except Fault Progress :=
  if p.state.permitted.has token.tag then
    let taken := if token.tag = .endOfLine then p.endLine else { p with current := p.current.push token }
    .ok { taken with state := { previous := token.tag, lineEmpty := taken.current.isEmpty } }
  else .error (.inLine token.line (.unexpected token))

/-- The end of the tokens: a line without its end must still be complete. -/
def finish (p : Progress) : Except Fault Progress :=
  match p.current.back? with
  | none => .ok p
  | some last =>
    if p.state.permitted.has .endOfLine then .ok p.endLine
    else .error (.inLine last.line (.unexpected (.endOfLine last.line)))

end Progress

/-- The lines that are not blank, in order. -/
def groups (tokens : List Token) : Except Fault (List Group) := do
  let read ← tokens.foldlM Progress.read {}
  let finished ← read.finish
  return finished.groups.toList

/-- The tokens of the lines that are not blank, in order. -/
def ofTokens (tokens : List Token) : Except Fault (List Line) :=
  (groups tokens).map (·.map Group.line)

end Line

end LittleMan
