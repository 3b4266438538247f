import LittleMan.Toolkit
import Mathlib.Data.List.Nodup

/-!
# Which calls fail

A call gives an argument for a parameter by position or by name (`Call.Gives`), and `Call.Proper` says when its
arguments are as the function wants them. Of a language only this is assumed: that it tells arguments apart in
this way, and that it reads the integers of 32 bits as numbers (`Language.Documented`). What it says about
arguments and items that it refuses is left to it.

`Call.Fails` says which calls fail and with what fault, without going through the call, and `Call.Answers` what
the others give back and add to the report. A check of a faulty program does not fail; `Call.Finds` says what its
result is instead.
-/

namespace LittleMan

/-! ### Arguments -/

/-- The parameters of the functions, as they are documented: `assemble(source)`, `run(source, input=[])` and
`check(name, source, input=[], output=[])`. -/
def Tool.signature : Tool → List Parameter
  | .assemble => [⟨"source", .text, false⟩]
  | .run => [⟨"source", .text, false⟩, ⟨"input", .list, true⟩]
  | .check => [⟨"name", .text, false⟩, ⟨"source", .text, false⟩, ⟨"input", .list, true⟩, ⟨"output", .list, true⟩]

theorem Tool.parameters_eq_signature (tool : Tool) : tool.parameters = tool.signature := by
  cases tool <;> rfl

theorem Tool.nodup_signature (tool : Tool) : (tool.signature.map Parameter.name).Nodup := by
  cases tool <;> decide

namespace Call

/-- The argument that a call gives for a parameter. -/
inductive Gives (call : Call) (parameter : Parameter) (argument : Argument) : Prop where
  | position {i : Nat} (hparameter : call.tool.signature[i]? = some parameter)
    (hargument : call.positional[i]? = some argument)
  | keyword (hmem : (utf8 parameter.name, argument) ∈ call.keywords)

/-- The arguments of a call are right: there are not too many by position, every name is that of a parameter,
no parameter is given twice, each argument is of its parameter's kind, and none is missing that must be given. -/
structure Proper (call : Call) : Prop where
  fits : call.positional.length ≤ call.tool.signature.length
  known : ∀ entry ∈ call.keywords, ∃ parameter ∈ call.tool.signature, utf8 parameter.name = entry.1
  distinct : (call.keywords.map Prod.fst).Nodup
  apart : ∀ parameter ∈ call.tool.signature.take call.positional.length,
    utf8 parameter.name ∉ call.keywords.map Prod.fst
  kinds : ∀ parameter ∈ call.tool.signature, ∀ argument, call.Gives parameter argument →
    argument.hasKind parameter.kind = true
  required : ∀ parameter ∈ call.tool.signature, parameter.optional = false →
    ∃ argument, call.Gives parameter argument

/-- The argument that a call gives for the parameter with a name. -/
def GivesFor (call : Call) (name : String) (argument : Argument) : Prop :=
  ∃ parameter ∈ call.tool.signature, parameter.name = name ∧ call.Gives parameter argument

/-- The list that a call gives for a parameter, which is empty if it is left out. -/
inductive Lists (call : Call) (name : String) : List Item → Prop where
  | given {items : List Item} (h : call.GivesFor name (.list items)) : Lists call name items
  | omitted (h : ∀ argument, ¬ call.GivesFor name argument) : Lists call name []

end Call

/-- What is assumed of a language: it tells the arguments of a call apart if they are right, and refuses them
otherwise; and it takes just the integers of 32 bits for numbers. -/
structure Language.Documented (language : Language) : Prop where
  unpack_ok_iff (call : Call) :
    (∃ bound, language.unpack call.tool.name call.tool.signature call.positional call.keywords = .ok bound) ↔
      call.Proper
  unpack_gives {call : Call} {bound : Bound}
    (h : language.unpack call.tool.name call.tool.signature call.positional call.keywords = .ok bound)
    {parameter : Parameter} (hmem : parameter ∈ call.tool.signature) (argument : Argument) :
    bound.given? parameter.name = some argument ↔ call.Gives parameter argument
  int32_eq_ok_iff (item : Item) (n : Int) :
    language.int32 item = .ok n ↔ item = .number n ∧ -2147483648 ≤ n ∧ n ≤ 2147483647

/-! ### Items -/

/-- An item that is no memory word, and the fault that says so. -/
inductive Item.Bad (language : Language) : Item → CallFault → Prop where
  | refused {item : Item} {message : Text} (hitem : ∀ n, -2147483648 ≤ n → n ≤ 2147483647 → item ≠ .number n)
    (hmessage : language.int32 item = .error message) : Bad language item (.refused message)
  | word {n : Int} (hrange : -2147483648 ≤ n ∧ n ≤ 2147483647) (hword : ¬ (-32768 ≤ n ∧ n ≤ 32767)) :
    Bad language (.number n) (.program (.wordRange n))

/-- Words as the items of a list. -/
def itemsOfWords (words : List Word) : List Item := words.map fun word => .number word.toInt

/-- The first item that is no memory word decides. -/
def FirstBad (language : Language) (items : List Item) (fault : CallFault) : Prop :=
  ∃ words item rest, items = itemsOfWords words ++ item :: rest ∧ item.Bad language fault

section Items

variable {language : Language} {item : Item} {items : List Item} {fault : CallFault}

theorem toWord_of_word (h : language.Documented) (word : Word) :
    language.toWord (.number word.toInt) = .ok word := by
  have hlow := word.le_toInt
  have hhigh := word.toInt_lt
  have hnumber := (h.int32_eq_ok_iff (.number word.toInt) word.toInt).mpr ⟨rfl, by omega, by omega⟩
  have hrange : ¬ (word.toInt < -32768 ∨ 32767 < word.toInt) := by omega
  rw [Language.toWord, hnumber]
  change (if _ then _ else _) = _
  rw [if_neg hrange, Int16.ofInt_toInt]
  rfl

theorem Item.Bad.toWord (h : language.Documented) (hbad : item.Bad language fault) :
    language.toWord item = .error fault := by
  cases hbad with
  | refused _ hmessage =>
    rw [Language.toWord, hmessage]
    rfl
  | @word n hrange hword =>
    rw [Language.toWord, (h.int32_eq_ok_iff (.number n) n).mpr ⟨rfl, hrange⟩]
    exact if_pos (by omega)

/-- An item is a memory word, or there is something wrong with it. -/
theorem Item.word_or_bad (h : language.Documented) (item : Item) :
    (∃ word : Word, item = .number word.toInt) ∨ ∃ fault, item.Bad language fault := by
  cases hnumber : language.int32 item with
  | error message =>
    refine .inr ⟨_, .refused ?_ hnumber⟩
    intro n hlow hhigh hitem
    have hok := (h.int32_eq_ok_iff item n).mpr ⟨hitem, hlow, hhigh⟩
    rw [hnumber] at hok
    cases hok
  | ok n =>
    obtain ⟨rfl, hrange⟩ := (h.int32_eq_ok_iff item n).mp hnumber
    by_cases hword : -32768 ≤ n ∧ n ≤ 32767
    · exact .inl ⟨Int16.ofInt n, by rw [Int16.toInt_ofInt_of_le (by omega) (by omega)]⟩
    · exact .inr ⟨_, .word hrange hword⟩

theorem mapM_itemsOfWords (h : language.Documented) (words : List Word) :
    (itemsOfWords words).mapM language.toWord = .ok words := by
  induction words with
  | nil => rfl
  | cons word words ih =>
    change (Item.number word.toInt :: itemsOfWords words).mapM language.toWord = _
    rw [List.mapM_cons, toWord_of_word h, ih]
    rfl

theorem FirstBad.mapM (h : language.Documented) (hbad : FirstBad language items fault) :
    items.mapM language.toWord = .error fault := by
  obtain ⟨words, item, rest, rfl, hitem⟩ := hbad
  rw [List.mapM_append, mapM_itemsOfWords h, List.mapM_cons, hitem.toWord h]
  rfl

/-- A list is made of memory words, or has a first item that is none. -/
theorem words_or_firstBad (h : language.Documented) (items : List Item) :
    (∃ words, items = itemsOfWords words) ∨ ∃ fault, FirstBad language items fault := by
  induction items with
  | nil => exact .inl ⟨[], rfl⟩
  | cons item items ih =>
    rcases Item.word_or_bad h item with ⟨word, rfl⟩ | ⟨fault, hbad⟩
    · rcases ih with ⟨words, rfl⟩ | ⟨fault, words, bad, rest, rfl, hbad⟩
      · exact .inl ⟨word :: words, rfl⟩
      · exact .inr ⟨fault, word :: words, bad, rest, rfl, hbad⟩
    · exact .inr ⟨fault, [], item, items, rfl, hbad⟩

end Items

/-! ### Calls -/

namespace Call

/-- Why a call fails, and with what fault. Of a check's two lists the wanted output decides first. -/
inductive Fails (language : Language) (maxTicks : Int64) (call : Call) : CallFault → Prop where
  | arguments {message : Text} (hwrong : ¬ call.Proper)
    (hmessage : language.unpack call.tool.name call.tool.signature call.positional call.keywords =
      .error message) : Fails language maxTicks call (.refused message)
  | output {items : List Item} {fault : CallFault} (htool : call.tool = .check) (hproper : call.Proper)
    (hitems : call.Lists "output" items) (hbad : FirstBad language items fault) :
    Fails language maxTicks call fault
  | input {want : List Word} {items : List Item} {fault : CallFault} (htool : call.tool = .check)
    (hproper : call.Proper) (hwant : call.Lists "output" (itemsOfWords want))
    (hitems : call.Lists "input" items) (hbad : FirstBad language items fault) :
    Fails language maxTicks call fault
  | runInput {items : List Item} {fault : CallFault} (htool : call.tool = .run) (hproper : call.Proper)
    (hitems : call.Lists "input" items) (hbad : FirstBad language items fault) :
    Fails language maxTicks call fault
  | run {source : Text} {input : List Word} {fault : Fault} (htool : call.tool = .run)
    (hproper : call.Proper) (hsource : call.GivesFor "source" (.text source))
    (hinput : call.Lists "input" (itemsOfWords input))
    (hrun : runSource maxTicks source input = .error fault) : Fails language maxTicks call (.program fault)
  | assemble {source : Text} {fault : Fault} (htool : call.tool = .assemble) (hproper : call.Proper)
    (hsource : call.GivesFor "source" (.text source)) (hcompile : compile source = .error fault) :
    Fails language maxTicks call (.program fault)

/-- What a check finds that does not fail: it passes if the program runs and writes just what is wanted, and
tells the fault if it does not run. -/
structure Finds (maxTicks : Int64) (call : Call) (source : Text) (input : List Word)
    (result : CheckResult) : Prop where
  tool_eq : call.tool = .check
  proper : call.Proper
  gives_name : call.GivesFor "name" (.text result.name)
  gives_source : call.GivesFor "source" (.text source)
  lists_want : call.Lists "output" (itemsOfWords result.want)
  lists_input : call.Lists "input" (itemsOfWords input)
  passed_iff : result.passed = true ↔ runSource maxTicks source input = .ok result.want
  got_eq : result.got = (runSource maxTicks source input).toOption.getD []
  fault_iff (fault : Fault) : result.fault = some fault ↔ runSource maxTicks source input = .error fault

/-- What a call that does not fail adds to the report and gives back. A check adds what it finds and gives back
whether it passed. The others add nothing and give back numbers: the cells of the image, and what was written. -/
inductive Answers (maxTicks : Int64) (call : Call) : Report → Returned → Prop where
  | assemble {source : Text} {image : Memory} (htool : call.tool = .assemble) (hproper : call.Proper)
    (hsource : call.GivesFor "source" (.text source)) (hcompile : compile source = .ok image) :
    Answers maxTicks call [] (.numbers (image.toList.map Int16.toInt))
  | run {source : Text} {input output : List Word} (htool : call.tool = .run) (hproper : call.Proper)
    (hsource : call.GivesFor "source" (.text source)) (hinput : call.Lists "input" (itemsOfWords input))
    (hrun : runSource maxTicks source input = .ok output) :
    Answers maxTicks call [] (.numbers (output.map Int16.toInt))
  | check {source : Text} {input : List Word} {result : CheckResult}
    (hfinds : call.Finds maxTicks source input result) :
    Answers maxTicks call [result] (.truth result.passed)

end Call

section Unpacked

variable {language : Language} {maxTicks : Int64} {call : Call} {bound : Bound} {session : Session}
  {name : String}

theorem Call.Proper.exists_bound (h : language.Documented) (hproper : call.Proper) :
    ∃ bound, language.unpack call.tool.name call.tool.signature call.positional call.keywords = .ok bound :=
  (h.unpack_ok_iff call).mpr hproper

section Bound

variable (h : language.Documented)
  (hbound : language.unpack call.tool.name call.tool.signature call.positional call.keywords = .ok bound)
include h hbound

theorem given?_eq_some_iff {kind : Kind} {optional : Bool} (hmem : ⟨name, kind, optional⟩ ∈ call.tool.signature)
    {argument : Argument} : bound.given? name = some argument ↔ call.GivesFor name argument := by
  constructor
  · intro hgiven
    exact ⟨_, hmem, rfl, (h.unpack_gives hbound hmem argument).mp hgiven⟩
  · rintro ⟨parameter, hparameter, rfl, hgives⟩
    exact (h.unpack_gives hbound hparameter argument).mpr hgives

theorem text_eq {text : Text} (hmem : ⟨name, .text, false⟩ ∈ call.tool.signature)
    (htext : call.GivesFor name (.text text)) : bound.text name = text := by
  rw [Bound.text, (given?_eq_some_iff h hbound hmem).mpr htext]

theorem items_eq {items : List Item} (hmem : ⟨name, .list, true⟩ ∈ call.tool.signature)
    (hitems : call.Lists name items) : bound.items name = items := by
  cases hitems with
  | given hgiven => rw [Bound.items, (given?_eq_some_iff h hbound hmem).mpr hgiven]
  | omitted hnone =>
    have hgiven : bound.given? name = none := by
      apply Option.eq_none_iff_forall_ne_some.mpr
      intro argument hsome
      exact hnone argument ((given?_eq_some_iff h hbound hmem).mp hsome)
    rw [Bound.items, hgiven]

theorem words_of_lists {words : List Word} (hmem : ⟨name, .list, true⟩ ∈ call.tool.signature)
    (hwords : call.Lists name (itemsOfWords words)) : language.words bound name = .ok words := by
  rw [Language.words, items_eq h hbound hmem hwords, mapM_itemsOfWords h]

theorem words_of_firstBad {items : List Item} {fault : CallFault}
    (hmem : ⟨name, .list, true⟩ ∈ call.tool.signature) (hitems : call.Lists name items)
    (hbad : FirstBad language items fault) : language.words bound name = .error fault := by
  rw [Language.words, items_eq h hbound hmem hitems, hbad.mapM h]

end Bound

theorem Call.Proper.exists_text (hproper : call.Proper) (name : String)
    (hmem : ⟨name, .text, false⟩ ∈ call.tool.signature) : ∃ text, call.GivesFor name (.text text) := by
  obtain ⟨argument, hgives⟩ := hproper.required _ hmem rfl
  have hkind := hproper.kinds _ hmem _ hgives
  cases argument with
  | text text => exact ⟨text, _, hmem, rfl, hgives⟩
  | list items => cases hkind
  | other type => cases hkind

theorem Call.Proper.exists_lists (hproper : call.Proper) (name : String)
    (hmem : ⟨name, .list, true⟩ ∈ call.tool.signature) : ∃ items, call.Lists name items := by
  by_cases hgiven : ∃ argument, call.GivesFor name argument
  · obtain ⟨argument, parameter, hparameter, hname, hgives⟩ := hgiven
    obtain rfl : parameter = ⟨name, .list, true⟩ :=
      List.inj_on_of_nodup_map call.tool.nodup_signature hparameter hmem hname
    have hkind := hproper.kinds _ hmem _ hgives
    cases argument with
    | list items => exact ⟨items, .given ⟨_, hmem, rfl, hgives⟩⟩
    | text text => cases hkind
    | other type => cases hkind
  · exact ⟨[], .omitted (not_exists.mp hgiven)⟩

/-! ### What a call does -/

theorem perform_of_error {message : Text}
    (hmessage : language.unpack call.tool.name call.tool.signature call.positional call.keywords =
      .error message) : language.perform maxTicks call session = .error (.refused message) := by
  rw [Language.perform, Tool.parameters_eq_signature, hmessage]
  rfl

section Performed

variable (hbound : language.unpack call.tool.name call.tool.signature call.positional call.keywords = .ok bound)
include hbound

theorem perform_assemble (htool : call.tool = .assemble) :
    language.perform maxTicks call session = (do
      let image ← CallFault.ofProgram (compile (bound.text "source"))
      return (.ofWords image.toList, session)) := by
  rw [Language.perform, Tool.parameters_eq_signature, hbound, htool]
  rfl

theorem perform_run (htool : call.tool = .run) :
    language.perform maxTicks call session = (do
      let input ← language.words bound "input"
      let output ← CallFault.ofProgram (runSource maxTicks (bound.text "source") input)
      return (.ofWords output, session)) := by
  rw [Language.perform, Tool.parameters_eq_signature, hbound, htool]
  rfl

theorem perform_check (htool : call.tool = .check) :
    language.perform maxTicks call session = (do
      let want ← language.words bound "output"
      let input ← language.words bound "input"
      let result := CheckResult.ofRun maxTicks (bound.text "name") (bound.text "source") input want
      return (.truth result.passed, session.record result)) := by
  rw [Language.perform, Tool.parameters_eq_signature, hbound, htool]
  rfl

end Performed

theorem Call.Fails.perform (h : language.Documented) {fault : CallFault}
    (hfails : call.Fails language maxTicks fault) : language.perform maxTicks call session = .error fault := by
  cases hfails with
  | arguments _ hmessage => exact perform_of_error hmessage
  | output htool hproper hitems hbad =>
    obtain ⟨bound, hbound⟩ := hproper.exists_bound h
    rw [perform_check hbound htool, words_of_firstBad h hbound (by rw [htool]; decide) hitems hbad]
    rfl
  | input htool hproper hwant hitems hbad =>
    obtain ⟨bound, hbound⟩ := hproper.exists_bound h
    rw [perform_check hbound htool, words_of_lists h hbound (by rw [htool]; decide) hwant,
      words_of_firstBad h hbound (by rw [htool]; decide) hitems hbad]
    rfl
  | runInput htool hproper hitems hbad =>
    obtain ⟨bound, hbound⟩ := hproper.exists_bound h
    rw [perform_run hbound htool, words_of_firstBad h hbound (by rw [htool]; decide) hitems hbad]
    rfl
  | run htool hproper hsource hinput hrun =>
    obtain ⟨bound, hbound⟩ := hproper.exists_bound h
    rw [perform_run hbound htool, words_of_lists h hbound (by rw [htool]; decide) hinput,
      text_eq h hbound (by rw [htool]; decide) hsource]
    change CallFault.ofProgram (runSource _ _ _) >>= _ = _
    rw [hrun]
    rfl
  | assemble htool hproper hsource hcompile =>
    obtain ⟨bound, hbound⟩ := hproper.exists_bound h
    rw [perform_assemble hbound htool, text_eq h hbound (by rw [htool]; decide) hsource, hcompile]
    rfl

theorem finds_ofRun {programName source : Text} {input want : List Word} (htool : call.tool = .check)
    (hproper : call.Proper) (hname : call.GivesFor "name" (.text programName))
    (hsource : call.GivesFor "source" (.text source)) (hwant : call.Lists "output" (itemsOfWords want))
    (hinput : call.Lists "input" (itemsOfWords input)) :
    call.Finds maxTicks source input (.ofRun maxTicks programName source input want) := by
  unfold CheckResult.ofRun
  cases hrun : runSource maxTicks source input with
  | error fault =>
    refine ⟨htool, hproper, hname, hsource, hwant, hinput, ?_, ?_, ?_⟩
    · simp [hrun]
    · rw [hrun]
      rfl
    · simp [hrun]
  | ok got =>
    refine ⟨htool, hproper, hname, hsource, hwant, hinput, ?_, ?_, ?_⟩
    · rw [hrun, Except.ok.injEq, beq_iff_eq]
      exact eq_comm
    · rw [hrun]
      rfl
    · simp [hrun]

/-- What a check finds is what its run comes to. -/
theorem Call.Finds.ofRun_eq {source : Text} {input : List Word} {result : CheckResult}
    (hfinds : call.Finds maxTicks source input result) :
    CheckResult.ofRun maxTicks result.name source input result.want = result := by
  obtain ⟨name, passed, want, got, found⟩ := result
  have hpassed := hfinds.passed_iff
  have hgot := hfinds.got_eq
  have hfault := hfinds.fault_iff
  dsimp only at hpassed hgot hfault ⊢
  unfold CheckResult.ofRun
  cases hrun : runSource maxTicks source input with
  | error fault =>
    have hfound : found = some fault := (hfault fault).mpr hrun
    have hfailed : passed = false := by simpa [hrun] using hpassed
    rw [hgot, hrun, hfound, hfailed]
    rfl
  | ok output =>
    have hfound : found = none := Option.eq_none_iff_forall_ne_some.mpr (by simpa [hrun] using hfault)
    have hequal : passed = (want == output) := by
      rw [Bool.eq_iff_iff, hpassed, hrun, Except.ok.injEq, beq_iff_eq]
      exact eq_comm
    rw [hgot, hrun, hfound, hequal]
    rfl

/-- A session with more results in its report. -/
def Session.gain (session : Session) (found : Report) : Session :=
  { session with report := session.report ++ found.toArray }

theorem Session.gain_nil (session : Session) : session.gain [] = session := by simp [gain]

theorem Session.gain_singleton (session : Session) (result : CheckResult) :
    session.gain [result] = session.record result := by simp [gain, record]

theorem Call.Answers.perform (h : language.Documented) {found : Report} {returned : Returned}
    (hanswers : call.Answers maxTicks found returned) :
    language.perform maxTicks call session = .ok (returned, session.gain found) := by
  cases hanswers with
  | assemble htool hproper hsource hcompile =>
    obtain ⟨bound, hbound⟩ := hproper.exists_bound h
    rw [perform_assemble hbound htool, text_eq h hbound (by rw [htool]; decide) hsource, hcompile,
      Session.gain_nil]
    rfl
  | run htool hproper hsource hinput hrun =>
    obtain ⟨bound, hbound⟩ := hproper.exists_bound h
    rw [perform_run hbound htool, words_of_lists h hbound (by rw [htool]; decide) hinput,
      text_eq h hbound (by rw [htool]; decide) hsource, Session.gain_nil]
    change CallFault.ofProgram (runSource _ _ _) >>= _ = _
    rw [hrun]
    rfl
  | @check source input result hfinds =>
    have htool := hfinds.tool_eq
    obtain ⟨bound, hbound⟩ := hfinds.proper.exists_bound h
    rw [perform_check hbound htool, words_of_lists h hbound (by rw [htool]; decide) hfinds.lists_want,
      words_of_lists h hbound (by rw [htool]; decide) hfinds.lists_input,
      text_eq h hbound (by rw [htool]; decide) hfinds.gives_name,
      text_eq h hbound (by rw [htool]; decide) hfinds.gives_source, Session.gain_singleton]
    change Except.ok (Returned.truth (CheckResult.passed (.ofRun _ _ _ _ _)), session.record (.ofRun _ _ _ _ _)) = _
    rw [hfinds.ofRun_eq]

/-- A call fails, or there is an answer to it. -/
theorem Call.fails_or_answers (h : language.Documented) (maxTicks : Int64) (call : Call) :
    (∃ fault, call.Fails language maxTicks fault) ∨ ∃ found returned, call.Answers maxTicks found returned := by
  by_cases hproper : call.Proper
  · cases htool : call.tool with
    | assemble =>
      obtain ⟨source, hsource⟩ := hproper.exists_text "source" (by rw [htool]; decide)
      cases hcompile : compile source with
      | error fault => exact .inl ⟨_, .assemble htool hproper hsource hcompile⟩
      | ok image => exact .inr ⟨_, _, .assemble htool hproper hsource hcompile⟩
    | run =>
      obtain ⟨source, hsource⟩ := hproper.exists_text "source" (by rw [htool]; decide)
      obtain ⟨items, hitems⟩ := hproper.exists_lists "input" (by rw [htool]; decide)
      rcases words_or_firstBad h items with ⟨input, rfl⟩ | ⟨fault, hbad⟩
      · cases hrun : runSource maxTicks source input with
        | error fault => exact .inl ⟨_, .run htool hproper hsource hitems hrun⟩
        | ok output => exact .inr ⟨_, _, .run htool hproper hsource hitems hrun⟩
      · exact .inl ⟨fault, .runInput htool hproper hitems hbad⟩
    | check =>
      obtain ⟨programName, hname⟩ := hproper.exists_text "name" (by rw [htool]; decide)
      obtain ⟨source, hsource⟩ := hproper.exists_text "source" (by rw [htool]; decide)
      obtain ⟨wanted, hwanted⟩ := hproper.exists_lists "output" (by rw [htool]; decide)
      obtain ⟨items, hitems⟩ := hproper.exists_lists "input" (by rw [htool]; decide)
      rcases words_or_firstBad h wanted with ⟨want, rfl⟩ | ⟨fault, hbad⟩
      · rcases words_or_firstBad h items with ⟨input, rfl⟩ | ⟨fault, hbad⟩
        · exact .inr ⟨_, _, .check (finds_ofRun htool hproper hname hsource hwanted hitems)⟩
        · exact .inl ⟨fault, .input htool hproper hwanted hitems hbad⟩
      · exact .inl ⟨fault, .output htool hproper hwanted hbad⟩
  · cases hunpack : language.unpack call.tool.name call.tool.signature call.positional call.keywords with
    | error message => exact .inl ⟨_, .arguments hproper hunpack⟩
    | ok bound => exact absurd ((h.unpack_ok_iff call).mp ⟨bound, hunpack⟩) hproper

end Unpacked

/-! ### Calls in a row -/

/-- What a script asks of its host. -/
inductive Event where
  | call (call : Call)
  | print (line : Text)
deriving DecidableEq, Repr

/-- The calls among events. -/
def callsIn : List Event → List Call
  | [] => []
  | .call call :: events => call :: callsIn events
  | .print _ :: events => callsIn events

/-- What has come of events: what the calls gave back, the failure of the first call that failed, and the session
that is left. -/
structure Followed where
  returned : List Returned := []
  failure : Option Script.Failure := none
  session : Session

/-- Does what is asked for in order. A call that fails is the last, and the failure is that of the call. -/
def Host.follow (host : Host) (session : Session) : List Event → Followed
  | [] => { session }
  | .print line :: events => host.follow (host.print line session) events
  | .call call :: events =>
    match host.call call session with
    | (.error fault, after) => { failure := some (.ofCall fault), session := after }
    | (.ok returned, after) =>
      let followed := host.follow after events
      { followed with returned := returned :: followed.returned }

/-- What is assumed of a script: on a host it comes to some events. They are done in order, and the first call that
fails stops the script with its failure. -/
structure Language.Makes (language : Language) (host : Host) (script : Text) (events : List Event) : Prop where
  in_order : language.exec host script {} = ((host.follow {} events).failure, (host.follow {} events).session)

/-- What calls in a row add to the report and give back. -/
inductive AnswersInOrder (maxTicks : Int64) : List Call → Report → List Returned → Prop where
  | nil : AnswersInOrder maxTicks [] [] []
  | cons {call : Call} {calls : List Call} {found report : Report} {returned : Returned} {others : List Returned}
    (hanswers : call.Answers maxTicks found returned) (hrest : AnswersInOrder maxTicks calls report others) :
    AnswersInOrder maxTicks (call :: calls) (found ++ report) (returned :: others)

section InOrder

variable {language : Language} {maxTicks : Int64} {events : List Event}

theorem host_call_of_fails (h : language.Documented) {call : Call} {fault : CallFault}
    (hfails : call.Fails language maxTicks fault) (session : Session) :
    (language.host maxTicks).call call session = (.error fault, session) := by
  simp only [Language.host, hfails.perform h]

theorem host_call_of_answers (h : language.Documented) {call : Call} {found : Report} {returned : Returned}
    (hanswers : call.Answers maxTicks found returned) (session : Session) :
    (language.host maxTicks).call call session = (.ok returned, session.gain found) := by
  simp only [Language.host, hanswers.perform h]

/-- If no call fails, the session gains the answers to the calls, in their order. -/
theorem follow_of_not_fails (h : language.Documented)
    (hnone : ∀ call ∈ callsIn events, ¬ ∃ fault, call.Fails language maxTicks fault)
    (session : Session) :
    ∃ report, AnswersInOrder maxTicks (callsIn events) report
        ((language.host maxTicks).follow session events).returned ∧
      ((language.host maxTicks).follow session events).failure = none ∧
      ((language.host maxTicks).follow session events).session.report.toList =
        session.report.toList ++ report := by
  induction events generalizing session with
  | nil => exact ⟨[], .nil, rfl, (List.append_nil _).symm⟩
  | cons event events ih =>
    cases event with
    | print line =>
      exact ih hnone (session.print line)
    | call call =>
      rw [callsIn, List.forall_mem_cons] at hnone
      obtain ⟨found, returned, hanswers⟩ := (call.fails_or_answers h maxTicks).resolve_left hnone.1
      obtain ⟨report, hrest, hfailure, hreport⟩ := ih hnone.2 (session.gain found)
      rw [callsIn, Host.follow, host_call_of_answers h hanswers]
      refine ⟨found ++ report, .cons hanswers hrest, hfailure, ?_⟩
      rw [hreport]
      simp [Session.gain]

/-- The first call that fails decides. -/
theorem follow_of_fails (h : language.Documented) {before after : List Call} {call : Call} {fault : CallFault}
    (hcalls : callsIn events = before ++ call :: after)
    (hbefore : ∀ earlier ∈ before, ¬ ∃ fault, earlier.Fails language maxTicks fault)
    (hfails : call.Fails language maxTicks fault) (session : Session) :
    ((language.host maxTicks).follow session events).failure = some (.ofCall fault) := by
  induction events generalizing before session with
  | nil => simp [callsIn] at hcalls
  | cons event events ih =>
    cases event with
    | print line =>
      rw [Host.follow]
      exact ih hcalls hbefore _
    | call first =>
      rw [callsIn] at hcalls
      cases before with
      | nil =>
        obtain ⟨rfl, -⟩ := List.cons.inj hcalls
        rw [Host.follow, host_call_of_fails h hfails]
      | cons earlier before =>
        obtain ⟨rfl, hrest⟩ := List.cons.inj hcalls
        rw [List.forall_mem_cons] at hbefore
        obtain ⟨found, returned, hanswers⟩ := (first.fails_or_answers h maxTicks).resolve_left hbefore.1
        rw [Host.follow, host_call_of_answers h hanswers]
        exact ih hrest hbefore.2 _

end InOrder

end LittleMan
