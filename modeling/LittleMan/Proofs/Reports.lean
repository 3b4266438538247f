import LittleMan.Proofs.CallScript
import LittleMan.Proofs.Unpacking

/-!
# The report of a script

Of the language only this is assumed: what `Language.Documented` says about arguments and numbers, and that the
script comes to some events (`Language.Makes`). Then the report is what the checks among the calls have found, and
there is none if a call fails (`report_collects_checks`).

Whether a check fails depends on its arguments only, and not on the program that it runs (`fails_check_iff`).
-/

namespace LittleMan

/-! ### Whether a call fails -/

namespace Call

/-- A call gives a list for a parameter that has an item which is no memory word. -/
def HasBad (call : Call) (name : String) : Prop :=
  ∃ items, call.Lists name items ∧ ∃ item ∈ items, ∀ word : Word, item ≠ .number word.toInt

section Fails

variable {language : Language} {maxTicks : Int64} {call : Call} {name : String} {fault : CallFault}

theorem hasBad_of_firstBad {items : List Item} (hitems : call.Lists name items)
    (hbad : FirstBad language items fault) : call.HasBad name := by
  obtain ⟨words, item, rest, rfl, hitem⟩ := hbad
  refine ⟨_, hitems, item, by simp, ?_⟩
  rintro word rfl
  have hlow := word.le_toInt
  have hhigh := word.toInt_lt
  cases hitem with
  | refused hitem _ => exact hitem word.toInt (by omega) (by omega) rfl
  | word _ hword => exact hword ⟨by omega, by omega⟩

theorem HasBad.exists_firstBad (h : language.Documented) (hbad : call.HasBad name) :
    ∃ items fault, call.Lists name items ∧ FirstBad language items fault := by
  obtain ⟨items, hitems, item, hmem, hitem⟩ := hbad
  rcases words_or_firstBad h items with ⟨words, rfl⟩ | ⟨fault, hfirst⟩
  · obtain ⟨word, -, rfl⟩ := List.mem_map.mp hmem
    exact absurd rfl (hitem word)
  · exact ⟨items, fault, hitems, hfirst⟩

/-- The calls that fail are those that cannot be made. -/
theorem fails_iff_perform (h : language.Documented) (session : Session) :
    call.Fails language maxTicks fault ↔ language.perform maxTicks call session = .error fault := by
  constructor
  · intro hfails
    exact hfails.perform h
  · intro hperform
    rcases call.fails_or_answers h maxTicks with ⟨fault', hfails⟩ | ⟨found, returned, hanswers⟩
    · have hsame := (hfails.perform h).symm.trans hperform
      exact Except.error.inj hsame ▸ hfails
    · have hsame := (hanswers.perform h).symm.trans hperform
      cases hsame

theorem exists_fails_of_not_proper (h : language.Documented) (hwrong : ¬ call.Proper) :
    ∃ fault, call.Fails language maxTicks fault := by
  rcases call.fails_or_answers h maxTicks with hfails | ⟨_, _, hanswers⟩
  · exact hfails
  · cases hanswers with
    | assemble _ hproper _ _ => exact absurd hproper hwrong
    | run _ hproper _ _ _ => exact absurd hproper hwrong
    | check hfinds => exact absurd hfinds.proper hwrong

/-- A check fails because of its arguments or an item of its lists, whatever its program does. -/
theorem fails_check_iff (h : language.Documented) (htool : call.tool = .check) :
    (∃ fault, call.Fails language maxTicks fault) ↔
      ¬ call.Proper ∨ call.HasBad "output" ∨ call.HasBad "input" := by
  constructor
  · rintro ⟨fault, hfails⟩
    cases hfails with
    | arguments hwrong _ => exact .inl hwrong
    | output _ _ hitems hbad => exact .inr (.inl (hasBad_of_firstBad hitems hbad))
    | input _ _ _ hitems hbad => exact .inr (.inr (hasBad_of_firstBad hitems hbad))
    | runInput hrun | run hrun | assemble hrun => exact nomatch htool.symm.trans hrun
  · intro hreason
    by_cases hproper : call.Proper
    · rcases hreason.resolve_left (not_not_intro hproper) with hbad | hbad
      · obtain ⟨items, fault, hitems, hfirst⟩ := hbad.exists_firstBad h
        exact ⟨fault, .output htool hproper hitems hfirst⟩
      · obtain ⟨items, fault, hitems, hfirst⟩ := hbad.exists_firstBad h
        obtain ⟨wanted, hwanted⟩ := hproper.exists_lists "output" (by rw [htool]; decide)
        rcases words_or_firstBad h wanted with ⟨want, rfl⟩ | ⟨fault', hfirst'⟩
        · exact ⟨fault, .input htool hproper hwanted hitems hfirst⟩
        · exact ⟨fault', .output htool hproper hwanted hfirst'⟩
    · exact exists_fails_of_not_proper h hproper

theorem fails_run_iff (h : language.Documented) (htool : call.tool = .run) :
    (∃ fault, call.Fails language maxTicks fault) ↔
      ¬ call.Proper ∨ call.HasBad "input" ∨
        ∃ source input fault, call.GivesFor "source" (.text source) ∧ call.Lists "input" (itemsOfWords input) ∧
          runSource maxTicks source input = .error fault := by
  constructor
  · rintro ⟨fault, hfails⟩
    cases hfails with
    | arguments hwrong _ => exact .inl hwrong
    | runInput _ _ hitems hbad => exact .inr (.inl (hasBad_of_firstBad hitems hbad))
    | run _ _ hsource hinput hrun => exact .inr (.inr ⟨_, _, _, hsource, hinput, hrun⟩)
    | output hcheck | input hcheck | assemble hcheck => exact nomatch htool.symm.trans hcheck
  · intro hreason
    by_cases hproper : call.Proper
    · rcases hreason.resolve_left (not_not_intro hproper) with hbad | ⟨source, input, fault, hsource, hinput, hrun⟩
      · obtain ⟨items, fault, hitems, hfirst⟩ := hbad.exists_firstBad h
        exact ⟨fault, .runInput htool hproper hitems hfirst⟩
      · exact ⟨_, .run htool hproper hsource hinput hrun⟩
    · exact exists_fails_of_not_proper h hproper

theorem fails_assemble_iff (h : language.Documented) (htool : call.tool = .assemble) :
    (∃ fault, call.Fails language maxTicks fault) ↔
      ¬ call.Proper ∨ ∃ source fault, call.GivesFor "source" (.text source) ∧ compile source = .error fault := by
  constructor
  · rintro ⟨fault, hfails⟩
    cases hfails with
    | arguments hwrong _ => exact .inl hwrong
    | assemble _ _ hsource hcompile => exact .inr ⟨_, _, hsource, hcompile⟩
    | output hcheck | input hcheck | runInput hcheck | run hcheck => exact nomatch htool.symm.trans hcheck
  · intro hreason
    by_cases hproper : call.Proper
    · obtain ⟨source, fault, hsource, hcompile⟩ := hreason.resolve_left (not_not_intro hproper)
      exact ⟨_, .assemble htool hproper hsource hcompile⟩
    · exact exists_fails_of_not_proper h hproper

end Fails

end Call

/-! ### Reports -/

section Reports

variable {language : Language} {maxTicks : Int64} {calls : List Call} {report : Report} {returned : List Returned}

theorem exists_first_fails (h : ∃ call ∈ calls, ∃ fault, call.Fails language maxTicks fault) :
    ∃ before call after fault, calls = before ++ call :: after ∧
      (∀ earlier ∈ before, ¬ ∃ fault, earlier.Fails language maxTicks fault) ∧
      call.Fails language maxTicks fault := by
  induction calls with
  | nil => simp at h
  | cons first calls ih =>
    by_cases hfirst : ∃ fault, first.Fails language maxTicks fault
    · obtain ⟨fault, hfails⟩ := hfirst
      exact ⟨[], first, calls, fault, rfl, by simp, hfails⟩
    · obtain ⟨before, call, after, fault, rfl, hbefore, hfails⟩ := ih (by simpa [hfirst] using h)
      exact ⟨first :: before, call, after, fault, rfl, List.forall_mem_cons.mpr ⟨hfirst, hbefore⟩, hfails⟩

theorem passed_iff_failed_eq_zero (report : Report) : report.passed = true ↔ report.failed = 0 := by
  simp [Report.passed, Report.failed, List.countP_eq_zero]

/-- There is one result for each check. -/
theorem AnswersInOrder.length_eq (h : AnswersInOrder maxTicks calls report returned) :
    report.length = calls.countP fun call => call.tool == .check := by
  induction h with
  | nil => rfl
  | cons hanswers _ ih =>
    rw [List.length_append, List.countP_cons, ih]
    cases hanswers with
    | assemble htool => simp [htool]
    | run htool => simp [htool]
    | check hfinds => simp [hfinds.tool_eq, Nat.add_comm]

/-- No check has failed just if every check gave back that it passed. -/
theorem AnswersInOrder.failed_eq_zero_iff (h : AnswersInOrder maxTicks calls report returned) :
    report.failed = 0 ↔ ∀ entry ∈ calls.zip returned, entry.1.tool = .check → entry.2 = .truth true := by
  induction h with
  | nil => simp [Report.failed]
  | @cons call _ _ _ _ _ hanswers _ ih =>
    rw [List.zip_cons_cons, List.forall_mem_cons, ← ih]
    cases hanswers with
    | assemble htool => simp [htool]
    | run htool => simp [htool]
    | @check _ _ result hfinds => simp [Report.failed, hfinds.tool_eq]

theorem report_of_some {script : Text} {failure : Script.Failure} {session : Session}
    (h : language.run maxTicks script = (some failure, session)) :
    language.report maxTicks script = .error failure := by
  rw [Language.report, h]

theorem report_of_none {script : Text} {session : Session}
    (h : language.run maxTicks script = (none, session)) :
    language.report maxTicks script = .ok session.report.toList := by
  rw [Language.report, h]

end Reports

/-- A script has a report just if none of its calls fails. Otherwise it fails with the fault of the first that does,
whatever was checked before. A check fails only because of its arguments or of an item that is no memory word; to
assemble or run a program fails also if the program does. The report is what the checks have found, in their order:
each of them gives back whether it passed, and the report passes just if they all have. -/
theorem Language.report_collects_checks {language : Language} (h : language.Documented) (maxTicks : Int64)
    {script : Text} {events : List Event} (hmakes : language.Makes (language.host maxTicks) script events) :
    let calls := callsIn events
    let ended := language.report maxTicks script
    let returned := ((language.host maxTicks).follow {} events).returned
    ((∃ failure, ended = .error failure) ↔ ∃ call ∈ calls, ∃ fault, call.Fails language maxTicks fault) ∧
    (∀ before call after fault, calls = before ++ call :: after →
      (∀ earlier ∈ before, ¬ ∃ fault, earlier.Fails language maxTicks fault) →
      call.Fails language maxTicks fault → ended = .error (.ofCall fault)) ∧
    (∀ call ∈ calls, call.tool = .check →
      ((∃ fault, call.Fails language maxTicks fault) ↔
        ¬ call.Proper ∨ call.HasBad "output" ∨ call.HasBad "input")) ∧
    (∀ call ∈ calls, call.tool = .run →
      ((∃ fault, call.Fails language maxTicks fault) ↔
        ¬ call.Proper ∨ call.HasBad "input" ∨
          ∃ source input fault, call.GivesFor "source" (.text source) ∧
            call.Lists "input" (itemsOfWords input) ∧ runSource maxTicks source input = .error fault)) ∧
    (∀ call ∈ calls, call.tool = .assemble →
      ((∃ fault, call.Fails language maxTicks fault) ↔
        ¬ call.Proper ∨
          ∃ source fault, call.GivesFor "source" (.text source) ∧ compile source = .error fault)) ∧
    ((∀ call ∈ calls, ¬ ∃ fault, call.Fails language maxTicks fault) →
      ∃ report, ended = .ok report ∧ AnswersInOrder maxTicks calls report returned ∧
        (report.length = calls.countP fun call => call.tool == .check) ∧
        (report.passed = true ↔ report.failed = 0) ∧
        (report.failed = 0 ↔
          ∀ entry ∈ calls.zip returned, entry.1.tool = .check → entry.2 = .truth true)) := by
  intro calls ended returned
  have hrun : language.run maxTicks script = (((language.host maxTicks).follow {} events).failure,
      ((language.host maxTicks).follow {} events).session) := hmakes.in_order
  have hfirst : ∀ before call after fault, calls = before ++ call :: after →
      (∀ earlier ∈ before, ¬ ∃ fault, earlier.Fails language maxTicks fault) →
      call.Fails language maxTicks fault → ended = .error (.ofCall fault) := by
    intro before call after fault hcalls hbefore hfails
    rw [follow_of_fails h hcalls hbefore hfails] at hrun
    exact report_of_some hrun
  have hnone : (∀ call ∈ calls, ¬ ∃ fault, call.Fails language maxTicks fault) →
      ∃ report, ended = .ok report ∧ AnswersInOrder maxTicks calls report returned := by
    intro hfails
    obtain ⟨report, hanswers, hfailure, hreport⟩ := follow_of_not_fails h hfails {}
    rw [hfailure] at hrun
    refine ⟨report, ?_, hanswers⟩
    rw [show ended = _ from report_of_none hrun, hreport]
    rfl
  refine ⟨⟨?_, ?_⟩, hfirst, ?_, ?_, ?_, ?_⟩
  · rintro ⟨failure, hfailure⟩
    by_contra hfails
    obtain ⟨report, hreport, -⟩ := hnone (by simpa using hfails)
    rw [hreport] at hfailure
    cases hfailure
  · intro hfails
    obtain ⟨before, call, after, fault, hcalls, hbefore, hfault⟩ := exists_first_fails hfails
    exact ⟨_, hfirst before call after fault hcalls hbefore hfault⟩
  · intro call _ htool
    exact call.fails_check_iff h htool
  · intro call _ htool
    exact call.fails_run_iff h htool
  · intro call _ htool
    exact call.fails_assemble_iff h htool
  · intro hfails
    obtain ⟨report, hreport, hanswers⟩ := hnone hfails
    exact ⟨report, hreport, hanswers, hanswers.length_eq, passed_iff_failed_eq_zero report,
      hanswers.failed_eq_zero_iff⟩

/-- A script that checks two programs, of which the second does not assemble. -/
def mixed : Text :=
  utf8 "print(\"two checks\")\nzero = check(\"zero\", \"OUT\\nHLT\", output=[0])\ncheck(\"broken\", \"LDA\", [1, -2])\n"

/-- What the script asks for. -/
def mixedEvents : List Event :=
  [.print (utf8 "two checks"),
    .call
      { tool := .check
        positional := [.text (utf8 "zero"), .text (utf8 "OUT\nHLT")]
        keywords := [(utf8 "output", .list [.number 0])] },
    .call
      { tool := .check
        positional := [.text (utf8 "broken"), .text (utf8 "LDA"), .list [.number 1, .number (-2)]] }]

/-- A script that goes on to ask for a number which no memory word holds. -/
def mistaken : Text := utf8 "check(\"broken\", \"LDA\")\ncheck(\"large\", \"HLT\", [], [7, 40000])\n"

/-- What that script asks for. -/
def mistakenEvents : List Event :=
  [.call { tool := .check, positional := [.text (utf8 "broken"), .text (utf8 "LDA")] },
    .call
      { tool := .check
        positional := [.text (utf8 "large"), .text (utf8 "HLT"), .list [], .list [.number 7, .number 40000]] }]

theorem mixed_reported_and_mistaken_not :
    (∃ report, Script.language.report 0 mixed = .ok report ∧ report.length = 2 ∧ report.passed = false) ∧
      Script.language.report 0 mistaken = .error (.ofCall (.program (.wordRange 40000))) := by
  have hdocumented := Script.language_documented
  have hasked : Script.asked? mixed = some mixedEvents := by decide +kernel
  have hasked' : Script.asked? mistaken = some mistakenEvents := by decide +kernel
  have hperform : ∀ call ∈ callsIn mixedEvents ++ (callsIn mistakenEvents).take 1,
      (Script.language.perform 0 call {}).toOption.isSome = true := by decide +kernel
  have hnone : ∀ call ∈ callsIn mixedEvents ++ (callsIn mistakenEvents).take 1,
      ¬ ∃ fault, call.Fails Script.language 0 fault := by
    rintro call hmem ⟨fault, hfails⟩
    have hdone := hperform call hmem
    rw [hfails.perform hdocumented] at hdone
    cases hdone
  rw [List.forall_mem_append] at hnone
  obtain ⟨-, -, -, -, -, hended⟩ :=
    Language.report_collects_checks hdocumented 0 (Script.makes_of_asked? hasked (Script.language.host 0))
  obtain ⟨-, hfirst, -⟩ :=
    Language.report_collects_checks hdocumented 0 (Script.makes_of_asked? hasked' (Script.language.host 0))
  constructor
  · obtain ⟨report, hreport, -, hlength, hpassed, hfailed⟩ := hended hnone.1
    have hbroken : ((Script.language.host 0).follow {} mixedEvents).returned[1]? = some (.truth false) := by
      decide +kernel
    refine ⟨report, hreport, hlength, ?_⟩
    rw [Bool.eq_false_iff, ne_eq, hpassed, hfailed]
    intro hall
    have hentry : (_, Returned.truth false) ∈ (callsIn mixedEvents).zip _ :=
      List.mem_of_getElem? (List.getElem?_zip_eq_some.mpr ⟨rfl, hbroken⟩)
    exact nomatch hall _ hentry rfl
  · refine hfirst _ _ [] _ rfl hnone.2 ?_
    rw [Call.fails_iff_perform hdocumented {}]
    rfl

end LittleMan
