import BindingSuite.Proofs.Shuffling
import BindingSuite.Scenario.Catalogue

/-! # Runs

What a run leaves behind, whatever the compiler does: the report of every case, each made by one
call on the text of the case, in the order of the seed.

* `Compiler.recording` is a compiler that records its calls, and `recorded` what it makes of an
  action; `recorded_bind_ok` and `recorded_mapM` put actions together;
* `compared` holds an outcome against an expectation, and `Case.Reports` says of a report that it is
  the right one on a case; `exists_reports` makes it with one call;
* `runCases_reports` concludes for the cases of a list of scenarios. -/

namespace BindingSuite

/-! ## Recorded calls -/

/-- A compiler that answers as a function says, or else fails with the message that it gives. It
records the texts that it is asked about, the latest one last. -/
def Compiler.recording (name : String) (outcome : String → Except String Answer) :
    Compiler (StateM (List String)) where
  name := name
  compile source := ExceptT.mk do
    modify fun calls => calls ++ [source]
    return (outcome source).mapError .notRun

/-- What comes of an action after some calls: its result, and all calls until then. -/
def recorded {ε α : Type} (action : ExceptT ε (StateM (List String)) α) (calls : List String) :
    Except ε α × List String :=
  action.run.run calls

section Actions

variable {ε δ α β : Type} {action : ExceptT ε (StateM (List String)) α}
  {next : α → ExceptT ε (StateM (List String)) β} {calls later : List String}

/-- A result that is given calls nothing. -/
theorem recorded_mk (result : Except ε α) :
    recorded (ExceptT.mk (pure result)) calls = (result, calls) := rfl

/-- Where an action succeeds, the next one goes on. -/
theorem recorded_bind_ok {value : α} (first : recorded action calls = (.ok value, later)) :
    recorded (action >>= next) calls = recorded (next value) later := by
  unfold recorded at first ⊢
  rw [ExceptT.run_bind, StateT.run_bind, first]
  rfl

/-- Where an action fails, there is no next one. -/
theorem recorded_bind_error {error : ε} (first : recorded action calls = (.error error, later)) :
    recorded (action >>= next) calls = (.error error, later) := by
  unfold recorded at first ⊢
  rw [ExceptT.run_bind, StateT.run_bind, first]
  rfl

/-- A result and its failures are taken as they come. -/
theorem recorded_lift {result : Except ε α} (first : recorded action calls = (result, later)) :
    recorded (ExceptT.lift action.run : ExceptT δ _ _) calls = (.ok result, later) := by
  unfold recorded at first ⊢
  rw [ExceptT.run_lift, StateT.run_map, first]
  rfl

/-- Actions that succeed with one call each do so one after another. -/
theorem recorded_mapM {actions : α → ExceptT ε (StateM (List String)) β} {call : β → String}
    {inputs : List α} {results : List β}
    (each : List.Forall₂ (fun input result => ∀ calls,
      recorded (actions input) calls = (.ok result, calls ++ [call result])) inputs results)
    (calls : List String) :
    recorded (inputs.mapM actions) calls = (.ok results, calls ++ results.map call) := by
  induction each generalizing calls with
  | nil =>
    rw [List.mapM_nil, List.map_nil, List.append_nil]
    exact recorded_mk _
  | cons first _ ih =>
    rw [List.mapM_cons, recorded_bind_ok (first calls), recorded_bind_ok (ih _), List.map_cons,
      List.append_assoc]
    exact recorded_mk _

end Actions

/-! ## Single cases -/

/-- An outcome held against an expectation. -/
def compared (expected : Bool) (source : String) :
    Except String Answer → Except ExpectationError Answer
  | .ok answer =>
    if answer.accepted = expected then .ok answer
    else .error (.mismatch ⟨source, expected, answer⟩)
  | .error message => .error (.noAnswer (.notRun message))

section Cases

variable {name : String} {outcome : String → Except String Answer}

/-- An expectation takes one call. -/
theorem recorded_expect (expected : Bool) (source : String) (calls : List String) :
    recorded ((Compiler.recording name outcome).expect expected source) calls =
      (compared expected source (outcome source), calls ++ [source]) := by
  have compiled : recorded (((Compiler.recording name outcome).compile source).adapt
      ExpectationError.noAnswer) calls =
      (((outcome source).mapError .notRun).mapError .noAnswer, calls ++ [source]) := rfl
  cases isOutcome : outcome source with
  | error message =>
    rw [isOutcome] at compiled
    exact recorded_bind_error compiled
  | ok answer =>
    rw [isOutcome] at compiled
    refine (recorded_bind_ok compiled).trans ?_
    rw [compared]
    split <;> rfl

/-- The run of a case takes one call. -/
theorem recorded_run {case : Case} {source : String} {verdict : Verdict}
    (isSynthesized : case.synthesize = .ok (source, verdict)) (calls : List String) :
    recorded (case.run (.recording name outcome)) calls =
      (case.report source verdict.accepted name
        (compared verdict.accepted source (outcome source)), calls ++ [source]) := by
  unfold Case.run
  rw [isSynthesized]
  refine (recorded_bind_ok (recorded_mk _)).trans ?_
  exact (recorded_bind_ok (recorded_lift (recorded_expect _ _ _))).trans (recorded_mk _)

/-- A report is the right one on a case, for a compiler of some name and outcomes. -/
structure Case.Reports (case : Case) (name : String) (outcome : String → Except String Answer)
    (report : CaseReport) : Prop where
  /-- It is about the scenario of the case. -/
  scenario : report.scenario = case.scenario.name
  /-- It is about the combination of the case. -/
  combination : report.combination = case.combination
  /-- Its text is that of the program, and it expects what the verdict on the program says. -/
  program : ∃ program, case.scenario.build case.combination = .ok program ∧
    program.text = .ok report.source ∧ report.expected = program.verdict.accepted
  /-- It has no answer where the compiler fails. -/
  actual_error : report.actual = none ↔ ∃ message, outcome report.source = .error message
  /-- Otherwise it has the compiler's answer. -/
  actual_ok : ∀ answer, outcome report.source = .ok answer → report.actual = some answer.accepted
  /-- It passes exactly when the answer is the expected one. -/
  passed : report.passed = true ↔ report.actual = some report.expected
  /-- It comes of the case by itself, with one call on its text. -/
  recorded : ∀ calls, recorded (case.run (.recording name outcome)) calls =
    (.ok report, calls ++ [report.source])

/-- A report made of an outcome holds its answer, if there is one, and shows an error unless this is
the expected one. -/
theorem exists_report_compared (case : Case) (source : String) (expected : Bool) (name : String)
    (result : Except String Answer) :
    ∃ error, case.report source expected name (compared expected source result) =
        .ok ⟨case.scenario.name, case.combination, source, expected,
          result.toOption.map Answer.accepted, error⟩ ∧
      (error.isNone = true ↔ result.toOption.map Answer.accepted = some expected) := by
  cases result with
  | error message => exact ⟨some _, rfl, by simp [Except.toOption]⟩
  | ok answer =>
    rw [compared]
    by_cases same : answer.accepted = expected
    · rw [if_pos same]
      exact ⟨none, rfl, by simp [Except.toOption, same]⟩
    · rw [if_neg same]
      exact ⟨some _, rfl, by simp [Except.toOption, same]⟩

/-- A case whose program has a text has a report. -/
theorem exists_reports {case : Case} {program : Program} {source : String}
    (isProgram : case.scenario.build case.combination = .ok program)
    (isText : program.text = .ok source) : ∃ report, case.Reports name outcome report := by
  have isSynthesized : case.synthesize = .ok (source, program.verdict) := by
    rw [Case.synthesize, isProgram]
    change (program.text.mapError CaseError.render >>= _) = _
    rw [isText]
    rfl
  obtain ⟨error, isReport, passes⟩ := exists_report_compared case source
    program.verdict.accepted name (outcome source)
  exact ⟨⟨case.scenario.name, case.combination, source, program.verdict.accepted,
    (outcome source).toOption.map Answer.accepted, error⟩, {
      scenario := rfl
      combination := rfl
      program := ⟨program, isProgram, isText, rfl⟩
      actual_error := by
        cases outcome source <;> simp [Except.toOption]
      actual_ok := fun answer answered => by
        rw [answered]
        rfl
      passed := passes
      recorded := fun calls => by
        rw [recorded_run isSynthesized, isReport] }⟩

end Cases

/-! ## All cases -/

/-- Some scenarios have as many cases as their sizes say. -/
theorem length_casesOf (scenarios : List Scenario) :
    (casesOf scenarios).length = (scenarios.map Scenario.size).sum := by
  rw [casesOf, List.length_flatMap]
  congr 1
  refine List.map_congr_left fun scenario _ => ?_
  rw [Scenario.cases, List.length_map]
  exact ParameterSpace.length_combinationsOf _

/-- A list whose elements are all related to something is related to a list, one by one. -/
theorem exists_forall₂ {α β : Type} {relation : α → β → Prop} {firsts : List α}
    (each : ∀ first ∈ firsts, ∃ second, relation first second) :
    ∃ seconds, List.Forall₂ relation firsts seconds := by
  induction firsts with
  | nil => exact ⟨[], .nil⟩
  | cons first rest ih =>
    obtain ⟨⟨second, related⟩, others⟩ := List.forall_mem_cons.mp each
    obtain ⟨seconds, relatedRest⟩ := ih others
    exact ⟨second :: seconds, .cons related relatedRest⟩

/-- A run loses, repeats and mixes up nothing. Where every case has a program with a text, there is
the right report on each case, and a run makes these reports, in the order of its seed, with one
call each on their texts. The reports are as many as the sizes of the scenarios say. Without a seed
they stay in the order of the cases. With one, as long as their number has at most 64 bits, they are
shuffled by swaps with places drawn from the seed. -/
theorem runCases_reports (scenarios : List Scenario) (name : String)
    (outcome : String → Except String Answer) (seed : Option Int)
    (rendered : ∀ case ∈ casesOf scenarios, ∃ program source,
      case.scenario.build case.combination = .ok program ∧ program.text = .ok source) :
    ∃ reports, List.Forall₂ (fun case report => case.Reports name outcome report)
        (casesOf scenarios) reports ∧
      (∀ calls, recorded (runCases scenarios (.recording name outcome) seed) calls =
        (.ok (inOrder seed reports), calls ++ (inOrder seed reports).map (·.source))) ∧
      (inOrder seed reports).Perm reports ∧
      (inOrder seed reports).length = (scenarios.map Scenario.size).sum ∧
      (seed = none → inOrder seed reports = reports) ∧
      ∀ given, seed = some given → reports.length < 2 ^ 64 →
        Shuffles (reports.length - 1) (.ofSeed given) reports.toArray
          (inOrder seed reports).toArray := by
  have each : ∀ case ∈ casesOf scenarios, ∃ report, case.Reports name outcome report := by
    intro case member
    obtain ⟨program, source, isProgram, isText⟩ := rendered case member
    exact exists_reports isProgram isText
  obtain ⟨reports, related⟩ := exists_forall₂ each
  refine ⟨reports, related, fun calls => ?_, inOrder_perm seed reports, ?_, ?_, ?_⟩
  · -- The reports are in the order in which their cases are run.
    exact recorded_mapM ((forall₂_inOrder related seed).imp fun _ _ reported => reported.recorded)
      calls
  · rw [(inOrder_perm seed reports).length_eq, ← related.length_eq, length_casesOf]
  · rintro rfl
    rfl
  · rintro given rfl bounded
    exact shuffles_shuffle given bounded

/-- Three cases, two of them the same, with a seed and a compiler that fails on short texts. -/
theorem runCases_reports_repeated :
    ∃ reports : List CaseReport,
      (∀ calls, recorded (runCases
          [Scenario.functionScope, Scenario.privateModuleScope, Scenario.functionScope]
          (.recording "stub" fun source =>
            if source.length < 60 then .error "too short" else .ok ⟨true, []⟩)
          (some (-1234))) calls =
        (.ok (inOrder (some (-1234)) reports),
          calls ++ (inOrder (some (-1234)) reports).map (·.source))) ∧
      reports.length = 3 ∧
      Shuffles 2 (.ofSeed (-1234)) reports.toArray (inOrder (some (-1234)) reports).toArray := by
  have cases : casesOf
      [Scenario.functionScope, Scenario.privateModuleScope, Scenario.functionScope] =
      [⟨Scenario.functionScope, []⟩, ⟨Scenario.privateModuleScope, []⟩,
        ⟨Scenario.functionScope, []⟩] := rfl
  obtain ⟨reports, -, run, permuted, length, -, shuffled⟩ := runCases_reports
    [Scenario.functionScope, Scenario.privateModuleScope, Scenario.functionScope] "stub"
    (fun source => if source.length < 60 then .error "too short" else .ok ⟨true, []⟩)
    (some (-1234)) (by
      rw [cases]
      refine List.forall_mem_cons.mpr ⟨⟨_, _, rfl, rfl⟩, List.forall_mem_cons.mpr
        ⟨⟨_, _, rfl, rfl⟩, List.forall_mem_singleton.mpr ⟨_, _, rfl, rfl⟩⟩⟩)
  have three : reports.length = 3 := by
    rw [← permuted.length_eq, length]
    rfl
  have inOrder := shuffled (-1234) rfl (by rw [three]; decide)
  rw [three] at inOrder
  exact ⟨reports, run, three, inOrder⟩

end BindingSuite
