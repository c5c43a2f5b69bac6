import GrammarWorkbench.Proofs.Breadth.Order
import GrammarWorkbench.Proofs.Workflow.Step

/-!
# The history of a workflow

The history of a workflow is told by its readings, whatever is chosen and set between them.
A reading that is refused leaves lines behind that do not belong to the rules, but such lines
can be read at no later time either, so an analysis in view is always one of the rules.
-/

namespace GrammarWorkbench

/-- A text that was read, with the answer. -/
structure Reading where
  text : String
  answer : Except RuleError Productions

namespace Reading

def productions? (reading : Reading) : Option Productions :=
  reading.answer.toOption

def Accepted (reading : Reading) : Prop :=
  ∃ productions, reading.answer = .ok productions

end Reading

namespace Workflow

/-- The workflow that begins with a text. -/
def ofText (source : String) (endMarker : Symbol) : Workflow :=
  { source, endMarker }

/-- The reading in an action, if there is one. -/
def readingsOf (workflow : Workflow) : Action → List Reading
  | .parse => [⟨workflow.source, workflow.parse.1⟩]
  | .choose _ => []
  | .setSource _ => []
  | .setEndMarker _ => []

/-- The readings among some actions, in order. -/
def readings (workflow : Workflow) : List Action → List Reading
  | [] => []
  | action :: rest => workflow.readingsOf action ++ (workflow.after action).readings rest

variable {workflow : Workflow}

/-! ## Consistency -/

/--
The parts of a workflow belong together: the choices are the left sides of the rules, lines that
can be read are those of the rules, and the analysis in view is one of the rules.
-/
structure Consistent (workflow : Workflow) : Prop where
  offers : workflow.Offers
  listed : workflow.stage ≠ .initial → Rule.Listed defaultEpsilon workflow.rules
  current : ∀ rules, Rule.readAll workflow.lines defaultEpsilon = .ok rules →
    workflow.stage ≠ .initial ∧ rules = workflow.rules
  built : ∀ analysis, workflow.stage = .built analysis → analysis.Of workflow.rules

theorem consistent_ofText (source : String) (endMarker : Symbol) :
    (ofText source endMarker).Consistent where
  offers := rfl
  listed := fun begun => absurd rfl begun
  current := fun _ read => absurd rfl (Rule.ne_nil_of_readAll read)
  built := nofun

theorem Consistent.parse (consistent : workflow.Consistent) : workflow.parse.2.Consistent := by
  obtain ⟨error, failed, step⟩ | ⟨rules, next, read, rfl, step⟩ := workflow.parse_cases
  · rw [step]
    refine ⟨consistent.offers, consistent.listed, fun rules read => ?_, consistent.built⟩
    cases failed.symm.trans read
  · rw [step]
    exact ⟨rfl, fun _ => Rule.listed_of_readAll read,
      fun _ again => ⟨nofun, Except.ok.inj (again.symm.trans read)⟩, nofun⟩

theorem Consistent.choose (consistent : workflow.Consistent) (choice : StartChoice) :
    (workflow.choose choice).2.Consistent := by
  obtain ⟨_, _, step⟩ | ⟨_, _, _, _, step⟩ | ⟨analysis, _, asked, found, searched, step⟩ :=
    workflow.choose_cases choice
  · rwa [step]
  · rwa [step]
  · rw [step]
    have begun := (chosen_eq_ok_iff.mp asked).1
    have member := mem_choices_of_chosen asked
    obtain ⟨rules, first, _, read, behind, _⟩ := rules_of_grammarOf found
    obtain rfl := (consistent.current rules read).2
    refine ⟨consistent.offers, fun _ => consistent.listed begun,
      fun other again => ⟨nofun, (consistent.current other again).2⟩, ?_⟩
    rintro other same
    cases same
    exact Analysis.of_shifted behind (consistent.offers.mem_choices.mp member) searched

theorem Consistent.after (consistent : workflow.Consistent) (action : Action) :
    (workflow.after action).Consistent := by
  cases action with
  | parse => exact consistent.parse
  | choose choice => exact consistent.choose choice
  | setSource source =>
      exact ⟨consistent.offers, consistent.listed, consistent.current, consistent.built⟩
  | setEndMarker marker =>
      exact ⟨consistent.offers, consistent.listed, consistent.current, consistent.built⟩

theorem Consistent.run (consistent : workflow.Consistent) (actions : List Action) :
    (workflow.run actions).Consistent := by
  induction actions generalizing workflow with
  | nil => exact consistent
  | cons action rest ih => exact ih (consistent.after action)

/-! ## What is in view after the readings -/

/-- The rules in view are those of the last reading that was accepted. -/
theorem productions_after (action : Action) :
    (workflow.after action).productions =
      ((workflow.readingsOf action).filterMap Reading.productions?).getLast?.getD
        workflow.productions := by
  cases action with
  | parse =>
      obtain ⟨error, _, step⟩ | ⟨rules, next, _, _, step⟩ := workflow.parse_cases
      · rw [after, readingsOf, step]
        rfl
      · rw [after, readingsOf, step]
        rfl
  | choose choice =>
      rw [after, choose_eq_stage]
      rfl
  | setSource source => rfl
  | setEndMarker marker => rfl

theorem productions_run (workflow : Workflow) (actions : List Action) :
    (workflow.run actions).productions =
      ((workflow.readings actions).filterMap Reading.productions?).getLast?.getD
        workflow.productions := by
  induction actions generalizing workflow with
  | nil => rfl
  | cons action rest ih =>
      rw [run_cons, ih, productions_after, readings, List.filterMap_append, List.getLast?_append,
        Option.getD_or]

/-- A workflow leaves its first stage by an accepted reading. -/
theorem initial_after (workflow : Workflow) (action : Action) :
    (workflow.after action).stage = .initial ↔
      workflow.stage = .initial ∧ ∀ reading ∈ workflow.readingsOf action, ¬reading.Accepted := by
  cases action with
  | parse =>
      obtain ⟨error, _, step⟩ | ⟨rules, next, _, same, step⟩ := workflow.parse_cases
      · simp [Workflow.after, readingsOf, step, Reading.Accepted]
      · simp [Workflow.after, readingsOf, step, Reading.Accepted, same]
  | choose choice =>
      obtain ⟨_, _, step⟩ | ⟨_, _, _, _, step⟩ | ⟨_, _, asked, _, _, step⟩ :=
        workflow.choose_cases choice
      · simp [Workflow.after, readingsOf, step]
      · simp [Workflow.after, readingsOf, step]
      · simp [Workflow.after, readingsOf, step, (chosen_eq_ok_iff.mp asked).1]
  | setSource source => simp [Workflow.after, readingsOf]
  | setEndMarker marker => simp [Workflow.after, readingsOf]

theorem initial_run (workflow : Workflow) (actions : List Action) :
    (workflow.run actions).stage = .initial ↔
      workflow.stage = .initial ∧ ∀ reading ∈ workflow.readings actions, ¬reading.Accepted := by
  induction actions generalizing workflow with
  | nil => simp [readings]
  | cons action rest ih =>
      rw [run_cons, ih, initial_after, and_assoc, readings]
      simp only [List.mem_append, or_imp, forall_and]

/-! ## Choices -/

theorem Offers.choices_pairwise (offers : workflow.Offers) :
    workflow.choices.Pairwise fun earlier later =>
      (workflow.rules.map Rule.lhs).idxOf earlier < (workflow.rules.map Rule.lhs).idxOf later := by
  rw [offers, Breadth.eraseDups_eq_fresh]
  exact Breadth.pairwise_findIdx_fresh id [] (workflow.rules.map Rule.lhs)

theorem Offers.choices_nodup (offers : workflow.Offers) : workflow.choices.Nodup := by
  rw [offers]
  exact Breadth.nodup_eraseDups _

theorem Consistent.choices_ne_nil (consistent : workflow.Consistent)
    (begun : workflow.stage ≠ .initial) : workflow.choices ≠ [] :=
  consistent.offers.choices_ne_nil (consistent.listed begun).ne_nil

/-! ## Refusals -/

theorem parse_of_refused {error : RuleError} (refused : workflow.parse.1 = .error error) :
    workflow.parse.2 = { workflow with lines := workflow.parse.2.lines } := by
  obtain ⟨_, _, step⟩ | ⟨_, _, _, _, step⟩ := workflow.parse_cases
  · rw [step]
  · rw [step] at refused
    cases refused

/-- After a refused reading the lines need not be those of the rules. -/
example : (((ofText "S -> a" "$").run [.parse, .setSource "S", .parse]).lines,
    ((ofText "S -> a" "$").run [.parse, .setSource "S", .parse]).rules) =
      (["S"], [⟨0, "S", ["a"], "ε"⟩]) := by
  decide

theorem choose_of_refused {choice : StartChoice}
    {refusal : Refusal} (refused : (workflow.choose choice).1 = .error refusal) :
    (workflow.choose choice).2 = workflow := by
  obtain ⟨_, _, step⟩ | ⟨_, _, _, _, step⟩ | ⟨_, _, _, _, _, step⟩ :=
    workflow.choose_cases choice
  · rw [step]
  · rw [step]
  · rw [step] at refused
    cases refused

/-! ## Every history -/

/-- What is true of a workflow after some readings. -/
structure Kept (readings : List Reading) (workflow : Workflow) : Prop where
  initial_iff : workflow.stage = .initial ↔ ∀ reading ∈ readings, ¬reading.Accepted
  last_accepted : ∀ productions,
    (readings.filterMap Reading.productions?).getLast? = some productions →
      workflow.productions = productions
  rules_ne_nil : workflow.stage ≠ .initial → workflow.rules ≠ []
  choices_ne_nil : workflow.stage ≠ .initial → workflow.choices ≠ []
  choices_nodup : workflow.choices.Nodup
  mem_choices : ∀ symbol, symbol ∈ workflow.choices ↔ ∃ rule ∈ workflow.rules, rule.lhs = symbol
  choices_pairwise : workflow.choices.Pairwise fun earlier later =>
    (workflow.rules.map Rule.lhs).idxOf earlier < (workflow.rules.map Rule.lhs).idxOf later
  built : ∀ analysis, workflow.stage = .built analysis → analysis.Of workflow.rules
  start_mem : ∀ analysis, workflow.stage = .built analysis → analysis.start ∈ workflow.choices
  parse_frame : ∀ error, workflow.parse.1 = .error error →
    workflow.parse.2 = { workflow with lines := workflow.parse.2.lines }
  choose_frame : ∀ choice refusal, (workflow.choose choice).1 = .error refusal →
    (workflow.choose choice).2 = workflow

/--
At each point of its history a workflow has the rules of the last accepted reading, the
analysis in view is one of these rules, and what is refused changes at most the lines.
-/
theorem kept_run (source : String) (endMarker : Symbol) (actions : List Action) :
    Kept ((ofText source endMarker).readings actions) ((ofText source endMarker).run actions) := by
  have begin := consistent_ofText source endMarker
  have consistent := begin.run actions
  refine ⟨?_, ?_, fun begun => (consistent.listed begun).ne_nil, consistent.choices_ne_nil,
    consistent.offers.choices_nodup, fun _ => consistent.offers.mem_choices,
    consistent.offers.choices_pairwise, consistent.built, ?_, fun _ => parse_of_refused,
    fun _ _ => choose_of_refused⟩
  · rw [initial_run]
    exact and_iff_right rfl
  · intro productions last
    rw [productions_run, last]
    rfl
  · intro analysis built
    exact consistent.offers.mem_choices.mpr (consistent.built analysis built).start

end Workflow

end GrammarWorkbench
