import GrammarWorkbench.Proofs.Workflow.History

/-!
# Independence of the history

What a choice gives depends on the last reading only.  If it was accepted, the choice gives the
grammar of its text, as in a workflow that has just read that text, and otherwise nothing.
-/

namespace GrammarWorkbench

/-- The start symbol that a choice asks for among the left sides of rules, none by default. -/
def StartChoice.Asks (rules : List Rule) : StartChoice → Option Symbol → Prop
  | .first, start? => start? = none
  | .symbol name, start? => start? = some name ∧ ∃ rule ∈ rules, rule.lhs = name
  | .other _, _ => False

namespace Workflow

variable {workflow : Workflow} {marker : Symbol} {choice : StartChoice} {text : String}

/-- The choice is refused, and told so. -/
def Refuses (workflow : Workflow) (choice : StartChoice) : Prop :=
  ∃ refusal, refusal.Told ∧ (workflow.choose choice).1 = .error refusal

/-- The choice gives a grammar when there is one, and the answer that it has elsewhere. -/
structure Gives (workflow : Workflow) (choice : StartChoice) (sought : Except Failure Grammar)
    (elsewhere : Workflow) : Prop where
  accepted_iff : (∃ construction, (workflow.choose choice).1 = .ok construction) ↔
    ∃ grammar, sought = .ok grammar
  refused : ∀ failure, sought = .error failure → workflow.Refuses choice
  stored : ∀ grammar, sought = .ok grammar →
    (workflow.choose choice).2.analysis?.map Analysis.grammar = some grammar
  answer_eq : (workflow.choose choice).1 = (elsewhere.choose choice).1

/-- What all choices give after the last reading, with an end marker. -/
def Answers (workflow : Workflow) (marker : Symbol) : Option Reading → Prop
  | some ⟨text, .ok productions⟩ => ∀ choice : StartChoice,
      (∀ start?, choice.Asks productions.rules start? →
        workflow.Gives choice (Grammar.ofText text start? marker defaultEpsilon)
          (ofText text marker).parse.2) ∧
      ((∀ start?, ¬choice.Asks productions.rules start?) → workflow.Refuses choice)
  | some ⟨_, .error _⟩ => ∀ choice, workflow.Refuses choice
  | none => ∀ choice, workflow.Refuses choice

/-! ## The lines that were read last -/

theorem lines_parse (workflow : Workflow) :
    workflow.parse.2.lines = Rule.sourceLines workflow.source := by
  obtain ⟨_, _, step⟩ | ⟨_, _, _, rfl, step⟩ := workflow.parse_cases
  · rw [step]
  · rw [step]

theorem endMarker_parse (workflow : Workflow) :
    workflow.parse.2.endMarker = workflow.endMarker := by
  obtain ⟨_, _, step⟩ | ⟨_, _, _, rfl, step⟩ := workflow.parse_cases
  · rw [step]
  · rw [step]

theorem lines_after (action : Action) :
    (workflow.after action).lines =
      ((workflow.readingsOf action).getLast?.map fun reading =>
        Rule.sourceLines reading.text).getD workflow.lines := by
  cases action with
  | parse => exact workflow.lines_parse
  | choose choice =>
      rw [after, choose_eq_stage]
      rfl
  | setSource source => rfl
  | setEndMarker marker => rfl

theorem lines_run (workflow : Workflow) (actions : List Action) :
    (workflow.run actions).lines =
      ((workflow.readings actions).getLast?.map fun reading =>
        Rule.sourceLines reading.text).getD workflow.lines := by
  induction actions generalizing workflow with
  | nil => rfl
  | cons action rest ih =>
      rw [run_cons, ih, lines_after, readings, List.getLast?_append, Option.map_or, Option.getD_or]

/-- A reading answers with the rules of its text. -/
theorem answer_of_mem_readings {actions : List Action} {reading : Reading}
    (member : reading ∈ workflow.readings actions) :
    reading.answer.map Productions.rules =
      Rule.readAll (Rule.sourceLines reading.text) defaultEpsilon := by
  induction actions generalizing workflow with
  | nil => cases member
  | cons action rest ih =>
      cases List.mem_append.mp member with
      | inr later => exact ih later
      | inl now =>
          cases action with
          | parse =>
              obtain rfl := List.mem_singleton.mp now
              obtain ⟨_, failed, step⟩ | ⟨_, _, read, rfl, step⟩ := workflow.parse_cases
              · rw [failed, step]
                rfl
              · rw [read, step]
                rfl
          | choose choice => cases now
          | setSource source => cases now
          | setEndMarker marker => cases now

theorem readAll_lines_run (source : String) (endMarker : Symbol) (actions : List Action) :
    Rule.readAll ((ofText source endMarker).run actions).lines defaultEpsilon =
      match ((ofText source endMarker).readings actions).getLast? with
      | some reading => reading.answer.map Productions.rules
      | none => .error .noRules := by
  rw [lines_run]
  cases last : ((ofText source endMarker).readings actions).getLast? with
  | none => rfl
  | some reading => exact (answer_of_mem_readings (List.mem_of_getLast? last)).symm

/-! ## Choices and grammars of texts -/

theorem grammar_ofText_some (text : String) (start marker : Symbol) :
    Grammar.ofText text (some start) marker defaultEpsilon =
      grammarOf (Rule.sourceLines text) start marker :=
  rfl

/-- By default the grammar of a text starts at the left side of its first rule. -/
theorem grammar_ofText_none {first : Rule} {rest : List Rule}
    (read : Rule.readAll (Rule.sourceLines text) defaultEpsilon = .ok (first :: rest)) :
    Grammar.ofText text none marker defaultEpsilon =
      grammarOf (Rule.sourceLines text) first.lhs marker := by
  have trimmed : ∀ line ∈ Rule.sourceLines text, Rule.trimmed line = line :=
    fun _ => Rule.trimmed_of_mem_sourceLines
  rw [Grammar.ofText, Rule.augment_none trimmed read]
  rfl

theorem Offers.asks_of_chosen (offers : workflow.Offers) {start : Symbol}
    (done : workflow.chosen choice = .ok start) :
    ∃ start?, choice.Asks workflow.rules start? := by
  obtain ⟨_, ⟨rfl, _⟩ | ⟨rfl, member⟩⟩ := chosen_eq_ok_iff.mp done
  · exact ⟨none, rfl⟩
  · exact ⟨some start, rfl, offers.mem_choices.mp member⟩

/-- What is asked for is chosen, and the grammar that is sought is the one of the lines. -/
theorem Offers.chosen_of_asks (offers : workflow.Offers) {start? : Option Symbol} (marker : Symbol)
    (begun : workflow.stage ≠ .initial)
    (read : Rule.readAll (Rule.sourceLines text) defaultEpsilon = .ok workflow.rules)
    (asks : choice.Asks workflow.rules start?) :
    ∃ start, workflow.chosen choice = .ok start ∧
      Grammar.ofText text start? marker defaultEpsilon =
        grammarOf (Rule.sourceLines text) start marker := by
  cases choice with
  | first =>
      cases asks
      obtain ⟨first, rest, rules⟩ :=
        List.exists_cons_of_ne_nil (Rule.listed_of_readAll read).ne_nil
      have head : workflow.choices.head? = some first.lhs := by
        rw [offers.head?_choices, rules]
        rfl
      exact ⟨first.lhs, chosen_eq_ok_iff.mpr ⟨begun, .inl ⟨rfl, head⟩⟩,
        grammar_ofText_none (rules ▸ read)⟩
  | symbol name =>
      obtain ⟨rfl, member⟩ := asks
      exact ⟨name, chosen_eq_ok_iff.mpr ⟨begun, .inr ⟨rfl, offers.mem_choices.mpr member⟩⟩,
        grammar_ofText_some text name marker⟩
  | other shown => cases asks

/-- Consistent workflows with the same lines, which can be read, answer alike. -/
theorem Consistent.choose_agree {other : Workflow} {rules : List Rule}
    (consistent : workflow.Consistent) (otherConsistent : other.Consistent)
    (read : Rule.readAll workflow.lines defaultEpsilon = .ok rules)
    (sameLines : other.lines = workflow.lines) (sameMarker : other.endMarker = workflow.endMarker)
    (choice : StartChoice) : (workflow.choose choice).1 = (other.choose choice).1 := by
  obtain ⟨begun, same⟩ := consistent.current rules read
  obtain ⟨otherBegun, otherSame⟩ := otherConsistent.current rules (sameLines ▸ read)
  have sameChoices : other.choices = workflow.choices := by
    rw [consistent.offers, otherConsistent.offers, ← same, ← otherSame]
  have sameAnalysis : other.analyse choice = workflow.analyse choice := by
    rw [analyse, analyse, chosen_congr otherBegun begun sameChoices, sameLines, sameMarker]
  rw [Workflow.choose, Workflow.choose, sameAnalysis]
  cases workflow.analyse choice with
  | error refusal => rfl
  | ok analysis => rfl

/-- Where lines cannot be read, no choice gives anything. -/
theorem Consistent.refuses_of_unread (consistent : workflow.Consistent) {error : RuleError}
    (unread : Rule.readAll workflow.lines defaultEpsilon = .error error) (choice : StartChoice) :
    workflow.Refuses choice := by
  obtain ⟨refusal, refused, step⟩ | ⟨_, error, _, _, step⟩ | ⟨_, _, _, found, _, _⟩ :=
    workflow.choose_cases choice
  · exact ⟨refusal, told_of_chosen consistent.choices_ne_nil refused, by rw [step]⟩
  · exact ⟨.rule error, trivial, by rw [step]⟩
  · obtain ⟨rules, _, _, read, _⟩ := rules_of_grammarOf found
    cases unread.symm.trans read

theorem Consistent.refuses_of_not_asks (consistent : workflow.Consistent)
    (silent : ∀ start?, ¬choice.Asks workflow.rules start?) :
    workflow.Refuses choice := by
  cases asked : workflow.chosen choice with
  | error refusal =>
      exact ⟨refusal, told_of_chosen consistent.choices_ne_nil asked,
        by rw [choose_of_chosen_error asked]⟩
  | ok start =>
      obtain ⟨start?, asks⟩ := consistent.offers.asks_of_chosen asked
      exact absurd asks (silent start?)

/-- A choice that asks for a start symbol gives the grammar of the text behind the lines. -/
theorem Consistent.gives (consistent : workflow.Consistent) {start? : Option Symbol}
    (lines : workflow.lines = Rule.sourceLines text)
    (read : Rule.readAll workflow.lines defaultEpsilon = .ok workflow.rules)
    (asks : choice.Asks workflow.rules start?) :
    workflow.Gives choice (Grammar.ofText text start? workflow.endMarker defaultEpsilon)
      (ofText text workflow.endMarker).parse.2 := by
  have begun := (consistent.current _ read).1
  obtain ⟨start, asked, sought⟩ :=
    consistent.offers.chosen_of_asks workflow.endMarker begun (lines ▸ read) asks
  have fresh := (consistent_ofText text workflow.endMarker).parse
  have agree := consistent.choose_agree fresh read ((lines_parse _).trans lines.symm)
    (endMarker_parse _) choice
  rw [sought, ← lines]
  obtain ⟨refusal, refused, step⟩ | ⟨_, error, chosen, failed, step⟩ |
    ⟨analysis, overview, chosen, found, _, step⟩ := workflow.choose_cases choice
  · cases refused.symm.trans asked
  · obtain rfl := Except.ok.inj (chosen.symm.trans asked)
    refine ⟨?_, ?_, ?_, agree⟩
    · rw [step, failed]
      simp
    · intro failure _
      exact ⟨.rule error, trivial, by rw [step]⟩
    · intro grammar found
      cases failed.symm.trans found
  · obtain rfl := Except.ok.inj (chosen.symm.trans asked)
    refine ⟨?_, ?_, ?_, agree⟩
    · rw [step, found]
      simp
    · intro failure failed
      cases failed.symm.trans found
    · intro grammar again
      rw [step]
      exact congrArg some (Except.ok.inj (found.symm.trans again))

/-! ## Every history -/

/--
At each point of its history a workflow answers by the reading before it: each choice gives
the grammar of the text that was read, with the end marker of the moment, and the answer of a
workflow that has only read that text, but none if the reading was refused.
-/
theorem answers_run (source : String) (endMarker : Symbol) (actions : List Action) :
    ((ofText source endMarker).run actions).Answers
      ((ofText source endMarker).run actions).endMarker
      ((ofText source endMarker).readings actions).getLast? := by
  have consistent := (consistent_ofText source endMarker).run actions
  have lines := lines_run (ofText source endMarker) actions
  have read := readAll_lines_run source endMarker actions
  cases last : ((ofText source endMarker).readings actions).getLast? with
  | none =>
      rw [last] at read
      exact consistent.refuses_of_unread read
  | some reading =>
      obtain ⟨text, answer⟩ := reading
      rw [last] at read lines
      cases answer with
      | error error => exact consistent.refuses_of_unread read
      | ok productions =>
          have same : productions.rules = ((ofText source endMarker).run actions).rules :=
            (consistent.current _ read).2
          rw [Answers, same]
          refine fun choice => ⟨fun start? asks => ?_, fun silent => ?_⟩
          · exact consistent.gives lines (same ▸ read) asks
          · exact consistent.refuses_of_not_asks silent

end Workflow

end GrammarWorkbench
