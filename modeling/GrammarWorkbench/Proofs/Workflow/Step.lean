import GrammarWorkbench.Proofs.Diagram.Overview
import GrammarWorkbench.Proofs.Rule.Augmented
import GrammarWorkbench.Workflow.Step

/-!
# What a step of a workflow does

A choice finds all that it looks up.  It is refused because of the choice itself or of a line,
and then nothing changes, or it leaves an analysis behind.
-/

namespace GrammarWorkbench

/-- The refusal is an answer to the one who asks, and no fault in the work behind it. -/
def Refusal.Told : Refusal → Prop
  | .rule _ => True
  | .unparsed => True
  | .unknownStart _ _ => True
  | .lookup _ => False

/-- The analysis is one of the rules behind an accept rule. -/
structure Analysis.Of (rules : List Rule) (analysis : Analysis) : Prop where
  length_eq : analysis.grammar.rules.length = rules.length + 1
  same_sides : ∀ (position : Nat) (rule : Rule), rules[position]? = some rule →
    ∃ behind, analysis.grammar.rules[position + 1]? = some behind ∧
      behind.lhs = rule.lhs ∧ behind.rhs = rule.rhs
  start : ∃ rule ∈ rules, rule.lhs = analysis.start
  conflicts : analysis.grammar.conflicts = .ok analysis.conflicts

theorem Analysis.of_shifted {rules : List Rule} {analysis : Analysis} {first : Rule}
    (behind : analysis.grammar.rules = first :: rules.map (Rule.shifted 1))
    (start : ∃ rule ∈ rules, rule.lhs = analysis.start)
    (conflicts : analysis.grammar.conflicts = .ok analysis.conflicts) : analysis.Of rules where
  length_eq := by rw [behind, List.length_cons, List.length_map]
  same_sides := by
    intro position rule found
    refine ⟨rule.shifted 1, ?_, rfl, rfl⟩
    rw [behind, List.getElem?_cons_succ, List.getElem?_map, found]
    rfl
  start := start
  conflicts := conflicts

namespace Workflow

variable {workflow : Workflow} {marker : Symbol} {lines : List String} {start : Symbol}
  {grammar : Grammar}

/-! ## Grammars of lines -/

theorem grammarOf_of_ne_nil (nonempty : lines ≠ []) (start : Symbol) :
    grammarOf lines start marker =
      Grammar.ofLines (Rule.acceptLine start marker :: lines) marker defaultEpsilon := by
  cases lines with
  | nil => exact absurd rfl nonempty
  | cons line lines =>
      simp only [grammarOf, Rule.augment, Except.mapError, bind, Except.bind]

/-- Lines that can be read together with the accept rule before them have a grammar, and other
lines are refused for what cannot be read. -/
theorem grammarOf_cases (lines : List String) (start marker : Symbol) :
    (∃ error, grammarOf lines start marker = .error (.rule error)) ∨
    ∃ rules first grammar accept, Rule.readAll lines defaultEpsilon = .ok rules ∧
      grammarOf lines start marker = .ok grammar ∧
      grammar.rules = first :: rules.map (Rule.shifted 1) ∧
      grammar.Analysed marker defaultEpsilon accept := by
  by_cases empty : lines = []
  · exact .inl ⟨_, by rw [empty]; rfl⟩
  rw [grammarOf_of_ne_nil empty]
  have behind := Rule.readAll_cons empty (Rule.acceptLine start marker) defaultEpsilon
  cases read : Rule.readAll (Rule.acceptLine start marker :: lines) defaultEpsilon with
  | error error =>
      refine .inl ⟨error, ?_⟩
      simp only [Grammar.ofLines, read, Except.mapError, bind, Except.bind]
  | ok all =>
      obtain ⟨grammar, accept, done, same, analysed⟩ := Grammar.ofLines_ok read marker
      rw [read] at behind
      cases front : Rule.read (Rule.trimmed (Rule.acceptLine start marker)) 0 defaultEpsilon with
      | error error =>
          rw [front] at behind
          cases behind
      | ok first =>
          cases rest : Rule.readAll lines defaultEpsilon with
          | error error =>
              rw [front, rest] at behind
              cases behind
          | ok rules =>
              rw [front, rest] at behind
              exact .inr ⟨rules, first, grammar, accept, rfl, done,
                same.trans (Except.ok.inj behind), analysed⟩

theorem rules_of_grammarOf (done : grammarOf lines start marker = .ok grammar) :
    ∃ rules first accept, Rule.readAll lines defaultEpsilon = .ok rules ∧
      grammar.rules = first :: rules.map (Rule.shifted 1) ∧
      grammar.Analysed marker defaultEpsilon accept := by
  obtain ⟨error, failed⟩ | ⟨rules, first, other, accept, read, found, behind, analysed⟩ :=
    grammarOf_cases lines start marker
  · cases failed.symm.trans done
  · obtain rfl := Except.ok.inj (found.symm.trans done)
    exact ⟨rules, first, accept, read, behind, analysed⟩

/-! ## Choices -/

/-- The choices are the left sides of the rules, in order and each once. -/
def Offers (workflow : Workflow) : Prop :=
  workflow.choices = (workflow.rules.map Rule.lhs).eraseDups

namespace Offers

variable (offers : workflow.Offers)
include offers

theorem mem_choices {symbol : Symbol} :
    symbol ∈ workflow.choices ↔ ∃ rule ∈ workflow.rules, rule.lhs = symbol := by
  rw [offers]
  simp

theorem head?_choices : workflow.choices.head? = workflow.rules.head?.map Rule.lhs := by
  rw [offers]
  cases workflow.rules with
  | nil => rfl
  | cons first rest =>
      rw [List.map_cons, List.eraseDups_cons]
      rfl

theorem choices_ne_nil (filled : workflow.rules ≠ []) : workflow.choices ≠ [] := by
  obtain ⟨rule, member⟩ := List.exists_mem_of_ne_nil _ filled
  exact List.ne_nil_of_mem (offers.mem_choices.mpr ⟨rule, member, rfl⟩)

end Offers

variable {choice : StartChoice}

/-- After a reading, the first choice and each choice of a left side have their start symbol. -/
theorem chosen_eq_ok_iff : workflow.chosen choice = .ok start ↔
    workflow.stage ≠ .initial ∧
      (choice = .first ∧ workflow.choices.head? = some start ∨
        choice = .symbol start ∧ start ∈ workflow.choices) := by
  unfold chosen
  split
  · rename_i initial
    simp [initial]
  · rename_i empty _
    simp [empty]
  · rename_i filled begun
    simpa [filled] using fun _ => begun
  · rename_i name begun
    split
    · grind
    · grind
  · simp

theorem mem_choices_of_chosen (done : workflow.chosen choice = .ok start) :
    start ∈ workflow.choices := by
  obtain ⟨_, ⟨_, first⟩ | ⟨_, member⟩⟩ := chosen_eq_ok_iff.mp done
  · exact List.mem_of_head? first
  · exact member

/-- A workflow that has a choice from its first reading on tells why there is no start symbol. -/
theorem told_of_chosen (filled : workflow.stage ≠ .initial → workflow.choices ≠ [])
    {refusal : Refusal} (refused : workflow.chosen choice = .error refusal) : refusal.Told := by
  unfold chosen at refused
  split at refused
  · cases refused
    trivial
  · rename_i empty begun
    exact absurd empty (filled begun)
  · cases refused
  · split at refused
    · cases refused
    · cases refused
      trivial
  · cases refused
    trivial

theorem chosen_congr {other : Workflow} (begun : workflow.stage ≠ .initial)
    (otherBegun : other.stage ≠ .initial) (same : workflow.choices = other.choices) :
    workflow.chosen choice = other.chosen choice := by
  unfold chosen
  rw [same]
  cases mine : workflow.stage with
  | initial => exact absurd mine begun
  | parsed _ | built _ =>
      cases others : other.stage with
      | initial => exact absurd others otherBegun
      | parsed _ | built _ =>
          cases choice with
          | first => cases other.choices with
            | nil | cons _ _ => rfl
          | symbol _ | other _ => rfl

/-- A choice changes nothing but the stage. -/
theorem choose_eq_stage (choice : StartChoice) :
    (workflow.choose choice).2 =
      { workflow with stage := (workflow.choose choice).2.stage } := by
  unfold choose
  split
  · rfl
  · rfl

theorem choose_of_chosen_error {refusal : Refusal}
    (refused : workflow.chosen choice = .error refusal) :
    workflow.choose choice = (.error refusal, workflow) := by
  simp only [choose, analyse, refused, bind, Except.bind]

/-- A choice is refused, the lines are, or the analysis of their grammar comes into view. -/
theorem choose_cases (workflow : Workflow) (choice : StartChoice) :
    (∃ refusal, workflow.chosen choice = .error refusal ∧
      workflow.choose choice = (.error refusal, workflow)) ∨
    (∃ start error, workflow.chosen choice = .ok start ∧
      grammarOf workflow.lines start workflow.endMarker = .error (.rule error) ∧
      workflow.choose choice = (.error (.rule error), workflow)) ∨
    ∃ analysis overview, workflow.chosen choice = .ok analysis.start ∧
      grammarOf workflow.lines analysis.start workflow.endMarker = .ok analysis.grammar ∧
      analysis.grammar.conflicts = .ok analysis.conflicts ∧
      workflow.choose choice =
        (.ok ⟨analysis, overview⟩, { workflow with stage := .built analysis }) := by
  cases asked : workflow.chosen choice with
  | error refusal => exact .inl ⟨refusal, rfl, choose_of_chosen_error asked⟩
  | ok start =>
      obtain ⟨error, failed⟩ | ⟨_, _, grammar, accept, _, found, _, analysed⟩ :=
        grammarOf_cases workflow.lines start workflow.endMarker
      · refine .inr (.inl ⟨start, error, rfl, failed, ?_⟩)
        simp only [choose, analyse, asked, failed, Except.mapError, bind, Except.bind,
          Refusal.ofFailure]
      · obtain ⟨conflicts, searched⟩ : ∃ conflicts, grammar.conflicts = .ok conflicts :=
          ⟨_, analysed.supplied.conflicts_eq⟩
        obtain ⟨overview, viewed⟩ :=
          analysed.overview_ok {} (analysed.within_of_conflicts searched)
        refine .inr (.inr ⟨⟨grammar, start, conflicts⟩, overview, rfl, found, searched, ?_⟩)
        simp only [choose, analyse, asked, found, searched, view, viewed, Except.mapError, bind,
          Except.bind, pure, Except.pure]

/-! ## Readings -/

/-- A reading is refused and only the lines are new, or the rules of the lines come into view. -/
theorem parse_cases (workflow : Workflow) :
    (∃ error, Rule.readAll (Rule.sourceLines workflow.source) defaultEpsilon = .error error ∧
      workflow.parse =
        (.error error, { workflow with lines := Rule.sourceLines workflow.source })) ∨
    ∃ rules next, Rule.readAll (Rule.sourceLines workflow.source) defaultEpsilon = .ok rules ∧
      next = { workflow with
        lines := Rule.sourceLines workflow.source
        rules
        choices := (rules.map Rule.lhs).eraseDups
        stage := .parsed workflow.analysis? } ∧
      workflow.parse = (.ok next.productions, next) := by
  cases read : Rule.readAll (Rule.sourceLines workflow.source) defaultEpsilon with
  | error error => exact .inl ⟨error, rfl, by simp only [parse, read]⟩
  | ok rules => exact .inr ⟨rules, _, rfl, rfl, by simp only [parse, read]⟩

end Workflow

end GrammarWorkbench
