import GrammarWorkbench.Proofs.Rule.Accepted
import GrammarWorkbench.Proofs.Workflow.Step

/-!
# What becomes of a start symbol

Once rules have been read, a choice of one of their left sides can only fail by an end marker
that brings an arrow into the accept rule, and then the accept rule is the line to blame.
-/

namespace GrammarWorkbench.Workflow

variable {workflow : Workflow} {marker start : Symbol} {lines : List String} {rules : List Rule}
  {choice : StartChoice}

/-- Behind a left side and a marker without an arrow, lines that are rules have a grammar. -/
theorem grammarOf_ok (read : Rule.readAll lines defaultEpsilon = .ok rules)
    (writable : Rule.Writable start) (arrowless : Rule.Arrowless marker.toList) :
    ∃ grammar, grammarOf lines start marker = .ok grammar := by
  obtain ⟨error, failed⟩ | ⟨_, _, grammar, _, _, found, _⟩ := grammarOf_cases lines start marker
  · have behind := Rule.readAll_cons (Rule.ne_nil_of_readAll read)
      (Rule.acceptLine start marker) defaultEpsilon
    rw [Rule.read_acceptLine writable arrowless, read] at behind
    obtain ⟨grammar, _, built, _⟩ := Grammar.ofLines_ok behind marker
    exact ⟨grammar, (grammarOf_of_ne_nil (Rule.ne_nil_of_readAll read) start).trans built⟩
  · exact ⟨grammar, found⟩

/-- The workflow has rules in view that were read from its lines. -/
structure Ready (workflow : Workflow) : Prop where
  begun : workflow.stage ≠ .initial
  read : Rule.readAll workflow.lines defaultEpsilon = .ok workflow.rules
  offers : workflow.Offers

theorem ready_parse (read : Rule.readAll (Rule.sourceLines workflow.source) defaultEpsilon =
    .ok rules) : workflow.parse.2.Ready ∧ workflow.parse.2.rules = rules := by
  obtain ⟨error, failed, _⟩ | ⟨other, next, same, rfl, step⟩ := workflow.parse_cases
  · cases failed.symm.trans read
  · obtain rfl := Except.ok.inj (same.symm.trans read)
    rw [step]
    exact ⟨⟨nofun, read, rfl⟩, rfl⟩

namespace Ready

variable (ready : workflow.Ready)
include ready

theorem writable_of_chosen (asked : workflow.chosen choice = .ok start) : Rule.Writable start := by
  obtain ⟨rule, member, rfl⟩ := ready.offers.mem_choices.mp (mem_choices_of_chosen asked)
  exact Rule.writable_lhs_of_readAll ready.read rule member

/-- The left sides are the choices, and the first one is taken by default. -/
theorem chosen_eq_ok_iff : workflow.chosen choice = .ok start ↔
    choice = .first ∧ workflow.rules.head?.map Rule.lhs = some start ∨
      choice = .symbol start ∧ ∃ rule ∈ workflow.rules, rule.lhs = start := by
  rw [Workflow.chosen_eq_ok_iff, ready.offers.head?_choices, ready.offers.mem_choices]
  exact and_iff_right ready.begun

theorem choices_ne_nil : workflow.choices ≠ [] :=
  ready.offers.choices_ne_nil (Rule.listed_of_readAll ready.read).ne_nil

end Ready

end GrammarWorkbench.Workflow
