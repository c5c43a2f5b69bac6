import GrammarWorkbench.Proofs.Workflow.Independence
import GrammarWorkbench.Proofs.Workflow.Reread
import GrammarWorkbench.Proofs.Workflow.Start

/-!
# What the accept rule wraps

The start symbol goes into the accept rule as a word of a line, and the line is read as any other.
The left side of a rule is one word without an arrow, so it comes back as it was, unless it is
the word for the empty right side: then nothing but the end marker is behind the arrow.
-/

namespace GrammarWorkbench

open Text (Solid isBlank)

variable {start marker epsilon : Symbol}

namespace Rule

/-- An end marker that is one word leaves no blank at the end of the accept line. -/
theorem wrapped_of_solid (solid : Solid marker.toList) :
    wrapped start marker = ' ' :: start.toList ++ ' ' :: marker.toList := by
  obtain ⟨front, last, split⟩ : ∃ front last, marker.toList = front ++ [last] :=
    ⟨_, _, (List.dropLast_append_getLast solid.ne_nil).symm⟩
  have unbroken : isBlank last = false := solid.not_blank last (by simp [split])
  have whole : ' ' :: start.toList ++ ' ' :: marker.toList =
      (' ' :: start.toList ++ ' ' :: front) ++ [last] := by
    simp [split]
  rw [wrapped, whole, List.rdropWhile_concat_neg _ _ _ (by simp [unbroken])]

theorem readSymbols_wrapped (begins : Solid start.toList) (ends : Solid marker.toList)
    (epsilon : Symbol) :
    readSymbols epsilon (wrapped start marker) = [start, marker].filter (· ≠ epsilon) := by
  have read : Text.words (wrapped start marker) = [start.toList, marker.toList] := by
    rw [wrapped_of_solid ends, Text.words_append_cons Text.isBlank_space,
      Text.words_cons Text.isBlank_space, begins.words_eq, ends.words_eq, List.singleton_append]
  simp [readSymbols, read]

/-- The rule that the accept line is read as. -/
def accepting (start marker : Symbol) : Rule :=
  ⟨0, acceptSymbol, readSymbols defaultEpsilon (wrapped start marker), defaultEpsilon⟩

theorem token_lhs_of_readAll {lines : List String} {rules : List Rule}
    (read : readAll lines epsilon = .ok rules) : ∀ rule ∈ rules, Token rule.lhs :=
  fun rule member => (printable_of_readFrom (readFrom_of_readAll read) rule member).lhs

end Rule

namespace Workflow

variable {workflow : Workflow} {lines : List String} {rules : List Rule} {grammar : Grammar}
  {choice : StartChoice}

/-- The accept rule stands before the rules of the lines, which keep their order. -/
theorem rules_of_grammarOf_ok (read : Rule.readAll lines defaultEpsilon = .ok rules)
    (writable : Rule.Writable start) (arrowless : Rule.Arrowless marker.toList)
    (done : grammarOf lines start marker = .ok grammar) :
    grammar.rules = Rule.accepting start marker :: rules.map (Rule.shifted 1) := by
  have some := Rule.ne_nil_of_readAll read
  have behind := Rule.readAll_cons some (Rule.acceptLine start marker) defaultEpsilon
  rw [Rule.read_acceptLine writable arrowless, read] at behind
  obtain ⟨other, _, built, same, _⟩ := Grammar.ofLines_ok behind marker
  rw [grammarOf_of_ne_nil some, built] at done
  exact Except.ok.inj done ▸ same

/-- What is built for a choice has the accept rule before the rules that were read. -/
theorem Ready.exists_choose_ok (ready : workflow.Ready)
    (asked : workflow.chosen choice = .ok start)
    (arrowless : Rule.Arrowless workflow.endMarker.toList) :
    ∃ construction, (workflow.choose choice).1 = .ok construction ∧
      (workflow.choose choice).2.stage = .built construction.analysis ∧
      construction.analysis.start = start ∧
      construction.analysis.grammar.rules =
        Rule.accepting start workflow.endMarker :: workflow.rules.map (Rule.shifted 1) := by
  have writable := ready.writable_of_chosen asked
  obtain ⟨_, refused, _⟩ | ⟨other, _, chosen, failed, _⟩ | ⟨analysis, _, chosen, found, _, step⟩ :=
    workflow.choose_cases choice
  · cases refused.symm.trans asked
  · obtain rfl := Except.ok.inj (chosen.symm.trans asked)
    obtain ⟨grammar, built⟩ := grammarOf_ok ready.read writable arrowless
    cases failed.symm.trans built
  · obtain rfl := Except.ok.inj (chosen.symm.trans asked)
    exact ⟨_, by rw [step], by rw [step], rfl,
      rules_of_grammarOf_ok ready.read writable arrowless found⟩

/-- The first choices after a reading are the left sides, and each can be asked for. -/
theorem chosen_of_offered {productions : Productions} (done : workflow.parse.1 = .ok productions)
    (offered : start ∈ productions.choices) :
    workflow.parse.2.Ready ∧ workflow.parse.2.rules = productions.rules ∧
      workflow.parse.2.chosen (.symbol start) = .ok start ∧
      ∃ rule ∈ productions.rules, rule.lhs = start := by
  obtain ⟨rules, read, rfl⟩ := parse_eq_ok_iff.mp done
  obtain ⟨ready, same⟩ := ready_parse read
  obtain ⟨rule, member, left⟩ : ∃ rule ∈ rules, rule.lhs = start := by simpa using offered
  exact ⟨ready, same, ready.chosen_eq_ok_iff.mpr (.inr ⟨rfl, rule, same ▸ member, left⟩), rule,
    member, left⟩

/--
A grammar is built for each choice after a reading.  Its first rule wraps the chosen start symbol
before the end marker, unless this symbol is the word for the empty right side: then the first
rule has the end marker only.
-/
theorem choose_wraps (marked : workflow.endMarker = marker) (word : Solid marker.toList)
    (noArrow : ¬ arrow.toList <:+: marker.toList) (proper : marker ≠ defaultEpsilon)
    {productions : Productions} (done : workflow.parse.1 = .ok productions)
    (offered : start ∈ productions.choices) :
    ∃ construction accept,
      (workflow.parse.2.choose (.symbol start)).1 = .ok construction ∧
      (workflow.parse.2.choose (.symbol start)).2.stage = .built construction.analysis ∧
      construction.analysis.start = start ∧
      construction.analysis.grammar.rules = accept :: productions.rules.map (Rule.shifted 1) ∧
      accept.lhs = acceptSymbol ∧
      accept.rhs = if start = defaultEpsilon then [marker] else [start, marker] := by
  obtain ⟨ready, same, asked, rule, member, rfl⟩ := chosen_of_offered done offered
  have still : workflow.parse.2.endMarker = marker :=
    (endMarker_parse workflow).trans marked
  have begins := (Rule.token_lhs_of_readAll ready.read rule (same ▸ member)).solid
  obtain ⟨construction, built, stage, start, rules⟩ :=
    ready.exists_choose_ok asked (Rule.arrowless_iff.mpr (still ▸ noArrow))
  rw [still] at rules
  refine ⟨construction, _, built, stage, start, same ▸ rules, rfl, ?_⟩
  show Rule.readSymbols defaultEpsilon (Rule.wrapped rule.lhs marker) = _
  rw [Rule.readSymbols_wrapped begins word]
  by_cases empty : rule.lhs = defaultEpsilon
  · simp [empty, proper]
  · simp [empty, proper]

/-- A dash as start symbol makes no arrow with the end marker behind it. -/
theorem choose_wraps_dash : ∃ productions construction accept,
    (ofText "S -> -\n--> S >" ">").parse.1 = .ok productions ∧ productions.choices = ["S", "-"] ∧
      ((ofText "S -> -\n--> S >" ">").parse.2.choose (.symbol "-")).1 = .ok construction ∧
      construction.analysis.grammar.rules = accept :: productions.rules.map (Rule.shifted 1) ∧
      accept.lhs = "$accept" ∧ accept.rhs = ["-", ">"] := by
  have read : Rule.readAll (Rule.sourceLines "S -> -\n--> S >") defaultEpsilon =
      .ok [⟨0, "S", ["-"], "ε"⟩, ⟨1, "-", ["S", ">"], "ε"⟩] := by
    rfl
  have done : (ofText "S -> -\n--> S >" ">").parse.1 = .ok _ :=
    parse_eq_ok_iff.mpr ⟨_, read, rfl⟩
  obtain ⟨construction, accept, built, _, _, rules, left, right⟩ :=
    @choose_wraps "-" ">" _ rfl ⟨by decide, List.forall_mem_singleton.mpr rfl⟩ (by decide)
      (by decide) _ done (by decide)
  exact ⟨_, construction, accept, done, by decide, built, rules, left, right⟩

/-- The word for the empty right side may be a left side, and is then lost in the accept rule. -/
theorem exists_start_not_wrapped : ∃ productions construction,
    (ofText "ε -> a" "$").parse.1 = .ok productions ∧ "ε" ∈ productions.choices ∧
      ((ofText "ε -> a" "$").parse.2.choose (.symbol "ε")).1 = .ok construction ∧
      construction.analysis.start = "ε" ∧
      construction.analysis.grammar.rules =
        [⟨0, "$accept", ["$"], "ε"⟩, ⟨1, "ε", ["a"], "ε"⟩] := by
  have read : Rule.readAll (Rule.sourceLines "ε -> a") defaultEpsilon =
      .ok [⟨0, "ε", ["a"], "ε"⟩] := by
    rfl
  have done : (ofText "ε -> a" "$").parse.1 = .ok _ := parse_eq_ok_iff.mpr ⟨_, read, rfl⟩
  have offered : "ε" ∈ ["ε"] := List.mem_singleton_self _
  obtain ⟨ready, same, asked, _⟩ := chosen_of_offered done offered
  obtain ⟨construction, built, _, start, rules⟩ :=
    ready.exists_choose_ok asked (by unfold Rule.Arrowless; decide)
  refine ⟨_, construction, done, offered, built, start, ?_⟩
  rw [rules, same, endMarker_parse]
  decide

end Workflow

end GrammarWorkbench
