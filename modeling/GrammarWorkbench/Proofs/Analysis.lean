import GrammarWorkbench.Grammar
import GrammarWorkbench.Proofs.Automaton.ViablePrefix
import GrammarWorkbench.Proofs.Conflict.Detection
import GrammarWorkbench.Proofs.Sets.Follow

/-!
# What an analysed grammar holds

Rules that were read can be analysed.  The grammar has their exact first and follow sets
and their automaton, and its detector finds all that it looks up.
-/

namespace GrammarWorkbench.Grammar

/-- The grammar was analysed from listed rules, of which the accept rule is the first. -/
structure Analysed (grammar : Grammar) (endMarker epsilon : Symbol) (accept : Rule) : Prop where
  listed : Rule.Listed epsilon grammar.rules
  head : grammar.rules.head? = some accept
  ruleset_eq : grammar.ruleset = Ruleset.ofRules grammar.rules
  start_eq : grammar.start = accept.lhs
  first : Ruleset.FirstExact (Ruleset.ofRules grammar.rules) epsilon grammar.first
  follow : Ruleset.FollowExact (Ruleset.ofRules grammar.rules) accept.lhs endMarker grammar.follow
  automaton_eq : grammar.automaton = (Ruleset.ofRules grammar.rules).automatonFrom accept

theorem ofRules_ok {rules : List Rule} {epsilon : Symbol} (listed : Rule.Listed epsilon rules)
    (endMarker : Symbol) :
    ∃ grammar accept, ofRules rules endMarker epsilon = .ok grammar ∧ grammar.rules = rules ∧
      grammar.Analysed endMarker epsilon accept := by
  obtain ⟨accept, others, split⟩ := List.exists_cons_of_ne_nil listed.ne_nil
  have head : rules[0]? = some accept := by rw [split]; rfl
  have member : accept ∈ rules := List.mem_of_getElem? head
  obtain ⟨first, firstDone, firstExact⟩ := Ruleset.firstSets_ok listed
  obtain ⟨follow, followDone, followExact⟩ := Ruleset.followSets_ok listed firstExact
    (Ruleset.lhs_mem_nonterminals member) endMarker
  have automatonDone : (Ruleset.ofRules rules).automaton =
      .ok ((Ruleset.ofRules rules).automatonFrom accept) := by
    rw [Ruleset.automaton, Ruleset.rules_ofRules, split]
  have zero : itemAt rules 0 = .ok accept := itemAt_of_getElem? head
  refine ⟨⟨Ruleset.ofRules rules, accept.lhs, first, follow,
    (Ruleset.ofRules rules).automatonFrom accept⟩, accept, ?_, rfl,
    ⟨listed, ?_, rfl, rfl, firstExact, followExact, rfl⟩⟩
  · simp only [ofRules, zero, bind, Except.bind, firstDone, followDone, automatonDone]
    rfl
  · show rules.head? = some accept
    rw [split]
    rfl

/-- Lines that are read as rules have an analysed grammar. -/
theorem ofLines_ok {lines : List String} {epsilon : Symbol} {rules : List Rule}
    (read : Rule.readAll lines epsilon = .ok rules) (endMarker : Symbol) :
    ∃ grammar accept, ofLines lines endMarker epsilon = .ok grammar ∧ grammar.rules = rules ∧
      grammar.Analysed endMarker epsilon accept := by
  obtain ⟨grammar, accept, done, same, analysed⟩ :=
    ofRules_ok (Rule.listed_of_readAll read) endMarker
  refine ⟨grammar, accept, ?_, same, analysed⟩
  simp only [ofLines, read, Except.mapError, bind, Except.bind, done]

/-- What was made of a result tells that there is one. -/
theorem exists_ok_of_map {ε α β : Type} {result : Except ε α} {made : α → β} {value : β}
    (mapped : result.map made = .ok value) : ∃ found, result = .ok found ∧ made found = value := by
  cases result with
  | error failure => cases mapped
  | ok found => exact ⟨found, rfl, Except.ok.inj mapped⟩

section

variable {lines : List String} {endMarker epsilon : Symbol} {grammar : Grammar}

/-- The lines of a grammar are read as its rules. -/
theorem readAll_of_ofLines (built : ofLines lines endMarker epsilon = .ok grammar) :
    Rule.readAll lines epsilon = .ok grammar.rules := by
  cases read : Rule.readAll lines epsilon with
  | error error =>
      simp [ofLines, read, Except.mapError, bind, Except.bind] at built
  | ok rules =>
      obtain ⟨other, _, done, same, _⟩ := ofLines_ok read endMarker
      obtain rfl : other = grammar := Except.ok.inj (done.symm.trans built)
      rw [same]

theorem analysed_of_ofLines (built : ofLines lines endMarker epsilon = .ok grammar) :
    ∃ accept, grammar.Analysed endMarker epsilon accept := by
  obtain ⟨other, accept, done, _, analysed⟩ := ofLines_ok (readAll_of_ofLines built) endMarker
  obtain rfl : other = grammar := Except.ok.inj (done.symm.trans built)
  exact ⟨accept, analysed⟩

end

namespace Analysed

variable {grammar : Grammar} {endMarker epsilon : Symbol} {accept : Rule}
  (analysed : grammar.Analysed endMarker epsilon accept)
include analysed

theorem placed {state : State} (found : state ∈ grammar.states) : state.Placed grammar.rules := by
  rw [states, analysed.automaton_eq] at found
  exact Ruleset.placed_of_mem_statesFrom (List.mem_of_head? analysed.head) state found

/-- The detector of the grammar finds all that it looks up. -/
theorem supplied : grammar.detector.Supplied accept := by
  refine ⟨analysed.head, fun state found item member => ?_, fun state found item member => ?_⟩
  · exact analysed.listed.itemAt_index (analysed.placed found item member).1
  · have nonterminal := Ruleset.lhs_mem_nonterminals (analysed.placed found item member).1
    show item.rule.lhs ∈ grammar.follow.symbols
    rw [analysed.follow.symbols_eq]
    exact SymbolSet.mem_elems.mpr nonterminal

end Analysed

end GrammarWorkbench.Grammar
