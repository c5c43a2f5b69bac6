import GrammarWorkbench.Proofs.Analysis
import GrammarWorkbench.Proofs.Parse.Machine

/-!
# A grammar without conflicts is unambiguous

Where the detector reports nothing, the symbols that a parser has recognised and the next
terminal determine its step.  Two trees of one word guide the parser along the same run,
and so they are the same.
-/

namespace GrammarWorkbench.Grammar

namespace Analysed

variable {grammar : Grammar} {endMarker epsilon symbol : Symbol} {accept rule : Rule}
  {path : List Symbol} {dot position : Nat} {state : State}

/-- The state at the end of a path that has a valid item. -/
theorem exists_describes (analysed : grammar.Analysed endMarker epsilon accept)
    (valid : ValidItem grammar.rules path rule dot) :
    ∃ (position : Nat) (state : State), grammar.states[position]? = some state ∧
      state.Describes grammar.rules path := by
  obtain ⟨target, walk⟩ := Ruleset.exists_path_of_validItem analysed.listed analysed.head valid
  obtain ⟨position, state, _, found, describes⟩ :=
    Ruleset.describes_of_path analysed.listed analysed.head walk
  refine ⟨position, state, ?_, describes⟩
  rw [states, analysed.automaton_eq]
  exact found

/-- A state shifts the terminals that its items await. -/
theorem exists_shift (analysed : grammar.Analysed endMarker epsilon accept)
    (found : grammar.states[position]? = some state) (has : state.Has rule dot)
    (awaits : rule.rhs[dot]? = some symbol)
    (terminal : symbol ∈ (Ruleset.ofRules grammar.rules).terminals) :
    ∃ target, (symbol, target) ∈ grammar.detector.shifts position := by
  obtain ⟨item, member, rfl, same⟩ := has
  have awaited : symbol ∈ state.nextSymbols :=
    State.mem_nextSymbols.mpr ⟨item, member, (Item.next?_eq same).trans awaits⟩
  rw [states, analysed.automaton_eq] at found
  have edge := Ruleset.mem_transitions.mpr ⟨position, state, symbol, found, awaited, rfl⟩
  rw [← analysed.automaton_eq] at edge
  exact Detector.exists_mem_shifts.mpr ⟨_, edge, rfl, if_pos terminal, rfl⟩

/-- A rule that may be reduced competes on the next symbol. -/
theorem mem_competing (analysed : grammar.Analysed endMarker epsilon accept)
    (describes : state.Describes grammar.rules path)
    (reduces : Parser.Reduces grammar.rules accept endMarker path rule symbol) :
    rule ∈ grammar.detector.competing accept state symbol := by
  have member := reduces.completed.mem
  obtain ⟨item, inside, rfl, same⟩ := describes.complete rule _ reduces.completed
  have complete : item.isComplete := by simp [Item.isComplete, same]
  have differ : ¬ item.rule.Same accept := fun sameRule => reduces.ne_accept
    (analysed.listed.eq_of_index_eq member (List.mem_of_head? analysed.head) sameRule.1)
  refine Detector.mem_competing.mpr ⟨⟨item, inside, complete, differ, rfl⟩, ?_⟩
  have nonterminal := Ruleset.lhs_mem_nonterminals member
  exact (analysed.follow.holds_iff _ nonterminal symbol).mpr reduces.follows

/-! ## Silence -/

/-- Where nothing is reported, no rule may be reduced on a terminal that is shifted. -/
theorem not_reduces_of_awaits (analysed : grammar.Analysed endMarker epsilon accept)
    (silent : grammar.conflicts = .ok []) {outer : Rule}
    (valid : ValidItem grammar.rules path outer dot) (awaits : outer.rhs[dot]? = some symbol)
    (terminal : symbol ∈ (Ruleset.ofRules grammar.rules).terminals) :
    ¬ Parser.Reduces grammar.rules accept endMarker path rule symbol := by
  intro reduces
  obtain ⟨position, state, found, describes⟩ := analysed.exists_describes valid
  obtain ⟨target, shifted⟩ :=
    analysed.exists_shift found (describes.complete outer dot valid) awaits terminal
  have none := Detector.competing_eq_nil found (analysed.supplied.reports_eq_nil silent found)
    shifted
  exact List.ne_nil_of_mem (analysed.mem_competing describes reduces) none

/-- Where nothing is reported, no two rules may be reduced on one symbol. -/
theorem reduces_unique (analysed : grammar.Analysed endMarker epsilon accept)
    (silent : grammar.conflicts = .ok []) {left right : Rule}
    (toLeft : Parser.Reduces grammar.rules accept endMarker path left symbol)
    (toRight : Parser.Reduces grammar.rules accept endMarker path right symbol) : left = right := by
  obtain ⟨position, state, found, describes⟩ := analysed.exists_describes toLeft.completed
  exact Detector.competing_unique found (analysed.supplied.reports_eq_nil silent found)
    (analysed.mem_competing describes toLeft) (analysed.mem_competing describes toRight)

/-- Where nothing is reported, a parser has at most one step. -/
theorem step_unique (analysed : grammar.Analysed endMarker epsilon accept)
    (silent : grammar.conflicts = .ok []) :
    Relator.RightUnique (Parser.Step grammar.rules accept endMarker) := by
  intro source left right toLeft toRight
  cases toLeft with
  | @shift path input trees outer dot symbol terminal valid awaits =>
      generalize same : Parser.Config.mk path trees (symbol :: input) = source at toRight
      cases toRight with
      | shift =>
          cases same
          rfl
      | reduce reduces =>
          cases same
          exact absurd reduces (analysed.not_reduces_of_awaits silent valid awaits terminal)
  | @reduce path input trees children rule symbol reduces sameLength =>
      generalize same : Parser.Config.mk (path ++ rule.rhs) (trees ++ children)
        (symbol :: input) = source at toRight
      cases toRight with
      | shift terminal valid awaits =>
          cases same
          exact absurd reduces (analysed.not_reduces_of_awaits silent valid awaits terminal)
      | @reduce otherPath otherInput otherTrees otherChildren other otherSymbol otherReduces
          otherLength =>
          obtain ⟨samePath, sameTrees, sameInput⟩ := Parser.Config.mk.inj same
          obtain ⟨rfl, rfl⟩ := List.cons.inj sameInput
          obtain rfl := analysed.reduces_unique silent reduces (samePath ▸ otherReduces)
          obtain rfl := List.append_cancel_right samePath
          obtain ⟨rfl, rfl⟩ := List.append_inj' sameTrees (sameLength.trans otherLength.symm)
          rfl

/-- Where nothing is reported, a word has at most one tree whose root is the accept rule. -/
theorem tree_unique (analysed : grammar.Analysed endMarker epsilon accept)
    (silent : grammar.conflicts = .ok []) (unused : ∀ rule ∈ grammar.rules, accept.lhs ∉ rule.rhs)
    {last : Symbol} (ends : accept.rhs.getLast? = some last)
    (terminal : last ∈ (Ruleset.ofRules grammar.rules).terminals) {word : List Symbol}
    {left right : Tree} (parsesLeft : left.Parses grammar.rules accept word)
    (parsesRight : right.Parses grammar.rules accept word) : left = right := by
  obtain ⟨leftTrees, rfl, toLeft⟩ :=
    Parser.run_of_parses endMarker analysed.head unused ends terminal parsesLeft
  obtain ⟨rightTrees, rfl, toRight⟩ :=
    Parser.run_of_parses endMarker analysed.head unused ends terminal parsesRight
  -- One run goes on where the other one ends, but no word is left there.
  have same : leftTrees = rightTrees := by
    cases Relation.ReflTransGen.total_of_right_unique (analysed.step_unique silent)
      toLeft toRight with
    | inl onward => exact (Parser.Config.mk.inj (Parser.eq_of_run onward rfl)).2.1
    | inr onward => exact (Parser.Config.mk.inj (Parser.eq_of_run onward rfl)).2.1.symm
  rw [same]

end Analysed

/--
If no conflict is found in a grammar, then each word has at most one tree whose root is
the accept rule, provided that the left side of the accept rule stands on no right side
and that the right side of the accept rule ends with a terminal.  That terminal may occur
elsewhere, and the left side may have other rules.
-/
theorem unambiguous_of_no_conflicts {lines : List String} {endMarker epsilon last : Symbol}
    {grammar : Grammar} {accept : Rule} (built : ofLines lines endMarker epsilon = .ok grammar)
    (head : grammar.rules.head? = some accept)
    (unused : ∀ rule ∈ grammar.rules, accept.lhs ∉ rule.rhs)
    (ends : accept.rhs.getLast? = some last) (terminal : last ∈ grammar.ruleset.terminals) :
    ∃ conflicts, grammar.conflicts = .ok conflicts ∧ (conflicts = [] →
      ∀ word (left right : Tree), left.Parses grammar.rules accept word →
        right.Parses grammar.rules accept word → left = right) := by
  obtain ⟨first, analysed⟩ := analysed_of_ofLines built
  obtain rfl : first = accept := Option.some.inj (analysed.head.symm.trans head)
  rw [analysed.ruleset_eq] at terminal
  refine ⟨_, analysed.supplied.conflicts_eq, fun none word left right parsesLeft parsesRight => ?_⟩
  have silent : grammar.conflicts = .ok [] := none ▸ analysed.supplied.conflicts_eq
  exact analysed.tree_unique silent unused ends terminal parsesLeft parsesRight

/-- A left-recursive grammar with an empty right side that has no conflicts. -/
theorem unambiguous_of_no_conflicts_leftRecursive :
    ∃ grammar accept, ofLines ["S' -> S $", "S -> S a", "S -> ε"] "$" "ε" = .ok grammar ∧
      grammar.rules.head? = some accept ∧ (∀ rule ∈ grammar.rules, accept.lhs ∉ rule.rhs) ∧
      accept.rhs.getLast? = some "$" ∧ "$" ∈ grammar.ruleset.terminals ∧
      ∀ word (left right : Tree), left.Parses grammar.rules accept word →
        right.Parses grammar.rules accept word → left = right := by
  have read : Rule.readAll ["S' -> S $", "S -> S a", "S -> ε"] "ε" =
      .ok [⟨0, "S'", ["S", "$"], "ε"⟩, ⟨1, "S", ["S", "a"], "ε"⟩, ⟨2, "S", [], "ε"⟩] := by decide
  obtain ⟨grammar, accept, built, rules, analysed⟩ := ofLines_ok read "$"
  obtain rfl : (⟨0, "S'", ["S", "$"], "ε"⟩ : Rule) = accept := by
    simpa [rules] using analysed.head
  have unused : ∀ rule ∈ grammar.rules, "S'" ∉ rule.rhs := by
    rw [rules]
    decide
  have terminal : "$" ∈ grammar.ruleset.terminals := by
    rw [analysed.ruleset_eq, rules]
    decide
  obtain ⟨reported, found, unambiguous⟩ :=
    unambiguous_of_no_conflicts built analysed.head unused rfl terminal
  have silent : (ofLines ["S' -> S $", "S -> S a", "S -> ε"] "$" "ε").map conflicts =
      .ok (.ok []) := by decide +kernel
  rw [built] at silent
  have none : reported = [] := Except.ok.inj (found.symm.trans (Except.ok.inj silent))
  exact ⟨grammar, _, built, analysed.head, unused, rfl, terminal, unambiguous none⟩

end GrammarWorkbench.Grammar
