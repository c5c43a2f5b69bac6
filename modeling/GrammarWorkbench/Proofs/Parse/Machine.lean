import GrammarWorkbench.Proofs.Automaton.ViablePrefix
import GrammarWorkbench.Proofs.Parse.Tree
import GrammarWorkbench.Proofs.Sets.Follow

/-!
# Parsing by shifts and reductions

A parser keeps the symbols that it has recognised, each with its tree.  It shifts the
next terminal where a valid item awaits it, and it reduces by a rule whose symbols have
all been recognised where the next terminal follows the left side.  The trees of a word
guide the parser along the word.
-/

namespace GrammarWorkbench

namespace Parser

/-- The symbols that were recognised, their trees, and the word that remains. -/
structure Config where
  path : List Symbol
  trees : List Tree
  input : List Symbol

/-- The rule may be reduced behind the path: it is not the accept rule. -/
structure Reduces (rules : List Rule) (accept : Rule) (endMarker : Symbol) (path : List Symbol)
    (rule : Rule) (next : Symbol) : Prop where
  completed : ValidItem rules path rule rule.rhs.length
  ne_accept : rule ≠ accept
  follows : (Ruleset.ofRules rules).Follows accept.lhs endMarker rule.lhs next

/-- One shift or one reduction. -/
inductive Step (rules : List Rule) (accept : Rule) (endMarker : Symbol) :
    Config → Config → Prop where
  | shift {path input : List Symbol} {trees : List Tree} {rule : Rule} {dot : Nat} {symbol : Symbol}
      (terminal : symbol ∈ (Ruleset.ofRules rules).terminals)
      (valid : ValidItem rules path rule dot) (awaits : rule.rhs[dot]? = some symbol) :
      Step rules accept endMarker ⟨path, trees, symbol :: input⟩
        ⟨path ++ [symbol], trees ++ [.leaf symbol], input⟩
  | reduce {path input : List Symbol} {trees children : List Tree} {rule : Rule} {symbol : Symbol}
      (reduces : Reduces rules accept endMarker (path ++ rule.rhs) rule symbol)
      (sameLength : children.length = rule.rhs.length) :
      Step rules accept endMarker ⟨path ++ rule.rhs, trees ++ children, symbol :: input⟩
        ⟨path ++ [rule.lhs], trees ++ [.node rule.index children], symbol :: input⟩

/-- Any number of steps. -/
def Run (rules : List Rule) (accept : Rule) (endMarker : Symbol) : Config → Config → Prop :=
  Relation.ReflTransGen (Step rules accept endMarker)

variable {rules : List Rule} {accept : Rule} {endMarker : Symbol}

/-- Without input there is no step. -/
theorem Step.input_ne_nil {source target : Config}
    (step : Step rules accept endMarker source target) : source.input ≠ [] := by
  cases step with
  | shift => exact List.cons_ne_nil _ _
  | reduce => exact List.cons_ne_nil _ _

/-- Without input a run is at its end. -/
theorem eq_of_run {source target : Config} (run : Run rules accept endMarker source target)
    (read : source.input = []) : source = target := by
  rcases Relation.ReflTransGen.cases_head run with same | ⟨_, step, _⟩
  · exact same
  · exact absurd read step.input_ne_nil

theorem awaits_of_drop {symbols tail : List Symbol} {dot : Nat} {symbol : Symbol}
    (behind : symbols.drop dot = symbol :: tail) :
    symbols[dot]? = some symbol ∧ symbols.drop (dot + 1) = tail := by
  constructor
  · have first := congrArg (·[0]?) behind
    simpa using first
  · have rest := congrArg List.tail behind
    simpa using rest

/--
The trees that stand for symbols behind the dot of a valid item guide the parser along
their word, as long as a word remains behind it.
-/
theorem run_of_forest (member : accept ∈ rules) (unused : ∀ rule ∈ rules, accept.lhs ∉ rule.rhs)
    {trees stack : List Tree} {symbols word path rest after : List Symbol} {outer : Rule}
    {dot : Nat} (forest : Forest rules trees symbols word) (valid : ValidItem rules path outer dot)
    (behind : outer.rhs.drop dot = symbols ++ after)
    (derives : Derives rules [accept.lhs] (path ++ (symbols ++ rest))) (remains : rest ≠ [])
    (terminals : ∀ symbol ∈ rest, symbol ∈ (Ruleset.ofRules rules).terminals) :
    Run rules accept endMarker ⟨path, stack, word ++ rest⟩
      ⟨path ++ symbols, stack ++ trees, rest⟩ := by
  induction forest generalizing stack path rest after outer dot with
  | nil => simpa [Run] using Relation.ReflTransGen.refl
  | @leaf symbol trees symbols word terminal _ ih =>
      obtain ⟨awaits, later⟩ := awaits_of_drop behind
      have step : Step rules accept endMarker ⟨path, stack, symbol :: (word ++ rest)⟩
          ⟨path ++ [symbol], stack ++ [.leaf symbol], word ++ rest⟩ :=
        .shift terminal valid awaits
      have run : Run rules accept endMarker
          ⟨path ++ [symbol], stack ++ [.leaf symbol], word ++ rest⟩
          ⟨path ++ [symbol] ++ symbols, stack ++ [.leaf symbol] ++ trees, rest⟩ :=
        ih (valid.advance awaits) later (by simpa using derives) remains terminals
      simpa [Run] using Relation.ReflTransGen.head step run
  | @node rule children trees inner symbols word ruleMember below more ihBelow ih =>
      obtain ⟨awaits, later⟩ := awaits_of_drop behind
      have first : ValidItem rules path rule 0 := valid.predict ruleMember awaits
      have derivesNext : Derives rules [accept.lhs] (path ++ rule.lhs :: (word ++ rest)) :=
        derives.trans ((more.derives.append_right rest).behind path rule.lhs)
      have remainsNext : word ++ rest ≠ [] := by simp [remains]
      have terminalsNext : ∀ symbol ∈ word ++ rest, symbol ∈ (Ruleset.ofRules rules).terminals :=
        List.forall_mem_append.mpr ⟨more.terminals, terminals⟩
      have runBelow : Run rules accept endMarker ⟨path, stack, inner ++ (word ++ rest)⟩
          ⟨path ++ rule.rhs, stack ++ children, word ++ rest⟩ :=
        ihBelow first (List.append_nil _).symm (derivesNext.rewrite ruleMember) remainsNext
          terminalsNext
      -- The rest of the word begins with a terminal that follows the left side.
      have step : Step rules accept endMarker
          ⟨path ++ rule.rhs, stack ++ children, word ++ rest⟩
          ⟨path ++ [rule.lhs], stack ++ [.node rule.index children], word ++ rest⟩ := by
        obtain ⟨next, tail, split⟩ := List.exists_cons_of_ne_nil remainsNext
        rw [split] at derivesNext terminalsNext ⊢
        refine .reduce ⟨first.complete, ?_, ?_⟩ below.length_eq
        · rintro rfl
          exact unused outer valid.mem (List.mem_of_getElem? awaits)
        · exact .inl ⟨terminalsNext next List.mem_cons_self, accept.lhs,
            Ruleset.lhs_mem_nonterminals member, path, tail, derivesNext⟩
      have run : Run rules accept endMarker
          ⟨path ++ [rule.lhs], stack ++ [.node rule.index children], word ++ rest⟩
          ⟨path ++ [rule.lhs] ++ symbols, stack ++ [.node rule.index children] ++ trees, rest⟩ :=
        ih (valid.advance awaits) later (by simpa using derives) remains terminals
      simpa [Run] using (runBelow.tail step).trans run

/-- A parser reads the whole word of a tree whose root is the accept rule. -/
theorem run_of_parses (endMarker : Symbol) (head : rules.head? = some accept)
    (unused : ∀ rule ∈ rules, accept.lhs ∉ rule.rhs) {last : Symbol}
    (ends : accept.rhs.getLast? = some last) (terminal : last ∈ (Ruleset.ofRules rules).terminals)
    {word : List Symbol} {tree : Tree} (parses : tree.Parses rules accept word) :
    ∃ children, tree = .node accept.index children ∧
      Run rules accept endMarker ⟨[], [], word⟩ ⟨accept.rhs, children, []⟩ := by
  obtain ⟨children, rfl, forest⟩ := parses
  obtain ⟨body, split⟩ := List.getLast?_eq_some_iff.mp ends
  rw [split] at forest
  obtain ⟨trees, back, inner, outer, rfl, rfl, inBody, atEnd⟩ := forest.split
  obtain ⟨rfl, rfl⟩ := atEnd.eq_leaf terminal
  have member := List.mem_of_head? head
  have root : LeftContext rules [] accept := .root head
  have run : Run rules accept endMarker ⟨[], [], inner ++ [last]⟩ ⟨body, trees, [last]⟩ :=
    run_of_forest member unused inBody root.validItem split (split ▸ Derives.of_rule member)
      (List.cons_ne_nil _ _) (List.forall_mem_singleton.mpr terminal)
  have read : ValidItem rules body accept body.length := ⟨[], root, by simp [split], by simp [split]⟩
  have step : Step rules accept endMarker ⟨body, trees, [last]⟩
      ⟨body ++ [last], trees ++ [.leaf last], []⟩ :=
    .shift terminal read (by simp [split])
  refine ⟨_, rfl, ?_⟩
  rw [split]
  exact run.tail step

end Parser

end GrammarWorkbench
