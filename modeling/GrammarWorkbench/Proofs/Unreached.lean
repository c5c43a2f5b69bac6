import GrammarWorkbench.Proofs.Analysis
import GrammarWorkbench.Proofs.Automaton.Reached
import GrammarWorkbench.Proofs.Conflict.Exact

/-!
# Rules that are not reached

Rules that are not reached and that make no nonterminal of a terminal do not change the automaton
nor what begins the symbols that are used.  They may add to what follows a nonterminal, so that
conflicts may be more but none is lost.
-/

namespace GrammarWorkbench

variable {rules extra : List Rule} {symbol member epsilon start endMarker : Symbol}
  {source target : List Symbol}

/-! ## Derivations -/

theorem Derives.append_rules (derives : Derives rules source target) (extra : List Rule) :
    Derives (rules ++ extra) source target := by
  refine Relation.ReflTransGen.mono (fun _ _ step => ?_) _ _ derives
  cases step with
  | rule before after member => exact .rule before after (List.mem_append_left _ member)

namespace Ruleset

open Rule (Reached Used Idle)

/-- From symbols that are used, rules that are not reached derive nothing. -/
theorem derives_of_used (idle : Idle rules extra)
    (used : ∀ symbol ∈ source, Used (rules ++ extra) symbol)
    (derives : Derives (rules ++ extra) source target) :
    Derives rules source target ∧ ∀ symbol ∈ target, Used (rules ++ extra) symbol := by
  induction derives with
  | refl => exact ⟨.refl _, used⟩
  | tail _ step ih =>
      obtain ⟨before, stillUsed⟩ := ih
      cases step with
      | @rule front back rule inside =>
          have reached := (stillUsed rule.lhs (by simp)).reached inside rfl
          refine ⟨.tail before (.rule front back (idle.mem_of_reached reached)), ?_⟩
          intro symbol member
          rcases List.mem_append.mp member with early | late
          · rcases List.mem_append.mp early with first | middle
            · exact stillUsed symbol (by simp [first])
            · exact ⟨rule, reached, middle⟩
          · exact stillUsed symbol (by simp [late])

/-! ## First sets -/

theorem leads_of_used (idle : Idle rules extra) (used : Used (rules ++ extra) symbol) :
    (ofRules (rules ++ extra)).Leads epsilon [symbol] member ↔
      (ofRules rules).Leads epsilon [symbol] member := by
  have single : ∀ other ∈ [symbol], Used (rules ++ extra) other :=
    List.forall_mem_singleton.mpr used
  constructor
  · rintro (⟨terminal, rest, derives⟩ | ⟨same, derives⟩)
    · obtain ⟨inner, stillUsed⟩ := derives_of_used idle single derives
      exact .inl ⟨(mem_terminals_of_used idle (stillUsed member List.mem_cons_self)).mp terminal,
        rest, inner⟩
    · exact .inr ⟨same, (derives_of_used idle single derives).1⟩
  · rintro (⟨terminal, rest, derives⟩ | ⟨same, derives⟩)
    · have outer := derives.append_rules extra
      have stillUsed := (derives_of_used idle single outer).2
      exact .inl ⟨(mem_terminals_of_used idle (stillUsed member List.mem_cons_self)).mpr terminal,
        rest, outer⟩
    · exact .inr ⟨same, derives.append_rules extra⟩

/-- A symbol that is used has the same first set with the further rules and without. -/
theorem first_of_used (idle : Idle rules extra) {first larger : SetTable}
    (exact : FirstExact (ofRules rules) epsilon first)
    (largerExact : FirstExact (ofRules (rules ++ extra)) epsilon larger)
    (used : Used (rules ++ extra) symbol) :
    ∃ set, first.get? symbol = some set ∧ larger.get? symbol = some set := by
  have ⟨rule, reached, inside⟩ := used
  have known : symbol ∈ first.symbols :=
    exact.symbols_eq ▸ mem_symbols_of_mem_rhs (idle.mem_of_reached reached) inside
  have also : symbol ∈ larger.symbols :=
    largerExact.symbols_eq ▸ mem_symbols_of_mem_rhs reached.mem inside
  obtain ⟨set, found⟩ := SetTable.mem_symbols.mp known
  obtain ⟨other, there⟩ := SetTable.mem_symbols.mp also
  have same : other = set := SymbolSet.ext fun member => by
    rw [exact.mem_iff found, largerExact.mem_iff there, leads_of_used idle used]
  exact ⟨set, found, same ▸ there⟩

/-! ## Follow sets -/

theorem mem_terminals_append (idle : Idle rules extra)
    (terminal : member ∈ (ofRules rules).terminals) :
    member ∈ (ofRules (rules ++ extra)).terminals := by
  obtain ⟨⟨rule, inside, onRight⟩, notLeft⟩ := mem_rightOnly.mp terminal
  refine mem_rightOnly.mpr ⟨⟨rule, List.mem_append_left _ inside, onRight⟩, fun left => ?_⟩
  cases mem_nonterminals_append.mp left with
  | inl before => exact notLeft before
  | inr further =>
      obtain ⟨other, otherMember, rfl⟩ := further
      exact idle.not_terminal other otherMember terminal

theorem Follows.append_rules (idle : Idle rules extra)
    (follows : (ofRules rules).Follows start endMarker symbol member) :
    (ofRules (rules ++ extra)).Follows start endMarker symbol member := by
  rcases follows with ⟨terminal, source, known, before, after, derives⟩ | ⟨same, before, derives⟩
  · exact .inl ⟨mem_terminals_append idle terminal, source,
      mem_nonterminals_append.mpr (.inl known), before, after, derives.append_rules extra⟩
  · exact .inr ⟨same, before, derives.append_rules extra⟩

theorem follow_append_rules (idle : Idle rules extra) {follow larger : SetTable}
    (exact : FollowExact (ofRules rules) start endMarker follow)
    (largerExact : FollowExact (ofRules (rules ++ extra)) start endMarker larger)
    (nonterminal : symbol ∈ (ofRules rules).nonterminals) (held : follow.Holds symbol member) :
    larger.Holds symbol member :=
  (largerExact.holds_iff symbol (mem_nonterminals_append.mpr (.inl nonterminal)) member).mpr
    (((exact.holds_iff symbol nonterminal member).mp held).append_rules idle)

end Ruleset

namespace Grammar

/--
The larger grammar has the automaton of the other one and the same first sets for the symbols that
are used.  Its follow sets and its conflicts may be more.
-/
structure KeptIn (grammar larger : Grammar) : Prop where
  automaton_eq : larger.automaton = grammar.automaton
  first_eq : ∀ symbol, Rule.Used larger.rules symbol →
    ∃ set, grammar.first.get? symbol = some set ∧ larger.first.get? symbol = some set
  follow_le : ∀ symbol ∈ grammar.ruleset.nonterminals, ∃ set wider,
    grammar.follow.get? symbol = some set ∧ larger.follow.get? symbol = some wider ∧
      ∀ member ∈ set, member ∈ wider
  conflicts_le : ∃ found more, grammar.conflicts = .ok found ∧ larger.conflicts = .ok more ∧
    ∀ conflict ∈ found, ∃ other ∈ more, other.state = conflict.state ∧
      other.kind = conflict.kind ∧ other.symbol = conflict.symbol

variable {grammar larger : Grammar} {extra : List Rule} {endMarker epsilon : Symbol} {accept : Rule}

/-- More of what follows leaves no rule out where rules meet. -/
theorem rivals_sublist (state : State) (symbol : Symbol)
    (more : ∀ item ∈ state.items, grammar.follow.Holds item.rule.lhs symbol →
      larger.follow.Holds item.rule.lhs symbol) :
    (grammar.rivals state symbol).Sublist (larger.rivals state symbol) := by
  have subset : grammar.rivals state symbol =
      (larger.rivals state symbol).filter fun rule => grammar.follow.Holds rule.lhs symbol := by
    unfold rivals
    rw [List.filter_filter]
    refine List.filter_congr fun rule member => ?_
    obtain ⟨item, completed, rfl⟩ := List.mem_map.mp member
    have grows := more item (List.mem_filter.mp completed).1
    rw [← Bool.decide_and]
    exact decide_eq_decide.mpr ⟨fun ⟨index, held⟩ => ⟨held, index, grows held⟩,
      fun ⟨held, index, _⟩ => ⟨index, held⟩⟩
  rw [subset]
  exact List.filter_sublist

/-- No conflict is lost when more follows. -/
theorem ConflictsExact.conflicts_le {found more : List Conflict}
    (exact : grammar.ConflictsExact found) (largerExact : larger.ConflictsExact more)
    (same : larger.states = grammar.states)
    (terminals : ∀ symbol ∈ grammar.ruleset.terminals, symbol ∈ larger.ruleset.terminals)
    (follow : ∀ state ∈ grammar.states, ∀ item ∈ state.items, ∀ symbol,
      grammar.follow.Holds item.rule.lhs symbol → larger.follow.Holds item.rule.lhs symbol) :
    ∀ conflict ∈ found, ∃ other ∈ more, other.state = conflict.state ∧
      other.kind = conflict.kind ∧ other.symbol = conflict.symbol := by
  intro conflict member
  obtain ⟨position, here, inside⟩ := exact.placed conflict member
  have there := List.getElem?_eq_getElem inside
  have also := (congrArg (·[position]?) same).trans there
  have grows := follow _ (List.getElem_mem inside)
  cases kind : conflict.kind with
  | shiftReduce =>
      obtain ⟨terminal, awaited, item, itemMember, complete, index, held⟩ :=
        (exact.shift_iff position _ there conflict.symbol).mp ⟨conflict, member, here, kind, rfl⟩
      obtain ⟨other, listed, otherHere, otherKind, otherSymbol⟩ :=
        (largerExact.shift_iff position _ also conflict.symbol).mpr
          ⟨terminals _ terminal, awaited, item, itemMember, complete, index,
            grows item itemMember _ held⟩
      exact ⟨other, listed, otherHere.trans here.symm, otherKind, otherSymbol⟩
  | reduceReduce =>
      have several := (exact.reduce_iff position _ there conflict.symbol).mp
        ⟨conflict, member, here, kind, rfl⟩
      have rivals := rivals_sublist _ conflict.symbol fun item itemMember =>
        grows item itemMember conflict.symbol
      obtain ⟨other, listed, otherHere, otherKind, otherSymbol⟩ :=
        (largerExact.reduce_iff position _ also conflict.symbol).mpr
          (several.trans rivals.length_le)
      exact ⟨other, listed, otherHere.trans here.symm, otherKind, otherSymbol⟩

theorem Analysed.keptIn (analysed : grammar.Analysed endMarker epsilon accept)
    {largerAccept : Rule} (largerAnalysed : larger.Analysed endMarker epsilon largerAccept)
    (whole : larger.rules = grammar.rules ++ extra) (idle : Rule.Idle grammar.rules extra) :
    grammar.KeptIn larger := by
  obtain ⟨rest, split⟩ := List.head?_eq_some_iff.mp analysed.head
  have head : (grammar.rules ++ extra).head? = some accept := by
    rw [split]
    rfl
  obtain rfl : largerAccept = accept :=
    Option.some.inj (largerAnalysed.head.symm.trans (whole ▸ head))
  have first := largerAnalysed.first
  have follow := largerAnalysed.follow
  have automaton := largerAnalysed.automaton_eq
  have ruleset := largerAnalysed.ruleset_eq
  rw [whole] at first follow automaton ruleset
  have kept : larger.automaton = grammar.automaton := by
    rw [automaton, analysed.automaton_eq]
    exact Ruleset.automatonFrom_of_idle idle head (List.mem_of_head? analysed.head)
  have grows : ∀ symbol ∈ (Ruleset.ofRules grammar.rules).nonterminals, ∀ member,
      grammar.follow.Holds symbol member → larger.follow.Holds symbol member :=
    fun _ nonterminal _ => Ruleset.follow_append_rules idle analysed.follow follow nonterminal
  refine ⟨kept, fun symbol used => ?_, fun symbol nonterminal => ?_, ?_⟩
  · rw [whole] at used
    exact Ruleset.first_of_used idle analysed.first first used
  · rw [analysed.ruleset_eq] at nonterminal
    have here : symbol ∈ grammar.follow.symbols := analysed.follow.symbols_eq ▸ nonterminal
    have there : symbol ∈ larger.follow.symbols :=
      follow.symbols_eq ▸ Ruleset.mem_nonterminals_append.mpr (.inl nonterminal)
    obtain ⟨set, found⟩ := SetTable.mem_symbols.mp here
    obtain ⟨wider, also⟩ := SetTable.mem_symbols.mp there
    refine ⟨set, wider, found, also, fun member inside => ?_⟩
    obtain ⟨other, same, held⟩ := grows symbol nonterminal member ⟨set, found, inside⟩
    obtain rfl : other = wider := Option.some.inj (same.symm.trans also)
    exact held
  · refine ⟨_, _, analysed.supplied.conflicts_eq, largerAnalysed.supplied.conflicts_eq,
      analysed.conflictsExact.conflicts_le largerAnalysed.conflictsExact
        (congrArg Automaton.states kept) (fun symbol terminal => ?_)
        fun state found item member symbol => ?_⟩
    · rw [analysed.ruleset_eq] at terminal
      rw [ruleset]
      exact Ruleset.mem_terminals_append idle terminal
    · exact grows _ (Ruleset.lhs_mem_nonterminals (analysed.placed found item member).1) symbol

/--
Lines behind others whose rules are not reached and make no nonterminal of a terminal change
nothing of the automaton and lose no conflict.
-/
theorem keptIn_of_idle {lines others : List String} {rules : List Rule}
    (read : Rule.readAll lines epsilon = .ok rules)
    (more : Rule.readFrom epsilon lines.length others = .ok extra) (idle : Rule.Idle rules extra)
    (endMarker : Symbol) :
    ∃ grammar larger, ofLines lines endMarker epsilon = .ok grammar ∧
      ofLines (lines ++ others) endMarker epsilon = .ok larger ∧
      grammar.rules = rules ∧ larger.rules = rules ++ extra ∧ grammar.KeptIn larger := by
  obtain ⟨grammar, accept, built, rfl, analysed⟩ := ofLines_ok read endMarker
  obtain ⟨larger, largerAccept, largerBuilt, whole, largerAnalysed⟩ :=
    ofLines_ok (Rule.readAll_append read more) endMarker
  exact ⟨grammar, larger, built, largerBuilt, rfl, whole,
    analysed.keptIn largerAnalysed whole idle⟩

/-- A further rule for a symbol that is not used, after which more follows and nothing is lost. -/
theorem keptIn_of_idle_unused :
    ∃ grammar larger, ofLines ["S' -> S $", "S -> S S", "S -> a", "U -> S b"] "$" "ε" =
        .ok grammar ∧
      ofLines ["S' -> S $", "S -> S S", "S -> a", "U -> S b", "U -> S c", "V -> V"] "$" "ε" =
        .ok larger ∧
      grammar.KeptIn larger ∧ ¬ grammar.follow.Holds "S" "c" ∧ larger.follow.Holds "S" "c" := by
  have read : Rule.readAll ["S' -> S $", "S -> S S", "S -> a", "U -> S b"] "ε" =
      .ok [⟨0, "S'", ["S", "$"], "ε"⟩, ⟨1, "S", ["S", "S"], "ε"⟩, ⟨2, "S", ["a"], "ε"⟩,
        ⟨3, "U", ["S", "b"], "ε"⟩] := by decide
  have more : Rule.readFrom "ε" 4 ["U -> S c", "V -> V"] =
      .ok [⟨4, "U", ["S", "c"], "ε"⟩, ⟨5, "V", ["V"], "ε"⟩] := by decide
  have idle : Rule.Idle [⟨0, "S'", ["S", "$"], "ε"⟩, ⟨1, "S", ["S", "S"], "ε"⟩,
      ⟨2, "S", ["a"], "ε"⟩, ⟨3, "U", ["S", "b"], "ε"⟩]
      [⟨4, "U", ["S", "c"], "ε"⟩, ⟨5, "V", ["V"], "ε"⟩] :=
    .of_closed [⟨0, "S'", ["S", "$"], "ε"⟩, ⟨1, "S", ["S", "S"], "ε"⟩, ⟨2, "S", ["a"], "ε"⟩]
      (by decide) (by decide) (by decide) (by decide)
  obtain ⟨grammar, larger, built, largerBuilt, _, _, keptIn⟩ := keptIn_of_idle read more idle "$"
  have before : (ofLines ["S' -> S $", "S -> S S", "S -> a", "U -> S b"] "$" "ε").map
      (fun grammar => decide (grammar.follow.Holds "S" "c")) = .ok false := by decide +kernel
  have after : (ofLines (["S' -> S $", "S -> S S", "S -> a", "U -> S b"] ++
      ["U -> S c", "V -> V"]) "$" "ε").map
      (fun grammar => decide (grammar.follow.Holds "S" "c")) = .ok true := by decide +kernel
  rw [built] at before
  rw [largerBuilt] at after
  exact ⟨grammar, larger, built, largerBuilt, keptIn, of_decide_eq_false (Except.ok.inj before),
    of_decide_eq_true (Except.ok.inj after)⟩

end Grammar

end GrammarWorkbench
