import GrammarWorkbench.Proofs.Derivation
import GrammarWorkbench.Proofs.Rule.Listed
import GrammarWorkbench.Proofs.Sets.Saturation
import GrammarWorkbench.Sets.First

/-!
# First sets are exact

The first set of a symbol holds the terminals that begin a string derived from it, and
the word for the empty right side exactly when a nonterminal derives nothing.  Each
member that a pass adds is derived; and since the last pass adds nothing, the sets of a
string are as large before a rewriting as behind it.
-/

namespace GrammarWorkbench.Ruleset

/-! ## The first set of a string -/

/-- What the entries of a table make the first set of a string hold. -/
def Begins (table : SetTable) (epsilon : Symbol) : List Symbol → Symbol → Prop
  | [], member => member = epsilon
  | symbol :: rest, member =>
      table.Holds symbol member ∧ member ≠ epsilon ∨
        table.Holds symbol epsilon ∧ Begins table epsilon rest member

variable {table : SetTable} {epsilon : Symbol}

theorem firstOf_ok (epsilon : Symbol) {symbols : List Symbol}
    (known : ∀ symbol ∈ symbols, symbol ∈ table.symbols) :
    ∃ set, firstOf table epsilon symbols = .ok set ∧
      ∀ member, member ∈ set ↔ Begins table epsilon symbols member := by
  induction symbols with
  | nil => exact ⟨.single epsilon, rfl, fun member => by simp [Begins]⟩
  | cons symbol rest ih =>
      obtain ⟨here, hereDone, hereHolds⟩ :=
        SetTable.get_of_mem_symbols (known symbol List.mem_cons_self)
      obtain ⟨later, laterDone, laterHolds⟩ :=
        ih fun other member => known other (List.mem_cons_of_mem _ member)
      unfold firstOf
      rw [hereDone, laterDone]
      by_cases nullable : epsilon ∈ here
      · refine ⟨here.erase epsilon ∪ later, by simp [bind, Except.bind, nullable, pure, Except.pure], ?_⟩
        intro member
        have held := (hereHolds epsilon).mp nullable
        simp [Begins, held, ← hereHolds, ← laterHolds]
      · refine ⟨here, by simp [bind, Except.bind, nullable, pure, Except.pure], ?_⟩
        intro member
        have absent : ¬ table.Holds symbol epsilon := fun held => nullable ((hereHolds _).mpr held)
        simp only [Begins, absent, ← hereHolds, false_and, or_false]
        exact ⟨fun inside => ⟨inside, fun same => nullable (same ▸ inside)⟩, fun inside => inside.1⟩

theorem begins_single {symbol member : Symbol} :
    Begins table epsilon [symbol] member ↔ table.Holds symbol member := by
  by_cases same : member = epsilon
  · simp [Begins, same]
  · simp [Begins, same]

theorem begins_append {left right : List Symbol} {member : Symbol} :
    Begins table epsilon (left ++ right) member ↔
      Begins table epsilon left member ∧ member ≠ epsilon ∨
        Begins table epsilon left epsilon ∧ Begins table epsilon right member := by
  induction left with
  | nil => simp [Begins]
  | cons symbol rest ih =>
      simp only [List.cons_append, Begins, ih, ne_eq, not_true_eq_false, and_false, false_or]
      tauto

/-- A rewriting does not add to the first set of a string, if it does not to that of a rule. -/
theorem begins_of_rhs {rule : Rule} {before after : List Symbol} {member : Symbol}
    (stable : ∀ other, Begins table epsilon rule.rhs other → table.Holds rule.lhs other)
    (begins : Begins table epsilon (before ++ (rule.rhs ++ after)) member) :
    Begins table epsilon (before ++ rule.lhs :: after) member := by
  rw [← List.singleton_append, begins_append, begins_append, begins_single]
  rw [begins_append, begins_append] at begins
  rcases begins with here | ⟨nullable, ⟨here, proper⟩ | ⟨inner, later⟩⟩
  · exact .inl here
  · exact .inr ⟨nullable, .inl ⟨stable member here, proper⟩⟩
  · exact .inr ⟨nullable, .inr ⟨begins_single.mpr (stable epsilon inner), later⟩⟩

/-! ## What a string derives -/

/--
A string leads to the terminals that begin a string derived from it, and to the word
for the empty right side if it derives nothing.
-/
def Leads (ruleset : Ruleset) (epsilon : Symbol) (symbols : List Symbol) (member : Symbol) :
    Prop :=
  (member ∈ ruleset.terminals ∧ ∃ rest, Derives ruleset.rules symbols (member :: rest)) ∨
    member = epsilon ∧ Derives ruleset.rules symbols []

theorem leads_of_begins {ruleset : Ruleset} {symbols : List Symbol} {member : Symbol}
    (proper : ∀ terminal ∈ ruleset.terminals, terminal ≠ epsilon)
    (sound : ∀ symbol member, table.Holds symbol member → ruleset.Leads epsilon [symbol] member)
    (begins : Begins table epsilon symbols member) : ruleset.Leads epsilon symbols member := by
  induction symbols with
  | nil => exact .inr ⟨begins, .refl []⟩
  | cons symbol rest ih =>
      rcases begins with ⟨held, differ⟩ | ⟨nullable, later⟩
      · rcases sound symbol member held with ⟨terminal, tail, derives⟩ | ⟨same, _⟩
        · exact .inl ⟨terminal, tail ++ rest, derives.append_right rest⟩
        · exact absurd same differ
      · have vanishes : Derives ruleset.rules [symbol] [] := by
          rcases sound symbol epsilon nullable with ⟨terminal, _⟩ | ⟨_, derives⟩
          · exact absurd rfl (proper epsilon terminal)
          · exact derives
        have drops : Derives ruleset.rules (symbol :: rest) rest := vanishes.append_right rest
        rcases ih later with ⟨terminal, tail, derives⟩ | ⟨same, derives⟩
        · exact .inl ⟨terminal, tail, drops.trans derives⟩
        · exact .inr ⟨same, drops.trans derives⟩

/-! ## The passes -/

variable {rules : List Rule}

/-- What the passes keep: nothing is lost, and each member is derived. -/
structure FirstSound (ruleset : Ruleset) (epsilon : Symbol) (table : SetTable) : Prop where
  above : ruleset.firstStart.Below table
  leads : ∀ symbol member, table.Holds symbol member → ruleset.Leads epsilon [symbol] member

theorem FirstSound.symbols_eq {ruleset : Ruleset} (sound : FirstSound ruleset epsilon table) :
    table.symbols = ruleset.symbols.elems := by
  rw [← sound.above.symbols_eq, firstStart, SetTable.symbols_ofSymbols]

theorem firstSound_firstStart (ruleset : Ruleset) :
    FirstSound ruleset epsilon ruleset.firstStart := by
  refine ⟨.refl _, fun symbol member held => ?_⟩
  obtain ⟨_, inside⟩ := SetTable.holds_ofSymbols.mp held
  split at inside
  · rename_i terminal
    rw [SymbolSet.mem_single] at inside
    exact .inl ⟨inside ▸ terminal, [], inside ▸ .refl _⟩
  · exact absurd inside (SymbolSet.not_mem_empty member)

theorem firstStep_ok (epsilon : Symbol) {rule : Rule} (member : rule ∈ rules)
    (known : table.symbols = (ofRules rules).symbols.elems) :
    ∃ set, firstStep epsilon table rule = .ok (table.add rule.lhs set) ∧
      ∀ other, other ∈ set ↔ Begins table epsilon rule.rhs other := by
  have rhsKnown : ∀ symbol ∈ rule.rhs, symbol ∈ table.symbols := fun symbol inside =>
    known ▸ mem_symbols_of_mem_rhs member inside
  have lhsKnown : rule.lhs ∈ table.symbols := known ▸ lhs_mem_symbols member
  obtain ⟨set, done, holds⟩ := firstOf_ok epsilon rhsKnown
  obtain ⟨_, lhsDone, _⟩ := SetTable.get_of_mem_symbols lhsKnown
  refine ⟨set, ?_, holds⟩
  unfold firstStep
  rw [lhsDone, done]
  rfl

theorem extends_firstStep (listed : Rule.Listed epsilon rules) {rule : Rule}
    (member : rule ∈ rules) :
    Extends (FirstSound (ofRules rules) epsilon) (firstStep epsilon · rule) := by
  intro table sound
  obtain ⟨set, done, holds⟩ := firstStep_ok epsilon member sound.symbols_eq
  have below := table.below_add rule.lhs set
  refine ⟨_, done, ⟨sound.above.trans below, ?_⟩, below⟩
  intro symbol other held
  rcases SetTable.holds_add.mp held with before | ⟨rfl, _, inside⟩
  · exact sound.leads symbol other before
  · have begins := (holds other).mp inside
    have derives := Derives.of_rule member
    have proper := ne_epsilon_of_mem_terminals listed
    rcases leads_of_begins proper sound.leads begins with ⟨terminal, rest, later⟩ | ⟨same, later⟩
    · exact .inl ⟨terminal, rest, derives.trans later⟩
    · exact .inr ⟨same, derives.trans later⟩

/-- The members of a sound table are terminals and the word for the empty right side. -/
theorem FirstSound.size_le (sound : FirstSound (ofRules rules) epsilon table) :
    table.size ≤ (ofRules rules).symbols.size * ((ofRules rules).terminals.size + 1) := by
  have nodup : table.symbols.Nodup := sound.symbols_eq ▸ (ofRules rules).symbols.nodup
  have known : ∀ symbol member, table.Holds symbol member →
      member ∈ epsilon :: (ofRules rules).terminals.elems := by
    intro symbol member held
    rcases sound.leads symbol member held with ⟨terminal, _⟩ | ⟨same, _⟩
    · exact List.mem_cons_of_mem _ terminal
    · exact same ▸ List.mem_cons_self
  have bound := SetTable.size_le nodup known
  rwa [sound.symbols_eq] at bound

/-! ## The last pass -/

/-- What first sets are: strings of symbols begin by the table as they do by derivation. -/
structure FirstExact (ruleset : Ruleset) (epsilon : Symbol) (table : SetTable) : Prop where
  symbols_eq : table.symbols = ruleset.symbols.elems
  begins_iff : ∀ symbols member,
    Begins table epsilon symbols member ↔ ruleset.Leads epsilon symbols member

theorem begins_of_derives {source target : List Symbol} {member : Symbol}
    (stable : ∀ rule ∈ rules, ∀ other,
      Begins table epsilon rule.rhs other → table.Holds rule.lhs other)
    (derives : Derives rules source target) (begins : Begins table epsilon target member) :
    Begins table epsilon source member := by
  induction derives with
  | refl => exact begins
  | tail _ step ih =>
      cases step with
      | @rule before after rule inside =>
          rw [List.append_assoc] at begins
          exact ih (begins_of_rhs (stable rule inside) begins)

theorem firstExact_of_stable (listed : Rule.Listed epsilon rules)
    (sound : FirstSound (ofRules rules) epsilon table)
    (stable : ∀ rule ∈ rules, firstStep epsilon table rule = .ok table) :
    FirstExact (ofRules rules) epsilon table := by
  have proper := ne_epsilon_of_mem_terminals listed
  have closed : ∀ rule ∈ rules, ∀ other,
      Begins table epsilon rule.rhs other → table.Holds rule.lhs other := by
    intro rule member other begins
    obtain ⟨set, done, holds⟩ := firstStep_ok epsilon member sound.symbols_eq
    have same : table.add rule.lhs set = table :=
      Except.ok.inj (done.symm.trans (stable rule member))
    rw [← same]
    have known : rule.lhs ∈ table.symbols := sound.symbols_eq ▸ lhs_mem_symbols member
    exact SetTable.holds_add.mpr (.inr ⟨rfl, known, (holds other).mpr begins⟩)
  refine ⟨sound.symbols_eq, fun symbols member => ⟨leads_of_begins proper sound.leads, ?_⟩⟩
  rintro (⟨terminal, rest, derives⟩ | ⟨rfl, derives⟩)
  · refine begins_of_derives closed derives (.inl ⟨sound.above.holds ?_, proper member terminal⟩)
    have known : member ∈ (ofRules rules).symbols := SymbolSet.mem_union.mpr (.inl terminal)
    exact SetTable.holds_ofSymbols.mpr ⟨known, by simp [terminal]⟩
  · exact begins_of_derives closed derives (show Begins table member [] member from rfl)

/-- First sets are computed, and they are exact. -/
theorem firstSets_ok (listed : Rule.Listed epsilon rules) :
    ∃ first, (ofRules rules).firstSets epsilon = .ok first ∧
      FirstExact (ofRules rules) epsilon first := by
  have extend : ∀ rule ∈ rules,
      Extends (FirstSound (ofRules rules) epsilon) (firstStep epsilon · rule) :=
    fun _ member => extends_firstStep listed member
  obtain ⟨result, done, sound, stable, _⟩ :=
    saturate_ok ((ofRules rules).symbols.size * ((ofRules rules).terminals.size + 1) + 1)
      (extends_foldlM extend) (fun _ sound => sound.size_le)
      (firstSound_firstStart (ofRules rules)) (by omega)
  refine ⟨result.value, ?_, ?_⟩
  · unfold firstSets saturateFirst firstPass
    exact congrArg (Except.map Saturated.value) done
  · exact firstExact_of_stable listed sound (stable_of_foldlM extend sound stable)

namespace FirstExact

variable {first : SetTable}

theorem mem_symbols (exact : FirstExact (ofRules rules) epsilon first) {symbol : Symbol} :
    symbol ∈ first.symbols ↔
      symbol ∈ (ofRules rules).terminals ∨ symbol ∈ (ofRules rules).nonterminals := by
  rw [exact.symbols_eq]
  exact SymbolSet.mem_union

theorem mem_iff (exact : FirstExact (ofRules rules) epsilon first) {symbol member : Symbol}
    {set : SymbolSet} (found : first.get? symbol = some set) :
    member ∈ set ↔ (ofRules rules).Leads epsilon [symbol] member := by
  rw [← exact.begins_iff, begins_single]
  simp [SetTable.Holds, found]

theorem begins_epsilon_iff (exact : FirstExact (ofRules rules) epsilon first)
    (listed : Rule.Listed epsilon rules) {symbols : List Symbol} :
    Begins first epsilon symbols epsilon ↔ Derives rules symbols [] := by
  rw [exact.begins_iff]
  constructor
  · rintro (⟨terminal, _⟩ | ⟨_, derives⟩)
    · exact absurd rfl (ne_epsilon_of_mem_terminals listed epsilon terminal)
    · exact derives
  · exact fun derives => .inr ⟨rfl, derives⟩

theorem begins_proper_iff (exact : FirstExact (ofRules rules) epsilon first)
    (listed : Rule.Listed epsilon rules) {symbols : List Symbol} {member : Symbol} :
    Begins first epsilon symbols member ∧ member ≠ epsilon ↔
      member ∈ (ofRules rules).terminals ∧ ∃ rest, Derives rules symbols (member :: rest) := by
  rw [exact.begins_iff]
  constructor
  · rintro ⟨leads | ⟨same, _⟩, differ⟩
    · exact leads
    · exact absurd same differ
  · exact fun leads => ⟨.inl leads, ne_epsilon_of_mem_terminals listed member leads.1⟩

theorem mem_members (exact : FirstExact (ofRules rules) epsilon first) {terminal : Symbol}
    (member : terminal ∈ (ofRules rules).terminals) : terminal ∈ first.members := by
  have leads : (ofRules rules).Leads epsilon [terminal] terminal :=
    .inl ⟨member, [], .refl [terminal]⟩
  rw [← exact.begins_iff, begins_single] at leads
  exact SetTable.mem_members_of_holds leads

end FirstExact

/-- Only a nonterminal derives nothing. -/
theorem mem_nonterminals_of_derives_nil {symbol : Symbol} (derives : Derives rules [symbol] []) :
    symbol ∈ (ofRules rules).nonterminals := by
  by_contra absent
  have noRule : ∀ rule ∈ rules, rule.lhs ≠ symbol := fun rule member same =>
    absent (same ▸ lhs_mem_nonterminals member)
  exact List.cons_ne_nil _ _ (derives.eq_singleton noRule).symm

/--
The first sets of the rules that were read are computed for exactly the symbols of the
two classes.  They hold a terminal when a string that it begins is derived, the word for
the empty right side when a nonterminal derives nothing, and nothing else.
-/
theorem firstSets_exact {lines : List String} (read : Rule.readAll lines epsilon = .ok rules) :
    ∃ first, (ofRules rules).firstSets epsilon = .ok first ∧ first.symbols.Nodup ∧
      (∀ symbol, symbol ∈ first.symbols ↔
        symbol ∈ (ofRules rules).terminals ∨ symbol ∈ (ofRules rules).nonterminals) ∧
      ∀ symbol set, first.get? symbol = some set →
        (∀ terminal ∈ (ofRules rules).terminals,
          terminal ∈ set ↔ ∃ rest, Derives rules [symbol] (terminal :: rest)) ∧
        (epsilon ∈ set ↔ symbol ∈ (ofRules rules).nonterminals ∧ Derives rules [symbol] []) ∧
        ∀ member ∈ set, member ∈ (ofRules rules).terminals ∨ member = epsilon := by
  have listed := Rule.listed_of_readAll read
  have proper := ne_epsilon_of_mem_terminals listed
  obtain ⟨first, done, exact⟩ := firstSets_ok listed
  refine ⟨first, done, exact.symbols_eq ▸ (ofRules rules).symbols.nodup,
    fun symbol => exact.mem_symbols, fun symbol set found => ⟨?_, ?_, ?_⟩⟩
  · intro terminal member
    rw [exact.mem_iff found]
    constructor
    · rintro (⟨_, derives⟩ | ⟨same, _⟩)
      · exact derives
      · exact absurd same (proper terminal member)
    · exact fun derives => .inl ⟨member, derives⟩
  · rw [exact.mem_iff found]
    constructor
    · rintro (⟨terminal, _⟩ | ⟨_, derives⟩)
      · exact absurd rfl (proper epsilon terminal)
      · exact ⟨mem_nonterminals_of_derives_nil derives, derives⟩
    · exact fun ⟨_, derives⟩ => .inr ⟨rfl, derives⟩
  · intro member inside
    rcases (exact.mem_iff found).mp inside with ⟨terminal, _⟩ | ⟨same, _⟩
    · exact .inl terminal
    · exact .inr same

/-- A nullable nonterminal that begins its own right side lets the next symbol begin it. -/
theorem firstSets_exact_leftRecursive :
    ∃ rules, Rule.readAll ["S -> S A b", "S -> ε", "A -> a", "ε -> A"] "ε" = .ok rules ∧
      (∃ rest, Derives rules ["S"] ("a" :: rest)) ∧ Derives rules ["S"] [] ∧
      ¬ ∃ rest, Derives rules ["S"] ("b" :: rest) := by
  have read : Rule.readAll ["S -> S A b", "S -> ε", "A -> a", "ε -> A"] "ε" =
      .ok [⟨0, "S", ["S", "A", "b"], "ε"⟩, ⟨1, "S", [], "ε"⟩, ⟨2, "A", ["a"], "ε"⟩,
        ⟨3, "ε", ["A"], "ε"⟩] := by decide
  refine ⟨_, read, ?_⟩
  obtain ⟨first, done, _, _, members⟩ := firstSets_exact read
  have found : ((Except.ok first).map (SetTable.get? · "S") : Except LookupError _) =
      .ok (some (.ofList ["a", "ε"])) := by
    rw [← done]
    decide
  obtain ⟨terminals, nothing, _⟩ := members "S" _ (Except.ok.inj found)
  exact ⟨(terminals "a" (by decide)).mp (by decide), (nothing.mp (by decide)).2,
    fun derives => absurd ((terminals "b" (by decide)).mpr derives) (by decide)⟩

end GrammarWorkbench.Ruleset
