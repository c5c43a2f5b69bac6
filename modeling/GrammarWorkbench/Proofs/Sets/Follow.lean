import GrammarWorkbench.Proofs.Sets.First
import GrammarWorkbench.Sets.Follow

/-!
# Follow sets are exact

The follow set of a nonterminal holds the terminals that stand right behind it in some
string derived from a nonterminal, and the end marker exactly when it ends a string
derived from the start symbol.  A table that every occurrence of a nonterminal leaves
as it is holds all of them, by induction on the derivation.
-/

namespace GrammarWorkbench.Ruleset

/-! ## Occurrences -/

/-- The nonterminals on a right side, each with the symbols behind it. -/
def occurrences (nonterminals : SymbolSet) : List Symbol → List (Symbol × List Symbol)
  | [] => []
  | symbol :: rest =>
      if symbol ∈ nonterminals then (symbol, rest) :: occurrences nonterminals rest
      else occurrences nonterminals rest

theorem mem_occurrences {nonterminals : SymbolSet} {symbols rest : List Symbol}
    {symbol : Symbol} :
    (symbol, rest) ∈ occurrences nonterminals symbols ↔
      symbol ∈ nonterminals ∧ ∃ before, symbols = before ++ symbol :: rest := by
  induction symbols with
  | nil => simp [occurrences]
  | cons head tail ih =>
      have split : (∃ before, head :: tail = before ++ symbol :: rest) ↔
          head = symbol ∧ tail = rest ∨ ∃ before, tail = before ++ symbol :: rest := by
        constructor
        · rintro ⟨before, same⟩
          cases before with
          | nil => exact .inl (List.cons.inj same)
          | cons _ before => exact .inr ⟨before, (List.cons.inj same).2⟩
        · rintro (⟨rfl, rfl⟩ | ⟨before, rfl⟩)
          · exact ⟨[], rfl⟩
          · exact ⟨head :: before, rfl⟩
      rw [split]
      unfold occurrences
      split
      · rename_i nonterminal
        rw [List.mem_cons, ih, Prod.mk.injEq]
        constructor
        · rintro (⟨rfl, rfl⟩ | ⟨member, later⟩)
          · exact ⟨nonterminal, .inl ⟨rfl, rfl⟩⟩
          · exact ⟨member, .inr later⟩
        · rintro ⟨member, ⟨rfl, rfl⟩ | later⟩
          · exact .inl ⟨rfl, rfl⟩
          · exact .inr ⟨member, later⟩
      · rename_i terminal
        rw [ih]
        constructor
        · exact fun ⟨member, later⟩ => ⟨member, .inr later⟩
        · rintro ⟨member, ⟨rfl, _⟩ | later⟩
          · exact absurd member terminal
          · exact ⟨member, later⟩

/-- Going through a right side is going through its occurrences. -/
theorem followRule_eq_foldlM (nonterminals : SymbolSet) (first : SetTable)
    (epsilon lhs : Symbol) (symbols : List Symbol) (table : SetTable) :
    followRule nonterminals first epsilon lhs symbols table =
      (occurrences nonterminals symbols).foldlM
        (fun table occurrence =>
          followStep first epsilon lhs occurrence.1 occurrence.2 table) table := by
  induction symbols generalizing table with
  | nil => rfl
  | cons symbol rest ih =>
      unfold followRule occurrences
      split
      · rw [List.foldlM_cons]
        exact bind_congr ih
      · exact ih table

/-- A rule extends tables as the occurrences on its right side do. -/
theorem extends_followRule {Inv : SetTable → Prop} {nonterminals : SymbolSet} {first : SetTable}
    {epsilon lhs : Symbol} {symbols : List Symbol}
    (extend : ∀ before symbol rest, symbols = before ++ symbol :: rest → symbol ∈ nonterminals →
      Extends Inv (followStep first epsilon lhs symbol rest)) :
    Extends Inv (followRule nonterminals first epsilon lhs symbols) := by
  intro table holds
  rw [followRule_eq_foldlM]
  refine extends_foldlM (fun ⟨symbol, rest⟩ occurrence => ?_) table holds
  obtain ⟨nonterminal, before, split⟩ := mem_occurrences.mp occurrence
  exact extend before symbol rest split nonterminal

/-! ## The passes -/

/--
A terminal follows a symbol when it stands right behind it in a string derived from a
nonterminal, and the end marker when the symbol ends one derived from the start symbol.
-/
def Follows (ruleset : Ruleset) (start endMarker symbol member : Symbol) : Prop :=
  (member ∈ ruleset.terminals ∧ ∃ source ∈ ruleset.nonterminals, ∃ before after,
    Derives ruleset.rules [source] (before ++ symbol :: member :: after)) ∨
      member = endMarker ∧ ∃ before, Derives ruleset.rules [start] (before ++ [symbol])

variable {rules : List Rule} {epsilon start endMarker : Symbol} {first table : SetTable}

/-- What the passes keep: nothing is lost, and each member follows. -/
structure FollowSound (ruleset : Ruleset) (start endMarker : Symbol) (table : SetTable) :
    Prop where
  above : (ruleset.followStart start endMarker).Below table
  follows : ∀ symbol member, table.Holds symbol member →
    ruleset.Follows start endMarker symbol member

theorem FollowSound.symbols_eq {ruleset : Ruleset}
    (sound : FollowSound ruleset start endMarker table) :
    table.symbols = ruleset.nonterminals.elems := by
  rw [← sound.above.symbols_eq, followStart, SetTable.symbols_ofSymbols]

theorem followSound_followStart (ruleset : Ruleset) (start endMarker : Symbol) :
    FollowSound ruleset start endMarker (ruleset.followStart start endMarker) := by
  refine ⟨.refl _, fun symbol member held => ?_⟩
  obtain ⟨_, inside⟩ := SetTable.holds_ofSymbols.mp held
  split at inside
  · rename_i same
    exact .inr ⟨SymbolSet.mem_single.mp inside, [], same ▸ .refl _⟩
  · exact absurd inside (SymbolSet.not_mem_empty member)

/-- What the step of one occurrence adds, by the first sets of what is behind it. -/
theorem followStep_begins (epsilon : Symbol) {lhs symbol : Symbol} {rest : List Symbol}
    (restKnown : ∀ other ∈ rest, other ∈ first.symbols) (symbolKnown : symbol ∈ table.symbols)
    (lhsKnown : lhs ∈ table.symbols) :
    ∃ next, followStep first epsilon lhs symbol rest table = .ok next ∧ table.Below next ∧
      ∀ other added, next.Holds other added ↔ table.Holds other added ∨ other = symbol ∧
        (Begins first epsilon rest added ∧ added ≠ epsilon ∨
          Begins first epsilon rest epsilon ∧ table.Holds lhs added) := by
  obtain ⟨begins, beginsDone, members⟩ := firstOf_ok epsilon restKnown
  obtain ⟨_, symbolDone, _⟩ := SetTable.get_of_mem_symbols symbolKnown
  obtain ⟨lhsSet, lhsDone, lhsHolds⟩ := SetTable.get_of_mem_symbols
    (show lhs ∈ (table.add symbol (begins.erase epsilon)).symbols by simpa using lhsKnown)
  unfold followStep
  rw [symbolDone, beginsDone]
  by_cases vanishes : epsilon ∈ begins
  · refine ⟨(table.add symbol (begins.erase epsilon)).add symbol lhsSet, ?_, ?_, ?_⟩
    · simp [bind, Except.bind, vanishes, lhsDone, pure, Except.pure]
    · exact (table.below_add _ _).trans (SetTable.below_add _ _ _)
    · intro other added
      simp only [SetTable.holds_add, SetTable.symbols_add, lhsHolds, SymbolSet.mem_erase,
        ← members, vanishes, true_and]
      constructor
      · rintro ((old | ⟨same, _, leads⟩) | ⟨same, _, old | ⟨_, _, leads⟩⟩)
        · exact .inl old
        · exact .inr ⟨same, .inl leads⟩
        · exact .inr ⟨same, .inr old⟩
        · exact .inr ⟨same, .inl leads⟩
      · rintro (old | ⟨rfl, leads | old⟩)
        · exact .inl (.inl old)
        · exact .inl (.inr ⟨rfl, symbolKnown, leads⟩)
        · exact .inr ⟨rfl, symbolKnown, .inl old⟩
  · refine ⟨table.add symbol (begins.erase epsilon), ?_, table.below_add _ _, ?_⟩
    · simp [bind, Except.bind, vanishes, pure, Except.pure]
    · intro other added
      simp only [SetTable.holds_add, SymbolSet.mem_erase, ← members, vanishes, false_and, or_false]
      constructor
      · rintro (old | ⟨same, _, leads⟩)
        · exact .inl old
        · exact .inr ⟨same, leads⟩
      · rintro (old | ⟨rfl, leads⟩)
        · exact .inl old
        · exact .inr ⟨rfl, symbolKnown, leads⟩

/-- What the step of one occurrence adds. -/
theorem followStep_ok (listed : Rule.Listed epsilon rules)
    (exact : FirstExact (ofRules rules) epsilon first)
    (known : table.symbols = (ofRules rules).nonterminals.elems)
    {rule : Rule} (member : rule ∈ rules) {before rest : List Symbol} {symbol : Symbol}
    (nonterminal : symbol ∈ (ofRules rules).nonterminals)
    (split : rule.rhs = before ++ symbol :: rest) :
    ∃ next, followStep first epsilon rule.lhs symbol rest table = .ok next ∧
      table.Below next ∧
      ∀ other added, next.Holds other added ↔ table.Holds other added ∨ other = symbol ∧
        (added ∈ (ofRules rules).terminals ∧ (∃ tail, Derives rules rest (added :: tail)) ∨
          Derives rules rest [] ∧ table.Holds rule.lhs added) := by
  have restKnown : ∀ other ∈ rest, other ∈ first.symbols := fun other inside =>
    exact.symbols_eq ▸ mem_symbols_of_mem_rhs member (split ▸ by simp [inside])
  obtain ⟨next, done, below, holds⟩ := followStep_begins epsilon restKnown
    (known ▸ nonterminal : symbol ∈ table.symbols)
    (known ▸ lhs_mem_nonterminals member : rule.lhs ∈ table.symbols)
  refine ⟨next, done, below, fun other added => ?_⟩
  rw [holds, exact.begins_proper_iff listed, exact.begins_epsilon_iff listed]

theorem extends_followStep (listed : Rule.Listed epsilon rules)
    (exact : FirstExact (ofRules rules) epsilon first) {rule : Rule} (member : rule ∈ rules)
    {before rest : List Symbol} {symbol : Symbol}
    (nonterminal : symbol ∈ (ofRules rules).nonterminals)
    (split : rule.rhs = before ++ symbol :: rest) :
    Extends (FollowSound (ofRules rules) start endMarker)
      (followStep first epsilon rule.lhs symbol rest) := by
  intro table sound
  obtain ⟨next, done, below, holds⟩ :=
    followStep_ok listed exact sound.symbols_eq member nonterminal split
  have derives : Derives rules [rule.lhs] (before ++ symbol :: rest) :=
    split ▸ Derives.of_rule member
  refine ⟨next, done, ⟨sound.above.trans below, fun other added held => ?_⟩, below⟩
  rcases (holds other added).mp held with old | ⟨rfl, ⟨terminal, tail, leads⟩ | ⟨nothing, old⟩⟩
  · exact sound.follows other added old
  · refine .inl ⟨terminal, rule.lhs, lhs_mem_nonterminals member, before, tail, ?_⟩
    exact derives.trans (leads.behind before other)
  · have ends : Derives rules [rule.lhs] (before ++ [other]) :=
      derives.trans (nothing.behind before other)
    -- What follows the left side now follows the occurrence at its end.
    rcases sound.follows rule.lhs added old with
      ⟨terminal, source, known, front, tail, reached⟩ | ⟨same, front, reached⟩
    · refine .inl ⟨terminal, source, known, front ++ before, tail, reached.trans ?_⟩
      simpa using (ends.append_right (added :: tail)).append_left front
    · refine .inr ⟨same, front ++ before, reached.trans ?_⟩
      simpa using ends.append_left front

theorem FollowSound.size_le (exact : FirstExact (ofRules rules) epsilon first)
    (sound : FollowSound (ofRules rules) start endMarker table) :
    table.size ≤ (ofRules rules).nonterminals.size * (first.members.size + 1) := by
  have nodup : table.symbols.Nodup := sound.symbols_eq ▸ (ofRules rules).nonterminals.nodup
  have known : ∀ symbol member, table.Holds symbol member →
      member ∈ endMarker :: first.members.elems := by
    intro symbol member held
    rcases sound.follows symbol member held with ⟨terminal, _⟩ | ⟨same, _⟩
    · exact List.mem_cons_of_mem _ (exact.mem_members terminal)
    · exact same ▸ List.mem_cons_self
  have bound := SetTable.size_le nodup known
  rwa [sound.symbols_eq] at bound

/-! ## The last pass -/

/-- What an occurrence of a nonterminal on a right side demands of follow sets. -/
structure FollowClosed (rules : List Rule) (table : SetTable) : Prop where
  first : ∀ rule ∈ rules, ∀ before symbol rest, rule.rhs = before ++ symbol :: rest →
    symbol ∈ (ofRules rules).nonterminals → ∀ terminal ∈ (ofRules rules).terminals, ∀ tail,
      Derives rules rest (terminal :: tail) → table.Holds symbol terminal
  follow : ∀ rule ∈ rules, ∀ before symbol rest, rule.rhs = before ++ symbol :: rest →
    symbol ∈ (ofRules rules).nonterminals → Derives rules rest [] → ∀ member,
      table.Holds rule.lhs member → table.Holds symbol member

theorem followClosed_of_stable (listed : Rule.Listed epsilon rules)
    (exact : FirstExact (ofRules rules) epsilon first)
    (sound : FollowSound (ofRules rules) start endMarker table)
    (stable : (ofRules rules).followPass first epsilon table = .ok table) :
    FollowClosed rules table := by
  have stableRule := stable_of_foldlM
    (fun _ member => extends_followRule fun _ _ _ split nonterminal =>
      extends_followStep listed exact member nonterminal split) sound stable
  have stableStep : ∀ rule ∈ rules, ∀ before symbol rest, rule.rhs = before ++ symbol :: rest →
      symbol ∈ (ofRules rules).nonterminals →
        followStep first epsilon rule.lhs symbol rest table = .ok table := by
    intro rule member before symbol rest split nonterminal
    have whole := stableRule rule member
    rw [followRule_eq_foldlM] at whole
    refine stable_of_foldlM (fun ⟨other, behind⟩ occurrence => ?_) sound whole (symbol, rest)
      (mem_occurrences.mpr ⟨nonterminal, before, split⟩)
    obtain ⟨known, front, same⟩ := mem_occurrences.mp occurrence
    exact extends_followStep listed exact member known same
  have unmoved : ∀ rule ∈ rules, ∀ before symbol rest, rule.rhs = before ++ symbol :: rest →
      symbol ∈ (ofRules rules).nonterminals → ∀ added,
        added ∈ (ofRules rules).terminals ∧ (∃ tail, Derives rules rest (added :: tail)) ∨
          Derives rules rest [] ∧ table.Holds rule.lhs added → table.Holds symbol added := by
    intro rule member before symbol rest split nonterminal added demand
    obtain ⟨next, done, _, holds⟩ :=
      followStep_ok listed exact sound.symbols_eq member nonterminal split
    have same : next = table :=
      Except.ok.inj (done.symm.trans (stableStep rule member before symbol rest split nonterminal))
    exact same ▸ (holds symbol added).mpr (.inr ⟨rfl, demand⟩)
  constructor
  · intro rule member before symbol rest split nonterminal terminal known tail derives
    exact unmoved rule member before symbol rest split nonterminal terminal
      (.inl ⟨known, tail, derives⟩)
  · intro rule member before symbol rest split nonterminal nothing added held
    exact unmoved rule member before symbol rest split nonterminal added (.inr ⟨nothing, held⟩)

/-- A derivation from a nonterminal shows nothing behind a symbol that the table does not hold. -/
theorem held_of_derives (closed : FollowClosed rules table) {source : Symbol}
    {target : List Symbol} (derives : Derives rules [source] target) :
    ∀ before symbol after, target = before ++ symbol :: after →
      symbol ∈ (ofRules rules).nonterminals →
        (∀ terminal ∈ (ofRules rules).terminals, ∀ tail,
          Derives rules after (terminal :: tail) → table.Holds symbol terminal) ∧
        (Derives rules after [] → ∀ member, table.Holds source member →
          table.Holds symbol member) := by
  induction derives with
  | refl =>
      intro before symbol after same _
      obtain ⟨rfl, rfl, rfl⟩ : before = [] ∧ source = symbol ∧ after = [] := by
        cases before with
        | nil => simpa using same
        | cons _ before => simp at same
      exact ⟨fun _ _ _ derives => absurd derives.eq_nil (List.cons_ne_nil _ _),
        fun _ _ held => held⟩
  | tail _ step ih =>
      intro before symbol after same nonterminal
      cases step with
      | @rule front back rule member =>
          rcases occurrence_append same with ⟨inner, earlier, rfl⟩ | ⟨inner, rfl, rfl⟩
          · rcases occurrence_append earlier with ⟨between, rfl, rfl⟩ | ⟨outer, rfl, split⟩
            · -- The symbol stands before the place that was rewritten.
              have rewritten : Derives rules (between ++ rule.lhs :: back)
                  (between ++ rule.rhs ++ back) := .single (.rule between back member)
              obtain ⟨firsts, follows⟩ :=
                ih before symbol (between ++ rule.lhs :: back) (by simp) nonterminal
              exact ⟨fun terminal known tail derives =>
                  firsts terminal known tail (rewritten.trans derives),
                fun nothing => follows (rewritten.trans nothing)⟩
            · -- The symbol stands on the right side that was put in.
              obtain ⟨firsts, follows⟩ :=
                ih front rule.lhs back rfl (lhs_mem_nonterminals member)
              have passed := closed.follow rule member outer symbol inner split nonterminal
              refine ⟨fun terminal known tail derives => ?_, fun nothing other held => ?_⟩
              · obtain ⟨innerTarget, backTarget, whole, fromInner, fromBack⟩ := derives.split
                cases innerTarget with
                | nil =>
                    have later : Derives rules back (terminal :: tail) := whole ▸ fromBack
                    exact passed fromInner terminal (firsts terminal known tail later)
                | cons head innerTail =>
                    obtain ⟨rfl, _⟩ := List.cons.inj whole
                    exact closed.first rule member outer symbol inner split nonterminal
                      terminal known innerTail fromInner
              · obtain ⟨innerTarget, backTarget, whole, fromInner, fromBack⟩ := nothing.split
                obtain ⟨rfl, rfl⟩ := List.append_eq_nil_iff.mp whole.symm
                exact passed fromInner other (follows fromBack other held)
          · -- The symbol stands behind the place that was rewritten.
            exact ih (front ++ rule.lhs :: inner) symbol after (by simp) nonterminal

/-- What follow sets are: the table holds what follows each nonterminal. -/
structure FollowExact (ruleset : Ruleset) (start endMarker : Symbol) (table : SetTable) :
    Prop where
  symbols_eq : table.symbols = ruleset.nonterminals.elems
  holds_iff : ∀ symbol ∈ ruleset.nonterminals, ∀ member,
    table.Holds symbol member ↔ ruleset.Follows start endMarker symbol member

theorem followExact_of_closed (known : start ∈ (ofRules rules).nonterminals)
    (sound : FollowSound (ofRules rules) start endMarker table)
    (closed : FollowClosed rules table) :
    FollowExact (ofRules rules) start endMarker table := by
  refine ⟨sound.symbols_eq, fun symbol nonterminal member =>
    ⟨sound.follows symbol member, ?_⟩⟩
  rintro (⟨terminal, source, _, before, after, derives⟩ | ⟨rfl, before, derives⟩)
  · exact (held_of_derives closed derives before symbol (member :: after) rfl nonterminal).1
      member terminal after (.refl _)
  · apply (held_of_derives closed derives before symbol [] rfl nonterminal).2 (.refl []) member
    exact sound.above.holds (SetTable.holds_ofSymbols.mpr ⟨known, by simp⟩)

/-- Follow sets are computed, and they are exact. -/
theorem followSets_ok (listed : Rule.Listed epsilon rules)
    (exact : FirstExact (ofRules rules) epsilon first)
    (known : start ∈ (ofRules rules).nonterminals) (endMarker : Symbol) :
    ∃ follow, (ofRules rules).followSets first epsilon start endMarker = .ok follow ∧
      FollowExact (ofRules rules) start endMarker follow := by
  have extend : Extends (FollowSound (ofRules rules) start endMarker)
      ((ofRules rules).followPass first epsilon) :=
    extends_foldlM fun _ member => extends_followRule fun _ _ _ split nonterminal =>
      extends_followStep listed exact member nonterminal split
  obtain ⟨result, done, sound, stable, _⟩ :=
    saturate_ok ((ofRules rules).nonterminals.size * (first.members.size + 1) + 1) extend
      (fun _ sound => sound.size_le exact) (followSound_followStart (ofRules rules) start endMarker)
      (by omega)
  refine ⟨result.value, ?_, ?_⟩
  · unfold followSets saturateFollow
    rw [if_pos known]
    exact congrArg (Except.map Saturated.value) done
  · exact followExact_of_closed known sound (followClosed_of_stable listed exact sound stable)

/--
The follow sets of the rules that were read are computed for exactly the nonterminals.
They hold a terminal when it stands right behind the nonterminal in a string derived
from any nonterminal, the end marker when the nonterminal ends a string derived from
the start symbol, and nothing else.
-/
theorem followSets_exact {lines : List String} (read : Rule.readAll lines epsilon = .ok rules)
    (firstDone : (ofRules rules).firstSets epsilon = .ok first)
    (known : start ∈ (ofRules rules).nonterminals) (endMarker : Symbol) :
    ∃ follow, (ofRules rules).followSets first epsilon start endMarker = .ok follow ∧
      follow.symbols.Nodup ∧
      (∀ symbol, symbol ∈ follow.symbols ↔ symbol ∈ (ofRules rules).nonterminals) ∧
      ∀ symbol set, follow.get? symbol = some set → ∀ member, member ∈ set ↔
        (member ∈ (ofRules rules).terminals ∧ ∃ source ∈ (ofRules rules).nonterminals,
          ∃ before after, Derives rules [source] (before ++ symbol :: member :: after)) ∨
        member = endMarker ∧ ∃ before, Derives rules [start] (before ++ [symbol]) := by
  have listed := Rule.listed_of_readAll read
  obtain ⟨exactFirst, exactDone, exact⟩ := firstSets_ok listed
  obtain rfl : exactFirst = first := Except.ok.inj (exactDone.symm.trans firstDone)
  obtain ⟨follow, done, followExact⟩ := followSets_ok listed exact known endMarker
  refine ⟨follow, done, followExact.symbols_eq ▸ (ofRules rules).nonterminals.nodup,
    fun symbol => ?_, fun symbol set found member => ?_⟩
  · rw [followExact.symbols_eq]
    exact Iff.rfl
  · have inTable : symbol ∈ follow.symbols := SetTable.mem_symbols.mpr ⟨set, found⟩
    have nonterminal : symbol ∈ (ofRules rules).nonterminals := by
      rwa [followExact.symbols_eq] at inTable
    have holds := followExact.holds_iff symbol nonterminal member
    simpa [SetTable.Holds, found, Follows] using holds

/-- A rule that the start symbol does not reach still tells what follows. -/
theorem followSets_exact_unreachable :
    ∃ rules first, Rule.readAll ["S -> A S b", "S -> A", "A -> c", "A -> ε", "U -> S A d"] "ε" =
        .ok rules ∧
      (ofRules rules).firstSets "ε" = .ok first ∧ "S" ∈ (ofRules rules).nonterminals ∧
      (∃ source ∈ (ofRules rules).nonterminals, ∃ before after,
        Derives rules [source] (before ++ "S" :: "d" :: after)) ∧
      ¬ ∃ before, Derives rules ["S"] (before ++ ["U"]) := by
  obtain ⟨rules, same, read⟩ : ∃ rules : List Rule, rules = [⟨0, "S", ["A", "S", "b"], "ε"⟩,
      ⟨1, "S", ["A"], "ε"⟩, ⟨2, "A", ["c"], "ε"⟩, ⟨3, "A", [], "ε"⟩,
      ⟨4, "U", ["S", "A", "d"], "ε"⟩] ∧ Rule.readAll ["S -> A S b", "S -> A", "A -> c",
        "A -> ε", "U -> S A d"] "ε" = .ok rules := ⟨_, rfl, by decide⟩
  obtain ⟨first, firstDone, _⟩ := firstSets_ok (Rule.listed_of_readAll read)
  have known : "S" ∈ (ofRules rules).nonterminals := by
    rw [same]
    decide
  refine ⟨rules, first, read, firstDone, known, ?_⟩
  obtain ⟨follow, done, _, _, members⟩ := followSets_exact read firstDone known "$"
  have found : (((ofRules rules).firstSets "ε").bind
      ((ofRules rules).followSets · "ε" "S" "$")).map
        (fun table => (table.get? "S", table.get? "U")) =
      .ok (some (.ofList ["$", "b", "c", "d"]), some ∅) := by
    rw [same]
    decide
  rw [firstDone, Except.bind, done] at found
  obtain ⟨start, unreached⟩ := Prod.mk.inj (Except.ok.inj found)
  constructor
  · rcases (members "S" _ start "d").mp (by decide) with ⟨_, derived⟩ | ⟨marker, _⟩
    · exact derived
    · exact absurd marker (by decide)
  · intro ends
    exact SymbolSet.not_mem_empty "$" ((members "U" _ unreached "$").mpr (.inr ⟨rfl, ends⟩))

end GrammarWorkbench.Ruleset
