import GrammarWorkbench.Proofs.Sets.Follow

/-!
# The number of passes

Whatever word stands for the empty right side, a pass puts only terminals and that word into the
first sets of nonterminals, and only terminals and the end marker into follow sets.  The sets of
`N` nonterminals therefore grow at most `N * (T + 1)` times over `T` terminals, and the passes are
one more at most, the last of which adds nothing.
-/

namespace GrammarWorkbench

/-! ## Large and small entries -/

/-- A table whose entries are small for the symbols of a set, and of any allowed size for others. -/
theorem SetTable.size_le_of_small {table : SetTable} {small : SymbolSet} {bound : Nat}
    (smalls : ∀ entry ∈ table.entries, entry.1 ∈ small → entry.2.size ≤ 1)
    (bounds : ∀ entry ∈ table.entries, entry.2.size ≤ bound) :
    table.size ≤ (table.symbols.filter (· ∈ small)).length +
      (table.symbols.filter (· ∉ small)).length * bound := by
  obtain ⟨entries⟩ := table
  induction entries with
  | nil => exact Nat.zero_le _
  | cons entry rest ih =>
      have later := ih (fun other member => smalls other (List.mem_cons_of_mem _ member))
        (fun other member => bounds other (List.mem_cons_of_mem _ member))
      have whole : (mk (entry :: rest)).size = entry.2.size + (mk rest).size := rfl
      have names : (mk (entry :: rest)).symbols = entry.1 :: (mk rest).symbols := rfl
      rw [whole, names]
      by_cases inside : entry.1 ∈ small
      · have one := smalls entry List.mem_cons_self inside
        simp only [inside, decide_true, decide_false, not_true_eq_false, List.filter_cons,
          if_true, Bool.false_eq_true, if_false, List.length_cons]
        omega
      · have here := bounds entry List.mem_cons_self
        simp only [inside, decide_true, decide_false, not_false_eq_true, List.filter_cons,
          if_true, Bool.false_eq_true, if_false, List.length_cons, Nat.succ_mul]
        omega

/-- A table that begins with one member for each of some symbols. -/
theorem SetTable.size_ofSymbols_single (symbols chosen : SymbolSet) :
    (ofSymbols symbols fun symbol => if symbol ∈ chosen then .single symbol else ∅).size =
      (symbols.elems.filter (· ∈ chosen)).length := by
  obtain ⟨elems, ascending⟩ := symbols
  show (SetTable.mk (elems.map fun symbol =>
    (symbol, if symbol ∈ chosen then .single symbol else ∅))).size =
      (elems.filter (· ∈ chosen)).length
  clear ascending
  induction elems with
  | nil => rfl
  | cons first rest ih =>
      rw [List.map_cons]
      show SymbolSet.size _ + (SetTable.mk (rest.map _)).size = _
      rw [ih]
      by_cases inside : first ∈ chosen
      · simp [inside, SymbolSet.size, SymbolSet.single, Nat.add_comm]
      · simp [inside, SymbolSet.size, EmptyCollection.emptyCollection, SymbolSet.empty]

namespace Ruleset

variable {rules : List Rule} {word endMarker : Symbol} {first table : SetTable}

theorem length_filter_terminals (ruleset : Ruleset) :
    (ruleset.symbols.elems.filter (· ∈ ruleset.terminals)).length = ruleset.terminals.size := by
  refine (List.perm_ext_iff_of_nodup (ruleset.symbols.nodup.filter _)
    ruleset.terminals.nodup).mpr (fun symbol => ?_) |>.length_eq
  simp only [List.mem_filter, decide_eq_true_eq, SymbolSet.mem_elems, symbols, SymbolSet.mem_union]
  exact ⟨And.right, fun member => ⟨.inl member, member⟩⟩

theorem length_filter_not_terminals_le (ruleset : Ruleset) :
    (ruleset.symbols.elems.filter (· ∉ ruleset.terminals)).length ≤ ruleset.nonterminals.size := by
  refine (List.subperm_of_subset (ruleset.symbols.nodup.filter _) fun symbol member => ?_).length_le
  simp only [List.mem_filter, decide_eq_true_eq, SymbolSet.mem_elems, symbols,
    SymbolSet.mem_union] at member
  exact member.1.resolve_left member.2

theorem nonterminals_size_le (ruleset : Ruleset) :
    ruleset.nonterminals.size ≤ ruleset.symbols.size :=
  SymbolSet.size_le_size fun _ member => SymbolSet.mem_union.mpr (.inr member)

/-! ## First sets -/

/-- What passes keep with any word: a terminal keeps its set, and the members are known. -/
structure FirstWithin (ruleset : Ruleset) (word : Symbol) (table : SetTable) : Prop where
  above : ruleset.firstStart.Below table
  known : ∀ symbol member, table.Holds symbol member → member ∈ ruleset.terminals ∨ member = word
  fixed : ∀ terminal ∈ ruleset.terminals, ∀ member, table.Holds terminal member → member = terminal

theorem FirstWithin.symbols_eq {ruleset : Ruleset} (within : FirstWithin ruleset word table) :
    table.symbols = ruleset.symbols.elems := by
  rw [← within.above.symbols_eq, firstStart, SetTable.symbols_ofSymbols]

theorem firstWithin_firstStart (ruleset : Ruleset) (word : Symbol) :
    FirstWithin ruleset word ruleset.firstStart := by
  have holds : ∀ symbol member, ruleset.firstStart.Holds symbol member →
      symbol ∈ ruleset.terminals ∧ member = symbol := by
    intro symbol member held
    obtain ⟨_, inside⟩ := SetTable.holds_ofSymbols.mp held
    split at inside
    · rename_i terminal
      exact ⟨terminal, SymbolSet.mem_single.mp inside⟩
    · exact absurd inside (SymbolSet.not_mem_empty member)
  refine ⟨.refl _, fun symbol member held => .inl ?_, fun terminal _ member held => ?_⟩
  · obtain ⟨terminal, rfl⟩ := holds symbol member held
    exact terminal
  · exact (holds terminal member held).2

theorem FirstWithin.known_of_begins {ruleset : Ruleset} (within : FirstWithin ruleset word table)
    {symbols : List Symbol} {member : Symbol} (begins : Begins table word symbols member) :
    member ∈ ruleset.terminals ∨ member = word := by
  induction symbols with
  | nil => exact .inr begins
  | cons symbol rest ih =>
      rcases begins with ⟨held, _⟩ | ⟨_, later⟩
      · exact within.known symbol member held
      · exact ih later

theorem firstWithin_firstStep {rule : Rule} (member : rule ∈ rules) :
    Extends (FirstWithin (ofRules rules) word) (firstStep word · rule) := by
  intro table within
  obtain ⟨set, done, members⟩ := firstStep_ok word member within.symbols_eq
  have below := table.below_add rule.lhs set
  refine ⟨_, done, ⟨within.above.trans below, ?_, ?_⟩, below⟩
  · intro symbol other held
    rcases SetTable.holds_add.mp held with before | ⟨_, _, added⟩
    · exact within.known symbol other before
    · exact within.known_of_begins ((members other).mp added)
  · intro terminal known other held
    rcases SetTable.holds_add.mp held with before | ⟨same, _, _⟩
    · exact within.fixed terminal known other before
    · exact absurd same.symm (lhs_ne_of_mem_terminals known rule member)

theorem FirstWithin.size_le (within : FirstWithin (ofRules rules) word table) :
    table.size ≤ (ofRules rules).terminals.size +
      (ofRules rules).nonterminals.size * ((ofRules rules).terminals.size + 1) := by
  have nodup : table.symbols.Nodup := within.symbols_eq ▸ (ofRules rules).symbols.nodup
  have held : ∀ entry ∈ table.entries, ∀ member ∈ entry.2, table.Holds entry.1 member :=
    fun entry inside member here => ⟨entry.2, SetTable.get?_of_mem nodup inside, here⟩
  have small : ∀ entry ∈ table.entries, entry.1 ∈ (ofRules rules).terminals →
      entry.2.size ≤ 1 := by
    intro entry inside terminal
    have single : ∀ member ∈ entry.2, member ∈ [entry.1] := fun member here =>
      List.mem_singleton.mpr (within.fixed entry.1 terminal member (held entry inside member here))
    exact SymbolSet.size_le_length single
  have large : ∀ entry ∈ table.entries, entry.2.size ≤ (ofRules rules).terminals.size + 1 := by
    intro entry inside
    have known : ∀ member ∈ entry.2, member ∈ word :: (ofRules rules).terminals.elems :=
      fun member here =>
        List.mem_cons.mpr (within.known entry.1 member (held entry inside member here)).symm
    exact SymbolSet.size_le_length known
  have bound := SetTable.size_le_of_small small large
  rw [within.symbols_eq, length_filter_terminals] at bound
  exact Nat.le_trans bound (Nat.add_le_add_left
    (Nat.mul_le_mul_right _ (length_filter_not_terminals_le _)) _)

/-- The passes for first sets settle, and their number has a bound. -/
theorem exists_first_settles (rules : List Rule) (word : Symbol) :
    ∃ result, Settles ((ofRules rules).firstPass word) SetTable.size (ofRules rules).firstStart
        result ∧
      FirstWithin (ofRules rules) word result.value ∧
      result.passes ≤
        (ofRules rules).nonterminals.size * ((ofRules rules).terminals.size + 1) + 1 := by
  obtain ⟨result, settles, within, _, passes⟩ :=
    exists_settles (extends_foldlM fun _ member => firstWithin_firstStep member)
      (fun _ within => within.size_le) (firstWithin_firstStart (ofRules rules) word)
  refine ⟨result, settles, within, ?_⟩
  have start : (ofRules rules).firstStart.size = (ofRules rules).terminals.size :=
    (SetTable.size_ofSymbols_single _ _).trans (length_filter_terminals _)
  omega

/-! ## Follow sets -/

/-- What passes keep with any word: the members are terminals and the end marker. -/
structure FollowWithin (ruleset : Ruleset) (endMarker : Symbol) (table : SetTable) : Prop where
  symbols_eq : table.symbols = ruleset.nonterminals.elems
  known : ∀ symbol member, table.Holds symbol member →
    member ∈ ruleset.terminals ∨ member = endMarker

theorem followWithin_followStart (ruleset : Ruleset) (start endMarker : Symbol) :
    FollowWithin ruleset endMarker (ruleset.followStart start endMarker) := by
  refine ⟨SetTable.symbols_ofSymbols _ _, fun symbol member held => ?_⟩
  obtain ⟨_, inside⟩ := SetTable.holds_ofSymbols.mp held
  split at inside
  · exact .inr (SymbolSet.mem_single.mp inside)
  · exact absurd inside (SymbolSet.not_mem_empty member)

theorem followWithin_followStep (within : FirstWithin (ofRules rules) word first) {rule : Rule}
    (member : rule ∈ rules) {before rest : List Symbol} {symbol : Symbol}
    (nonterminal : symbol ∈ (ofRules rules).nonterminals)
    (split : rule.rhs = before ++ symbol :: rest) :
    Extends (FollowWithin (ofRules rules) endMarker)
      (followStep first word rule.lhs symbol rest) := by
  intro table follow
  have restKnown : ∀ other ∈ rest, other ∈ first.symbols := fun other inside =>
    within.symbols_eq ▸ mem_symbols_of_mem_rhs member (split ▸ by simp [inside])
  obtain ⟨next, done, below, holds⟩ := followStep_begins word restKnown
    (follow.symbols_eq ▸ nonterminal : symbol ∈ table.symbols)
    (follow.symbols_eq ▸ lhs_mem_nonterminals member : rule.lhs ∈ table.symbols)
  refine ⟨next, done, ⟨below.symbols_eq.symm.trans follow.symbols_eq, ?_⟩, below⟩
  intro other added held
  rcases (holds other added).mp held with old | ⟨_, ⟨begins, differ⟩ | ⟨_, old⟩⟩
  · exact follow.known other added old
  · exact .inl ((within.known_of_begins begins).resolve_right differ)
  · exact follow.known rule.lhs added old

theorem FollowWithin.size_le {ruleset : Ruleset} (within : FollowWithin ruleset endMarker table) :
    table.size ≤ ruleset.nonterminals.size * (ruleset.terminals.size + 1) := by
  have nodup : table.symbols.Nodup := within.symbols_eq ▸ ruleset.nonterminals.nodup
  have known : ∀ symbol member, table.Holds symbol member →
      member ∈ endMarker :: ruleset.terminals.elems := fun symbol member held =>
    List.mem_cons.mpr (within.known symbol member held).symm
  have bound := SetTable.size_le nodup known
  rwa [within.symbols_eq] at bound

/-- The passes for follow sets settle, and their number has a bound. -/
theorem exists_follow_settles (within : FirstWithin (ofRules rules) word first)
    (start endMarker : Symbol) :
    ∃ result, Settles ((ofRules rules).followPass first word) SetTable.size
        ((ofRules rules).followStart start endMarker) result ∧
      result.passes ≤
        (ofRules rules).nonterminals.size * ((ofRules rules).terminals.size + 1) + 1 := by
  obtain ⟨result, settles, _, _, passes⟩ :=
    exists_settles (extends_foldlM fun _ member => extends_followRule fun _ _ _ split nonterminal =>
        followWithin_followStep within member nonterminal split)
      (fun _ follow => follow.size_le) (followWithin_followStart (ofRules rules) start endMarker)
  exact ⟨result, settles, by omega⟩

/-- First sets hold each terminal. -/
theorem FirstWithin.terminals_size_le (within : FirstWithin (ofRules rules) word first) :
    (ofRules rules).terminals.size ≤ first.members.size := by
  refine SymbolSet.size_le_size fun terminal member => ?_
  refine SetTable.mem_members_of_holds (within.above.holds ?_ : first.Holds terminal terminal)
  exact SetTable.holds_ofSymbols.mpr ⟨SymbolSet.mem_union.mpr (.inl member), by simp [member]⟩

end Ruleset

end GrammarWorkbench
