import GrammarWorkbench.Proofs.Analysis
import GrammarWorkbench.Proofs.Automaton.Canonical

/-!
# Which conflicts are found

A state shifts a terminal that one of its items awaits, and it may reduce by a rule that is
complete in it and whose left side may be followed by the symbol.  A conflict is found for a
state and a symbol exactly where a shift meets such a rule or where several such rules
meet, and it names all of them in the order of the items.
-/

namespace GrammarWorkbench

instance (table : SetTable) (symbol member : Symbol) : Decidable (table.Holds symbol member) :=
  decidable_of_iff (∃ set ∈ table.get? symbol, member ∈ set) Iff.rfl

/-- The conflict is one of a kind on a symbol in the state at a position. -/
def Conflict.At (position : Nat) (kind : ConflictKind) (symbol : Symbol) (conflict : Conflict) :
    Prop :=
  conflict.state = position ∧ conflict.kind = kind ∧ conflict.symbol = symbol

instance (position : Nat) (kind : ConflictKind) (symbol : Symbol) (conflict : Conflict) :
    Decidable (conflict.At position kind symbol) :=
  inferInstanceAs (Decidable (_ ∧ _ ∧ _))

/-- Conflicts are listed by state, and in one state those with a shift come first. -/
def Conflict.Before (left right : Conflict) : Prop :=
  left.state < right.state ∨
    left.state = right.state ∧ (left.kind = .shiftReduce ∨ right.kind = .reduceReduce)

theorem nodup_keysOf {κ α : Type} [DecidableEq κ] (pairs : List (κ × α)) : (keysOf pairs).Nodup :=
  Breadth.nodup_eraseDups _

/-! ## One report for each symbol -/

section

variable {symbols : List Symbol} {report : Symbol → Option Conflict} {position : Nat}
  {kind : ConflictKind}

theorem at_of_mem_filterMap
    (here : ∀ symbol conflict, report symbol = some conflict → conflict.At position kind symbol)
    {conflict : Conflict} (member : conflict ∈ symbols.filterMap report) :
    ∃ symbol ∈ symbols, conflict.At position kind symbol := by
  obtain ⟨symbol, inside, reported⟩ := List.mem_filterMap.mp member
  exact ⟨symbol, inside, here symbol conflict reported⟩

theorem filter_filterMap_at (nodup : symbols.Nodup)
    (here : ∀ symbol conflict, report symbol = some conflict → conflict.At position kind symbol)
    (symbol : Symbol) :
    (symbols.filterMap report).filter (Conflict.At position kind symbol ·) =
      if symbol ∈ symbols then (report symbol).toList else [] := by
  split
  · rename_i member
    rw [List.filterMap_eq_flatMap_toList, filter_flatMap_unique nodup member]
    · refine List.filter_eq_self.mpr fun conflict reported => decide_eq_true ?_
      exact here symbol conflict (Option.mem_toList.mp reported)
    · intro other _ conflict reported accepted
      obtain ⟨_, _, same⟩ := here other conflict (Option.mem_toList.mp reported)
      exact same.symm.trans (of_decide_eq_true accepted).2.2
  · rename_i absent
    refine List.filter_eq_nil_iff.mpr fun conflict member accepted => absent ?_
    obtain ⟨other, inside, _, _, same⟩ := at_of_mem_filterMap here member
    exact (same.symm.trans (of_decide_eq_true accepted).2.2) ▸ inside

theorem filter_filterMap_other {other : ConflictKind} (differs : other ≠ kind)
    (here : ∀ symbol conflict, report symbol = some conflict → conflict.At position kind symbol)
    (symbol : Symbol) :
    (symbols.filterMap report).filter (Conflict.At position other symbol ·) = [] := by
  refine List.filter_eq_nil_iff.mpr fun conflict member accepted => differs ?_
  obtain ⟨_, _, _, same, _⟩ := at_of_mem_filterMap here member
  exact (of_decide_eq_true accepted).2.1.symm.trans same

end

/-! ## What a filtered list tells -/

section

variable {α : Type} {items : List α} {test : α → Bool} {condition : Prop} [Decidable condition]
  {only : α}

theorem exists_iff_of_filter_eq (same : items.filter test = if condition then [only] else []) :
    (∃ item ∈ items, test item = true) ↔ condition := by
  have members : ∀ item, (item ∈ items ∧ test item = true) ↔ condition ∧ item = only := by
    intro item
    rw [← List.mem_filter, same]
    by_cases holds : condition
    · simp [holds]
    · simp [holds]
  simp only [members, exists_and_left, exists_eq, and_true]

theorem eq_of_filter_eq (same : items.filter test = if condition then [only] else []) {item : α}
    (member : item ∈ items) (accepted : test item = true) :
    items.filter test = [item] ∧ item = only := by
  have inside := List.mem_filter.mpr ⟨member, accepted⟩
  rw [same] at inside ⊢
  split at inside
  · rename_i holds
    obtain rfl := List.mem_singleton.mp inside
    exact ⟨if_pos holds, rfl⟩
  · cases inside

end

namespace Detector

variable {detector : Detector} {accept : Rule} {position : Nat} {state : State} {symbol : Symbol}

/-! ## The reports of one state -/

theorem shiftReport_eq_some {conflict : Conflict} :
    detector.shiftReport accept position state symbol = some conflict ↔
      detector.competing accept state symbol ≠ [] ∧
        conflict = ⟨position, .shiftReduce, symbol,
          (detector.competing accept state symbol).map Rule.index, [symbol]⟩ := by
  unfold shiftReport
  split
  · rename_i none
    simp [none]
  · rename_i some
    simp [some, eq_comm]

theorem reduceReport_eq_some {conflict : Conflict} :
    detector.reduceReport accept position state symbol = some conflict ↔
      2 ≤ (detector.competing accept state symbol).length ∧
        conflict = ⟨position, .reduceReduce, symbol,
          (detector.competing accept state symbol).map Rule.index,
          (common ((detector.competing accept state symbol).map detector.lookaheadSet)).elems⟩ := by
  unfold reduceReport
  split
  · rename_i few
    simp [Nat.not_le_of_lt few]
  · rename_i several
    simp [Nat.le_of_not_lt several, eq_comm]

theorem shiftReport_at (symbol : Symbol) (conflict : Conflict)
    (reported : detector.shiftReport accept position state symbol = some conflict) :
    conflict.At position .shiftReduce symbol := by
  rw [(shiftReport_eq_some.mp reported).2]
  exact ⟨rfl, rfl, rfl⟩

theorem reduceReport_at (symbol : Symbol) (conflict : Conflict)
    (reported : detector.reduceReport accept position state symbol = some conflict) :
    conflict.At position .reduceReduce symbol := by
  rw [(reduceReport_eq_some.mp reported).2]
  exact ⟨rfl, rfl, rfl⟩

/-- A state shifts each of its symbols once. -/
theorem nodup_symbols_shifts (detector : Detector) (source : Int) :
    ((detector.shifts source).map (·.1)).Nodup := by
  have last : ∀ pairs : List (Symbol × Int), ∀ group ∈ grouped pairs,
      (group.2.getLast?.map (group.1, ·)).map (·.1) = some group.1 := by
    intro pairs group member
    rw [List.getLast?_eq_getLast_of_ne_nil (ne_nil_of_mem_grouped member)]
    rfl
  rw [shifts, List.map_filterMap, List.filterMap_congr (last _), List.filterMap_eq_map', grouped,
    List.map_map]
  exact (List.map_id'' (fun _ => rfl) _).symm ▸ nodup_keysOf _

theorem reports_eq (found : detector.automaton.states[position]? = some state) :
    detector.reports accept position =
      ((detector.shifts position).map (·.1)).filterMap
          (detector.shiftReport accept position state) ++
        (keysOf (detector.reductionPairs accept state)).filterMap
          (detector.reduceReport accept position state) := by
  rw [reports, found, List.filterMap_map]
  rfl

/-- At most one conflict with a shift is reported of a state and a symbol. -/
theorem filter_reports_shift (found : detector.automaton.states[position]? = some state)
    (symbol : Symbol) :
    (detector.reports accept position).filter (Conflict.At position .shiftReduce symbol ·) =
      if symbol ∈ (detector.shifts position).map (·.1) then
        (detector.shiftReport accept position state symbol).toList
      else [] := by
  rw [reports_eq found, List.filter_append,
    filter_filterMap_at (nodup_symbols_shifts detector position) shiftReport_at,
    filter_filterMap_other (by decide) reduceReport_at, List.append_nil]

/-- At most one conflict among reductions is reported of a state and a symbol. -/
theorem filter_reports_reduce (found : detector.automaton.states[position]? = some state)
    (symbol : Symbol) :
    (detector.reports accept position).filter (Conflict.At position .reduceReduce symbol ·) =
      (detector.reduceReport accept position state symbol).toList := by
  rw [reports_eq found, List.filter_append, filter_filterMap_other (by decide) shiftReport_at,
    filter_filterMap_at (nodup_keysOf _) reduceReport_at, List.nil_append]
  split
  · rfl
  · rename_i absent
    have none : detector.competing accept state symbol = [] :=
      not_not.mp fun some => absent (mem_keysOf_reductionPairs.mpr some)
    simp [reduceReport, none]

/-- What is reported of a state bears its position. -/
theorem state_of_mem_reports {conflict : Conflict}
    (member : conflict ∈ detector.reports accept position) : conflict.state = position := by
  cases found : detector.automaton.states[position]? with
  | none =>
      rw [reports, found] at member
      cases member
  | some state =>
      rw [reports_eq found] at member
      cases List.mem_append.mp member with
      | inl early =>
          obtain ⟨_, _, same, _⟩ := at_of_mem_filterMap shiftReport_at early
          exact same
      | inr late =>
          obtain ⟨_, _, same, _⟩ := at_of_mem_filterMap reduceReport_at late
          exact same

theorem pairwise_reports (found : detector.automaton.states[position]? = some state) :
    (detector.reports accept position).Pairwise Conflict.Before := by
  have same : ∀ left ∈ detector.reports accept position,
      ∀ right ∈ detector.reports accept position, left.state = right.state :=
    fun left first right second =>
      (state_of_mem_reports first).trans (state_of_mem_reports second).symm
  rw [reports_eq found] at same ⊢
  refine List.pairwise_append.mpr
    ⟨List.pairwise_of_forall_mem_list fun left first right second => ?_,
    List.pairwise_of_forall_mem_list fun left first right second => ?_,
    fun left first right second => ?_⟩
  · obtain ⟨_, _, _, kind, _⟩ := at_of_mem_filterMap shiftReport_at first
    exact .inr ⟨same left (List.mem_append_left _ first) right (List.mem_append_left _ second),
      .inl kind⟩
  · obtain ⟨_, _, _, kind, _⟩ := at_of_mem_filterMap reduceReport_at second
    exact .inr ⟨same left (List.mem_append_right _ first) right (List.mem_append_right _ second),
      .inr kind⟩
  · obtain ⟨_, _, _, kind, _⟩ := at_of_mem_filterMap shiftReport_at first
    exact .inr ⟨same left (List.mem_append_left _ first) right (List.mem_append_right _ second),
      .inl kind⟩

/-- The reports of all states in their order. -/
def allReports (detector : Detector) (accept : Rule) : List Conflict :=
  (List.range detector.automaton.states.length).flatMap (detector.reports accept)

/-- What is reported for a state is what is reported of it. -/
theorem filter_allReports (found : detector.automaton.states[position]? = some state)
    (kind : ConflictKind) (symbol : Symbol) :
    (detector.allReports accept).filter (Conflict.At position kind symbol ·) =
      (detector.reports accept position).filter (Conflict.At position kind symbol ·) := by
  have inside := List.mem_range.mpr (List.getElem?_eq_some_iff.mp found).1
  refine filter_flatMap_unique List.nodup_range inside ?_
  intro other _ conflict reported accepted
  have here := (of_decide_eq_true accepted).1
  exact Int.ofNat_inj.mp ((state_of_mem_reports reported).symm.trans here)

theorem pairwise_allReports : (detector.allReports accept).Pairwise Conflict.Before := by
  refine List.pairwise_flatMap.mpr ⟨fun position inside => ?_, ?_⟩
  · exact pairwise_reports (List.getElem?_eq_getElem (List.mem_range.mp inside))
  · refine List.pairwise_lt_range.imp fun less left first right second => .inl ?_
    rw [state_of_mem_reports first, state_of_mem_reports second]
    exact Int.ofNat_lt.mpr less

end Detector

/-! ## The rules that meet -/

variable {rules : List Rule} {first : Rule}

theorem Item.Placed.dot_of_isComplete {item : Item} (placed : item.Placed rules)
    (complete : item.isComplete = true) : item.dot = item.rule.rhs.length := by
  obtain ⟨_, dot, same, inside⟩ := placed
  have behind : (item.rule.rhs.length : Int) ≤ item.dot := of_decide_eq_true complete
  omega

/-- A rule is complete in a state at most once. -/
theorem State.Placed.nodup_completed {state : State} (placed : state.Placed rules)
    (nodup : (state.items.map Item.key).Nodup) : (state.completed.map Item.rule).Nodup := by
  have apart : state.completed.Pairwise (Item.key · ≠ Item.key ·) :=
    (List.pairwise_map.mp nodup).sublist List.filter_sublist
  refine List.pairwise_map.mpr
    (apart.imp_of_mem fun leftMember rightMember differ same => differ ?_)
  obtain ⟨leftInside, leftComplete⟩ := List.mem_filter.mp leftMember
  obtain ⟨rightInside, rightComplete⟩ := List.mem_filter.mp rightMember
  rw [Item.key, Item.key, same, (placed _ leftInside).dot_of_isComplete leftComplete,
    (placed _ rightInside).dot_of_isComplete rightComplete, same]

namespace Grammar

/--
The rules but the first that are complete in a state and whose left sides may be followed by
a symbol, in the order of the items.
-/
def rivals (grammar : Grammar) (state : State) (symbol : Symbol) : List Rule :=
  (state.completed.map Item.rule).filter fun rule =>
    rule.index ≠ 0 ∧ grammar.follow.Holds rule.lhs symbol

/-- The conflicts are those that the items of the states and the follow sets make. -/
structure ConflictsExact (grammar : Grammar) (conflicts : List Conflict) : Prop where
  /-- A shift meets a rule. -/
  shift_iff : ∀ (position : Nat) (state : State), grammar.states[position]? = some state →
    ∀ symbol, (∃ conflict ∈ conflicts, conflict.At position .shiftReduce symbol) ↔
      symbol ∈ grammar.ruleset.terminals ∧ (∃ item ∈ state.items, item.next? = some symbol) ∧
        ∃ item ∈ state.items, item.isComplete ∧ item.rule.index ≠ 0 ∧
          grammar.follow.Holds item.rule.lhs symbol
  shift_unique : ∀ (position : Nat) (state : State), grammar.states[position]? = some state →
    ∀ symbol, ∀ conflict ∈ conflicts, conflict.At position .shiftReduce symbol →
      conflicts.filter (Conflict.At position .shiftReduce symbol ·) = [conflict] ∧
        conflict.rules = (grammar.rivals state symbol).map Rule.index ∧
        conflict.intersection = [symbol]
  /-- Several rules meet. -/
  reduce_iff : ∀ (position : Nat) (state : State), grammar.states[position]? = some state →
    ∀ symbol, (∃ conflict ∈ conflicts, conflict.At position .reduceReduce symbol) ↔
      2 ≤ (grammar.rivals state symbol).length
  reduce_unique : ∀ (position : Nat) (state : State), grammar.states[position]? = some state →
    ∀ symbol, ∀ conflict ∈ conflicts, conflict.At position .reduceReduce symbol →
      conflicts.filter (Conflict.At position .reduceReduce symbol ·) = [conflict] ∧
        conflict.rules = (grammar.rivals state symbol).map Rule.index ∧
        Ascending conflict.intersection ∧ symbol ∈ conflict.intersection ∧
        ∀ other, other ∈ conflict.intersection ↔
          ∀ rule ∈ grammar.rivals state symbol, grammar.follow.Holds rule.lhs other
  /-- Each rule is named once. -/
  nodup_rules : ∀ state ∈ grammar.states, ∀ symbol,
    ((grammar.rivals state symbol).map Rule.index).Nodup
  placed : ∀ conflict ∈ conflicts, ∃ position : Nat, conflict.state = position ∧
    position < grammar.states.length
  order : conflicts.Pairwise Conflict.Before

theorem rivals_ne_nil_iff {grammar : Grammar} {state : State} {symbol : Symbol} :
    grammar.rivals state symbol ≠ [] ↔
      ∃ item ∈ state.items, item.isComplete ∧ item.rule.index ≠ 0 ∧
        grammar.follow.Holds item.rule.lhs symbol := by
  simp [rivals, State.completed, and_assoc]

theorem mem_common_rivals {grammar : Grammar} {state : State} {symbol other : Symbol}
    (several : grammar.rivals state symbol ≠ []) :
    other ∈ Detector.common ((grammar.rivals state symbol).map grammar.detector.lookaheadSet) ↔
      ∀ rule ∈ grammar.rivals state symbol, grammar.follow.Holds rule.lhs other := by
  rw [Detector.mem_common]
  simp [several, Detector.mem_lookaheadSet, detector]

namespace Analysed

variable {grammar : Grammar} {endMarker epsilon : Symbol} {accept : Rule}
  (analysed : grammar.Analysed endMarker epsilon accept)
include analysed

/-- The accept rule is the one with the index zero. -/
theorem same_accept_iff {rule : Rule} (member : rule ∈ grammar.rules) :
    rule.Same accept ↔ rule.index = 0 := by
  have zero : accept.index = 0 := by
    obtain ⟨rest, split⟩ := List.head?_eq_some_iff.mp analysed.head
    exact analysed.listed.index_eq 0 accept (by rw [split]; rfl)
  constructor
  · exact fun ⟨index, _⟩ => index.trans zero
  · intro index
    rw [analysed.listed.eq_of_index_eq member (List.mem_of_head? analysed.head)
      (index.trans zero.symm)]
    exact Rule.Same.refl accept

theorem competing_eq_rivals {state : State} (found : state ∈ grammar.states) (symbol : Symbol) :
    grammar.detector.competing accept state symbol = grammar.rivals state symbol := by
  rw [Detector.competing, Detector.reducible, rivals, List.filter_map, List.filter_map,
    List.filter_filter]
  refine congrArg (List.map Item.rule) (List.filter_congr fun item member => ?_)
  have inside := analysed.placed found item (List.mem_filter.mp member).1
  simp only [Function.comp_apply, Detector.mem_lookaheadSet, analysed.same_accept_iff inside.1,
    ← Bool.decide_and, detector]
  exact decide_eq_decide.mpr and_comm

/-- A state shifts the terminals that its items await. -/
theorem mem_shifts_iff {position : Nat} {state : State}
    (found : grammar.states[position]? = some state) {symbol : Symbol} :
    symbol ∈ (grammar.detector.shifts position).map (·.1) ↔
      symbol ∈ grammar.ruleset.terminals ∧ ∃ item ∈ state.items, item.next? = some symbol := by
  have shifted : symbol ∈ (grammar.detector.shifts position).map (·.1) ↔
      ∃ target, (symbol, target) ∈ grammar.detector.shifts position := by
    simp
  rw [shifted, Detector.exists_mem_shifts, analysed.ruleset_eq, ← State.mem_nextSymbols]
  rw [states, analysed.automaton_eq] at found
  show (∃ transition ∈ grammar.automaton.transitions, _) ↔ _
  rw [analysed.automaton_eq]
  constructor
  · rintro ⟨_, inside, atSource, kind, rfl⟩
    obtain ⟨source, before, awaited, there, next, rfl⟩ := Ruleset.mem_transitions.mp inside
    obtain rfl : source = position := Int.ofNat_inj.mp atSource
    obtain rfl : before = state := Option.some.inj (there.symm.trans found)
    exact ⟨Ruleset.kindOf_eq_shift_iff.mp kind, next⟩
  · rintro ⟨terminal, awaited⟩
    exact ⟨_, Ruleset.mem_transitions.mpr ⟨position, state, symbol, found, awaited, rfl⟩, rfl,
      Ruleset.kindOf_eq_shift_iff.mpr terminal, rfl⟩

theorem mem_rules_of_mem_rivals {state : State} (found : state ∈ grammar.states) {symbol : Symbol}
    {rule : Rule} (member : rule ∈ grammar.rivals state symbol) : rule ∈ grammar.rules := by
  obtain ⟨item, completed, rfl⟩ := List.mem_map.mp (List.mem_filter.mp member).1
  exact (analysed.placed found item (List.mem_filter.mp completed).1).1

theorem nodup_rivals {state : State} (found : state ∈ grammar.states) (symbol : Symbol) :
    ((grammar.rivals state symbol).map Rule.index).Nodup := by
  have items : (state.items.map Item.key).Nodup := by
    have reached := found
    rw [states, analysed.automaton_eq] at reached
    exact Ruleset.nodup_items_of_mem_statesFrom state reached
  have apart : (grammar.rivals state symbol).Nodup :=
    ((analysed.placed found).nodup_completed items).filter _
  refine List.pairwise_map.mpr (List.Pairwise.imp_of_mem ?_ apart)
  intro left right leftMember rightMember differ same
  exact differ (analysed.listed.eq_of_index_eq (analysed.mem_rules_of_mem_rivals found leftMember)
    (analysed.mem_rules_of_mem_rivals found rightMember) same)

theorem filter_shift {position : Nat} {state : State}
    (found : grammar.states[position]? = some state) (symbol : Symbol) :
    (grammar.detector.allReports accept).filter (Conflict.At position .shiftReduce symbol ·) =
      if (symbol ∈ grammar.ruleset.terminals ∧ ∃ item ∈ state.items, item.next? = some symbol) ∧
          grammar.rivals state symbol ≠ [] then
        [⟨position, .shiftReduce, symbol, (grammar.rivals state symbol).map Rule.index, [symbol]⟩]
      else [] := by
  have member := List.mem_of_getElem? found
  rw [Detector.filter_allReports found, Detector.filter_reports_shift found]
  simp only [analysed.mem_shifts_iff found, Detector.shiftReport,
    analysed.competing_eq_rivals member]
  by_cases none : grammar.rivals state symbol = []
  · simp [none]
  · simp [none]

theorem filter_reduce {position : Nat} {state : State}
    (found : grammar.states[position]? = some state) (symbol : Symbol) :
    (grammar.detector.allReports accept).filter (Conflict.At position .reduceReduce symbol ·) =
      if 2 ≤ (grammar.rivals state symbol).length then
        [⟨position, .reduceReduce, symbol, (grammar.rivals state symbol).map Rule.index,
          (Detector.common
            ((grammar.rivals state symbol).map grammar.detector.lookaheadSet)).elems⟩]
      else [] := by
  have member := List.mem_of_getElem? found
  rw [Detector.filter_allReports found, Detector.filter_reports_reduce found,
    Detector.reduceReport, analysed.competing_eq_rivals member]
  by_cases few : (grammar.rivals state symbol).length < 2
  · simp [few]
  · simp [few, Nat.le_of_not_lt few]

theorem conflictsExact :
    ConflictsExact grammar (grammar.detector.allReports accept) where
  shift_iff := by
    intro position state found symbol
    have same := exists_iff_of_filter_eq (analysed.filter_shift found symbol)
    simp only [decide_eq_true_eq] at same
    rw [same, rivals_ne_nil_iff, and_assoc]
  shift_unique := by
    intro position state found symbol conflict member here
    obtain ⟨single, rfl⟩ := eq_of_filter_eq (analysed.filter_shift found symbol) member
      (decide_eq_true here)
    exact ⟨single, rfl, rfl⟩
  reduce_iff := by
    intro position state found symbol
    have same := exists_iff_of_filter_eq (analysed.filter_reduce found symbol)
    simpa only [decide_eq_true_eq] using same
  reduce_unique := by
    intro position state found symbol conflict member here
    have same := analysed.filter_reduce found symbol
    have enough := (exists_iff_of_filter_eq same).mp ⟨conflict, member, decide_eq_true here⟩
    have several : grammar.rivals state symbol ≠ [] :=
      List.ne_nil_of_length_pos (Nat.lt_of_lt_of_le Nat.two_pos enough)
    obtain ⟨single, rfl⟩ := eq_of_filter_eq same member (decide_eq_true here)
    refine ⟨single, rfl, SymbolSet.ascending _, ?_, fun other => mem_common_rivals several⟩
    exact (mem_common_rivals several).mpr fun rule rival =>
      (of_decide_eq_true (List.mem_filter.mp rival).2).2
  nodup_rules := fun state found symbol => analysed.nodup_rivals found symbol
  placed := by
    intro conflict member
    obtain ⟨position, inside, reported⟩ := List.mem_flatMap.mp member
    exact ⟨position, Detector.state_of_mem_reports reported, List.mem_range.mp inside⟩
  order := Detector.pairwise_allReports

end Analysed

/--
The conflicts that are found in a grammar are exactly those of shifts with rules and of rules
among themselves, once for each state and symbol, and they name all the rules that meet.
-/
theorem conflicts_exact {lines : List String} {endMarker epsilon : Symbol} {grammar : Grammar}
    (built : ofLines lines endMarker epsilon = .ok grammar) :
    ∃ found, grammar.conflicts = .ok found ∧ ConflictsExact grammar found := by
  obtain ⟨accept, analysed⟩ := analysed_of_ofLines built
  exact ⟨_, analysed.supplied.conflicts_eq, analysed.conflictsExact⟩

/-- A cyclic grammar, in one state of which conflicts of both kinds meet on one symbol. -/
theorem conflicts_exact_cyclic :
    ∃ grammar found, ofLines ["S' -> S $", "S -> S S", "S -> a", "S -> S"] "$" "ε" =
        .ok grammar ∧ grammar.conflicts = .ok found ∧
      (∃ conflict ∈ found, conflict.At 4 .shiftReduce "a") ∧
      (∃ conflict ∈ found, conflict.At 4 .reduceReduce "a") ∧ ConflictsExact grammar found := by
  have evaluated : (ofLines ["S' -> S $", "S -> S S", "S -> a", "S -> S"] "$" "ε").map conflicts =
      .ok (.ok [⟨1, .shiftReduce, "$", [3], ["$"]⟩, ⟨1, .shiftReduce, "a", [3], ["a"]⟩,
        ⟨4, .shiftReduce, "a", [1, 3], ["a"]⟩, ⟨4, .reduceReduce, "$", [1, 3], ["$", "a"]⟩,
        ⟨4, .reduceReduce, "a", [1, 3], ["$", "a"]⟩]) := by decide +kernel
  cases built : ofLines ["S' -> S $", "S -> S S", "S -> a", "S -> S"] "$" "ε" with
  | error failure =>
      rw [built] at evaluated
      cases evaluated
  | ok grammar =>
      rw [built] at evaluated
      obtain ⟨found, done, exact⟩ := conflicts_exact built
      have listed := Except.ok.inj (done.symm.trans (Except.ok.inj evaluated))
      refine ⟨grammar, found, rfl, done, ?_, ?_, exact⟩
      · rw [listed]
        decide
      · rw [listed]
        decide

end Grammar

end GrammarWorkbench
