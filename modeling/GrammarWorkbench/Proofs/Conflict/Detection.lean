import GrammarWorkbench.Conflict.Detection
import GrammarWorkbench.Proofs.Sets.Table
import Mathlib.Data.List.Count

/-!
# What the detector reports

Where all its lookups succeed, the detector reports a conflict of a state for each
symbol that the state shifts while a rule competes on it, and for each symbol on which
several rules compete.
-/

namespace GrammarWorkbench

/-- Lookups that all succeed give their values in order. -/
theorem mapM_ok {α β ε : Type} {items : List α} {lookup : α → Except ε β} {value : α → β}
    (done : ∀ item ∈ items, lookup item = .ok (value item)) :
    items.mapM lookup = .ok (items.map value) := by
  induction items with
  | nil => rfl
  | cons first rest ih =>
      rw [List.mapM_cons, done first List.mem_cons_self,
        ih fun item member => done item (List.mem_cons_of_mem _ member)]
      rfl

section Groups

variable {κ α β : Type} [DecidableEq κ] {key : κ}

theorem mem_keysOf_iff {pairs : List (κ × α)} : key ∈ keysOf pairs ↔ valuesOf key pairs ≠ [] := by
  rw [mem_keysOf, List.ne_nil_iff_exists_cons]
  constructor
  · rintro ⟨value, member⟩
    exact List.exists_cons_of_ne_nil (List.ne_nil_of_mem (mem_valuesOf.mpr member))
  · rintro ⟨value, rest, split⟩
    exact ⟨value, mem_valuesOf.mp (split ▸ List.mem_cons_self)⟩

theorem lookup_grouped {pairs : List (κ × α)} :
    (grouped pairs).lookup key = if key ∈ keysOf pairs then some (valuesOf key pairs) else none := by
  rw [grouped]
  induction keysOf pairs with
  | nil => rfl
  | cons first rest ih =>
      by_cases same : key = first
      · subst same
        simp
      · have differ : (key == first) = false := by simpa using same
        simp [List.lookup_cons, differ, same, ih]

theorem valuesOf_beside {keys : List κ} (nodup : keys.Nodup) (value : α) :
    valuesOf key (keys.map (·, value)) = if key ∈ keys then [value] else [] := by
  have same : valuesOf key (keys.map (·, value)) = List.replicate (keys.count key) value := by
    rw [valuesOf, List.filter_map, List.map_map]
    show (keys.filter (· = key)).map (fun _ => value) = _
    rw [List.filter_eq, List.map_replicate]
  rw [same, nodup.count]
  split
  · rfl
  · rfl

/-- When each item stands once beside each of its keys, a key has the items that have it. -/
theorem valuesOf_flatMap {items : List β} {keys : β → List κ} {value : β → α}
    (nodup : ∀ item, (keys item).Nodup) :
    valuesOf key (items.flatMap fun item => (keys item).map (·, value item)) =
      (items.filter (key ∈ keys ·)).map value := by
  induction items with
  | nil => rfl
  | cons first rest ih =>
      have split : valuesOf key ((first :: rest).flatMap fun item =>
          (keys item).map (·, value item)) = valuesOf key ((keys first).map (·, value first)) ++
          valuesOf key (rest.flatMap fun item => (keys item).map (·, value item)) := by
        simp [valuesOf]
      rw [split, ih, valuesOf_beside (nodup first)]
      by_cases has : key ∈ keys first
      · simp [has]
      · simp [has]

end Groups

namespace Detector

/-- Every lookup of the detector succeeds, and the first rule is the given one. -/
structure Supplied (detector : Detector) (accept : Rule) : Prop where
  head : detector.rules.head? = some accept
  index : ∀ state ∈ detector.automaton.states, ∀ item ∈ state.items,
    itemAt detector.rules item.rule.index = .ok item.rule
  known : ∀ state ∈ detector.automaton.states, ∀ item ∈ state.items,
    item.rule.lhs ∈ detector.follow.symbols

/-- The symbols on which a rule may be reduced. -/
def lookaheadSet (detector : Detector) (rule : Rule) : SymbolSet :=
  (detector.follow.get? rule.lhs).getD ∅

/-- The rules that a state may reduce by, in the order of its items. -/
def reducible (accept : Rule) (state : State) : List Rule :=
  (state.completed.filter fun item => ¬ item.rule.Same accept).map Item.rule

/-- The rules that a state may reduce by on a symbol, in the order of its items. -/
def competing (detector : Detector) (accept : Rule) (state : State) (symbol : Symbol) :
    List Rule :=
  (reducible accept state).filter (symbol ∈ detector.lookaheadSet ·)

/-- What is reported of a symbol that the state shifts. -/
def shiftReport (detector : Detector) (accept : Rule) (position : Nat) (state : State)
    (symbol : Symbol) : Option Conflict :=
  if detector.competing accept state symbol = [] then none
  else some ⟨position, .shiftReduce, symbol,
    (detector.competing accept state symbol).map Rule.index, [symbol]⟩

/-- What is reported of the rules that compete on a symbol among themselves. -/
def reduceReport (detector : Detector) (accept : Rule) (position : Nat) (state : State)
    (symbol : Symbol) : Option Conflict :=
  if (detector.competing accept state symbol).length < 2 then none
  else some ⟨position, .reduceReduce, symbol,
    (detector.competing accept state symbol).map Rule.index,
    (common ((detector.competing accept state symbol).map detector.lookaheadSet)).elems⟩

/-- The symbols on which a state may reduce, each beside the rule. -/
def reductionPairs (detector : Detector) (accept : Rule) (state : State) : List (Symbol × Int) :=
  (reducible accept state).flatMap fun rule =>
    (detector.lookaheadSet rule).elems.map (·, rule.index)

/-- The conflicts of the state at a position: those with a shift come first. -/
def reports (detector : Detector) (accept : Rule) (position : Nat) : List Conflict :=
  match detector.automaton.states[position]? with
  | none => []
  | some state =>
      (detector.shifts position).filterMap (detector.shiftReport accept position state ·.1) ++
        (keysOf (detector.reductionPairs accept state)).filterMap
          (detector.reduceReport accept position state)

section

variable {detector : Detector} {accept : Rule} {position : Nat} {state : State} {symbol : Symbol}

theorem mem_reducible {rule : Rule} :
    rule ∈ reducible accept state ↔
      ∃ item ∈ state.items, item.isComplete ∧ ¬ item.rule.Same accept ∧ item.rule = rule := by
  simp [reducible, State.completed, and_assoc, and_left_comm]

theorem mem_lookaheadSet {rule : Rule} :
    symbol ∈ detector.lookaheadSet rule ↔ detector.follow.Holds rule.lhs symbol := by
  unfold lookaheadSet SetTable.Holds
  cases detector.follow.get? rule.lhs with
  | none => simp
  | some set => simp

theorem mem_competing {rule : Rule} :
    rule ∈ detector.competing accept state symbol ↔
      (∃ item ∈ state.items, item.isComplete ∧ ¬ item.rule.Same accept ∧ item.rule = rule) ∧
        detector.follow.Holds rule.lhs symbol := by
  simp only [competing, List.mem_filter, decide_eq_true_eq, mem_reducible, mem_lookaheadSet]

theorem valuesOf_reductionPairs :
    valuesOf symbol (detector.reductionPairs accept state) =
      (detector.competing accept state symbol).map Rule.index :=
  valuesOf_flatMap fun rule => (detector.lookaheadSet rule).nodup

theorem mem_keysOf_reductionPairs :
    symbol ∈ keysOf (detector.reductionPairs accept state) ↔
      detector.competing accept state symbol ≠ [] := by
  rw [mem_keysOf_iff, valuesOf_reductionPairs, ne_eq, List.map_eq_nil_iff]

/-- All rules that compete on a symbol have it in their follow sets. -/
theorem filter_zip_competing :
    ((((detector.competing accept state symbol).map Rule.index).zip
        ((detector.competing accept state symbol).map detector.lookaheadSet)).filter
          (symbol ∈ ·.2)).map (·.1) =
      (detector.competing accept state symbol).map Rule.index := by
  rw [List.zip_map', List.filter_map, List.map_map]
  have all : (detector.competing accept state symbol).filter
      ((fun pair : Int × SymbolSet => decide (symbol ∈ pair.2)) ∘
        fun rule => (rule.index, detector.lookaheadSet rule)) =
      detector.competing accept state symbol :=
    List.filter_eq_self.mpr fun rule member => (List.mem_filter.mp member).2
  rw [all]
  rfl

theorem common_competing (several : detector.competing accept state symbol ≠ []) :
    symbol ∈ common ((detector.competing accept state symbol).map detector.lookaheadSet) := by
  refine mem_common.mpr ⟨by simpa using several, fun set member => ?_⟩
  obtain ⟨rule, inside, rfl⟩ := List.mem_map.mp member
  exact of_decide_eq_true (List.mem_filter.mp inside).2

theorem of_mem_contested {shifts : List (Symbol × Int)} {entry : Symbol × List Int}
    (member : entry ∈ contested shifts (grouped (detector.reductionPairs accept state))) :
    entry.2 = (detector.competing accept state entry.1).map Rule.index := by
  obtain ⟨shift, _, same⟩ := List.mem_filterMap.mp member
  obtain ⟨indices, found, rfl⟩ := Option.map_eq_some_iff.mp same
  rw [lookup_grouped] at found
  split at found
  · rw [← valuesOf_reductionPairs]
    exact (Option.some.inj found).symm
  · cases found

/-- The symbols that are shifted and reduced on are those that are shifted and competed on. -/
theorem reports_contested (shifts : List (Symbol × Int)) :
    (contested shifts (grouped (detector.reductionPairs accept state))).filterMap
        (detector.shiftReport accept position state ·.1) =
      shifts.filterMap (detector.shiftReport accept position state ·.1) := by
  rw [contested, List.filterMap_filterMap]
  refine List.filterMap_congr fun shift _ => ?_
  rw [lookup_grouped]
  split
  · rfl
  · rename_i absent
    have none : detector.competing accept state shift.1 = [] :=
      not_not.mp fun some => absent (mem_keysOf_reductionPairs.mpr some)
    simp [shiftReport, none]

/-- A state shifts the symbols of its shift transitions. -/
theorem exists_mem_shifts {source : Int} :
    (∃ target, (symbol, target) ∈ detector.shifts source) ↔
      ∃ transition ∈ detector.automaton.transitions,
        transition.source = source ∧ transition.kind = .shift ∧ transition.symbol = symbol := by
  have last : (∃ target, (symbol, target) ∈ detector.shifts source) ↔
      symbol ∈ keysOf (((detector.automaton.transitionsFrom source).filter (·.kind = .shift)).map
        fun transition => (transition.symbol, transition.target)) := by
    simp only [shifts, List.mem_filterMap, Option.map_eq_some_iff, Prod.mk.injEq]
    constructor
    · rintro ⟨target, ⟨key, values⟩, member, _, _, rfl, _⟩
      exact (mem_grouped.mp member).1
    · intro member
      have found := mem_grouped.mpr ⟨member, rfl⟩
      exact ⟨_, _, found, _, List.getLast?_eq_getLast_of_ne_nil (ne_nil_of_mem_grouped found),
        rfl, rfl⟩
  rw [last, mem_keysOf]
  simp only [List.mem_map, List.mem_filter, Automaton.transitionsFrom, Prod.mk.injEq,
    decide_eq_true_eq]
  constructor
  · rintro ⟨_, transition, ⟨⟨member, atSource⟩, kind⟩, same, _⟩
    exact ⟨transition, member, atSource, kind, same⟩
  · rintro ⟨transition, member, atSource, kind, same⟩
    exact ⟨transition.target, transition, ⟨⟨member, atSource⟩, kind⟩, same, rfl⟩

/-- Where nothing is reported, no rule competes on a symbol that is shifted. -/
theorem competing_eq_nil (found : detector.automaton.states[position]? = some state)
    (silent : detector.reports accept position = []) {target : Int}
    (shifted : (symbol, target) ∈ detector.shifts position) :
    detector.competing accept state symbol = [] := by
  rw [reports, found] at silent
  have none := List.filterMap_eq_nil_iff.mp (List.append_eq_nil_iff.mp silent).1 _ shifted
  by_contra several
  simp [shiftReport, several] at none

/-- Where nothing is reported, no two rules compete on a symbol. -/
theorem competing_unique (found : detector.automaton.states[position]? = some state)
    (silent : detector.reports accept position = []) {left right : Rule}
    (leftMember : left ∈ detector.competing accept state symbol)
    (rightMember : right ∈ detector.competing accept state symbol) : left = right := by
  rw [reports, found] at silent
  have member := mem_keysOf_reductionPairs.mpr (List.ne_nil_of_mem leftMember)
  have none := List.filterMap_eq_nil_iff.mp (List.append_eq_nil_iff.mp silent).2 _ member
  have few : (detector.competing accept state symbol).length < 2 := by
    by_contra several
    simp [reduceReport, several] at none
  obtain ⟨only, single⟩ := List.length_eq_one_iff.mp
    (Nat.le_antisymm (Nat.le_of_lt_succ few) (List.length_pos_of_mem leftMember))
  rw [single] at leftMember rightMember
  rw [List.mem_singleton.mp leftMember, List.mem_singleton.mp rightMember]

namespace Supplied

variable (supplied : detector.Supplied accept)
include supplied

theorem get_lhs (found : state ∈ detector.automaton.states) {item : Item}
    (member : item ∈ state.items) :
    detector.follow.get item.rule.lhs = .ok (detector.lookaheadSet item.rule) := by
  obtain ⟨set, here⟩ := SetTable.mem_symbols.mp (supplied.known state found item member)
  simp [SetTable.get, lookaheadSet, here]

theorem itemAt_zero : itemAt detector.rules 0 = .ok accept := by
  obtain ⟨rest, split⟩ := List.head?_eq_some_iff.mp supplied.head
  have found : detector.rules[0]? = some accept := by rw [split]; rfl
  exact itemAt_of_getElem? found

theorem reductions_eq (found : detector.automaton.states[position]? = some state) :
    detector.reductions position = .ok (grouped (detector.reductionPairs accept state)) := by
  have done : ∀ item ∈ state.completed.filter fun item => ¬ item.rule.Same accept,
      detector.lookaheads item.rule =
        .ok ((detector.lookaheadSet item.rule).elems.map (·, item.rule.index)) := by
    intro item member
    have inside := (List.mem_filter.mp (List.mem_filter.mp member).1).1
    rw [lookaheads, supplied.get_lhs (List.mem_of_getElem? found) inside]
    rfl
  rw [reductions, supplied.itemAt_zero, itemAt_of_getElem? found]
  simp only [bind, Except.bind, mapM_ok done]
  simp [reductionPairs, reducible, List.flatMap, List.map_map, Function.comp_def, pure, Except.pure]

theorem followAt_index (found : state ∈ detector.automaton.states) {rule : Rule}
    (member : rule ∈ detector.competing accept state symbol) :
    detector.followAt rule.index = .ok (detector.lookaheadSet rule) := by
  obtain ⟨⟨item, inside, _, _, rfl⟩, _⟩ := mem_competing.mp member
  rw [followAt, supplied.index state found item inside]
  exact supplied.get_lhs found inside

theorem mapM_followAt (found : state ∈ detector.automaton.states) :
    ((detector.competing accept state symbol).map Rule.index).mapM detector.followAt =
      .ok ((detector.competing accept state symbol).map detector.lookaheadSet) := by
  rw [List.mapM_map]
  exact mapM_ok fun rule member => supplied.followAt_index found member

theorem shiftConflict_eq (found : state ∈ detector.automaton.states) :
    detector.shiftConflict position symbol
        ((detector.competing accept state symbol).map Rule.index) =
      .ok (detector.shiftReport accept position state symbol) := by
  rw [shiftConflict, supplied.mapM_followAt found]
  simp only [bind, Except.bind, filter_zip_competing, shiftReport, List.isEmpty_iff,
    List.map_eq_nil_iff]
  rfl

theorem reduceConflict_eq (found : state ∈ detector.automaton.states) :
    detector.reduceConflict position symbol
        ((detector.competing accept state symbol).map Rule.index) =
      .ok (detector.reduceReport accept position state symbol) := by
  rw [reduceConflict, reduceReport, List.length_map, supplied.mapM_followAt found]
  by_cases few : (detector.competing accept state symbol).length < 2
  · simp [few]
    rfl
  · have several : detector.competing accept state symbol ≠ [] := by
      rintro none
      simp [none] at few
    have shared := SymbolSet.mem_elems.mpr (common_competing several)
    have nonempty := List.ne_nil_of_mem shared
    simp only [few, bind, Except.bind, List.isEmpty_iff, nonempty]
    rfl

theorem conflictsIn_eq (found : detector.automaton.states[position]? = some state) :
    detector.conflictsIn position =
      .ok (detector.reports accept position) := by
  have member := List.mem_of_getElem? found
  have withShift : ∀ entry ∈ contested (detector.shifts position)
        (grouped (detector.reductionPairs accept state)),
      detector.shiftConflict position entry.1 entry.2 =
        .ok (detector.shiftReport accept position state entry.1) := by
    intro entry inside
    rw [of_mem_contested inside]
    exact supplied.shiftConflict_eq member
  have among : ∀ entry ∈ grouped (detector.reductionPairs accept state),
      detector.reduceConflict position entry.1 entry.2 =
        .ok (detector.reduceReport accept position state entry.1) := by
    intro entry inside
    rw [(mem_grouped.mp inside).2, valuesOf_reductionPairs]
    exact supplied.reduceConflict_eq member
  rw [conflictsIn, supplied.reductions_eq found, reports, found]
  simp only [bind, Except.bind, mapM_ok withShift, mapM_ok among]
  rw [List.filterMap_map, List.filterMap_map, ← reports_contested, grouped, List.filterMap_map]
  rfl

theorem conflicts_eq :
    detector.conflicts = .ok ((List.range detector.automaton.states.length).flatMap
      (detector.reports accept)) := by
  have done : ∀ position ∈ List.range detector.automaton.states.length,
      detector.conflictsIn (position : Nat) = .ok (detector.reports accept position) :=
    fun position member =>
      supplied.conflictsIn_eq (List.getElem?_eq_getElem (List.mem_range.mp member))
  rw [conflicts, mapM_ok done]
  rfl

theorem reports_eq_nil (none : detector.conflicts = .ok [])
    (found : detector.automaton.states[position]? = some state) :
    detector.reports accept position = [] := by
  rw [supplied.conflicts_eq] at none
  have inside : position ∈ List.range detector.automaton.states.length :=
    List.mem_range.mpr (List.getElem?_eq_some_iff.mp found).1
  exact List.flatMap_eq_nil_iff.mp (Except.ok.inj none) position inside

end Supplied

end

end Detector

end GrammarWorkbench
