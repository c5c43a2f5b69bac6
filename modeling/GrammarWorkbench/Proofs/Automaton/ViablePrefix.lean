import GrammarWorkbench.Proofs.Automaton.Collection

/-!
# The automaton recognises the viable prefixes

A left context of a rule is what may stand before its left side when strings are
rewritten from the right.  A path is a viable prefix when it is a left context of a rule
with some of the first symbols of the right side.  The automaton has a path along the
viable prefixes and along no other strings, and the state at its end holds exactly the
items that are valid there.
-/

namespace GrammarWorkbench

/-- What may stand before the left side of a rule in a derivation from the first rule. -/
inductive LeftContext (rules : List Rule) : List Symbol → Rule → Prop where
  | root {rule : Rule} (first : rules.head? = some rule) : LeftContext rules [] rule
  | inner {context before after : List Symbol} {outer rule : Rule}
      (outside : LeftContext rules context outer) (member : rule ∈ rules)
      (occurs : outer.rhs = before ++ rule.lhs :: after) :
      LeftContext rules (context ++ before) rule

/-- The path is a left context of the rule and the symbols before the dot. -/
def ValidItem (rules : List Rule) (path : List Symbol) (rule : Rule) (dot : Nat) : Prop :=
  ∃ context, LeftContext rules context rule ∧ dot ≤ rule.rhs.length ∧
    path = context ++ rule.rhs.take dot

/-- A walk along transitions, with the symbols that it reads. -/
inductive Automaton.Path (automaton : Automaton) (start : Int) : List Symbol → Int → Prop where
  | nil : Path automaton start [] start
  | snoc {path : List Symbol} {transition : Transition}
      (walk : Path automaton start path transition.source)
      (member : transition ∈ automaton.transitions) :
      Path automaton start (path ++ [transition.symbol]) transition.target

variable {rules : List Rule} {path : List Symbol} {rule : Rule} {dot : Nat} {symbol : Symbol}

/-! ## Valid items -/

theorem LeftContext.mem {context : List Symbol} (reached : LeftContext rules context rule) :
    rule ∈ rules := by
  cases reached with
  | root first => exact List.mem_of_head? first
  | inner _ member _ => exact member

theorem LeftContext.validItem (reached : LeftContext rules path rule) :
    ValidItem rules path rule 0 :=
  ⟨path, reached, Nat.zero_le _, by simp⟩

namespace ValidItem

theorem mem (valid : ValidItem rules path rule dot) : rule ∈ rules := by
  obtain ⟨_, reached, _⟩ := valid
  exact reached.mem

theorem placed (valid : ValidItem rules path rule dot) {item : Item} (sameRule : item.rule = rule)
    (sameDot : item.dot = dot) : item.Placed rules := by
  have member := valid.mem
  obtain ⟨_, _, inside, _⟩ := valid
  exact ⟨sameRule ▸ member, dot, sameDot, sameRule ▸ inside⟩

/-- Reading the next symbol moves the dot. -/
theorem advance (valid : ValidItem rules path rule dot) (awaits : rule.rhs[dot]? = some symbol) :
    ValidItem rules (path ++ [symbol]) rule (dot + 1) := by
  obtain ⟨context, reached, _, rfl⟩ := valid
  obtain ⟨inside, _⟩ := List.getElem?_eq_some_iff.mp awaits
  refine ⟨context, reached, inside, ?_⟩
  rw [List.take_add_one, awaits, List.append_assoc]
  rfl

/-- A nonterminal behind the dot makes the first items of its rules valid. -/
theorem predict (valid : ValidItem rules path rule dot) {next : Rule} (member : next ∈ rules)
    (awaits : rule.rhs[dot]? = some next.lhs) : ValidItem rules path next 0 := by
  obtain ⟨context, reached, _, rfl⟩ := valid
  obtain ⟨inside, same⟩ := List.getElem?_eq_some_iff.mp awaits
  have occurs : rule.rhs = rule.rhs.take dot ++ next.lhs :: rule.rhs.drop (dot + 1) := by
    rw [← same, List.getElem_cons_drop, List.take_append_drop]
  exact (LeftContext.inner reached member occurs).validItem

/-- Reading a whole right side completes the item. -/
theorem complete (valid : ValidItem rules path rule 0) :
    ValidItem rules (path ++ rule.rhs) rule rule.rhs.length := by
  obtain ⟨context, reached, _, rfl⟩ := valid
  exact ⟨context, reached, Nat.le_refl _, by simp⟩

/-- The dot of an item that is valid behind a symbol was before it, unless the dot is first. -/
theorem retreat (valid : ValidItem rules (path ++ [symbol]) rule (dot + 1)) :
    ValidItem rules path rule dot ∧ rule.rhs[dot]? = some symbol := by
  obtain ⟨context, reached, inside, same⟩ := valid
  have last : rule.rhs[dot]? = some rule.rhs[dot] := List.getElem?_eq_getElem inside
  rw [List.take_add_one, last, Option.toList_some, ← List.append_assoc] at same
  obtain ⟨front, back⟩ := List.append_inj' same rfl
  refine ⟨⟨context, reached, Nat.le_of_succ_le inside, front⟩, ?_⟩
  rw [last, List.cons.inj back |>.1]

end ValidItem

/-- Behind a symbol, a left context goes back to an item that awaits the symbol. -/
theorem LeftContext.awaited {context : List Symbol} (reached : LeftContext rules context rule)
    (same : context = path ++ [symbol]) :
    ∃ outer dot, ValidItem rules path outer dot ∧ outer.rhs[dot]? = some symbol := by
  induction reached with
  | root first => simp at same
  | @inner context before after outer rule outside member occurs ih =>
      rcases List.eq_nil_or_concat before with rfl | ⟨before, last, rfl⟩
      · exact ih (by simpa using same)
      · have valid : ValidItem rules (path ++ [symbol]) outer (before.length + 1) := by
          have front : outer.rhs.take (before.length + 1) = before ++ [last] := by
            rw [occurs, List.concat_eq_append]
            exact List.take_left' (by simp)
          refine ⟨context, outside, by simp [occurs], ?_⟩
          rw [front, ← same, List.concat_eq_append]
        exact ⟨outer, before.length, valid.retreat⟩

theorem ValidItem.awaited (valid : ValidItem rules (path ++ [symbol]) rule dot) :
    ∃ outer dot, ValidItem rules path outer dot ∧ outer.rhs[dot]? = some symbol := by
  cases dot with
  | zero =>
      obtain ⟨context, reached, _, same⟩ := valid
      exact reached.awaited (by simpa using same.symm)
  | succ dot => exact ⟨rule, dot, valid.retreat⟩

/-! ## States -/

/-- The state holds exactly the items that are valid behind the path. -/
structure State.Describes (rules : List Rule) (path : List Symbol) (state : State) : Prop where
  sound : ∀ item ∈ state.items, ∃ dot : Nat, item.dot = dot ∧ ValidItem rules path item.rule dot
  complete : ∀ rule dot, ValidItem rules path rule dot → state.Has rule dot

variable {epsilon : Symbol} {state : State}

namespace State.Describes

theorem placed (describes : state.Describes rules path) : state.Placed rules := by
  intro item member
  obtain ⟨dot, same, valid⟩ := describes.sound item member
  exact valid.placed rfl same

theorem mem_key (describes : state.Describes rules path) {key : Int × Int} :
    key ∈ state.key ↔
      ∃ (rule : Rule) (dot : Nat), ValidItem rules path rule dot ∧ key = (rule.index, (dot : Int)) := by
  constructor
  · intro inside
    obtain ⟨item, member, rfl⟩ := State.mem_key.mp inside
    obtain ⟨dot, same, valid⟩ := describes.sound item member
    exact ⟨item.rule, dot, valid, by rw [Item.key, same]⟩
  · rintro ⟨rule, dot, valid, rfl⟩
    exact (describes.complete rule dot valid).key_mem

/-- A state with the key of another one holds the same items. -/
theorem of_key_eq (listed : Rule.Listed epsilon rules) {other : State}
    (describes : state.Describes rules path) (placed : other.Placed rules)
    (same : other.key = state.key) : other.Describes rules path := by
  constructor
  · intro item member
    have inside : item.key ∈ state.key := same ▸ State.mem_key.mpr ⟨item, member, rfl⟩
    obtain ⟨rule, dot, valid, key⟩ := describes.mem_key.mp inside
    obtain ⟨index, sameDot⟩ := Prod.mk.inj key
    have sameRule := listed.eq_of_index_eq (placed item member).1 valid.mem index
    exact ⟨dot, sameDot, sameRule ▸ valid⟩
  · intro rule dot valid
    exact placed.has_of_key_mem listed valid.mem (same ▸ (describes.complete rule dot valid).key_mem)

end State.Describes

namespace Ruleset

/-- Valid items with all that were moved and with the root make up a state by closure. -/
theorem describes_closureState (listed : Rule.Listed epsilon rules) {items : List Item}
    (sound : ∀ item ∈ items, ∃ dot : Nat, item.dot = dot ∧ ValidItem rules path item.rule dot)
    (root : path = [] → ∀ rule, rules.head? = some rule →
      ((ofRules rules).closureState items).Has rule 0)
    (moved : ∀ rule dot, ValidItem rules path rule (dot + 1) →
      ((ofRules rules).closureState items).Has rule (dot + 1)) :
    ((ofRules rules).closureState items).Describes rules path := by
  have placed : ∀ item ∈ items, item.Placed rules := by
    intro item member
    obtain ⟨dot, same, valid⟩ := sound item member
    exact valid.placed rfl same
  -- A left context that ends with the path was predicted by an item of its outer rule.
  have predicted : ∀ {context rule}, LeftContext rules context rule → context = path →
      ((ofRules rules).closureState items).Has rule 0 := by
    intro context rule reached
    induction reached with
    | root first => exact fun same => root same.symm _ first
    | @inner context before after outer rule outside member occurs ih =>
        intro same
        have awaits : outer.rhs[before.length]? = some rule.lhs := by simp [occurs]
        have outerHas : ((ofRules rules).closureState items).Has outer before.length := by
          cases before with
          | nil => exact ih (by simpa using same)
          | cons first before =>
              refine moved outer before.length ⟨context, outside, by simp [occurs], ?_⟩
              rw [← same, occurs]
              simp
        exact has_predict placed listed outerHas member awaits
  refine ⟨of_mem_closureItems sound fun item next ⟨dot, same, valid⟩ predicts => ?_,
    fun rule dot valid => ?_⟩
  · obtain ⟨rule, member, awaits, rfl⟩ := predicts
    exact ⟨0, rfl, valid.predict member (Item.next?_eq same ▸ awaits)⟩
  · cases dot with
    | zero =>
        obtain ⟨context, reached, _, same⟩ := valid
        exact predicted reached (by simpa using same.symm)
    | succ dot => exact moved rule dot valid

theorem describes_startState (listed : Rule.Listed epsilon rules) {first : Rule}
    (head : rules.head? = some first) :
    ((ofRules rules).startState first).Describes rules [] := by
  have sound : ∀ item ∈ [Item.mk first 0 false],
      ∃ dot : Nat, item.dot = dot ∧ ValidItem rules [] item.rule dot := by
    intro item member
    obtain rfl := List.mem_singleton.mp member
    exact ⟨0, rfl, (LeftContext.root head).validItem⟩
  refine describes_closureState listed sound ?_ ?_
  · intro _ rule found
    obtain rfl := Option.some.inj (head.symm.trans found)
    refine has_of_mem_items (fun item member => ?_) listed (List.mem_singleton_self _) rfl
    obtain ⟨dot, same, valid⟩ := sound item member
    exact valid.placed rfl same
  · rintro rule dot ⟨context, _, inside, same⟩
    obtain ⟨_, none⟩ := List.append_eq_nil_iff.mp same.symm
    have long := congrArg List.length none
    rw [List.length_take, List.length_nil] at long
    omega

theorem describes_gotoState (listed : Rule.Listed epsilon rules)
    (describes : state.Describes rules path) (symbol : Symbol) :
    ((ofRules rules).gotoState state symbol).Describes rules (path ++ [symbol]) := by
  have sound : ∀ item ∈ moved state symbol,
      ∃ dot : Nat, item.dot = dot ∧ ValidItem rules (path ++ [symbol]) item.rule dot := by
    intro item member
    obtain ⟨before, inside, awaits, rfl⟩ := mem_moved.mp member
    obtain ⟨dot, same, valid⟩ := describes.sound before inside
    exact ⟨dot + 1, by simp [Item.advance, same], valid.advance (Item.next?_eq same ▸ awaits)⟩
  refine describes_closureState listed sound (by simp) fun rule dot valid => ?_
  obtain ⟨earlier, awaits⟩ := valid.retreat
  obtain ⟨before, inside, rfl, same⟩ := describes.complete rule dot earlier
  have member : before.advance ∈ moved state symbol :=
    mem_moved.mpr ⟨before, inside, (Item.next?_eq same).trans awaits, rfl⟩
  refine has_of_mem_items (fun item member => ?_) listed member (by simp [Item.advance, same])
  obtain ⟨dot, same, valid⟩ := sound item member
  exact valid.placed rfl same

/-! ## Paths -/

variable {first : Rule}

/-- The state at the end of a path holds exactly the items that are valid there. -/
theorem describes_of_path (listed : Rule.Listed epsilon rules) (head : rules.head? = some first)
    {target : Int} (walk : ((ofRules rules).automatonFrom first).Path 0 path target) :
    ∃ (position : Nat) (state : State), target = position ∧
      ((ofRules rules).statesFrom first)[position]? = some state ∧
      state.Describes rules path := by
  have member := List.mem_of_head? head
  induction walk with
  | nil =>
      obtain ⟨rest, start⟩ := statesFrom_eq_cons (ofRules rules) first
      exact ⟨0, _, rfl, by rw [start]; rfl, describes_startState listed head⟩
  | snoc _ inside ih =>
      obtain ⟨position, state, atSource, found, describes⟩ := ih
      obtain ⟨source, target, before, next, sameSource, sameTarget, foundBefore, there, _, key⟩ :=
        target_of_mem_transitions member inside
      obtain rfl : position = source := Int.ofNat_inj.mp (atSource.symm.trans sameSource)
      obtain rfl : state = before := Option.some.inj (found.symm.trans foundBefore)
      have placed := placed_of_mem_statesFrom member next (List.mem_of_getElem? there)
      exact ⟨target, next, sameTarget, there,
        (describes_gotoState listed describes _).of_key_eq listed placed key⟩

theorem exists_validItem_of_path (listed : Rule.Listed epsilon rules)
    (head : rules.head? = some first) {target : Int}
    (walk : ((ofRules rules).automatonFrom first).Path 0 path target) :
    ∃ rule dot, ValidItem rules path rule dot := by
  cases walk with
  | nil => exact ⟨first, 0, (LeftContext.root head).validItem⟩
  | snoc walk inside =>
      obtain ⟨position, state, atSource, found, describes⟩ :=
        describes_of_path listed head walk
      obtain ⟨source, _, before, _, sameSource, _, foundBefore, _, awaited, _⟩ :=
        target_of_mem_transitions (List.mem_of_head? head) inside
      obtain rfl : position = source := Int.ofNat_inj.mp (atSource.symm.trans sameSource)
      obtain rfl : state = before := Option.some.inj (found.symm.trans foundBefore)
      obtain ⟨item, member, awaits⟩ := State.mem_nextSymbols.mp awaited
      obtain ⟨dot, same, valid⟩ := describes.sound item member
      exact ⟨item.rule, dot + 1, valid.advance (Item.next?_eq same ▸ awaits)⟩

theorem exists_path_of_validItem (listed : Rule.Listed epsilon rules)
    (head : rules.head? = some first) (valid : ValidItem rules path rule dot) :
    ∃ target, ((ofRules rules).automatonFrom first).Path 0 path target := by
  induction path using List.reverseRecOn generalizing rule dot with
  | nil => exact ⟨0, .nil⟩
  | append_singleton path symbol ih =>
      obtain ⟨outer, outerDot, earlier, awaits⟩ := valid.awaited
      obtain ⟨source, walk⟩ := ih earlier
      obtain ⟨position, state, rfl, found, describes⟩ := describes_of_path listed head walk
      obtain ⟨item, member, rfl, same⟩ := describes.complete outer outerDot earlier
      have awaited : symbol ∈ state.nextSymbols :=
        State.mem_nextSymbols.mpr ⟨item, member, by rw [Item.next?_eq same, awaits]⟩
      have edge := mem_transitions.mpr ⟨position, state, symbol, found, awaited, rfl⟩
      exact ⟨_, Automaton.Path.snoc walk edge⟩

/--
The automaton of the rules that were read has a path from its first state along exactly
the viable prefixes, and the key of the state at its end consists of exactly the items
that are valid there.
-/
theorem automaton_path_iff {lines : List String} (read : Rule.readAll lines epsilon = .ok rules) :
    ∃ automaton, (ofRules rules).automaton = .ok automaton ∧ ∀ path,
      ((∃ target, automaton.Path 0 path target) ↔ ∃ rule dot, ValidItem rules path rule dot) ∧
      ∀ target, automaton.Path 0 path target →
        ∃ state, itemAt automaton.states target = .ok state ∧ ∀ key, key ∈ state.key ↔
          ∃ (rule : Rule) (dot : Nat),
            ValidItem rules path rule dot ∧ key = (rule.index, (dot : Int)) := by
  have listed := Rule.listed_of_readAll read
  obtain ⟨first, rest, split⟩ := List.exists_cons_of_ne_nil listed.ne_nil
  have head : rules.head? = some first := by rw [split]; rfl
  refine ⟨(ofRules rules).automatonFrom first, ?_, fun path => ⟨⟨?_, ?_⟩, ?_⟩⟩
  · rw [automaton, rules_ofRules, split]
  · exact fun ⟨_, walk⟩ => exists_validItem_of_path listed head walk
  · exact fun ⟨_, _, valid⟩ => exists_path_of_validItem listed head valid
  · intro target walk
    obtain ⟨position, state, rfl, found, describes⟩ := describes_of_path listed head walk
    exact ⟨state, itemAt_of_getElem? found, fun key => describes.mem_key⟩

/-- The accept symbol may be used on a right side, even as the first symbol. -/
theorem automaton_path_iff_leftRecursive :
    ∃ rules automaton, Rule.readAll ["S -> A S b", "S -> ε", "A -> S"] "ε" = .ok rules ∧
      (ofRules rules).automaton = .ok automaton ∧
      (∃ target, automaton.Path 0 ["A", "S"] target) ∧
      ∀ target, automaton.Path 0 ["A", "S"] target →
        ∃ state, itemAt automaton.states target = .ok state ∧ (2, 1) ∈ state.key := by
  obtain ⟨rules, same, read⟩ : ∃ rules : List Rule, rules = [⟨0, "S", ["A", "S", "b"], "ε"⟩,
      ⟨1, "S", [], "ε"⟩, ⟨2, "A", ["S"], "ε"⟩] ∧
      Rule.readAll ["S -> A S b", "S -> ε", "A -> S"] "ε" = .ok rules := ⟨_, rfl, by decide⟩
  obtain ⟨automaton, done, recognises⟩ := automaton_path_iff read
  have valid : ValidItem rules ["A", "S"] ⟨2, "A", ["S"], "ε"⟩ 1 := by
    have first : LeftContext rules [] ⟨0, "S", ["A", "S", "b"], "ε"⟩ := .root (by simp [same])
    have outer : LeftContext rules ["A"] ⟨0, "S", ["A", "S", "b"], "ε"⟩ :=
      @LeftContext.inner _ _ ["A"] ["b"] _ _ first (by simp [same]) rfl
    have inner : LeftContext rules ["A"] ⟨2, "A", ["S"], "ε"⟩ :=
      @LeftContext.inner _ _ [] ["S", "b"] _ _ outer (by simp [same]) rfl
    exact ⟨["A"], inner, by decide, rfl⟩
  obtain ⟨viable, keys⟩ := recognises ["A", "S"]
  refine ⟨rules, automaton, read, done, viable.mpr ⟨_, _, valid⟩, fun target walk => ?_⟩
  obtain ⟨state, found, mem_key⟩ := keys target walk
  exact ⟨state, found, (mem_key _).mpr ⟨_, _, valid, rfl⟩⟩

end Ruleset

end GrammarWorkbench
