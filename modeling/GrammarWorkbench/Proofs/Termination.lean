import GrammarWorkbench.Proofs.Automaton.Canonical
import GrammarWorkbench.Proofs.Automaton.Growth
import GrammarWorkbench.Proofs.Sets.Passes
import Mathlib.Algebra.Ring.Nat

/-!
# The loops end

The passes for first and follow sets come to one that adds nothing, a closure adds no rule twice,
and the collection of states expands each of them once.  None of these loops is cut off by a
limit: each is given as it runs without one, and the limits leave it room.
-/

namespace GrammarWorkbench.Ruleset

open Walk (Discovered)

variable {rules : List Rule} {word : Symbol}

/-! ## Passes -/

theorem saturateFirst_settles (rules : List Rule) (word : Symbol) :
    ∃ result, (ofRules rules).saturateFirst word = .ok result ∧
      FirstWithin (ofRules rules) word result.value ∧
      Settles ((ofRules rules).firstPass word) SetTable.size (ofRules rules).firstStart result ∧
      result.passes ≤
        (ofRules rules).nonterminals.size * ((ofRules rules).terminals.size + 1) + 1 := by
  obtain ⟨result, settles, within, passes⟩ := exists_first_settles rules word
  refine ⟨result, settles.saturate_eq (passes.trans ?_), within, settles, passes⟩
  exact Nat.succ_le_succ (Nat.mul_le_mul_right _ (nonterminals_size_le _))

theorem saturateFollow_settles {first : SetTable} (within : FirstWithin (ofRules rules) word first)
    {start : Symbol} (nonterminal : start ∈ (ofRules rules).nonterminals) (endMarker : Symbol) :
    ∃ result, (ofRules rules).saturateFollow first word start endMarker = .ok result ∧
      Settles ((ofRules rules).followPass first word) SetTable.size
        ((ofRules rules).followStart start endMarker) result ∧
      result.passes ≤
        (ofRules rules).nonterminals.size * ((ofRules rules).terminals.size + 1) + 1 := by
  obtain ⟨result, settles, passes⟩ := exists_follow_settles within start endMarker
  refine ⟨result, ?_, settles, passes⟩
  unfold saturateFollow
  rw [if_pos nonterminal]
  refine settles.saturate_eq (passes.trans (Nat.succ_le_succ ?_))
  exact Nat.mul_le_mul_left _ (Nat.succ_le_succ within.terminals_size_le)

/-! ## The collection -/

theorem discovered_statesFrom {first : Rule} (member : first ∈ rules) :
    Discovered State.key (ofRules rules).successors [(ofRules rules).startState first]
      ((ofRules rules).statesFrom first) :=
  ⟨statesFrom_eq_fresh member, fun _ _ found => Breadth.exists_earlier_of_layersFrom found⟩

theorem dotPlaces_eq (ruleset : Ruleset) :
    ruleset.dotPlaces = (ruleset.rules.map fun rule => rule.rhs.length + 1).sum := by
  unfold dotPlaces
  induction ruleset.rules with
  | nil => rfl
  | cons first rest ih => rw [List.foldr_cons, ih, List.map_cons, List.sum_cons]

/-! ## All loops -/

/--
How the loops over rules end, where the word for the empty right side may be any.  The walks give
the places that they expand: each of a closure's items and each of the states once.
-/
structure LoopsEnd (rules : List Rule) (word : Symbol) : Prop where
  first : ∃ result, (ofRules rules).saturateFirst word = .ok result ∧
    Settles ((ofRules rules).firstPass word) SetTable.size (ofRules rules).firstStart result ∧
    result.passes ≤ (ofRules rules).nonterminals.size * ((ofRules rules).terminals.size + 1) + 1
  follow : ∀ first, (ofRules rules).firstSets word = .ok first →
    ∀ start ∈ (ofRules rules).nonterminals, ∀ endMarker, ∃ result,
      (ofRules rules).saturateFollow first word start endMarker = .ok result ∧
      Settles ((ofRules rules).followPass first word) SetTable.size
        ((ofRules rules).followStart start endMarker) result ∧
      result.passes ≤ (ofRules rules).nonterminals.size * ((ofRules rules).terminals.size + 1) + 1
  closure : ∀ items, (∀ item ∈ items, item.Readable) → ∃ (state : State) (added : List Rule),
    (ofRules rules).closure items = .ok state ∧
    state.items = Breadth.fresh Item.key [] items ++ added.map Item.predict ∧
    added.Nodup ∧ (∀ rule ∈ added, rule ∈ rules) ∧
    Walk.Ends Item.key (fun item => (ofRules rules).predictions [item])
      ⟨Breadth.fresh Item.key [] items, 0⟩ (List.range state.items.length)
      ⟨state.items, state.items.length⟩
  build : ∃ first automaton, rules.head? = some first ∧
    (ofRules rules).automaton = .ok automaton ∧
    Walk.Ends State.key (ofRules rules).successors ⟨[(ofRules rules).startState first], 0⟩
      (List.range automaton.states.length) ⟨automaton.states, automaton.states.length⟩ ∧
    automaton.states.length ≤ 2 ^ (rules.map fun rule => rule.rhs.length + 1).sum

/-- All loops over rules that were read come to their ends, and in time. -/
theorem loopsEnd {lines : List String} {epsilon : Symbol}
    (read : Rule.readAll lines epsilon = .ok rules) (word : Symbol) : LoopsEnd rules word where
  first := by
    obtain ⟨result, done, _, settles, passes⟩ := saturateFirst_settles rules word
    exact ⟨result, done, settles, passes⟩
  follow := by
    intro first computed start nonterminal endMarker
    obtain ⟨result, done, within, _⟩ := saturateFirst_settles rules word
    rw [firstSets, done] at computed
    obtain rfl : result.value = first := Except.ok.inj computed
    exact saturateFollow_settles within nonterminal endMarker
  closure := by
    intro items readable
    obtain ⟨added, nodup, inside, whole⟩ := exists_added rules items
    exact ⟨_, added, closure_ok _ readable, whole, nodup, inside,
      (discovered_closureItems rules items).ends⟩
  build := by
    obtain ⟨first, rest, rfl⟩ := List.exists_cons_of_ne_nil (Rule.listed_of_readAll read).ne_nil
    refine ⟨first, _, rfl, rfl, (discovered_statesFrom List.mem_cons_self).ends, ?_⟩
    rw [← rules_ofRules (first :: rest), ← dotPlaces_eq]
    exact length_statesFrom_le List.mem_cons_self

/-- Rules that begin with their own left side may need as many passes as the bound allows. -/
theorem loopsEnd_leftRecursive :
    ∃ rules, Rule.readAll ["S -> S a", "S -> S", "S -> ε"] "ε" = .ok rules ∧
      LoopsEnd rules "ε" ∧
      ((ofRules rules).saturateFirst "ε").map Saturated.passes = .ok 3 ∧
      (ofRules rules).nonterminals.size * ((ofRules rules).terminals.size + 1) + 1 = 3 := by
  have read : Rule.readAll ["S -> S a", "S -> S", "S -> ε"] "ε" =
      .ok [⟨0, "S", ["S", "a"], "ε"⟩, ⟨1, "S", ["S"], "ε"⟩, ⟨2, "S", [], "ε"⟩] := by decide
  exact ⟨_, read, loopsEnd read "ε", by decide, by decide⟩

end GrammarWorkbench.Ruleset
