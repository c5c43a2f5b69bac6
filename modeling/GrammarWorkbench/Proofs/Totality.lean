import GrammarWorkbench.Proofs.Automaton.Canonical
import GrammarWorkbench.Proofs.Diagram.Overview
import GrammarWorkbench.Proofs.Diagram.Queue
import GrammarWorkbench.Proofs.Rule.Flawed

/-!
# Grammars fail with their lines only

Lines have a grammar exactly if they can be read as rules.  Behind that, whatever the end marker
and the word for the empty right side are, each lookup finds what it looks for: in the first and
the follow sets, among the rules and the states, and among the layers.
-/

namespace GrammarWorkbench

variable {grammar : Grammar}

/-- The follow sets of the rules that meet on a symbol are there, and there is one at least. -/
theorem Detector.Supplied.exists_sets {detector : Detector} {accept : Rule}
    (supplied : detector.Supplied accept) {position : Nat} {state : State}
    (found : detector.automaton.states[position]? = some state)
    {entry : Symbol × List Int}
    (member : entry ∈ grouped (detector.reductionPairs accept state)) :
    ∃ sets, entry.2.mapM detector.followAt = .ok sets ∧ sets ≠ [] := by
  obtain ⟨key, values⟩ := mem_grouped.mp member
  rw [values, valuesOf_reductionPairs]
  refine ⟨_, supplied.mapM_followAt (List.mem_of_getElem? found), ?_⟩
  rw [ne_eq, List.map_eq_nil_iff]
  exact mem_keysOf_reductionPairs.mp key

namespace Grammar

/-- Whatever is looked up in the grammar and on the way to its views is found. -/
structure FindsAll (grammar : Grammar) : Prop where
  goto : ∀ state ∈ grammar.states, ∀ symbol,
    ∃ next, grammar.ruleset.goto state symbol = .ok next
  /-- No set is asked for what it has in common with no other set. -/
  sets : ∀ position < grammar.states.length, ∃ reductions,
    grammar.detector.reductions position = .ok reductions ∧
      ∀ entry ∈ reductions, ∃ sets,
        entry.2.mapM grammar.detector.followAt = .ok sets ∧ sets ≠ []
  /-- The search for layers goes on until its queue is empty. -/
  search : ∀ search, Search.Run grammar.automaton (.begin grammar.automaton) search →
    search.queue = [] ∧ search.layers = grammar.automaton.layers ∨
      ∃ next, Search.Round grammar.automaton search next
  views : ∃ found, grammar.conflicts = .ok found ∧ ∀ style, ∃ overview,
    grammar.overview style none = .ok overview ∧
      grammar.overview style (some found) = .ok overview

theorem Analysed.findsAll {endMarker epsilon : Symbol} {accept : Rule}
    (analysed : grammar.Analysed endMarker epsilon accept) : grammar.FindsAll where
  goto := by
    intro state member symbol
    rw [analysed.ruleset_eq]
    exact ⟨_, Ruleset.goto_ok (analysed.placed member) symbol⟩
  sets := by
    intro position inside
    have found := List.getElem?_eq_getElem inside
    exact ⟨_, analysed.supplied.reductions_eq found, fun entry member =>
      analysed.supplied.exists_sets found member⟩
  search := fun _ run => Search.ended_or_round run
  views := by
    obtain ⟨found, searched⟩ : ∃ found, grammar.conflicts = .ok found :=
      ⟨_, analysed.supplied.conflicts_eq⟩
    refine ⟨found, searched, fun style => ?_⟩
    obtain ⟨overview, viewed⟩ := analysed.overview_ok style (analysed.within_of_conflicts searched)
    refine ⟨overview, ?_, viewed⟩
    rw [← viewed]
    simp only [Grammar.overview, searched, bind, Except.bind, pure, Except.pure]

/--
Lines either have a grammar in which everything is found, or they cannot be read, and then the
error is that of reading: it blames the first line that is no rule, or there is no line.
-/
theorem ofLines_exact (lines : List String) (endMarker epsilon : Symbol) :
    (∃ error, Rule.Blames epsilon lines error ∧ Rule.readAll lines epsilon = .error error ∧
      ofLines lines endMarker epsilon = .error (.rule error)) ∨
    ∃ rules grammar, Rule.readAll lines epsilon = .ok rules ∧
      ofLines lines endMarker epsilon = .ok grammar ∧ grammar.rules = rules ∧
      grammar.FindsAll := by
  cases read : Rule.readAll lines epsilon with
  | error error =>
      refine .inl ⟨error, Rule.readAll_eq_error_iff.mp read, rfl, ?_⟩
      simp only [ofLines, read, Except.mapError, bind, Except.bind]
  | ok rules =>
      obtain ⟨grammar, accept, done, same, analysed⟩ := ofLines_ok read endMarker
      exact .inr ⟨rules, grammar, rfl, done, same, analysed.findsAll⟩

end Grammar

end GrammarWorkbench
