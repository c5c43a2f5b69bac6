import GrammarWorkbench.Proofs.Rule.Reread
import GrammarWorkbench.Proofs.Workflow.History

/-!
# Productions that are read again

What a workflow says of its rules hangs on the rules alone.  So the productions of a text read
back from their listing exactly if the rules do, whatever else the two workflows hold.
-/

namespace GrammarWorkbench.Workflow

variable {workflow : Workflow} {productions : Productions}

theorem parse_eq_ok_iff : workflow.parse.1 = .ok productions ↔
    ∃ rules, Rule.readAll (Rule.sourceLines workflow.source) defaultEpsilon = .ok rules ∧
      productions = ⟨rules, (rules.map Rule.lhs).eraseDups, Ruleset.rightOnly rules,
        Ruleset.leftSides rules⟩ := by
  obtain ⟨error, failed, step⟩ | ⟨rules, next, read, same, step⟩ := workflow.parse_cases
  · rw [step, failed]
    simp
  · rw [step, read, same]
    constructor
    · intro done
      exact ⟨rules, rfl, (Except.ok.inj done).symm⟩
    · rintro ⟨_, ⟨⟩, rfl⟩
      rfl

/--
The productions of a text read back from their listing exactly if it holds no block comment.  A
listing with a block comment is refused, or read as productions that are not printed the same.
-/
theorem parse_listing_iff {workflow : Workflow} {productions : Productions}
    (done : workflow.parse.1 = .ok productions) (endMarker : Symbol) :
    ((ofText (Rule.listing productions.rules) endMarker).parse.1 = .ok productions ↔
      ¬ Text.HasBlock (Rule.listing productions.rules).toList) ∧
    ∀ other, (ofText (Rule.listing productions.rules) endMarker).parse.1 = .ok other →
      other.rules.map Rule.text = productions.rules.map Rule.text → other = productions := by
  obtain ⟨rules, read, rfl⟩ := parse_eq_ok_iff.mp done
  have back : Rule.readAll (Rule.sourceLines (Rule.listing rules)) defaultEpsilon = .ok rules ↔ _ :=
    Rule.readAll_listing_iff read
  refine ⟨?_, fun other again printed => ?_⟩
  · rw [← back, parse_eq_ok_iff]
    constructor
    · rintro ⟨again, reread, same⟩
      obtain rfl := congrArg Productions.rules same
      exact reread
    · exact fun reread => ⟨rules, reread, rfl⟩
  · -- The listing of the other rules is the one that they are read from.
    obtain ⟨others, reread, rfl⟩ := parse_eq_ok_iff.mp again
    have listed : Rule.listing others = Rule.listing rules := congrArg ("\n".intercalate ·) printed
    have noBlock : ¬ Text.HasBlock (Rule.listing rules).toList := by
      rw [← listed]
      exact Rule.not_hasBlock_listing (listed ▸ reread)
    obtain rfl := Except.ok.inj (reread.symm.trans (back.mpr noBlock))
    rfl

/-- Comments and blanks of the text are gone in the listing, and it reads back. -/
theorem parse_listing_of_commented :
    ∃ productions,
      (ofText "S -> A /* x */  B // y\n\n A ->ε\nB -> /" "$").parse.1 = .ok productions ∧
      Rule.listing productions.rules = "S -> A B\nA -> ε\nB -> /" ∧
      (ofText (Rule.listing productions.rules) "#").parse.1 = .ok productions := by
  have read : Rule.readAll (Rule.sourceLines "S -> A /* x */  B // y\n\n A ->ε\nB -> /")
      defaultEpsilon =
        .ok [⟨0, "S", ["A", "B"], "ε"⟩, ⟨1, "A", [], "ε"⟩, ⟨2, "B", ["/"], "ε"⟩] := by
    rfl
  have done : (ofText "S -> A /* x */  B // y\n\n A ->ε\nB -> /" "$").parse.1 = .ok _ :=
    parse_eq_ok_iff.mpr ⟨_, read, rfl⟩
  refine ⟨_, done, by decide, (parse_listing_iff done "#").1.mpr fun block => ?_⟩
  exact absurd block.closes (by decide)

/-- Two printed rules may make a block comment together, and then their listing is refused. -/
theorem exists_listing_refused : ∃ source productions,
    (ofText source "$").parse.1 = .ok productions ∧
      productions.rules.map Rule.text = ["A -> /* b", "B -> c */"] ∧
      (ofText (Rule.listing productions.rules) "$").parse.1 =
        .error (.malformed "A ->" .emptySide) := by
  have read : Rule.readAll (Rule.sourceLines "A -> //*x*/* b\nB -> c */") defaultEpsilon =
      .ok [⟨0, "A", ["/*", "b"], "ε"⟩, ⟨1, "B", ["c", "*/"], "ε"⟩] := by
    rfl
  refine ⟨"A -> //*x*/* b\nB -> c */", _, parse_eq_ok_iff.mpr ⟨_, read, rfl⟩, by decide, ?_⟩
  rfl

end GrammarWorkbench.Workflow
