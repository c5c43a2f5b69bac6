import GrammarWorkbench.Lookup
import GrammarWorkbench.Rule.Reader
import GrammarWorkbench.Rule.Ruleset

/-!
# Listed rules

Rules that were read from lines stand in a list at the position that their index
tells, and the word for the empty right side is on none of their right sides.  Each of
their symbols is in one of the two classes of their ruleset.
-/

namespace GrammarWorkbench.Rule

/-- What reading promises about a list of rules. -/
structure Listed (epsilon : Symbol) (rules : List Rule) : Prop where
  ne_nil : rules ≠ []
  index_eq : ∀ (position : Nat) (rule : Rule), rules[position]? = some rule →
    rule.index = position
  epsilon_not_mem : ∀ rule ∈ rules, epsilon ∉ rule.rhs

theorem epsilon_not_mem_readSymbols (epsilon : Symbol) (text : List Char) :
    epsilon ∉ readSymbols epsilon text := by
  simp [readSymbols]

/-- A line that is read keeps the index that it is given. -/
theorem read_ok {line : String} {index : Int} {epsilon : Symbol} {rule : Rule}
    (done : read line index epsilon = .ok rule) :
    rule.index = index ∧ epsilon ∉ rule.rhs := by
  unfold read at done
  split at done
  · split at done
    · cases done
    · split at done
      · cases done
      · cases done
        exact ⟨rfl, epsilon_not_mem_readSymbols epsilon _⟩
  · cases done
  · cases done

theorem readFrom_cons_ok {epsilon : Symbol} {index : Int} {line : String}
    {lines : List String} {rules : List Rule}
    (done : readFrom epsilon index (line :: lines) = .ok rules) :
    ∃ rule rest, read (trimmed line) index epsilon = .ok rule ∧
      readFrom epsilon (index + 1) lines = .ok rest ∧ rules = rule :: rest := by
  unfold readFrom at done
  split at done
  · cases done
  · rename_i rule first
    cases later : readFrom epsilon (index + 1) lines with
    | error error =>
        rw [later] at done
        cases done
    | ok rest =>
        rw [later] at done
        cases done
        exact ⟨rule, rest, first, rfl, rfl⟩

theorem readFrom_ok {epsilon : Symbol} {index : Int} {lines : List String}
    {rules : List Rule} (done : readFrom epsilon index lines = .ok rules) :
    rules.length = lines.length ∧
      (∀ (position : Nat) (rule : Rule), rules[position]? = some rule →
        rule.index = index + position) ∧
      ∀ rule ∈ rules, epsilon ∉ rule.rhs := by
  induction lines generalizing index rules with
  | nil =>
      cases done
      simp
  | cons line lines ih =>
      obtain ⟨first, rest, firstRead, restRead, rfl⟩ := readFrom_cons_ok done
      obtain ⟨sameIndex, without⟩ := read_ok firstRead
      obtain ⟨sameLength, indices, others⟩ := ih restRead
      refine ⟨by simp [sameLength], ?_, ?_⟩
      · intro position rule found
        cases position with
        | zero =>
            have same : first = rule := by simpa using found
            rw [← same, sameIndex]
            simp
        | succ position =>
            have later := indices position rule (by simpa using found)
            rw [later]
            push_cast
            omega
      · intro rule member
        cases List.mem_cons.mp member with
        | inl same => exact same ▸ without
        | inr later => exact others rule later

theorem readFrom_append {epsilon : Symbol} {index : Int} {lines others : List String}
    {rules extra : List Rule} (read : readFrom epsilon index lines = .ok rules)
    (more : readFrom epsilon (index + lines.length) others = .ok extra) :
    readFrom epsilon index (lines ++ others) = .ok (rules ++ extra) := by
  induction lines generalizing index rules with
  | nil =>
      cases read
      simpa using more
  | cons line lines ih =>
      obtain ⟨rule, rest, first, later, rfl⟩ := readFrom_cons_ok read
      have behind : index + 1 + lines.length = index + (line :: lines).length := by
        rw [List.length_cons]
        omega
      have whole := ih later (behind ▸ more)
      simp only [List.cons_append, readFrom, first, whole, Except.map]

/-- More lines add their rules behind the others. -/
theorem readAll_append {epsilon : Symbol} {lines others : List String} {rules extra : List Rule}
    (read : readAll lines epsilon = .ok rules)
    (more : readFrom epsilon lines.length others = .ok extra) :
    readAll (lines ++ others) epsilon = .ok (rules ++ extra) := by
  unfold readAll at read ⊢
  split at read
  · cases read
  · rename_i nonempty
    have still : ¬ (lines ++ others).isEmpty = true := by
      simp only [List.isEmpty_iff, List.append_eq_nil_iff] at nonempty ⊢
      exact fun ⟨empty, _⟩ => nonempty empty
    rw [if_neg still]
    exact readFrom_append read (by simpa using more)

/-- Rules that were read are listed. -/
theorem listed_of_readAll {lines : List String} {epsilon : Symbol} {rules : List Rule}
    (done : readAll lines epsilon = .ok rules) : Listed epsilon rules := by
  unfold readAll at done
  split at done
  · cases done
  · rename_i lines_ne
    obtain ⟨sameLength, indices, without⟩ := readFrom_ok done
    refine ⟨?_, fun position rule found => ?_, without⟩
    · intro empty
      rw [empty] at sameLength
      exact lines_ne (by simpa using sameLength.symm)
    · simpa using indices position rule found

namespace Listed

variable {epsilon : Symbol} {rules : List Rule}

/-- A rule stands at the position that its index tells. -/
theorem getElem?_index (listed : Listed epsilon rules) {rule : Rule} (member : rule ∈ rules) :
    ∃ position : Nat, rule.index = position ∧ rules[position]? = some rule := by
  obtain ⟨position, found⟩ := List.mem_iff_getElem?.mp member
  exact ⟨position, listed.index_eq position rule found, found⟩

theorem itemAt_index (listed : Listed epsilon rules) {rule : Rule} (member : rule ∈ rules) :
    itemAt rules rule.index = .ok rule := by
  obtain ⟨position, sameIndex, found⟩ := listed.getElem?_index member
  rw [sameIndex]
  exact itemAt_of_getElem? found

/-- No two rules have one index. -/
theorem eq_of_index_eq (listed : Listed epsilon rules) {left right : Rule}
    (leftMember : left ∈ rules) (rightMember : right ∈ rules)
    (same : left.index = right.index) : left = right := by
  have found := listed.itemAt_index leftMember
  rw [same, listed.itemAt_index rightMember] at found
  exact (Except.ok.inj found).symm

end Listed

end GrammarWorkbench.Rule

namespace GrammarWorkbench.Ruleset

variable {rules : List Rule}

@[simp] theorem rules_ofRules (rules : List Rule) : (ofRules rules).rules = rules :=
  rfl

theorem lhs_mem_nonterminals {rule : Rule} (member : rule ∈ rules) :
    rule.lhs ∈ (ofRules rules).nonterminals :=
  mem_leftSides.mpr ⟨rule, member, rfl⟩

/-- A terminal has no rule. -/
theorem lhs_ne_of_mem_terminals {symbol : Symbol} (terminal : symbol ∈ (ofRules rules).terminals) :
    ∀ rule ∈ rules, rule.lhs ≠ symbol :=
  fun _ member same => (mem_rightOnly.mp terminal).2 (same ▸ lhs_mem_nonterminals member)

theorem mem_symbols_of_mem_rhs {rule : Rule} (member : rule ∈ rules) {symbol : Symbol}
    (inside : symbol ∈ rule.rhs) : symbol ∈ (ofRules rules).symbols := by
  by_cases nonterminal : symbol ∈ (ofRules rules).nonterminals
  · exact SymbolSet.mem_union.mpr (.inr nonterminal)
  · refine SymbolSet.mem_union.mpr (.inl ?_)
    exact mem_rightOnly.mpr ⟨⟨rule, member, inside⟩, nonterminal⟩

theorem lhs_mem_symbols {rule : Rule} (member : rule ∈ rules) :
    rule.lhs ∈ (ofRules rules).symbols :=
  SymbolSet.mem_union.mpr (.inr (lhs_mem_nonterminals member))

/-- The word for the empty right side is no terminal. -/
theorem ne_epsilon_of_mem_terminals {epsilon : Symbol} (listed : Rule.Listed epsilon rules) :
    ∀ terminal ∈ (ofRules rules).terminals, terminal ≠ epsilon := by
  intro terminal member
  obtain ⟨⟨rule, ruleMember, inside⟩, _⟩ := mem_rightOnly.mp member
  rintro rfl
  exact listed.epsilon_not_mem rule ruleMember inside

end GrammarWorkbench.Ruleset
