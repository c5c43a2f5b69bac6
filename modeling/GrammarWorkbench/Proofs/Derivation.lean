import GrammarWorkbench.Rule.Ruleset
import Mathlib.Logic.Relation

/-!
# Derivations

A rule rewrites one occurrence of its left side in a string of symbols.  A derivation
is any number of such steps.  A derivation from two strings side by side falls apart
into one from each of them.
-/

namespace GrammarWorkbench

variable {rules : List Rule}

/-- One occurrence of a left side gives way to the right side. -/
inductive Rewrites (rules : List Rule) : List Symbol → List Symbol → Prop where
  | rule (before after : List Symbol) {rule : Rule} (member : rule ∈ rules) :
      Rewrites rules (before ++ rule.lhs :: after) (before ++ rule.rhs ++ after)

/-- Zero or more rewritings. -/
def Derives (rules : List Rule) : List Symbol → List Symbol → Prop :=
  Relation.ReflTransGen (Rewrites rules)

theorem Rewrites.append_left {source target : List Symbol} (step : Rewrites rules source target)
    (front : List Symbol) : Rewrites rules (front ++ source) (front ++ target) := by
  cases step with
  | rule before after member =>
      simpa [List.append_assoc] using Rewrites.rule (front ++ before) after member

theorem Rewrites.append_right {source target : List Symbol} (step : Rewrites rules source target)
    (back : List Symbol) : Rewrites rules (source ++ back) (target ++ back) := by
  cases step with
  | rule before after member =>
      simpa [List.append_assoc] using Rewrites.rule before (after ++ back) member

namespace Derives

theorem refl (symbols : List Symbol) : Derives rules symbols symbols :=
  Relation.ReflTransGen.refl

theorem trans {source middle target : List Symbol} (first : Derives rules source middle)
    (second : Derives rules middle target) : Derives rules source target :=
  Relation.ReflTransGen.trans first second

theorem of_rule {rule : Rule} (member : rule ∈ rules) : Derives rules [rule.lhs] rule.rhs := by
  apply Relation.ReflTransGen.single
  simpa using Rewrites.rule [] [] member

theorem append_left {source target : List Symbol} (derives : Derives rules source target)
    (front : List Symbol) : Derives rules (front ++ source) (front ++ target) := by
  induction derives with
  | refl => exact .refl _
  | tail _ step ih => exact ih.trans (.single (step.append_left front))

theorem append_right {source target : List Symbol} (derives : Derives rules source target)
    (back : List Symbol) : Derives rules (source ++ back) (target ++ back) := by
  induction derives with
  | refl => exact .refl _
  | tail _ step ih => exact ih.trans (.single (step.append_right back))

theorem append {left right leftTarget rightTarget : List Symbol}
    (first : Derives rules left leftTarget) (second : Derives rules right rightTarget) :
    Derives rules (left ++ right) (leftTarget ++ rightTarget) :=
  (first.append_right right).trans (second.append_left leftTarget)

/-- What stands behind an occurrence is rewritten on its own. -/
theorem behind {source target : List Symbol} (derives : Derives rules source target)
    (before : List Symbol) (symbol : Symbol) :
    Derives rules (before ++ symbol :: source) (before ++ symbol :: target) := by
  simpa using derives.append_left (before ++ [symbol])

/-- An occurrence of a left side inside a derived string may be rewritten. -/
theorem rewrite {source before after : List Symbol} {rule : Rule}
    (derives : Derives rules source (before ++ rule.lhs :: after)) (member : rule ∈ rules) :
    Derives rules source (before ++ (rule.rhs ++ after)) := by
  refine derives.trans (.single ?_)
  simpa [List.append_assoc] using Rewrites.rule before after member

end Derives

/-- An occurrence in two strings side by side lies in one of them. -/
theorem occurrence_append {left right before after : List Symbol} {symbol : Symbol}
    (same : left ++ right = before ++ symbol :: after) :
    (∃ inner, left = before ++ symbol :: inner ∧ after = inner ++ right) ∨
      ∃ inner, before = left ++ inner ∧ right = inner ++ symbol :: after := by
  rcases List.append_eq_append_iff.mp same with ⟨inner, outside, split⟩ | ⟨inner, inside, split⟩
  · exact .inr ⟨inner, outside, split⟩
  · cases inner with
    | nil => exact .inr ⟨[], by simpa using inside.symm, by simpa using split.symm⟩
    | cons first inner =>
        obtain ⟨rfl, rest⟩ := List.cons.inj split
        exact .inl ⟨inner, inside, rest⟩

/-- A derivation from two strings side by side is one from each of them. -/
theorem Derives.split {left right target : List Symbol}
    (derives : Derives rules (left ++ right) target) :
    ∃ leftTarget rightTarget, target = leftTarget ++ rightTarget ∧
      Derives rules left leftTarget ∧ Derives rules right rightTarget := by
  induction derives with
  | refl => exact ⟨left, right, rfl, .refl left, .refl right⟩
  | tail _ step ih =>
      obtain ⟨leftTarget, rightTarget, split, fromLeft, fromRight⟩ := ih
      cases step with
      | @rule before after rule member =>
          rcases occurrence_append split.symm with ⟨inner, rfl, rfl⟩ | ⟨inner, rfl, rfl⟩
          · refine ⟨before ++ (rule.rhs ++ inner), rightTarget, by simp, ?_, fromRight⟩
            exact fromLeft.rewrite member
          · refine ⟨leftTarget, inner ++ (rule.rhs ++ after), by simp, fromLeft, ?_⟩
            exact fromRight.rewrite member

theorem Derives.eq_nil {target : List Symbol} (derives : Derives rules [] target) :
    target = [] := by
  induction derives with
  | refl => rfl
  | tail _ step ih =>
      cases step with
      | rule before after member => simp at ih

/-- A symbol without a rule derives only itself. -/
theorem Derives.eq_singleton {symbol : Symbol} {target : List Symbol}
    (derives : Derives rules [symbol] target) (noRule : ∀ rule ∈ rules, rule.lhs ≠ symbol) :
    target = [symbol] := by
  induction derives with
  | refl => rfl
  | tail _ step ih =>
      cases step with
      | @rule before after rule member =>
          have inside : rule.lhs ∈ [symbol] := ih ▸ by simp
          exact absurd (List.mem_singleton.mp inside) (noRule rule member)

end GrammarWorkbench
