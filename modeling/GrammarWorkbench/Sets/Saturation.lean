/-!
# Saturation

A growing value is taken through passes until one of them adds nothing.  The limit
is a bound on the growth, so a caller that gives a true bound never meets it.
-/

namespace GrammarWorkbench

/-- The value that a pass leaves as large as it was, and the number of passes made. -/
structure Saturated (α : Type) where
  value : α
  passes : Nat

def saturate {α ε : Type} (pass : α → Except ε α) (size : α → Nat) :
    Nat → α → Except ε (Saturated α)
  | 0, value => .ok ⟨value, 0⟩
  | limit + 1, value =>
      match pass value with
      | .error error => .error error
      | .ok next =>
          if size next = size value then .ok ⟨next, 1⟩
          else (saturate pass size limit next).map fun rest => ⟨rest.value, rest.passes + 1⟩

theorem saturate_passes_le {α ε : Type} {pass : α → Except ε α} {size : α → Nat}
    {limit : Nat} {value : α} {result : Saturated α}
    (done : saturate pass size limit value = .ok result) : result.passes ≤ limit := by
  induction limit generalizing value result with
  | zero =>
      simp only [saturate, Except.ok.injEq] at done
      subst done
      exact Nat.le_refl 0
  | succ limit ih =>
      unfold saturate at done
      split at done
      · cases done
      · split at done
        · cases done
          exact Nat.le_add_left 1 limit
        · rename_i next _ _
          cases rest : saturate pass size limit next with
          | error error =>
              rw [rest] at done
              cases done
          | ok final =>
              rw [rest] at done
              cases done
              exact Nat.succ_le_succ (ih rest)

end GrammarWorkbench
