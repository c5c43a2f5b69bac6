/-!
# Written numbers

A written number has no characters but digits, behind a minus sign if it is below zero, and no two
numbers are written the same.
-/

namespace GrammarWorkbench.Text

variable {char : Char}

theorem not_mem_toDigits (noDigit : char.isDigit = false) (number : Nat) :
    char ∉ Nat.toDigits 10 number := by
  intro member
  have digit := Nat.isDigit_of_mem_toDigits (by decide) (by decide) member
  exact Bool.false_ne_true (noDigit.symm.trans digit)

theorem not_mem_repr (noDigit : char.isDigit = false) (noSign : char ≠ '-') (number : Int) :
    char ∉ number.repr.toList := by
  rw [Int.repr_eq_if]
  split
  · simp [not_mem_toDigits noDigit]
  · simp [not_mem_toDigits noDigit, noSign]

theorem toDigits_injective {left right : Nat}
    (same : Nat.toDigits 10 left = Nat.toDigits 10 right) : left = right := by
  have back := congrArg (fun digits => Nat.ofDigitChars 10 digits 0) same
  simpa [Nat.ofDigitChars_toDigits] using back

theorem repr_injective {left right : Int} (same : left.repr = right.repr) : left = right := by
  have minus : ∀ number : Nat, '-' ∉ Nat.toDigits 10 number := not_mem_toDigits rfl
  have written := congrArg String.toList same
  rw [Int.repr_eq_if, Int.repr_eq_if] at written
  split at written
  · split at written
    · have digits := toDigits_injective (by simpa using written)
      omega
    · refine absurd ?_ (minus left.toNat)
      have signed : Nat.toDigits 10 left.toNat = '-' :: Nat.toDigits 10 (-right).toNat := by
        simpa using written
      exact signed ▸ List.mem_cons_self
  · split at written
    · refine absurd ?_ (minus right.toNat)
      have signed : '-' :: Nat.toDigits 10 (-left).toNat = Nat.toDigits 10 right.toNat := by
        simpa using written
      exact signed ▸ List.mem_cons_self
    · have digits := toDigits_injective (by simpa using written)
      omega

end GrammarWorkbench.Text
