import GrammarWorkbench.Proofs.Sets.Table
import GrammarWorkbench.Sets.Saturation

/-!
# Saturated tables

A step extends tables when it succeeds on each table with an invariant, keeps the
invariant and only adds members.  A pass made of such steps that adds nothing is a
pass in which no step adds anything, and saturation ends with such a pass.
-/

namespace GrammarWorkbench

/-- The step succeeds where the invariant holds, keeps it and loses no member. -/
def Extends {ε : Type} (Inv : SetTable → Prop) (step : SetTable → Except ε SetTable) : Prop :=
  ∀ table, Inv table → ∃ next, step table = .ok next ∧ Inv next ∧ table.Below next

variable {ε β : Type} {Inv : SetTable → Prop} {step : SetTable → β → Except ε SetTable}
  {items : List β}

theorem extends_foldlM (extend : ∀ item ∈ items, Extends Inv (step · item)) :
    Extends Inv (items.foldlM step ·) := by
  induction items with
  | nil => exact fun table holds => ⟨table, rfl, holds, .refl table⟩
  | cons first rest ih =>
      intro table holds
      obtain ⟨middle, firstDone, middleHolds, lower⟩ := extend first List.mem_cons_self table holds
      obtain ⟨next, restDone, nextHolds, upper⟩ :=
        ih (fun item member => extend item (List.mem_cons_of_mem _ member)) middle middleHolds
      refine ⟨next, ?_, nextHolds, lower.trans upper⟩
      dsimp only at firstDone restDone ⊢
      rw [List.foldlM_cons, firstDone]
      exact restDone

/-- When a whole pass leaves a table as it is, so does each of its steps. -/
theorem stable_of_foldlM {table : SetTable} (extend : ∀ item ∈ items, Extends Inv (step · item))
    (holds : Inv table) (stable : items.foldlM step table = .ok table) :
    ∀ item ∈ items, step table item = .ok table := by
  induction items with
  | nil => exact fun _ member => absurd member List.not_mem_nil
  | cons first rest ih =>
      have restExtends := fun item member => extend item (List.mem_cons_of_mem first member)
      obtain ⟨middle, firstDone, middleHolds, lower⟩ := extend first List.mem_cons_self table holds
      obtain ⟨next, restDone, _, upper⟩ := extends_foldlM restExtends middle middleHolds
      dsimp only at firstDone restDone
      rw [List.foldlM_cons, firstDone] at stable
      have same : next = table := Except.ok.inj (restDone.symm.trans stable)
      -- The pass comes back to the table, so its first step cannot have left it.
      have unmoved : middle = table := (upper.trans (same ▸ .refl next)).antisymm lower
      subst unmoved
      intro item member
      cases List.mem_cons.mp member with
      | inl here => exact here ▸ firstDone
      | inr later => exact ih restExtends stable item later

/-! ## Until a pass adds nothing -/

/-- Passes are made, whatever their number, up to the first one that adds nothing. -/
inductive Settles {α ε : Type} (pass : α → Except ε α) (size : α → Nat) : α → Saturated α → Prop
  | last {value next : α} (done : pass value = .ok next) (same : size next = size value) :
      Settles pass size value ⟨next, 1⟩
  | more {value next : α} {rest : Saturated α} (done : pass value = .ok next)
      (differ : size next ≠ size value) (later : Settles pass size next rest) :
      Settles pass size value ⟨rest.value, rest.passes + 1⟩

/-- A limit that leaves room for the passes has no part in what they lead to. -/
theorem Settles.saturate_eq {α : Type} {pass : α → Except ε α} {size : α → Nat} {value : α}
    {result : Saturated α} (settles : Settles pass size value result) {limit : Nat}
    (enough : result.passes ≤ limit) : saturate pass size limit value = .ok result := by
  induction settles generalizing limit with
  | last done same =>
      obtain ⟨limit, rfl⟩ := Nat.exists_eq_succ_of_ne_zero (Nat.ne_of_gt enough)
      simp only [saturate, done, same, if_true]
  | more done differ _ ih =>
      obtain ⟨limit, rfl⟩ := Nat.exists_eq_succ_of_ne_zero (Nat.ne_of_gt (Nat.zero_lt_of_lt enough))
      simp only [saturate, done, differ, if_false, ih (Nat.le_of_succ_le_succ enough), Except.map]

variable {pass : SetTable → Except ε SetTable} {bound : Nat} {start : SetTable}

/--
Passes over bounded tables settle on a table that a pass leaves as it is, and each pass but the
last one has added a member.
-/
theorem exists_settles (extend : Extends Inv pass)
    (bounded : ∀ table, Inv table → table.size ≤ bound) (holds : Inv start) :
    ∃ result, Settles pass SetTable.size start result ∧ Inv result.value ∧
      pass result.value = .ok result.value ∧ result.passes + start.size ≤ bound + 1 := by
  induction room : bound - start.size using Nat.strongRecOn generalizing start with
  | _ _ ih =>
      obtain ⟨next, done, nextHolds, below⟩ := extend start holds
      have size := below.size_le
      have inside := bounded next nextHolds
      by_cases noLarger : next.size = start.size
      · have same : start = next := below.eq_of_size_le (Nat.le_of_eq noLarger)
        exact ⟨⟨next, 1⟩, .last done noLarger, nextHolds, same ▸ done, by dsimp only; omega⟩
      · obtain ⟨result, settles, resultHolds, stable, passes⟩ := ih _ (by omega) nextHolds rfl
        exact ⟨⟨result.value, result.passes + 1⟩, .more done noLarger settles, resultHolds, stable,
          by dsimp only; omega⟩

/--
Saturation of bounded tables ends within its limit, with a table that a pass leaves
as it is.
-/
theorem saturate_ok (limit : Nat) (extend : Extends Inv pass)
    (bounded : ∀ table, Inv table → table.size ≤ bound) (holds : Inv start)
    (enough : bound < limit + start.size) :
    ∃ result, saturate pass SetTable.size limit start = .ok result ∧ Inv result.value ∧
      pass result.value = .ok result.value ∧ result.passes + start.size ≤ bound + 1 := by
  obtain ⟨result, settles, resultHolds, stable, passes⟩ := exists_settles extend bounded holds
  exact ⟨result, settles.saturate_eq (by omega), resultHolds, stable, passes⟩

end GrammarWorkbench
