import Mathlib.Control.Lawful

/-!
# Lists and pure tests

A test that may have effects or fail can turn out to do neither on the items of a list. Then every way of
testing them all gives what it gives with a plain test.
-/

namespace Rulebase

variable {m : Type → Type} [Monad m] [LawfulMonad m] {α : Type} {as : List α} {test : α → m Bool}
  {passes : α → Bool}

theorem filterM_eq_pure (all : ∀ a ∈ as, test a = pure (passes a)) :
    as.filterM test = pure (as.filter passes) := by
  have kept (earlier : List α) :
      as.filterAuxM test earlier = pure ((as.filter passes).reverse ++ earlier) := by
    induction as generalizing earlier with
    | nil => rfl
    | cons a as ih =>
      obtain ⟨here, all⟩ := List.forall_mem_cons.mp all
      rw [List.filterAuxM, here, pure_bind, ih all]
      cases passed : passes a <;> simp [passed]
  rw [List.filterM, kept, pure_bind, List.append_nil, List.reverse_reverse]

section Failing

variable {ε : Type} {test : α → Except ε Bool} {kept : List α}

theorem exists_ok_of_filterAuxM {earlier : List α} (filtered : as.filterAuxM test earlier = .ok kept) :
    ∀ a ∈ as, ∃ passed, test a = .ok passed := by
  induction as generalizing earlier with
  | nil => exact List.forall_mem_nil _
  | cons a as ih =>
    rw [List.filterAuxM] at filtered
    cases here : test a with
    | error cause =>
      rw [here] at filtered
      cases filtered
    | ok passed =>
      rw [here] at filtered
      exact List.forall_mem_cons.mpr ⟨⟨passed, here⟩, ih filtered⟩

theorem exists_ok_of_filterM (filtered : as.filterM test = .ok kept) : ∀ a ∈ as, ∃ passed, test a = .ok passed := by
  cases reversed : as.filterAuxM test [] with
  | error cause =>
    rw [List.filterM, reversed] at filtered
    cases filtered
  | ok last => exact exists_ok_of_filterAuxM reversed

end Failing

end Rulebase
