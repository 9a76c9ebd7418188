import Mathlib.Data.List.Forall2

/-!
# Lists related index by index

What holds of lists whose items are related one by one: they are related over a list in between, by whatever follows
for their members, and after an item was put in at one place of both; they satisfy two tests alike.
-/

namespace Rulebase

/-- Lists related index by index over a list in between are related. -/
theorem forall₂_comp {α : Type} {P Q U : α → α → Prop} {xs ys zs : List α}
    (first : List.Forall₂ P xs ys) (second : List.Forall₂ Q ys zs)
    (through : ∀ x y z, P x y → Q y z → U x z) : List.Forall₂ U xs zs := by
  induction first generalizing zs with
  | nil =>
    cases second
    exact .nil
  | cons head _ ih =>
    cases second with
    | cons head' tail' => exact .cons (through _ _ _ head head') (ih tail')

/-- Lists related index by index are related by what follows for their members. -/
theorem forall₂_imp_mem {α β : Type} {P Q : α → β → Prop} {xs : List α} {ys : List β}
    (related : List.Forall₂ P xs ys) (imp : ∀ x ∈ xs, ∀ y ∈ ys, P x y → Q x y) : List.Forall₂ Q xs ys := by
  refine List.forall₂_iff_zip.mpr ⟨related.length_eq, fun paired => ?_⟩
  obtain ⟨left, right⟩ := List.of_mem_zip paired
  exact imp _ left _ right (List.forall₂_zip related paired)

/-- Where each item is related to something, a list is related to one of such things. -/
theorem exists_forall₂ {α β : Type} {R : α → β → Prop} {xs : List α} (each : ∀ x ∈ xs, ∃ y, R x y) :
    ∃ ys, List.Forall₂ R xs ys := by
  induction xs with
  | nil => exact ⟨[], .nil⟩
  | cons x xs ih =>
    obtain ⟨⟨y, head⟩, rest⟩ := List.forall_mem_cons.mp each
    obtain ⟨ys, tail⟩ := ih rest
    exact ⟨y :: ys, .cons head tail⟩

/-- What stands in the second of two related lists is related to an item of the first. -/
theorem exists_of_forall₂ {α β : Type} {R : α → β → Prop} {xs : List α} {ys : List β} (related : List.Forall₂ R xs ys)
    {y : β} (listed : y ∈ ys) : ∃ x ∈ xs, R x y := by
  induction related with
  | nil => cases listed
  | @cons x z xs ys head _ ih =>
    rcases List.mem_cons.mp listed with rfl | among
    · exact ⟨x, List.mem_cons_self, head⟩
    · obtain ⟨x', found, same⟩ := ih among
      exact ⟨x', List.mem_cons_of_mem x found, same⟩

/-- What holds of the items of a list pairwise holds of related items in another form. -/
theorem pairwise_of_forall₂ {α β : Type} {S : α → β → Prop} {P : α → α → Prop} {Q : β → β → Prop} {xs : List α}
    {ys : List β} (related : List.Forall₂ S xs ys) (apart : xs.Pairwise P)
    (imp : ∀ x y x' y', S x y → S x' y' → P x x' → Q y y') : ys.Pairwise Q := by
  induction related with
  | nil => exact .nil
  | cons head tail ih =>
    obtain ⟨first, rest⟩ := List.pairwise_cons.mp apart
    refine List.pairwise_cons.mpr ⟨fun y' listed => ?_, ih rest⟩
    obtain ⟨x', among, level⟩ := exists_of_forall₂ tail listed
    exact imp _ _ x' y' head level (first x' among)

/-- Related lists are related when they are paired with the items of one list. -/
theorem forall₂_zip {ι α β : Type} {S : α → β → Prop} {xs : List α} {ys : List β} (related : List.Forall₂ S xs ys)
    (keys : List ι) :
    List.Forall₂ (fun pair pair' => pair.1 = pair'.1 ∧ S pair.2 pair'.2) (keys.zip xs) (keys.zip ys) := by
  induction related generalizing keys with
  | nil => simp
  | cons head _ ih =>
    cases keys with
    | nil => exact .nil
    | cons key rest => exact .cons ⟨rfl, head⟩ (ih rest)

/-- Lists of related items satisfy two tests alike somewhere if related items do. -/
theorem any_eq_of_forall₂ {α β : Type} {S : α → β → Prop} {p : α → Bool} {q : β → Bool} {xs : List α} {ys : List β}
    (related : List.Forall₂ S xs ys) (same : ∀ x y, S x y → p x = q y) : xs.any p = ys.any q := by
  induction related with
  | nil => rfl
  | cons head _ ih => rw [List.any_cons, List.any_cons, same _ _ head, ih]

theorem all_eq_of_forall₂ {α β : Type} {S : α → β → Prop} {p : α → Bool} {q : β → Bool} {xs : List α} {ys : List β}
    (related : List.Forall₂ S xs ys) (same : ∀ x y, S x y → p x = q y) : xs.all p = ys.all q := by
  induction related with
  | nil => rfl
  | cons head _ ih => rw [List.all_cons, List.all_cons, same _ _ head, ih]

theorem forall₂_insertIdx {α β : Type} {S : α → β → Prop} {xs : List α} {ys : List β} {x : α} {y : β}
    (related : List.Forall₂ S xs ys) (new : S x y) (n : Nat) :
    List.Forall₂ S (xs.insertIdx n x) (ys.insertIdx n y) := by
  induction n generalizing xs ys with
  | zero => exact .cons new related
  | succ n ih =>
    cases related with
    | nil => exact .nil
    | cons head tail => exact .cons head (ih tail)

end Rulebase
