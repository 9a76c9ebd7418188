import Rulebase.Policy.Loading
import Rulebase.Proofs.Order.Related

/-!
# Runs of loading

A part of loading is run from a state: it has an outcome and leads to a state. What a sequence of parts can
do is what its first part can do, and after a success of it what the rest can do from there. The parts that
read a document change nothing, so of them only the errors matter with which they can fail.
-/

namespace Rulebase

/-- A computation fails only with errors of some sort. -/
def FailsWith {ε α : Type} (P : ε → Prop) (x : Except ε α) : Prop :=
  ∀ e, x = .error e → P e

namespace FailsWith

variable {ε α β : Type} {P Q : ε → Prop}

theorem ok (a : α) : FailsWith P (.ok a : Except ε α) := by
  intro e failed
  cases failed

theorem error {e : ε} (known : P e) : FailsWith P (.error e : Except ε α) := by
  intro e' failed
  cases failed
  exact known

theorem bind {x : Except ε α} {f : α → Except ε β} (first : FailsWith P x)
    (second : ∀ a, x = .ok a → FailsWith P (f a)) : FailsWith P (x >>= f) := by
  cases x with
  | error e => exact .error (first e rfl)
  | ok a => exact second a rfl

theorem imp {x : Except ε α} (fails : FailsWith P x) (weaker : ∀ e, P e → Q e) : FailsWith Q x :=
  fun e failed => weaker e (fails e failed)

theorem mapM {f : α → Except ε β} {xs : List α} (each : ∀ x ∈ xs, FailsWith P (f x)) :
    FailsWith P (xs.mapM f) := by
  induction xs with
  | nil => exact .ok []
  | cons x xs ih =>
    rw [List.mapM_cons]
    refine (each x List.mem_cons_self).bind fun y _ => ?_
    exact (ih fun z later => each z (List.mem_cons_of_mem x later)).bind fun ys _ => .ok (y :: ys)

end FailsWith

theorem bind_eq_ok_iff {ε α β : Type} {x : Except ε α} {f : α → Except ε β} {b : β} :
    x >>= f = .ok b ↔ ∃ a, x = .ok a ∧ f a = .ok b := by
  cases x with
  | error e =>
    constructor
    · intro passed
      cases passed
    · rintro ⟨a, passed, _⟩
      cases passed
  | ok a =>
    constructor
    · intro passed
      exact ⟨a, rfl, passed⟩
    · rintro ⟨a, ⟨⟩, passed⟩
      exact passed

theorem forall₂_of_mapM {ε α β : Type} {f : α → Except ε β} {xs : List α} {ys : List β} (mapped : xs.mapM f = .ok ys) :
    List.Forall₂ (fun x y => f x = .ok y) xs ys := by
  induction xs generalizing ys with
  | nil =>
    cases mapped
    exact .nil
  | cons x xs ih =>
    rw [List.mapM_cons] at mapped
    obtain ⟨y, first, mapped⟩ := bind_eq_ok_iff.mp mapped
    obtain ⟨ys, later, mapped⟩ := bind_eq_ok_iff.mp mapped
    cases mapped
    exact .cons first (ih later)

theorem mapM_of_forall₂ {ε α β : Type} {f : α → Except ε β} {xs : List α} {ys : List β}
    (each : List.Forall₂ (fun x y => f x = .ok y) xs ys) : xs.mapM f = .ok ys := by
  induction each with
  | nil => rfl
  | cons head _ ih =>
    rw [List.mapM_cons, head, ih]
    rfl

/-- Each result of a computation over a list is that of one of its items. -/
theorem exists_of_mem_mapM {ε α β : Type} {f : α → Except ε β} {xs : List α} {ys : List β}
    (mapped : xs.mapM f = .ok ys) {y : β} (listed : y ∈ ys) : ∃ x ∈ xs, f x = .ok y :=
  exists_of_forall₂ (forall₂_of_mapM mapped) listed

namespace Policy

variable {α β : Type} {s t : Loading}

/-- A part of loading, run from a state, has an outcome and leads to a state. -/
def Ends (x : Load α) (s : Loading) (outcome : Extracted α) (t : Loading) : Prop :=
  x.run.run s = (outcome, t)

theorem ends_unique {x : Load α} {outcome outcome' : Extracted α} {t' : Loading} (left : Ends x s outcome t)
    (right : Ends x s outcome' t') : outcome = outcome' ∧ t = t' :=
  Prod.mk.inj (Eq.trans (Eq.symm left) right)

theorem exists_ends (x : Load α) (s : Loading) : ∃ outcome t, Ends x s outcome t :=
  ⟨_, _, rfl⟩

theorem ends_of_eq {x : Load α} {outcome : Extracted α} (computed : (x.run.run s).1 = outcome) :
    Ends x s outcome (x.run.run s).2 :=
  Prod.ext computed rfl

section Steps

variable {outcome : Extracted α}

@[simp] theorem ends_pure {a : α} : Ends (pure a) s outcome t ↔ outcome = .ok a ∧ t = s := by
  show ((Except.ok a, s) : Extracted α × Loading) = (outcome, t) ↔ _
  simp [eq_comm]

@[simp] theorem ends_throw {e : LoadError} :
    Ends (throw e : Load α) s outcome t ↔ outcome = .error e ∧ t = s := by
  show ((Except.error e, s) : Extracted α × Loading) = (outcome, t) ↔ _
  simp [eq_comm]

@[simp] theorem ends_extracted {x : Extracted α} : Ends (extracted x) s outcome t ↔ outcome = x ∧ t = s := by
  show ((x, s) : Extracted α × Loading) = (outcome, t) ↔ _
  simp [eq_comm]

@[simp] theorem ends_get {outcome : Extracted Loading} :
    Ends (get : Load Loading) s outcome t ↔ outcome = .ok s ∧ t = s := by
  show ((Except.ok s, s) : Extracted Loading × Loading) = (outcome, t) ↔ _
  simp [eq_comm]

@[simp] theorem ends_set {outcome : Extracted PUnit} {next : Loading} :
    Ends (set next : Load PUnit) s outcome t ↔ outcome = .ok () ∧ t = next := by
  show ((Except.ok (), next) : Extracted PUnit × Loading) = (outcome, t) ↔ _
  simp [eq_comm]

@[simp] theorem ends_record {outcome : Extracted Unit} {event : Event} :
    Ends (record event) s outcome t ↔ outcome = .ok () ∧ t = { s with log := s.log ++ [event] } := by
  show ((Except.ok (), { s with log := s.log ++ [event] }) : Extracted Unit × Loading) = (outcome, t) ↔ _
  simp [eq_comm]

end Steps

/-- A sequence ends with the failure of its first part, or as the rest does after a success of it. -/
theorem ends_bind {x : Load α} {f : α → Load β} {outcome : Extracted β} :
    Ends (x >>= f) s outcome t ↔
      (∃ e, Ends x s (.error e) t ∧ outcome = .error e) ∨
        ∃ a m, Ends x s (.ok a) m ∧ Ends (f a) m outcome t := by
  unfold Ends
  rw [ExceptT.run_bind, StateT.run_bind]
  rcases x.run.run s with ⟨e | a, m⟩
  · show ((Except.error e, m) : Extracted β × Loading) = (outcome, t) ↔ _
    constructor
    · rintro ⟨⟩
      exact Or.inl ⟨e, rfl, rfl⟩
    · rintro (⟨e, ⟨⟩, rfl⟩ | ⟨a, m, ⟨⟩, _⟩)
      rfl
  · show (f a).run.run m = (outcome, t) ↔ _
    constructor
    · exact fun rest => Or.inr ⟨a, m, rfl, rest⟩
    · rintro (⟨e, ⟨⟩, _⟩ | ⟨a, m, ⟨⟩, rest⟩)
      exact rest

theorem ends_ok_bind {x : Load α} {f : α → Load β} {b : β} :
    Ends (x >>= f) s (.ok b) t ↔ ∃ a m, Ends x s (.ok a) m ∧ Ends (f a) m (.ok b) t := by
  simp [ends_bind]

/-- What was extracted decides how the rest goes on, from the same state. -/
theorem ends_extracted_bind {x : Extracted α} {f : α → Load β} {outcome : Extracted β} :
    Ends (extracted x >>= f) s outcome t ↔
      (∃ e, x = .error e ∧ outcome = .error e ∧ t = s) ∨ ∃ a, x = .ok a ∧ Ends (f a) s outcome t := by
  cases x <;> simp [ends_bind, and_assoc, @and_comm _ (t = s)]

theorem ends_extracted_ok_bind {x : Extracted α} {f : α → Load β} {b : β} :
    Ends (extracted x >>= f) s (.ok b) t ↔ ∃ a, x = .ok a ∧ Ends (f a) s (.ok b) t := by
  simp [ends_extracted_bind]

@[simp] theorem ends_get_bind {f : Loading → Load β} {outcome : Extracted β} :
    Ends (get >>= f) s outcome t ↔ Ends (f s) s outcome t := by
  simp [ends_bind, and_assoc]

end Policy

end Rulebase
