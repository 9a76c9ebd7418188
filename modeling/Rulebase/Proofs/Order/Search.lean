import Mathlib.Order.RelClasses
import Rulebase.Order.Search

/-!
# Halving finds what a full scan finds

Where the elements of a list that fail a test stand before those that pass, halving ends between the
two parts. In a list ordered by key the window found for a key therefore misses no element of the key,
and an element put in its slot keeps the list in order.
-/

namespace Rulebase.Order

variable {α κ : Type}

/-- Everything before the first index fails the test, and everything from the second one on passes. -/
structure Bracket (test : α → Bool) (xs : List α) (low high : Nat) : Prop where
  low_le : low ≤ high
  high_le : high ≤ xs.length
  fails : ∀ x ∈ xs.take low, test x = false
  passes : ∀ x ∈ xs.drop high, test x = true

namespace Bracket

variable {test : α → Bool} {xs : List α} {low high middle : Nat}

theorem left (ordered : xs.Pairwise fun x y => test x = true → test y = true)
    (bracket : Bracket test xs low high) (above : low ≤ middle) (inside : middle < xs.length)
    (passed : test xs[middle] = true) : Bracket test xs low middle := by
  refine ⟨above, Nat.le_of_lt inside, bracket.fails, ?_⟩
  have rest := ordered.drop (i := middle)
  rw [List.drop_eq_getElem_cons inside] at rest ⊢
  intro x found
  rcases List.mem_cons.mp found with rfl | later
  · exact passed
  · exact (List.pairwise_cons.mp rest).1 x later passed

theorem right (ordered : xs.Pairwise fun x y => test x = true → test y = true)
    (bracket : Bracket test xs low high) (below : middle < high) (inside : middle < xs.length)
    (failed : test xs[middle] = false) : Bracket test xs (middle + 1) high := by
  refine ⟨below, bracket.high_le, ?_, bracket.passes⟩
  have front := ordered.take (i := middle + 1)
  rw [List.take_succ_eq_append_getElem inside] at front ⊢
  intro x found
  rcases List.mem_append.mp found with earlier | here
  · have implies := (List.pairwise_append.mp front).2.2 x earlier _ (List.mem_singleton.mpr rfl)
    exact Bool.eq_false_iff.mpr fun passed => by simp [implies passed] at failed
  · rw [List.mem_singleton.mp here]
    exact failed

end Bracket

/-- Halving a bracket ends at the one index between what fails and what passes. -/
theorem search_bracket {test : α → Bool} {xs : List α} {low high : Nat}
    (ordered : xs.Pairwise fun x y => test x = true → test y = true)
    (bracket : Bracket test xs low high) :
    Bracket test xs (search test xs low high) (search test xs low high) := by
  fun_induction search test xs low high with
  | case1 low high less missing =>
    have inside : (low + high) / 2 < xs.length := by have := bracket.high_le; omega
    rw [List.getElem?_eq_getElem inside] at missing
    cases missing
  | case2 low high less x found passed ih =>
    obtain ⟨inside, rfl⟩ := List.getElem?_eq_some_iff.mp found
    exact ih (bracket.left ordered (by omega) inside passed)
  | case3 low high less x found failed ih =>
    obtain ⟨inside, rfl⟩ := List.getElem?_eq_some_iff.mp found
    exact ih (bracket.right ordered (by omega) inside (Bool.eq_false_iff.mpr failed))
  | case4 low high ended =>
    have same : high = low := by have := bracket.low_le; omega
    subst same
    exact bracket

theorem bracket_all (test : α → Bool) (xs : List α) : Bracket test xs 0 xs.length :=
  ⟨Nat.zero_le _, Nat.le_refl _, by simp, by simp⟩

theorem le_search (test : α → Bool) (xs : List α) (low high : Nat) :
    low ≤ search test xs low high := by
  fun_induction search test xs low high with
  | case1 low high less missing => exact Nat.le_refl _
  | case2 low high less x found passed ih => exact ih
  | case3 low high less x found failed ih => omega
  | case4 low high ended => exact Nat.le_refl _

theorem search_le (test : α → Bool) (xs : List α) {low high : Nat} (ordered : low ≤ high) :
    search test xs low high ≤ high := by
  fun_induction search test xs low high with
  | case1 low high less missing => exact ordered
  | case2 low high less x found passed ih =>
    have := ih (by omega)
    omega
  | case3 low high less x found failed ih => exact ih (by omega)
  | case4 low high ended => exact ordered

theorem slot_le (before : κ → κ → Bool) (key : α → κ) (k : κ) (xs : List α) :
    slot before key k xs ≤ xs.length :=
  search_le _ xs (Nat.zero_le _)

def Ascending (before : κ → κ → Bool) (key : α → κ) (xs : List α) : Prop :=
  xs.Pairwise fun x y => before (key y) (key x) = false

def StrictlyAscending (before : κ → κ → Bool) (key : α → κ) (xs : List α) : Prop :=
  xs.Pairwise fun x y => before (key x) (key y) = true

theorem insertIdx_eq_take_drop {xs : List α} {n : Nat} (x : α) (inside : n ≤ xs.length) :
    xs.insertIdx n x = xs.take n ++ x :: xs.drop n := by
  induction n generalizing xs with
  | zero => rfl
  | succ n ih =>
    cases xs with
    | nil => cases inside
    | cons y xs => simp [ih (Nat.le_of_succ_le_succ inside)]

section Keys

variable {before : κ → κ → Bool} [IsStrictTotalOrder κ (before · ·)] {key : α → κ} {xs : List α}

theorem before_irrefl (k : κ) : before k k = false :=
  Bool.eq_false_iff.mpr (irrefl_of (before · ·) k)

theorem before_asymm {j k : κ} (earlier : before j k = true) : before k j = false :=
  Bool.eq_false_iff.mpr (asymm_of (before · ·) earlier)

/-- A key that comes before another comes before or after any third one on the way. -/
theorem before_or_before {j l : κ} (k : κ) (earlier : before j l = true) :
    before j k = true ∨ before k l = true := by
  have connected : IsOrderConnected κ (before · ·) := inferInstance
  exact connected.conn j k l earlier

/-- Two different keys can be told apart. -/
theorem before_of_ne {j k : κ} (different : j ≠ k) (later : before k j = false) :
    before j k = true := by
  rcases trichotomous_of (before · ·) j k with earlier | same | after
  · exact earlier
  · exact absurd same different
  · simp [later] at after

theorem StrictlyAscending.ascending (sorted : StrictlyAscending before key xs) :
    Ascending before key xs :=
  sorted.imp before_asymm

/-- The elements whose key comes later than a key stand at the end. -/
theorem Ascending.later (sorted : Ascending before key xs) (k : κ) :
    xs.Pairwise fun x y => before k (key x) = true → before k (key y) = true := by
  refine sorted.imp fun {x y} level earlier => ?_
  rcases before_or_before (key y) earlier with found | found
  · exact found
  · simp [level] at found

/-- The elements whose key does not come earlier than a key stand at the end. -/
theorem Ascending.notEarlier (sorted : Ascending before key xs) (k : κ) :
    xs.Pairwise fun x y => (!before (key x) k) = true → (!before (key y) k) = true := by
  refine sorted.imp fun {x y} level => ?_
  simp only [Bool.not_eq_true', ← Bool.not_eq_true]
  intro late early
  rcases before_or_before (key x) early with found | found
  · simp [level] at found
  · exact late found

/-- Around its slot a key finds the elements that do not come later and those that do. -/
theorem slot_bracket (sorted : Ascending before key xs) (k : κ) :
    Bracket (fun x => before k (key x)) xs (slot before key k xs) (slot before key k xs) :=
  search_bracket (sorted.later k) (bracket_all _ xs)

/-- What matches a key is found among the candidates of the key just when a full scan finds it. -/
theorem any_candidates (sorted : Ascending before key xs) (k : κ) {p : α → Bool}
    (keyed : ∀ x ∈ xs, p x = true → key x = k) :
    (candidates before key k xs).any p = xs.any p := by
  match xs with
  | [] => rfl
  | [x] => rfl
  | x :: y :: rest =>
    simp only [candidates]
    generalize x :: y :: rest = xs at *
    have front := search_bracket (sorted.notEarlier k) (bracket_all _ xs)
    have reach := le_search (fun x => before k (key x)) xs
      (search (fun x => !before (key x) k) xs 0 xs.length) xs.length
    generalize search (fun x => !before (key x) k) xs 0 xs.length = low at *
    have opened : Bracket (fun x => before k (key x)) xs low xs.length := by
      refine ⟨front.high_le, Nat.le_refl _, fun x found => ?_, by simp⟩
      exact before_asymm (by simpa using front.fails x found)
    have back := search_bracket (sorted.later k) opened
    generalize search (fun x => before k (key x)) xs low xs.length = high at *
    have none_front : (xs.take low).any p = false := by
      refine List.any_eq_false.mpr fun x found matched => ?_
      have early := front.fails x found
      rw [keyed x (List.mem_of_mem_take found) matched] at early
      simp [before_irrefl] at early
    have none_back : (xs.drop high).any p = false := by
      refine List.any_eq_false.mpr fun x found matched => ?_
      have late := back.passes x found
      rw [keyed x (List.mem_of_mem_drop found) matched] at late
      simp [before_irrefl] at late
    have split_high : (xs.drop low).drop (high - low) = xs.drop high := by
      rw [List.drop_drop, Nat.add_sub_cancel' reach]
    calc ((xs.drop low).take (high - low)).any p
        = ((xs.drop low).take (high - low) ++ (xs.drop low).drop (high - low)).any p := by
          rw [List.any_append, split_high, none_back, Bool.or_false]
      _ = (xs.take low ++ xs.drop low).any p := by
          rw [List.take_append_drop, List.any_append, none_front, Bool.false_or]
      _ = xs.any p := by rw [List.take_append_drop]

/-- An element put in the slot of its key keeps a list in order. -/
theorem Ascending.insert (sorted : Ascending before key xs) (x : α) :
    Ascending before key (xs.insertIdx (slot before key (key x) xs) x) := by
  have bracket := slot_bracket sorted (key x)
  rw [insertIdx_eq_take_drop x bracket.high_le]
  generalize slot before key (key x) xs = n at *
  rw [← List.take_append_drop n xs] at sorted
  obtain ⟨front, back, across⟩ := List.pairwise_append.mp sorted
  refine List.pairwise_append.mpr ⟨front, List.pairwise_cons.mpr ⟨?_, back⟩, ?_⟩
  · intro y found
    exact before_asymm (bracket.passes y found)
  · intro y found z behind
    rcases List.mem_cons.mp behind with rfl | later
    · exact bracket.fails y found
    · exact across y found z later

/-- An element of a new key put in its slot keeps a list in strict order. -/
theorem StrictlyAscending.insert (sorted : StrictlyAscending before key xs) {x : α}
    (fresh : ∀ y ∈ xs, key y ≠ key x) :
    StrictlyAscending before key (xs.insertIdx (slot before key (key x) xs) x) := by
  have bracket := slot_bracket sorted.ascending (key x)
  rw [insertIdx_eq_take_drop x bracket.high_le]
  generalize slot before key (key x) xs = n at *
  rw [← List.take_append_drop n xs] at sorted
  obtain ⟨front, back, across⟩ := List.pairwise_append.mp sorted
  refine List.pairwise_append.mpr ⟨front, List.pairwise_cons.mpr ⟨?_, back⟩, ?_⟩
  · intro y found
    exact bracket.passes y found
  · intro y found z behind
    rcases List.mem_cons.mp behind with rfl | later
    · exact before_of_ne (fresh y (List.mem_of_mem_take found)) (bracket.fails y found)
    · exact across y found z later

end Keys

end Rulebase.Order
