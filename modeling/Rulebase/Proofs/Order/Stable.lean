import Mathlib.Data.List.Forall2
import Mathlib.Data.List.InsertIdx
import Mathlib.Data.List.Nodup
import Rulebase.Proofs.Order.Search

/-!
# Lists kept in a stable order

A list is kept in order by putting each element in the slot of its key. The elements of one key then stand in the
order in which they came.
-/

namespace Rulebase.Order

variable {α β κ : Type}

/-- A list has the elements of another one, in order, and those of one key as they stand in the other. -/
structure SortsStably [DecidableEq κ] (before : κ → κ → Bool) (key : α → κ) (given sorted : List α) : Prop where
  perm : sorted.Perm given
  ascending : Ascending before key sorted
  stable : ∀ k, sorted.filter (key · = k) = given.filter (key · = k)

theorem SortsStably.nil [DecidableEq κ] (before : κ → κ → Bool) (key : α → κ) : SortsStably before key [] [] :=
  ⟨.nil, .nil, fun _ => rfl⟩

section Insert

variable [DecidableEq κ] {before : κ → κ → Bool} [IsStrictTotalOrder κ (before · ·)] {key : α → κ}
  {given sorted : List α}

theorem filter_drop_slot (ascending : Ascending before key sorted) (k : κ) :
    (sorted.drop (slot before key k sorted)).filter (key · = k) = [] := by
  rw [List.filter_eq_nil_iff]
  intro y behind same
  have later := (slot_bracket ascending k).passes y behind
  rw [of_decide_eq_true same] at later
  exact absurd later (Bool.eq_false_iff.mp (before_irrefl k))

theorem SortsStably.insert (sorts : SortsStably before key given sorted) (x : α) :
    SortsStably before key (given ++ [x]) (sorted.insertIdx (slot before key (key x) sorted) x) := by
  have inside := slot_le before key (key x) sorted
  refine ⟨?_, sorts.ascending.insert x, fun k => ?_⟩
  · have joined := (List.perm_insertIdx x sorted inside).trans (sorts.perm.cons x)
    exact joined.trans (List.perm_append_singleton x given).symm
  · rw [insertIdx_eq_take_drop x inside, List.filter_append, List.filter_append, ← sorts.stable k]
    by_cases same : key x = k
    · have none_behind := filter_drop_slot sorts.ascending k
      rw [← same] at none_behind ⊢
      have split := List.filter_append (p := (key · = key x)) (sorted.take (slot before key (key x) sorted))
        (sorted.drop (slot before key (key x) sorted))
      rw [List.take_append_drop, none_behind, List.append_nil] at split
      rw [split, List.filter_cons_of_pos (by simp), none_behind]
      simp
    · rw [List.filter_cons_of_neg (by simpa using same), ← List.filter_append, List.take_append_drop]
      simp [same]

/-- Sorting by merging is stable. -/
theorem sortsStably_mergeSort (given : List α) :
    SortsStably before key given (given.mergeSort fun x y => !before (key y) (key x)) := by
  have trans : ∀ x y z : α, (!before (key y) (key x)) = true → (!before (key z) (key y)) = true →
      (!before (key z) (key x)) = true := by
    intro x y z first second
    simp only [Bool.not_eq_true'] at first second ⊢
    by_contra late
    rcases before_or_before (key y) ((Bool.not_eq_false _).mp late) with found | found
    · simp [second] at found
    · simp [first] at found
  have total : ∀ x y : α, ((!before (key y) (key x)) || !before (key x) (key y)) = true := by
    intro x y
    cases earlier : before (key y) (key x) with
    | false => rfl
    | true => simp [before_asymm earlier]
  have perm := List.mergeSort_perm given fun x y => !before (key y) (key x)
  refine ⟨perm, ?_, fun k => ?_⟩
  · exact (List.pairwise_mergeSort trans total given).imp fun level => by simpa using level
  · -- The elements of one key are in order as they are given, so they stand that way in the sorted list.
    have level : (given.filter (key · = k)).Pairwise fun x y => (!before (key y) (key x)) = true := by
      refine List.pairwise_of_forall_mem_list fun x left y right => ?_
      have same : key y = key x := (of_decide_eq_true (List.mem_filter.mp right).2).trans
        (of_decide_eq_true (List.mem_filter.mp left).2).symm
      simp [same, before_irrefl]
    have within := (List.sublist_mergeSort trans total level List.filter_sublist).filter (key · = k)
    rw [List.filter_filter] at within
    simp only [Bool.and_self] at within
    exact (within.eq_of_length (perm.filter _).length_eq.symm).symm

end Insert

section Compare

variable {before : κ → κ → Bool} [IsStrictTotalOrder κ (before · ·)] {key : α → κ} {xs ys : List α}

theorem StrictlyAscending.apart (sorted : StrictlyAscending before key xs) :
    ∀ x ∈ xs, ∀ y ∈ xs, key x = key y → x = y := by
  have once : (xs.map key).Nodup := by
    refine List.pairwise_map.mpr (sorted.imp fun {x y} earlier same => ?_)
    rw [same] at earlier
    exact Bool.false_ne_true ((before_irrefl (key y)).symm.trans earlier)
  exact fun x left y right same => List.inj_on_of_nodup_map once left right same

theorem Ascending.eq_of_perm (left : Ascending before key xs) (right : Ascending before key ys)
    (perm : xs.Perm ys) (apart : ∀ x ∈ xs, ∀ y ∈ xs, key x = key y → x = y) : xs = ys := by
  refine List.Perm.eq_of_pairwise (fun x y first second level back => ?_) left right perm
  refine apart x first y (perm.mem_iff.mpr second) ?_
  by_contra different
  have earlier := before_of_ne different level
  rw [back] at earlier
  cases earlier

theorem Ascending.head_least {x : α} {k : κ} (sorted : Ascending before key (x :: xs))
    (found : ∃ z ∈ x :: xs, key z = k) : before k (key x) = false := by
  obtain ⟨z, inside, rfl⟩ := found
  rcases List.mem_cons.mp inside with rfl | later
  · exact before_irrefl _
  · exact (List.pairwise_cons.mp sorted).1 z later

/-- Where the elements of each key are related, the keys of one list are keys of the other. -/
theorem exists_key_of_filter [DecidableEq κ] {R : α → α → Prop} {x : α}
    (related : List.Forall₂ R (xs.filter (key · = key x)) (ys.filter (key · = key x))) (inside : x ∈ xs) :
    ∃ y ∈ ys, key y = key x := by
  have some : x ∈ xs.filter (key · = key x) := List.mem_filter.mpr ⟨inside, decide_eq_true rfl⟩
  have long : 0 < (ys.filter (key · = key x)).length := by
    rw [← related.length_eq]
    exact List.length_pos_of_mem some
  obtain ⟨y, found⟩ := List.exists_mem_of_length_pos long
  exact ⟨y, (List.mem_filter.mp found).1, of_decide_eq_true (List.mem_filter.mp found).2⟩

/-- Two lists in order are related index by index just when the elements of each key are, as they stand. -/
theorem forall₂_iff_filter [DecidableEq κ] {R : α → α → Prop} (left : Ascending before key xs)
    (right : Ascending before key ys) :
    List.Forall₂ (fun x y => key x = key y ∧ R x y) xs ys ↔
      ∀ k, List.Forall₂ R (xs.filter (key · = k)) (ys.filter (key · = k)) := by
  constructor
  · intro related k
    have kept := List.rel_filter (p := (key · = k)) (q := (key · = k))
      (fun x y level => by simp [level.1]) related
    exact kept.imp fun _ _ level => level.2
  · intro each
    induction xs generalizing ys with
    | nil =>
      cases ys with
      | nil => exact .nil
      | cons y ys => simpa using (each (key y)).length_eq
    | cons x xs ih =>
      cases ys with
      | nil => simpa using (each (key x)).length_eq
      | cons y ys =>
        -- The first element of each list has a partner of its key in the other, which comes no earlier.
        have level : key x = key y := by
          by_contra different
          have first := right.head_least (exists_key_of_filter (each (key x)) List.mem_cons_self)
          have second := left.head_least (exists_key_of_filter (each (key y)).flip List.mem_cons_self)
          have earlier : before (key x) (key y) = true := before_of_ne different second
          simp [first] at earlier
        have heads := each (key x)
        simp only [List.filter_cons, level, decide_true, if_true] at heads
        obtain ⟨related, _⟩ := List.forall₂_cons.mp heads
        refine .cons ⟨level, related⟩ (ih (List.pairwise_cons.mp left).2 (List.pairwise_cons.mp right).2
          fun k => ?_)
        have rest := each k
        simp only [List.filter_cons, level] at rest
        split at rest
        · exact (List.forall₂_cons.mp rest).2
        · exact rest

/-- A list has one stable order. -/
theorem SortsStably.unique [DecidableEq κ] {given : List α} (left : SortsStably before key given xs)
    (right : SortsStably before key given ys) : xs = ys := by
  have level := (forall₂_iff_filter (R := (· = ·)) left.ascending right.ascending).mpr fun k => by
    rw [left.stable, right.stable]
    exact List.forall₂_same.mpr fun _ _ => rfl
  exact List.forall₂_eq_eq_eq ▸ level.imp fun _ _ same => same.2

end Compare

theorem search_map (f : α → β) (test : β → Bool) (xs : List α) (low high : Nat) :
    search test (xs.map f) low high = search (fun x => test (f x)) xs low high := by
  fun_induction search (fun x => test (f x)) xs low high with
  | case1 low high less missing => rw [search, if_pos less, List.getElem?_map, missing]; rfl
  | case2 low high less x found passed ih =>
    rw [search, if_pos less, List.getElem?_map, found]
    simp only [Option.map_some, passed, if_true, ih]
  | case3 low high less x found failed ih =>
    rw [search, if_pos less, List.getElem?_map, found]
    simp only [Option.map_some, failed, ih]
    rfl
  | case4 low high ended => rw [search, if_neg ended]

theorem slot_map (before : κ → κ → Bool) (key : β → κ) (f : α → β) (k : κ) (xs : List α) :
    slot before key k (xs.map f) = slot before (fun x => key (f x)) k xs := by
  rw [slot, search_map, List.length_map]
  rfl

theorem slot_congr (before : κ → κ → Bool) {key : α → κ} (k : κ) {xs ys : List α} (same : xs.map key = ys.map key) :
    slot before key k xs = slot before key k ys := by
  calc slot before key k xs
      = slot before id k (xs.map key) := (slot_map before id key k xs).symm
    _ = slot before id k (ys.map key) := by rw [same]
    _ = slot before key k ys := slot_map before id key k ys

/-- The candidates of a key stand at the same places in lists of the same keys. -/
theorem forall₂_candidates {R : α → α → Prop} (before : κ → κ → Bool) (key : α → κ) {xs ys : List α}
    (keyed : ∀ {x y}, R x y → key x = key y) (related : List.Forall₂ R xs ys) (k : κ) :
    List.Forall₂ R (candidates before key k xs) (candidates before key k ys) := by
  have same : xs.map key = ys.map key := by
    rw [← List.forall₂_eq_eq_eq, List.forall₂_map_left_iff, List.forall₂_map_right_iff]
    exact related.imp fun _ _ => keyed
  have found (test : κ → Bool) (low high : Nat) :
      search (fun x => test (key x)) xs low high = search (fun x => test (key x)) ys low high := by
    rw [← search_map key test xs, ← search_map key test ys, same]
  match xs, ys, related with
  | [], [], _ => exact .nil
  | [x], [y], single => exact single
  | x :: x' :: xs, y :: y' :: ys, related =>
    simp only [candidates]
    rw [found (fun j => !before j k), found (before k), related.length_eq]
    exact List.forall₂_take _ (List.forall₂_drop _ related)

end Rulebase.Order
