import Mathlib.Data.Int.Order.Basic
import Mathlib.Data.List.Induction
import Rulebase.Proofs.Order.Search
import Rulebase.Store.Kinds

/-!
# What storing does to a store

A drawn identifier is always free, so an object stored under one is refused only if it has no place. Rules
whose numbers are integers always have one: the new rule goes somewhere among the old ones, which keep their
order. A search by name looks for the first object of the name.
-/

namespace Rulebase

namespace Store

variable {α : Type}

theorem nextSerial_concat_given (kind : StoreKind) (entries : List (Uid × α)) (text : String) (x : α) :
    nextSerial ⟨kind, entries ++ [(.given text, x)]⟩ = nextSerial ⟨kind, entries⟩ := by
  simp [nextSerial]

theorem nextSerial_concat_drawn (kind : StoreKind) (entries : List (Uid × α)) (k : Nat) (x : α) :
    nextSerial ⟨kind, entries ++ [(.drawn k, x)]⟩ = max (nextSerial ⟨kind, entries⟩) (k + 1) := by
  simp [nextSerial]

theorem drawn_lt_nextSerial {store : Store α} {entry : Uid × α} (found : entry ∈ store.entries) {n : Nat}
    (drawn : entry.1 = .drawn n) : n < store.nextSerial := by
  obtain ⟨kind, entries⟩ := store
  induction entries using List.reverseRecOn with
  | nil => cases found
  | append_singleton rest last ih =>
    rcases List.mem_append.mp found with earlier | here
    · have below := ih earlier
      rcases last with ⟨text | k, x⟩
      · rwa [nextSerial_concat_given]
      · rw [nextSerial_concat_drawn]
        omega
    · cases List.mem_singleton.mp here
      rcases entry with ⟨text | k, x⟩
      · cases drawn
      · cases drawn
        rw [nextSerial_concat_drawn]
        omega

theorem has_nextUid (store : Store α) : store.has store.nextUid = false := by
  rw [has, List.any_eq_false]
  intro entry found same
  have drawn : entry.1 = .drawn store.nextSerial := beq_iff_eq.mp same
  exact Nat.lt_irrefl _ (drawn_lt_nextSerial found drawn)

theorem find?_eq [Stored α] (store : Store α) (name : String) :
    store.find? name = store.values.find? fun x => Stored.name? x == some name := by
  rw [find?, findEntries, List.head?_filter, values, List.find?_map]
  rfl

/-- A store has more objects, behind those it had. -/
def Gains (before after : Store α) (xs : List α) : Prop :=
  ∃ new, after.entries = before.entries ++ new ∧ new.map Prod.snd = xs

namespace Gains

variable {before between after : Store α} {xs ys : List α}

theorem none (store : Store α) : store.Gains store [] :=
  ⟨[], by simp⟩

theorem trans (first : before.Gains between xs) (second : between.Gains after ys) :
    before.Gains after (xs ++ ys) := by
  obtain ⟨new, grown, rfl⟩ := first
  obtain ⟨newer, regrown, rfl⟩ := second
  exact ⟨new ++ newer, by rw [regrown, grown, List.append_assoc], List.map_append⟩

theorem values_eq (gains : before.Gains after xs) : after.values = before.values ++ xs := by
  obtain ⟨new, grown, rfl⟩ := gains
  rw [values, grown, List.map_append, values]

theorem sublist (gains : before.Gains after xs) : before.entries.Sublist after.entries := by
  obtain ⟨new, grown, _⟩ := gains
  rw [grown]
  exact List.sublist_append_left _ _

end Gains

end Store

namespace Order

variable {α ε : Type}

/-- A test that never fails is searched for as one that cannot fail. -/
theorem search?_eq_ok {test : α → Except ε Bool} {pass : α → Bool} {xs : List α}
    (total : ∀ x ∈ xs, test x = .ok (pass x)) (low high : Nat) :
    search? test xs low high = .ok (search pass xs low high) := by
  fun_induction search pass xs low high with
  | case1 low high less missing => rw [search?, if_pos less, missing]
  | case2 low high less x found passed ih =>
    rw [search?, if_pos less, found]
    simp only [total x (List.mem_of_getElem? found), passed, ih]
  | case3 low high less x found failed ih =>
    rw [search?, if_pos less, found]
    simp only [total x (List.mem_of_getElem? found), failed, ih]
  | case4 low high ended => rw [search?, if_neg ended]

/-- A search fails only where its test does. -/
theorem exists_of_search?_eq_error {test : α → Except ε Bool} {xs : List α} {low high : Nat} {e : ε}
    (failed : search? test xs low high = .error e) : ∃ x ∈ xs, test x = .error e := by
  fun_induction search? test xs low high with
  | case1 low high less missing => cases failed
  | case2 low high less x found cause apart =>
    cases failed
    exact ⟨x, List.mem_of_getElem? found, apart⟩
  | case3 low high less x found passed ih => exact ih failed
  | case4 low high less x found refused ih => exact ih failed
  | case5 low high ended => cases failed

/-- A search that may fail goes no further than where it is to end. -/
theorem search?_le {test : α → Except ε Bool} {xs : List α} {low high index : Nat} (ordered : low ≤ high)
    (found : search? test xs low high = .ok index) : index ≤ high := by
  fun_induction search? test xs low high with
  | case1 low high less missing =>
    cases found
    exact ordered
  | case2 low high less x listed cause apart => cases found
  | case3 low high less x listed passed ih =>
    have := ih (by omega) found
    omega
  | case4 low high less x listed refused ih => exact ih (by omega) found
  | case5 low high ended =>
    cases found
    exact ordered

end Order

def Rule.IsNumbered (rule : Rule) : Prop :=
  ∃ i, rule.number = .int i

def Rule.integer (rule : Rule) : Int :=
  rule.number.asInt?.getD 0

def integerBefore (i j : Int) : Bool := i < j

instance : IsStrictTotalOrder Int (integerBefore · ·) := by
  have same : (fun i j => integerBefore i j = true) = ((· < ·) : Int → Int → Prop) := by
    funext i j
    exact propext decide_eq_true_iff
  rw [same]
  infer_instance

theorem Value.less?_int (i j : Int) : (Value.int i).less? (.int j) = .ok (integerBefore i j) := by
  have same : (compare i j == .lt) = integerBefore i j := by
    rw [integerBefore, Bool.eq_iff_iff, beq_iff_eq, decide_eq_true_eq]
    exact Int.compare_eq_lt
  exact congrArg Except.ok same

/-- What has an integer for its number goes to its slot among others that have. -/
theorem placeByNumber_eq_ok {α : Type} {number : α → Value} {integer : α → Int} {entry : Uid × α}
    {entries : List (Uid × α)} (new : number entry.2 = .int (integer entry.2))
    (old : ∀ other ∈ entries, number other.2 = .int (integer other.2)) :
    placeByNumber number entry entries =
      .ok (entries.insertIdx (Order.slot integerBefore (integer ·.2) (integer entry.2) entries) entry) := by
  have total : ∀ other ∈ entries, Value.less? (number entry.2) (number other.2) =
      .ok (integerBefore (integer entry.2) (integer other.2)) := by
    intro other listed
    rw [new, old other listed, Value.less?_int]
  rw [placeByNumber, Order.search?_eq_ok total]
  rfl

theorem Rule.IsNumbered.number_eq {rule : Rule} (numbered : rule.IsNumbered) : rule.number = .int rule.integer := by
  obtain ⟨i, same⟩ := numbered
  rw [integer, same]
  rfl

theorem place_rule {kind : StoreKind} {uid : Uid} {rule : Rule} {entries : List (Uid × Rule)}
    (new : rule.IsNumbered) (old : ∀ entry ∈ entries, entry.2.IsNumbered) :
    Stored.place kind (uid, rule) entries =
      .ok (entries.insertIdx (Order.slot integerBefore (·.2.integer) rule.integer entries) (uid, rule)) := by
  apply placeByNumber_eq_ok new.number_eq
  intro entry found
  exact (old entry found).number_eq

end Rulebase
