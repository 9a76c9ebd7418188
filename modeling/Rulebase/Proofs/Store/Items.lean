import Rulebase.Proofs.Store.Placement
import Rulebase.Store.Item

/-!
# Placing items

A store that can hold anything puts an item behind the others, or by its number among rules. There an item is
refused when it has no number, or when its number cannot be compared with another one; items whose numbers are
integers always have a place.
-/

namespace Rulebase

/-- Why an item has no place among others in a store of rules: it has no number, or its number cannot be compared
with that of one of the others. -/
inductive Item.Unplaced (x : Item) (entries : List (Uid × Item)) : StoreError → Prop where
  | unnumbered (absent : x.number? = none) : Unplaced x entries (.misused (x.lacks "number"))
  | unordered {v w : Value} {entry : Uid × Item} {cause : Value.Unordered} (number : x.number? = some v)
      (listed : entry ∈ entries) (other : entry.2.number? = some w) (apart : v.less? w = .error cause) :
      Unplaced x entries (.unordered cause)

def Item.IsNumbered (x : Item) : Prop :=
  ∃ i, x.number? = some (.int i)

def Item.integer (x : Item) : Int :=
  (x.number?.bind Value.asInt?).getD 0

theorem Item.IsNumbered.number_eq {x : Item} (numbered : x.IsNumbered) :
    x.number?.getD .null = .int x.integer := by
  obtain ⟨i, given⟩ := numbered
  rw [integer, given]
  rfl

section Placing

variable {kind : StoreKind} {uid : Uid} {x : Item} {entries placed : List (Uid × Item)} {e : StoreError}

theorem place_item_of_ne_rule (other : kind ≠ .rule) :
    Stored.place kind (uid, x) entries = .ok (entries ++ [(uid, x)]) := by
  cases kind <;> first | rfl | contradiction

theorem place_item_of_number?_eq_none (absent : x.number? = none) :
    Stored.place .rule (uid, x) entries = .error (.misused (x.lacks "number")) := by
  simp only [Stored.place, absent]

theorem place_item_of_number?_eq_some {v : Value} (number : x.number? = some v) :
    Stored.place .rule (uid, x) entries = placeByNumber (fun item => item.number?.getD .null) (uid, x) entries := by
  simp only [Stored.place, number]

/-- What is placed goes somewhere among the others, which keep their order. -/
theorem place_item_eq_ok (given : Stored.place kind (uid, x) entries = .ok placed) :
    (kind = .rule → x.number?.isSome) ∧
      ∃ front back, entries = front ++ back ∧ placed = front ++ (uid, x) :: back := by
  by_cases ruled : kind = .rule
  · subst ruled
    cases number : x.number? with
    | none =>
      rw [place_item_of_number?_eq_none number] at given
      cases given
    | some v =>
      rw [place_item_of_number?_eq_some number, placeByNumber] at given
      dsimp only at given
      split at given
      next index found =>
        cases given
        have inside := Order.search?_le (Nat.zero_le _) found
        refine ⟨fun _ => rfl, entries.take index, entries.drop index, (List.take_append_drop index entries).symm, ?_⟩
        exact Order.insertIdx_eq_take_drop (uid, x) inside
      · cases given
  · rw [place_item_of_ne_rule ruled] at given
    cases given
    exact ⟨fun is => absurd is ruled, entries, [], (List.append_nil entries).symm, rfl⟩

/-- What has no place is refused among rules only, where it lacks a number that can be compared. -/
theorem place_item_eq_error (numbers : kind = .rule → ∀ entry ∈ entries, entry.2.number?.isSome)
    (failed : Stored.place kind (uid, x) entries = .error e) : kind = .rule ∧ x.Unplaced entries e := by
  by_cases ruled : kind = .rule
  · subst ruled
    refine ⟨rfl, ?_⟩
    cases number : x.number? with
    | none =>
      rw [place_item_of_number?_eq_none number] at failed
      cases failed
      exact .unnumbered number
    | some v =>
      rw [place_item_of_number?_eq_some number, placeByNumber] at failed
      dsimp only at failed
      split at failed
      · cases failed
      next cause stuck =>
        cases failed
        obtain ⟨entry, listed, apart⟩ := Order.exists_of_search?_eq_error stuck
        obtain ⟨w, other⟩ := Option.isSome_iff_exists.mp (numbers rfl entry listed)
        rw [number, other] at apart
        exact .unordered number listed other apart
  · rw [place_item_of_ne_rule ruled] at failed
    cases failed

/-- An item with an integer number has a place among items that have one. -/
theorem exists_place_item (new : kind = .rule → x.IsNumbered)
    (old : kind = .rule → ∀ entry ∈ entries, entry.2.IsNumbered) :
    ∃ placed, Stored.place kind (uid, x) entries = .ok placed := by
  by_cases ruled : kind = .rule
  · subst ruled
    obtain ⟨i, number⟩ := new rfl
    have integer : ∀ entry : Uid × Item, entry.2.IsNumbered →
        entry.2.number?.getD .null = .int entry.2.integer := fun entry numbered => numbered.number_eq
    rw [place_item_of_number?_eq_some number]
    exact ⟨_, placeByNumber_eq_ok (integer (uid, x) (new rfl)) fun entry listed =>
      integer entry (old rfl entry listed)⟩
  · exact ⟨_, place_item_of_ne_rule ruled⟩

end Placing

end Rulebase
