import Rulebase.Proofs.Order.Stable
import Rulebase.Proofs.Policy.Chapters

/-!
# Storing what was extracted

Objects are stored one after another. All but rules are put behind what their section has stored, and storing
them never fails; rules are put in between, and storing them does not fail as long as every number is an
integer. Leaves are stored up to the first whose name is taken, by an object that was stored before or by one
of the leaves in front of it.
-/

namespace Rulebase.Policy

variable {chapter : Chapter} {s t : Loading} {outcome : Extracted Unit}

/-- Objects are put behind those that a section has stored, and nothing else changes in the inventory. -/
structure Appends (chapter : Chapter) (xs : List chapter.Content) (before after : Inventory) : Prop where
  here : (before.store chapter).Gains (after.store chapter) xs
  elsewhere : ∀ other, other ≠ chapter → after.store other = before.store other

namespace Appends

variable {xs ys : List chapter.Content} {before between after : Inventory}

theorem none (inventory : Inventory) : Appends chapter [] inventory inventory :=
  ⟨.none _, fun _ _ => rfl⟩

theorem trans (first : Appends chapter xs before between) (second : Appends chapter ys between after) :
    Appends chapter (xs ++ ys) before after where
  here := first.here.trans second.here
  elsewhere other differ := (second.elsewhere other differ).trans (first.elsewhere other differ)

/-- A name is taken afterwards when it was before, or when one of the objects has it. -/
theorem isSome_find_iff {family : Family} {name : String} (joins : chapter ∈ family.chapters)
    (appends : Appends chapter xs before after) :
    (after.find family name).isSome ↔
      (before.find family name).isSome ∨ ∃ x ∈ xs, Stored.name? x = some name := by
  rw [Policy.isSome_find_iff, Policy.isSome_find_iff]
  constructor
  · rintro ⟨other, listed, x, found, named⟩
    by_cases same : other = chapter
    · subst same
      rw [appends.here.values_eq] at found
      rcases List.mem_append.mp found with old | new
      · exact Or.inl ⟨other, listed, x, old, named⟩
      · exact Or.inr ⟨x, new, named⟩
    · rw [appends.elsewhere other same] at found
      exact Or.inl ⟨other, listed, x, found, named⟩
  · rintro (⟨other, listed, x, found, named⟩ | ⟨x, found, named⟩)
    · refine ⟨other, listed, x, ?_, named⟩
      by_cases same : other = chapter
      · subst same
        rw [appends.here.values_eq]
        exact List.mem_append_left _ found
      · rwa [appends.elsewhere other same]
    · refine ⟨chapter, joins, x, ?_, named⟩
      rw [appends.here.values_eq]
      exact List.mem_append_right _ found

end Appends

/-- An object that has a place is stored there, under the next identifier. -/
theorem ends_keep {x : chapter.Content} {entries : List (Uid × chapter.Content)}
    (placed : Stored.place (s.inventory.store chapter).kind ((s.inventory.store chapter).nextUid, x)
      (s.inventory.store chapter).entries = .ok entries)
    (ends : Ends (keep chapter.shelf x) s outcome t) :
    outcome = .ok () ∧ t.registry = s.registry ∧ (t.inventory.store chapter).entries = entries ∧
      ∀ other, other ≠ chapter → t.inventory.store other = s.inventory.store other := by
  have created : (chapter.shelf.read s.inventory).create (chapter.shelf.read s.inventory).nextUid x =
      (.ok (), { s.inventory.store chapter with entries }) := by
    rw [Store.create, Store.has_nextUid, if_neg (by decide), Store.put]
    rw [Inventory.store] at placed
    rw [placed]
    rfl
  rw [keep, ends_get_bind] at ends
  simp only [created, ends_bind, ends_set, ends_record] at ends
  rcases ends with ⟨e, ⟨failed, _⟩, _⟩ | ⟨_, m, ⟨_, rfl⟩, rfl, rfl⟩
  · cases failed
  · refine ⟨rfl, rfl, ?_, fun other differ => store_write_of_ne s.inventory differ _⟩
    rw [store_write]

/-- What is put behind the others is stored without fail. -/
theorem ends_keep_of_ne_rules (other : chapter ≠ .rules) {x : chapter.Content}
    (ends : Ends (keep chapter.shelf x) s outcome t) :
    outcome = .ok () ∧ t.registry = s.registry ∧ Appends chapter [x] s.inventory t.inventory := by
  obtain ⟨rfl, same, grown, elsewhere⟩ := ends_keep (place_of_ne_rules other _ _ _) ends
  exact ⟨rfl, same, ⟨_, grown, rfl⟩, elsewhere⟩

theorem ends_keepAll_of_ne_rules (other : chapter ≠ .rules) {xs : List chapter.Content}
    (ends : Ends (keepAll chapter.shelf xs) s outcome t) :
    outcome = .ok () ∧ t.registry = s.registry ∧ Appends chapter xs s.inventory t.inventory := by
  induction xs generalizing s with
  | nil =>
    rw [keepAll, ends_pure] at ends
    obtain ⟨rfl, rfl⟩ := ends
    exact ⟨rfl, rfl, .none _⟩
  | cons x xs ih =>
    rw [keepAll, ends_bind] at ends
    rcases ends with ⟨e, first, _⟩ | ⟨_, m, first, rest⟩
    · cases (ends_keep_of_ne_rules other first).1
    · obtain ⟨_, kept, one⟩ := ends_keep_of_ne_rules other first
      obtain ⟨rfl, same, more⟩ := ih rest
      exact ⟨rfl, same.trans kept, one.trans more⟩

/-- Rules are put among those that are stored, which keep their order, and nothing else changes in the
inventory. Rules that were sorted stay so, as if the new ones had come behind them. -/
structure Inserts (rules : List Rule) (before after : Inventory) : Prop where
  order : (before.store .rules).entries.Sublist (after.store .rules).entries
  here : (after.store .rules).values.Perm (rules ++ (before.store .rules).values)
  elsewhere : ∀ other, other ≠ Chapter.rules → after.store other = before.store other
  sorted : ∀ given, Order.SortsStably integerBefore Rule.integer given (before.store .rules).values →
    Order.SortsStably integerBefore Rule.integer (given ++ rules) (after.store .rules).values

def Numbered (inventory : Inventory) : Prop :=
  ∀ rule ∈ (inventory.store .rules).values, Rule.IsNumbered rule

theorem Inserts.numbered {rules : List Rule} {before after : Inventory} (inserts : Inserts rules before after)
    (new : ∀ rule ∈ rules, rule.IsNumbered) (old : Numbered before) : Numbered after := fun rule found => by
  rcases List.mem_append.mp (inserts.here.mem_iff.mp found) with listed | stored
  · exact new rule listed
  · exact old rule stored

theorem ends_keep_rule {rule : Rule} (new : rule.IsNumbered) (old : Numbered s.inventory)
    (ends : Ends (keep (Chapter.shelf .rules) rule) s outcome t) :
    outcome = .ok () ∧ t.registry = s.registry ∧ Inserts [rule] s.inventory t.inventory := by
  have numbered : ∀ entry ∈ (s.inventory.store .rules).entries, Rule.IsNumbered entry.2 :=
    fun entry found => old entry.2 (List.mem_map_of_mem found)
  obtain ⟨rfl, same, grown, elsewhere⟩ := ends_keep (place_rule new numbered) ends
  have values : (t.inventory.store .rules).values = (s.inventory.store .rules).values.insertIdx
      (Order.slot integerBefore Rule.integer rule.integer (s.inventory.store .rules).values) rule := by
    rw [Store.values, grown, List.map_insertIdx, Store.values, Order.slot_map]
  refine ⟨rfl, same, ?_, ?_, elsewhere, fun given sorts => ?_⟩
  · rw [grown]
    exact List.sublist_insertIdx _ _ _
  · rw [values]
    exact List.perm_insertIdx _ _ (Order.slot_le _ _ _ _)
  · rw [values]
    exact sorts.insert rule

theorem ends_keepAll_rules {rules : List Rule} (new : ∀ rule ∈ rules, rule.IsNumbered)
    (old : Numbered s.inventory) (ends : Ends (keepAll (Chapter.shelf .rules) rules) s outcome t) :
    outcome = .ok () ∧ t.registry = s.registry ∧ Inserts rules s.inventory t.inventory := by
  induction rules generalizing s with
  | nil =>
    rw [keepAll, ends_pure] at ends
    obtain ⟨rfl, rfl⟩ := ends
    exact ⟨rfl, rfl, .refl _, .refl _, fun _ _ => rfl, fun given sorts => by rwa [List.append_nil]⟩
  | cons rule rules ih =>
    obtain ⟨head, tail⟩ := List.forall_mem_cons.mp new
    rw [keepAll, ends_bind] at ends
    rcases ends with ⟨e, first, _⟩ | ⟨_, m, first, rest⟩
    · cases (ends_keep_rule head old first).1
    · obtain ⟨_, kept, one⟩ := ends_keep_rule head old first
      obtain ⟨rfl, same, more⟩ := ih tail (one.numbered (by simpa using head) old) rest
      refine ⟨rfl, same.trans kept, one.order.trans more.order, ?_, fun other differ => ?_, fun given sorts => ?_⟩
      · exact (more.here.trans (one.here.append_left rules)).trans List.perm_middle
      · rw [more.elsewhere other differ, one.elsewhere other differ]
      · rw [List.append_cons]
        exact more.sorted _ (one.sorted given sorts)

/-- A leaf's name is taken by an object that was stored before, or by a leaf in front of it. -/
def Taken (inventory : Inventory) {chapter : Chapter} (leaves : LeafSection chapter)
    (front : List chapter.Content) (x : chapter.Content) : Prop :=
  (inventory.find leaves.family (leaves.name x)).isSome ∨ ∃ y ∈ front, leaves.name y = leaves.name x

theorem LeafSection.mem_chapters (leaves : LeafSection chapter) : chapter ∈ leaves.family.chapters :=
  List.mem_append_left _ leaves.joins

/-- After a leaf was stored, a name is taken when it was before with that leaf in front. -/
theorem Appends.taken_iff {leaves : LeafSection chapter} {before after : Inventory} {front : List chapter.Content}
    {x y : chapter.Content} (appends : Appends chapter [x] before after) :
    Taken after leaves front y ↔ Taken before leaves (x :: front) y := by
  rw [Taken, Taken, appends.isSome_find_iff leaves.mem_chapters, or_assoc]
  simp [leaves.named]

/-- Leaves are stored up to the first whose name is taken. -/
theorem ends_keepUnique (leaves : LeafSection chapter) {xs : List chapter.Content}
    (ends : Ends (keepUnique chapter leaves.family chapter.shelf leaves.name xs) s outcome t) :
    ∃ kept rest, xs = kept ++ rest ∧ t.registry = s.registry ∧
      Appends chapter kept s.inventory t.inventory ∧
      (∀ front x back, kept = front ++ x :: back → ¬ Taken s.inventory leaves front x) ∧
      (rest = [] ∧ outcome = .ok () ∨
        ∃ x more, rest = x :: more ∧ Taken s.inventory leaves kept x ∧
          outcome = .error (.defect chapter (.taken (leaves.name x)))) := by
  induction xs generalizing s with
  | nil =>
    rw [keepUnique, ends_pure] at ends
    obtain ⟨rfl, rfl⟩ := ends
    exact ⟨[], [], rfl, rfl, .none _, by simp, Or.inl ⟨rfl, rfl⟩⟩
  | cons x xs ih =>
    rw [keepUnique, ends_get_bind] at ends
    by_cases taken : (s.inventory.find leaves.family (leaves.name x)).isSome = true
    · simp only [if_pos taken, ends_bind, ends_throw] at ends
      rcases ends with ⟨e, ⟨refused, rfl⟩, rfl⟩ | ⟨_, _, ⟨passed, _⟩, _⟩
      · cases refused
        exact ⟨[], x :: xs, rfl, rfl, .none _, by simp, Or.inr ⟨x, xs, rfl, Or.inl taken, rfl⟩⟩
      · cases passed
    · simp only [if_neg taken, ends_bind] at ends
      rcases ends with ⟨e, first, _⟩ | ⟨_, m, first, later⟩
      · cases (ends_keep_of_ne_rules leaves.ne_rules first).1
      · obtain ⟨_, registry, one⟩ := ends_keep_of_ne_rules leaves.ne_rules first
        obtain ⟨kept, rest, rfl, same, more, free, ended⟩ := ih later
        refine ⟨x :: kept, rest, rfl, same.trans registry, one.trans more, ?_, ?_⟩
        · intro front y back split
          cases front with
          | nil =>
            obtain ⟨rfl, rfl⟩ := List.cons.inj split
            simpa [Taken] using taken
          | cons z front =>
            obtain ⟨rfl, behind⟩ := List.cons.inj split
            rw [← one.taken_iff]
            exact free front y back behind
        · simpa only [one.taken_iff] using ended

end Rulebase.Policy
