import Rulebase.Policy.Extract
import Rulebase.Proofs.Policy.Reading
import Rulebase.Proofs.Store.Placement

/-!
# The stores of the sections

Every section has a store of its own in an inventory, of what its entries become. A name is looked up in the
stores of a family one after another, the store of the groups last, so what a look-up finds depends on these
stores only.
-/

namespace Rulebase

namespace Policy

abbrev Chapter.Content : Chapter → Type
  | hosts => Host
  | networks => Network
  | ranges => Range
  | groups | portGroups => Group
  | ports => Port
  | portRanges => PortRange
  | rules => Rule

instance : (chapter : Chapter) → Stored chapter.Content
  | .hosts => inferInstanceAs (Stored Host)
  | .networks => inferInstanceAs (Stored Network)
  | .ranges => inferInstanceAs (Stored Range)
  | .groups | .portGroups => inferInstanceAs (Stored Group)
  | .ports => inferInstanceAs (Stored Port)
  | .portRanges => inferInstanceAs (Stored PortRange)
  | .rules => inferInstanceAs (Stored Rule)

def Chapter.shelf : (chapter : Chapter) → Shelf chapter.Content
  | hosts => .hosts
  | networks => .networks
  | ranges => .ranges
  | groups => .groups
  | ports => .ports
  | portRanges => .portRanges
  | portGroups => .portGroups
  | rules => .rules

/-- An object that was made of an entry: rules are none. -/
def Chapter.object? : (chapter : Chapter) → chapter.Content → Option Object
  | hosts, x => some (.leaf (.host x))
  | networks, x => some (.leaf (.network x))
  | ranges, x => some (.leaf (.range x))
  | groups, g | portGroups, g => some (.group g)
  | ports, x => some (.leaf (.port x))
  | portRanges, x => some (.leaf (.portRange x))
  | rules, _ => none

/-- All but rules are put behind those that are stored already. -/
theorem place_of_ne_rules {chapter : Chapter} (other : chapter ≠ .rules) (kind : StoreKind)
    (entry : Uid × chapter.Content) (entries : List (Uid × chapter.Content)) :
    Stored.place kind entry entries = .ok (entries ++ [entry]) := by
  cases chapter <;> first | rfl | contradiction

end Policy

def Inventory.store (inventory : Inventory) (chapter : Policy.Chapter) : Store chapter.Content :=
  chapter.shelf.read inventory

namespace Policy

@[simp] theorem store_write (inventory : Inventory) (chapter : Chapter) (store : Store chapter.Content) :
    (chapter.shelf.write inventory store).store chapter = store := by
  cases chapter <;> rfl

theorem store_write_of_ne (inventory : Inventory) {chapter other : Chapter} (differ : other ≠ chapter)
    (store : Store chapter.Content) :
    (chapter.shelf.write inventory store).store other = inventory.store other := by
  cases chapter <;> cases other <;> first | rfl | contradiction

end Policy

def Family.leafChapters : Family → List Policy.Chapter
  | address => [.hosts, .networks, .ranges]
  | service => [.ports, .portRanges]

def Family.chapters (family : Family) : List Policy.Chapter :=
  family.leafChapters ++ [Policy.groupChapter family]

namespace Policy

def groupShelf : Family → Shelf Group
  | .address => .groups
  | .service => .portGroups

end Policy

def Inventory.groupStore (inventory : Inventory) (family : Family) : Store Group :=
  (Policy.groupShelf family).read inventory

namespace Policy

variable {inventory other : Inventory} {family : Family} {name : String}

theorem groupChapter_ne {family other : Family} (differ : other ≠ family) :
    groupChapter other ≠ groupChapter family := by
  revert differ
  cases other <;> cases family <;> decide

theorem groupChapter_ne_rules (family : Family) : groupChapter family ≠ .rules := by
  cases family <;> decide

theorem ne_groupChapter_of_mem {chapter : Chapter} {other : Family} (listed : chapter ∈ other.leafChapters) :
    chapter ≠ groupChapter family := by
  rintro rfl
  revert listed
  cases other <;> cases family <;> decide

theorem ne_rules_of_mem {chapter : Chapter} (listed : chapter ∈ family.chapters) : chapter ≠ .rules := by
  rintro rfl
  revert listed
  cases family <;> decide

/-- What a look-up finds in the store of a section. -/
def lookUp (inventory : Inventory) (name : String) (chapter : Chapter) : Option Object :=
  ((inventory.store chapter).find? name).bind chapter.object?

/-- A name is looked up in the stores of the family one after another. -/
theorem find_eq_findSome? (inventory : Inventory) (family : Family) (name : String) :
    inventory.find family name = family.chapters.findSome? (lookUp inventory name) := by
  have mapped {α : Type} (found : Option α) (make : α → Object) :
      found.map make = found.bind fun x => some (make x) := Option.map_eq_bind
  cases family with
  | address =>
    have unfolded : inventory.find .address name = (lookUp inventory name .hosts <|>
        lookUp inventory name .networks <|> lookUp inventory name .ranges <|> lookUp inventory name .groups) := by
      simp only [Inventory.find, Inventory.findAddress, mapped]
      rfl
    rw [unfolded]
    simp only [Family.chapters, Family.leafChapters, groupChapter, List.cons_append, List.nil_append,
      List.findSome?_cons, List.findSome?_nil]
    cases lookUp inventory name .hosts <;> cases lookUp inventory name .networks <;>
      cases lookUp inventory name .ranges <;> cases lookUp inventory name .groups <;> rfl
  | service =>
    have unfolded : inventory.find .service name = (lookUp inventory name .ports <|>
        lookUp inventory name .portRanges <|> lookUp inventory name .portGroups) := by
      simp only [Inventory.find, Inventory.findService, mapped]
      rfl
    rw [unfolded]
    simp only [Family.chapters, Family.leafChapters, groupChapter, List.cons_append, List.nil_append,
      List.findSome?_cons, List.findSome?_nil]
    cases lookUp inventory name .ports <;> cases lookUp inventory name .portRanges <;>
      cases lookUp inventory name .portGroups <;> rfl

theorem groupStore_congr (same : inventory.store (groupChapter family) = other.store (groupChapter family)) :
    inventory.groupStore family = other.groupStore family := by
  cases family <;> exact same

theorem lookUp_groupChapter :
    lookUp inventory name (groupChapter family) =
      ((inventory.groupStore family).values.find? (·.name = name)).map .group := by
  have named (store : Store Group) :
      (store.find? name).bind (fun g => some (Object.group g)) =
        (store.values.find? (·.name = name)).map .group := by
    rw [Option.map_eq_bind, Store.find?_eq]
    rfl
  cases family <;> exact named _

/-- A name is looked up among the leaves of the family, and then among its groups. -/
theorem find_eq_or (inventory : Inventory) (family : Family) (name : String) :
    inventory.find family name = (family.leafChapters.findSome? (lookUp inventory name)).or
      (((inventory.groupStore family).values.find? (·.name = name)).map .group) := by
  rw [find_eq_findSome?, Family.chapters, List.findSome?_append, List.findSome?_singleton, lookUp_groupChapter]

theorem findSome?_lookUp_congr {chapters : List Chapter}
    (same : ∀ chapter ∈ chapters, (inventory.store chapter).values = (other.store chapter).values) :
    chapters.findSome? (lookUp inventory name) = chapters.findSome? (lookUp other name) := by
  rw [← List.head?_filterMap, ← List.head?_filterMap]
  refine congrArg List.head? (List.filterMap_congr fun chapter listed => ?_)
  rw [lookUp, lookUp, Store.find?_eq, Store.find?_eq, same chapter listed]

/-- What a look-up finds depends on the stores of the family only. -/
theorem find_congr (same : ∀ chapter ∈ family.chapters, inventory.store chapter = other.store chapter) :
    inventory.find family = other.find family := by
  funext name
  rw [find_eq_findSome?, find_eq_findSome?]
  exact findSome?_lookUp_congr fun chapter listed => congrArg Store.values (same chapter listed)

/-- A look-up finds something just when an object of the name is stored. -/
theorem isSome_find_iff :
    (inventory.find family name).isSome ↔
      ∃ chapter ∈ family.chapters, ∃ x ∈ (inventory.store chapter).values, Stored.name? x = some name := by
  have one (chapter : Chapter) (listed : chapter ∈ family.chapters) : (lookUp inventory name chapter).isSome ↔
      ∃ x ∈ (inventory.store chapter).values, Stored.name? x = some name := by
    have isObject (x : chapter.Content) : (chapter.object? x).isSome := by
      cases chapter with
      | rules => exact absurd rfl (ne_rules_of_mem listed)
      | _ => rfl
    have kept (found : Option chapter.Content) : (found.bind chapter.object?).isSome = found.isSome := by
      cases found <;> simp [isObject]
    rw [lookUp, kept, Store.find?_eq]
    simp
  rw [find_eq_findSome?, List.findSome?_isSome_iff]
  exact exists_congr fun chapter => and_congr_right (one chapter)

/-- How the leaves of a section are extracted: which family they join, what they are called, and what an
entry is read as. -/
structure LeafSection (chapter : Chapter) where
  family : Family
  name : chapter.Content → String
  read : Fields → Extracted chapter.Content
  joins : chapter ∈ family.leafChapters
  named : ∀ x, Stored.name? x = some (name x)
  fails : ∀ fields, FailsWith (LoadError.OfEntry chapter fields) (read fields)

theorem LeafSection.ne_rules {chapter : Chapter} (leaves : LeafSection chapter) : chapter ≠ .rules :=
  ne_rules_of_mem (List.mem_append_left _ leaves.joins)

theorem LeafSection.ne_groupChapter {chapter : Chapter} (leaves : LeafSection chapter) (family : Family) :
    chapter ≠ groupChapter family :=
  ne_groupChapter_of_mem leaves.joins

def Chapter.leafSection? : (chapter : Chapter) → Option (LeafSection chapter)
  | hosts => some ⟨.address, (·.name), host, by decide, fun _ => rfl, fails_host⟩
  | networks => some ⟨.address, (·.name), network, by decide, fun _ => rfl, fails_network⟩
  | ranges => some ⟨.address, (·.name), range, by decide, fun _ => rfl, fails_range⟩
  | ports => some ⟨.service, (·.name), port, by decide, fun _ => rfl, fails_port⟩
  | portRanges => some ⟨.service, (·.name), portRange, by decide, fun _ => rfl, fails_portRange⟩
  | groups | portGroups | rules => none

/-- A section is one of leaves, one of groups, or that of rules. -/
theorem Chapter.leaves_or_groups_or_rules (chapter : Chapter) :
    (∃ leaves, chapter.leafSection? = some leaves) ∨ (∃ family, chapter = groupChapter family) ∨
      chapter = .rules := by
  cases chapter with
  | groups => exact Or.inr (Or.inl ⟨.address, rfl⟩)
  | portGroups => exact Or.inr (Or.inl ⟨.service, rfl⟩)
  | rules => exact Or.inr (Or.inr rfl)
  | _ => exact Or.inl ⟨_, rfl⟩

def Chapter.order : List Chapter :=
  [hosts, networks, ranges, groups, ports, portRanges, portGroups, rules]

def Chapter.Before (chapter later : Chapter) : Prop :=
  [chapter, later].Sublist order

instance (chapter later : Chapter) : Decidable (chapter.Before later) :=
  inferInstanceAs (Decidable ([chapter, later].Sublist _))

theorem Chapter.Before.asymm {chapter later : Chapter} (before : chapter.Before later) :
    ¬ later.Before chapter := by
  revert before
  cases chapter <;> cases later <;> decide

theorem Chapter.Before.ne {chapter later : Chapter} (before : chapter.Before later) : chapter ≠ later := by
  rintro rfl
  exact before.asymm before

section Split

variable {front back : List Chapter} {chapter other : Chapter}

theorem Chapter.before_of_mem_back (split : front ++ chapter :: back = order) (listed : other ∈ back) :
    chapter.Before other := by
  rw [Before, ← split]
  exact ((List.singleton_sublist.mpr listed).cons_cons chapter).trans (List.sublist_append_right _ _)

/-- What stands in front of a section in the order is what is extracted before it. -/
theorem Chapter.mem_front_iff (split : front ++ chapter :: back = order) :
    other ∈ front ↔ other.Before chapter := by
  constructor
  · intro listed
    rw [Before, ← split]
    exact (List.singleton_sublist.mpr listed).append (List.singleton_sublist.mpr List.mem_cons_self)
  · intro before
    have listed : other ∈ front ++ chapter :: back := by
      rw [split]
      cases other <;> decide
    rcases List.mem_append.mp listed with inside | behind
    · exact inside
    · rcases List.mem_cons.mp behind with rfl | later
      · exact absurd rfl before.ne
      · exact absurd before (before_of_mem_back split later).asymm

end Split

/-- Nothing of a family is extracted after its groups. -/
theorem Chapter.notMem_chapters_of_before {family : Family} {later : Chapter}
    (after : (groupChapter family).Before later) : later ∉ family.chapters := by
  revert after
  cases family <;> cases later <;> decide

end Policy

end Rulebase
