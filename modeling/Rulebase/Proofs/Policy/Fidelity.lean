import Rulebase.Proofs.Policy.Labels
import Rulebase.Proofs.Policy.Names

/-!
# What is stored mirrors the policy

A policy that is extracted into an inventory with nothing stored is found there entry by entry: the leaves and the
groups of each section in its order, and the rules by number, those of one number in the order of their section. The
direct members of a group are the stored objects that its entry names, one for each name, and so it is with the sides
of a rule. Whatever can be reached from there is stored, too.
-/

namespace Rulebase

namespace Policy

variable {document fields : Fields} {chapter : Chapter} {family : Family} {inventory : Inventory} {registry : Registry}
  {s m t : Loading} {g h : Group} {x : Object}

theorem stages_append (document : Fields) (front back : List Chapter) :
    stages document (front ++ back) = (do stages document front; stages document back) := by
  induction front with
  | nil => rfl
  | cons chapter rest ih =>
    rw [List.cons_append, stages, stages, ih, bind_assoc]

/-- Some of the sections that are left have been extracted. -/
theorem Progress.run_ok {done rest back : List Chapter} (progress : Progress document s done m)
    (split : done ++ (rest ++ back) = Chapter.order) (ends : Ends (stages document rest) m (.ok ()) t) :
    Progress document s (done ++ rest) t := by
  induction rest generalizing done m with
  | nil =>
    obtain ⟨_, rfl⟩ := ends_pure.mp ends
    rwa [List.append_nil]
  | cons chapter rest ih =>
    obtain ⟨_, n, extracted, later⟩ := ends_ok_bind.mp ends
    rw [List.append_cons]
    exact ih (progress.step split extracted) (by simpa using split) later

/-- The rules come last, and go among those that are stored as if they came behind them. -/
theorem Settled.sorts_rules (settled : Settled s) (ends : Ends (Policy.extract document) s (.ok ()) t) :
    ∃ found made, entries document .rules = .ok found ∧
      List.Forall₂ (RuleOf t.inventory.find t.registry) found made ∧
      ∀ given, Order.SortsStably integerBefore Rule.integer given (s.inventory.store .rules).values →
        Order.SortsStably integerBefore Rule.integer (given ++ made) (t.inventory.store .rules).values := by
  obtain ⟨log, ends⟩ := exists_ends_stages ends
  have order : Chapter.order = Chapter.order.dropLast ++ [.rules] := rfl
  rw [order, stages_append] at ends
  obtain ⟨_, m, front, ends⟩ := ends_ok_bind.mp ends
  obtain ⟨_, n, last, ends⟩ := ends_ok_bind.mp ends
  obtain ⟨_, rfl⟩ := ends_pure.mp ends
  have progress := (Progress.start settled).run_ok order.symm front
  obtain ⟨_, ⟨e, failed, _⟩ | ⟨_, found, made, read, inserts, _, each⟩⟩ :=
    ends_extractRules progress.settled.numbered last
  · cases failed
  · have before := progress.pending .rules (by decide)
    rw [← before]
    exact ⟨found, made, read, each, inserts.sorted⟩

theorem length_objects (registry : Registry) (g : Group) : (registry.objects g).length = registry.count g := by
  simp [Registry.objects, Registry.count, Registry.ownLeaves, Registry.nested, Content.count]

/-- A group has as many direct members as there are names in a field of an entry. -/
def Tallies (chapter : Chapter) (registry : Registry) (fields : Fields) (key : String) (g : Group) : Prop :=
  ∀ names, memberNames chapter fields key = .ok names → registry.count g = names.length

theorem Filled.tallies {find : String → Option Object} {key : String}
    (filled : Filled chapter find registry fields key g) : Tallies chapter registry fields key g := by
  intro names listed
  obtain ⟨_, xs, read, resolved, members⟩ := filled
  cases read.symm.trans listed
  rw [← length_objects, members.length_eq, resolved.length_eq]

/-- The direct members of a group that was filled by name are stored. -/
theorem Filled.stored {key : String} (filled : Filled chapter (inventory.find family) registry fields key g)
    (member : x ∈ registry.objects g) : x ∈ inventory.objects family := by
  obtain ⟨names, xs, _, resolved, members⟩ := filled
  obtain ⟨v, _, found⟩ := exists_of_forall₂ resolved (members.mem_iff.mp member)
  exact (mem_objects_of_find found).1

theorem group_mem_objects : .group g ∈ inventory.objects family ↔ g ∈ (inventory.groupStore family).values := by
  cases family <;> simp [Inventory.objects, Inventory.groupStore, groupShelf, Shelf.groups, Shelf.portGroups]

/-- The inventory refers to stored groups of its families, and what those groups hold directly is stored. -/
structure Closed (inventory : Inventory) (registry : Registry) : Prop where
  joins : ∀ family, ∀ g ∈ (inventory.groupStore family).values, g.family = family
  holds : ∀ g, inventory.Refers g → ∀ x ∈ registry.objects g, x ∈ inventory.objects g.family

/-- What can be reached from a group that a closed inventory refers to is stored. -/
theorem Closed.reaches (closed : Closed inventory registry) (refers : inventory.Refers g)
    (reaches : registry.Reaches g h) : inventory.Refers h ∧ h.family = g.family := by
  induction reaches with
  | refl => exact ⟨refers, rfl⟩
  | @tail k l _ nests ih =>
    obtain ⟨known, family⟩ := ih
    have member : .group l ∈ registry.objects k := List.mem_append_right _ (List.mem_map_of_mem nests)
    have stored := group_mem_objects.mp (closed.holds k known _ member)
    exact ⟨Or.inl ⟨k.family, stored⟩, (closed.joins _ l stored).trans family⟩

/-- What is stored mirrors a policy: the leaf of each entry, in order; the group of each entry, in order, with as many
direct members as the entry has names; the rule of each entry, by number. Nothing that can be reached from a group is
missing from the stores, and no two objects of a family have the same name. -/
structure Mirrors (document : Fields) (t : Loading) : Prop where
  leaves : ∀ chapter leafSection, chapter.leafSection? = some leafSection →
    ∃ found, entries document chapter = .ok found ∧
      List.Forall₂ (fun fields x => leafSection.read fields = .ok x ∧
        requireText chapter fields "name" = .ok (leafSection.name x)) found (t.inventory.store chapter).values
  groups : ∀ family, ∃ found, entries document (groupChapter family) = .ok found ∧
    List.Forall₂ (fun fields g => GroupOf family (t.inventory.find family) t.registry fields g ∧
      Tallies (groupChapter family) t.registry fields "members" g) found (t.inventory.groupStore family).values
  rules : ∃ found made, entries document .rules = .ok found ∧
    List.Forall₂ (fun fields rule => RuleOf t.inventory.find t.registry fields rule ∧
      Tallies .rules t.registry fields "source" rule.source ∧
      Tallies .rules t.registry fields "destination" rule.destination ∧
      Tallies .rules t.registry fields "service" rule.service) found made ∧
    Order.SortsStably integerBefore Rule.integer made (t.inventory.store .rules).values
  closed : ∀ g, t.inventory.Refers g → ∀ h, t.registry.Reaches g h →
    ∀ x ∈ t.registry.objects h, x ∈ t.inventory.objects g.family
  named : t.inventory.Unambiguous

/-- Groups and rules that were filled from the inventory's own look-ups refer to nothing that is not stored. -/
theorem closed_of_filled
    (groups : ∀ family, ∀ g ∈ (inventory.groupStore family).values,
      ∃ fields, GroupOf family (inventory.find family) registry fields g)
    (rules : ∀ rule ∈ inventory.rules.values, ∃ fields, RuleOf inventory.find registry fields rule) :
    Closed inventory registry where
  joins family g stored := by
    obtain ⟨fields, groupOf⟩ := groups family g stored
    exact groupOf.joins
  holds g refers x member := by
    rcases refers with ⟨family, stored⟩ | ⟨rule, stored, isSide⟩
    · obtain ⟨fields, groupOf⟩ := groups family g stored
      rw [groupOf.joins]
      exact groupOf.members.stored member
    · obtain ⟨fields, ruleOf⟩ := rules rule stored
      rcases isSide with rfl | rfl | rfl
      · rw [rule.sourceFamily]
        exact ruleOf.source.stored member
      · rw [rule.destinationFamily]
        exact ruleOf.destination.stored member
      · rw [rule.serviceFamily]
        exact ruleOf.service.stored member

/-- An extraction that does not fail stores every section completely. -/
theorem Settled.complete_of_ok (settled : Settled s) (ends : Ends (Policy.extract document) s (.ok ()) t)
    (chapter : Chapter) : Complete document chapter s.inventory t := by
  rcases settled.extract ends with ⟨_, progress⟩ | ⟨_, _, _, e, _, _, _, failed, _⟩
  · exact progress.complete chapter (by cases chapter <;> decide)
  · cases failed

/-- Where nothing was stored, the leaves of a complete section are those of its entries, by name. -/
theorem Empty.leaves_of_complete {leafSection : LeafSection chapter} (empty : Empty inventory)
    (complete : Complete document chapter inventory t) (given : chapter.leafSection? = some leafSection) :
    ∃ found, entries document chapter = .ok found ∧
      List.Forall₂ (fun fields x => leafSection.read fields = .ok x ∧
        requireText chapter fields "name" = .ok (leafSection.name x)) found (t.inventory.store chapter).values := by
  obtain ⟨xs, read, gains⟩ := complete.leaves leafSection given
  obtain ⟨found, listed, mapped⟩ := bind_eq_ok_iff.mp read
  rw [gains.values_eq, empty chapter, List.nil_append]
  refine ⟨found, listed, (forall₂_of_mapM mapped).imp ?_⟩
  intro fields x read
  exact ⟨read, requireText_leafSection given read⟩

/-- Where nothing was stored, the groups of a complete section are those of its entries. -/
theorem Empty.groups_of_complete (empty : Empty inventory)
    (complete : Complete document (groupChapter family) inventory t) :
    ∃ found, entries document (groupChapter family) = .ok found ∧
      List.Forall₂ (GroupOf family (t.inventory.find family) t.registry) found
        (t.inventory.groupStore family).values := by
  obtain ⟨found, made, read, gains, each⟩ := complete.groups family rfl
  rw [gains.values_eq, empty.groups, List.nil_append]
  exact ⟨found, read, each⟩

def forward : Fields :=
  [(.text "hosts", .list [.mapping [(.text "name", .text "web"), (.text "address", .text "10.0.0.1")]]),
    (.text "groups", .list [
      .mapping [(.text "name", .text "all"), (.text "members", .list [.text "inner", .text "web"])],
      .mapping [(.text "name", .text "inner"), (.text "members", .text "web")]]),
    (.text "ports", .list [.mapping [(.text "name", .text "https"), (.text "port", .int 443)]]),
    (.text "rules", .list [
      .mapping [(.text "number", .int 20), (.text "source", .text "all"), (.text "comment", .text "first")],
      .mapping [(.text "number", .int 10), (.text "service", .text "https")],
      .mapping [(.text "number", .int 20), (.text "destination", .text "inner")]])]

/-- Whatever policy is extracted with success, the inventory mirrors it, if nothing was stored there. -/
theorem extract_mirrors (empty : Empty s.inventory) (ends : Ends (extract document) s (.ok ()) t) :
    Mirrors document t := by
  have complete := empty.settled.complete_of_ok ends
  have groups := fun family => empty.groups_of_complete (complete (groupChapter family))
  obtain ⟨found, made, read, each, sorts⟩ := empty.settled.sorts_rules ends
  have sorted := sorts [] (by rw [empty .rules]; exact .nil _ _)
  have closed : Closed t.inventory t.registry := by
    apply closed_of_filled
    · intro family g stored
      obtain ⟨found, _, each⟩ := groups family
      obtain ⟨fields, _, groupOf⟩ := exists_of_forall₂ each stored
      exact ⟨fields, groupOf⟩
    · intro rule stored
      obtain ⟨fields, _, ruleOf⟩ := exists_of_forall₂ each (sorted.perm.mem_iff.mp stored)
      exact ⟨fields, ruleOf⟩
  constructor
  case leaves =>
    intro chapter leafSection given
    exact empty.leaves_of_complete (complete chapter) given
  case groups =>
    intro family
    obtain ⟨found, read, each⟩ := groups family
    refine ⟨found, read, each.imp ?_⟩
    intro fields g groupOf
    exact ⟨groupOf, groupOf.members.tallies⟩
  case rules =>
    refine ⟨found, made, read, each.imp ?_, sorted⟩
    intro fields rule ruleOf
    exact ⟨ruleOf, ruleOf.source.tallies, ruleOf.destination.tallies, ruleOf.service.tallies⟩
  case closed =>
    intro g refers h reaches x member
    obtain ⟨known, family⟩ := closed.reaches refers reaches
    rw [← family]
    exact closed.holds h known x member
  case named =>
    obtain ⟨log, ran⟩ := exists_ends_stages ends
    exact empty.settled.unambiguous_stages (t := { t with log }) empty.unambiguous ran

theorem extract_mirrors_forward :
    Empty blank.inventory ∧ ∃ t, Ends (extract forward) blank (.ok ()) t ∧
      t.inventory.groups.values.map (fun g => (g.name, (t.registry.objects g).map Object.name)) =
        [("all", ["web", "inner"]), ("inner", ["web"])] ∧
      t.inventory.rules.values.map (fun rule => (rule.integer, rule.comment)) = [(10, ""), (20, "first"), (20, "")] ∧
      Mirrors forward t := by
  have empty : Empty blank.inventory := empty_new "" ""
  have ends : Ends (extract forward) blank (.ok ()) _ := ends_of_eq (by decide +kernel)
  exact ⟨empty, _, ends, by decide +kernel, by decide +kernel, extract_mirrors empty ends⟩

end Policy

end Rulebase
