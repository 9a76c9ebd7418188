import Rulebase.Proofs.Policy.Filling
import Rulebase.Proofs.Policy.Keeping

/-!
# Extracting one section

The extraction of a section changes the store of that section only, and there it keeps what was stored in its
order; the groups made before stay as they were. If it succeeds, the section is stored completely. If it
fails, nothing of a section of groups or rules is stored, and of a section of leaves what stands in front of
the first leaf whose name is taken.
-/

namespace Rulebase

/-- A group is stored, or is a side of a stored rule. -/
def Inventory.Refers (inventory : Inventory) (g : Group) : Prop :=
  (∃ family, g ∈ (inventory.groupStore family).values) ∨
    ∃ rule ∈ inventory.rules.values, g = rule.source ∨ g = rule.destination ∨ g = rule.service

namespace Policy

variable {document : Fields} {chapter : Chapter} {s t : Loading}

def stage (document : Fields) : Chapter → Load Unit
  | .hosts => extractLeaves document .hosts .address .hosts (·.name) host
  | .networks => extractLeaves document .networks .address .networks (·.name) network
  | .ranges => extractLeaves document .ranges .address .ranges (·.name) range
  | .groups => extractGroups document .address .groups
  | .ports => extractLeaves document .ports .service .ports (·.name) port
  | .portRanges => extractLeaves document .portRanges .service .portRanges (·.name) portRange
  | .portGroups => extractGroups document .service .portGroups
  | .rules => do keepAll .rules (← rules document)

theorem stage_leaves {leafSection : LeafSection chapter} (given : chapter.leafSection? = some leafSection) :
    stage document chapter =
      extractLeaves document chapter leafSection.family chapter.shelf leafSection.name leafSection.read := by
  cases chapter <;> cases given <;> rfl

theorem stage_groups (family : Family) :
    stage document (groupChapter family) = extractGroups document family (groupShelf family) := by
  cases family <;> rfl

/-- The groups that the inventory refers to were made, and the rules have integer numbers. -/
structure Settled (s : Loading) : Prop where
  made : ∀ g, s.inventory.Refers g → Made s.registry g
  numbered : Numbered s.inventory

def Empty (inventory : Inventory) : Prop :=
  ∀ chapter, (inventory.store chapter).values = []

theorem empty_new (name sourceFile : String) : Empty { name, sourceFile } := by
  intro chapter
  cases chapter <;> rfl

theorem Empty.groups {inventory : Inventory} (empty : Empty inventory) (family : Family) :
    (inventory.groupStore family).values = [] := by
  cases family with
  | address => exact empty .groups
  | service => exact empty .portGroups

theorem Empty.settled (empty : Empty s.inventory) : Settled s := by
  constructor
  · rintro g (⟨family, stored⟩ | ⟨rule, stored, _⟩)
    · rw [empty.groups] at stored
      cases stored
    · have none_stored : s.inventory.rules.values = [] := empty .rules
      rw [none_stored] at stored
      cases stored
  · intro rule stored
    rw [empty .rules] at stored
    cases stored

/-- Only one store has changed, where the old entries keep their order, and groups made before are as they
were. -/
structure Advances (chapter : Chapter) (s t : Loading) : Prop where
  elsewhere : ∀ other, other ≠ chapter → t.inventory.store other = s.inventory.store other
  order : (s.inventory.store chapter).entries.Sublist (t.inventory.store chapter).entries
  spares : s.registry.Spares s.registry.size t.registry
  settled : Settled t

/-- A section is stored completely: one leaf for each entry, the group of each entry with the members that its
names stand for, or the rule of each entry with such groups. -/
structure Complete (document : Fields) (chapter : Chapter) (before : Inventory) (after : Loading) : Prop where
  leaves : ∀ leafSection, chapter.leafSection? = some leafSection →
    ∃ xs, leaves document chapter leafSection.read = .ok xs ∧
      (before.store chapter).Gains (after.inventory.store chapter) xs
  groups : ∀ family, chapter = groupChapter family →
    ∃ found made, entries document chapter = .ok found ∧
      (before.groupStore family).Gains (after.inventory.groupStore family) made ∧
      List.Forall₂ (GroupOf family (after.inventory.find family) after.registry) found made
  rules : chapter = .rules → ∃ found made, entries document .rules = .ok found ∧
    (after.inventory.store .rules).values.Perm (made ++ (before.store .rules).values) ∧
      List.Forall₂ (RuleOf after.inventory.find after.registry) found made

/-- A section is given up: nothing of it is stored, except for the leaves in front of the first one whose name
is taken in the inventory that the section came upon. -/
structure Stops (document : Fields) (chapter : Chapter) (before upon after : Inventory) : Prop where
  leaves : ∀ leafSection, chapter.leafSection? = some leafSection →
    (∃ e, leaves document chapter leafSection.read = .error e) ∧ after.store chapter = before.store chapter ∨
      ∃ kept x rest, leaves document chapter leafSection.read = .ok (kept ++ x :: rest) ∧
        (before.store chapter).Gains (after.store chapter) kept ∧
        (∀ front y back, kept = front ++ y :: back → ¬ Taken upon leafSection front y) ∧
        Taken upon leafSection kept x
  others : chapter.leafSection? = none → after.store chapter = before.store chapter

/-- What is stored new has groups that were made, and rules with integer numbers. -/
theorem Settled.grow (settled : Settled s) (size_le : s.registry.size ≤ t.registry.size)
    (groups : ∀ family, ∀ g ∈ (t.inventory.groupStore family).values,
      g ∈ (s.inventory.groupStore family).values ∨ Made t.registry g)
    (rules : ∀ rule ∈ (t.inventory.store .rules).values,
      rule ∈ (s.inventory.store .rules).values ∨ RuleMade t.registry rule ∧ Rule.IsNumbered rule) :
    Settled t where
  made g refers := by
    have old (g : Group) (refers : s.inventory.Refers g) : Made t.registry g :=
      Nat.le_trans (settled.made g refers) size_le
    rcases refers with ⟨family, stored⟩ | ⟨rule, stored, isSide⟩
    · rcases groups family g stored with before | made
      · exact old g (Or.inl ⟨family, before⟩)
      · exact made
    · rcases rules rule stored with before | ⟨⟨source, destination, service⟩, _⟩
      · exact old g (Or.inr ⟨rule, before, isSide⟩)
      · rcases isSide with rfl | rfl | rfl
        · exact source
        · exact destination
        · exact service
  numbered rule stored := by
    rcases rules rule stored with before | ⟨_, numbered⟩
    · exact settled.numbered rule before
    · exact numbered

section Leaves

variable {leafSection : LeafSection chapter}

theorem ends_extractLeaves {outcome : Extracted Unit}
    (ends : Ends (extractLeaves document chapter leafSection.family chapter.shelf leafSection.name leafSection.read)
      s outcome t) :
    (∃ e, leaves document chapter leafSection.read = .error e ∧ outcome = .error e ∧ t = s) ∨
      ∃ kept rest, leaves document chapter leafSection.read = .ok (kept ++ rest) ∧ t.registry = s.registry ∧
        Appends chapter kept s.inventory t.inventory ∧
        (∀ front y back, kept = front ++ y :: back → ¬ Taken s.inventory leafSection front y) ∧
        (rest = [] ∧ outcome = .ok () ∨
          ∃ x more, rest = x :: more ∧ Taken s.inventory leafSection kept x ∧
            outcome = .error (.defect chapter (.taken (leafSection.name x)))) := by
  rw [extractLeaves, ends_extracted_bind] at ends
  rcases ends with failed | ⟨xs, read, ends⟩
  · exact Or.inl failed
  · obtain ⟨kept, rest, rfl, found⟩ := ends_keepUnique leafSection ends
    exact Or.inr ⟨kept, rest, read, found⟩

end Leaves

/-- New groups under names that were free are found by name like groups in the making. -/
theorem find_eq_findAmong {family : Family} {made : List Group} {before after : Inventory}
    (gains : (before.groupStore family).Gains (after.groupStore family) made)
    (elsewhere : ∀ other, other ≠ groupChapter family → after.store other = before.store other)
    (free : ∀ g ∈ made, before.find family g.name = none) :
    after.find family = findAmong made (before.find family) := by
  funext name
  have leaves : family.leafChapters.findSome? (lookUp after name) =
      family.leafChapters.findSome? (lookUp before name) := by
    exact findSome?_lookUp_congr fun chapter listed =>
      congrArg Store.values (elsewhere chapter (ne_groupChapter_of_mem listed))
  have joined : after.find family name =
      (before.find family name).or ((made.find? (·.name = name)).map .group) := by
    rw [find_eq_or, find_eq_or, leaves, gains.values_eq, List.find?_append, Option.map_or, Option.or_assoc]
  rw [joined, findAmong]
  cases found : made.find? (·.name = name) with
  | none => simp
  | some g =>
    have named : g.name = name := by simpa using List.find?_some found
    rw [← named, free g (List.mem_of_find?_eq_some found)]
    rfl

theorem ends_keepGroups {family : Family} {made : List Group} {outcome : Extracted Unit}
    (ends : Ends (keepAll (groupShelf family) made) s outcome t) :
    outcome = .ok () ∧ t.registry = s.registry ∧
      (s.inventory.groupStore family).Gains (t.inventory.groupStore family) made ∧
      ∀ other, other ≠ groupChapter family → t.inventory.store other = s.inventory.store other := by
  cases family with
  | address =>
    have other : Chapter.groups ≠ .rules := by decide
    have ends : Ends (keepAll (Chapter.shelf .groups) made) s outcome t := ends
    obtain ⟨ended, same, appends⟩ := ends_keepAll_of_ne_rules other ends
    exact ⟨ended, same, appends.here, appends.elsewhere⟩
  | service =>
    have other : Chapter.portGroups ≠ .rules := by decide
    have ends : Ends (keepAll (Chapter.shelf .portGroups) made) s outcome t := ends
    obtain ⟨ended, same, appends⟩ := ends_keepAll_of_ne_rules other ends
    exact ⟨ended, same, appends.here, appends.elsewhere⟩

/-- Extracting a section of groups fails before anything is stored, or stores the group of each entry. -/
theorem ends_extractGroups {family : Family} {outcome : Extracted Unit}
    (ends : Ends (extractGroups document family (groupShelf family)) s outcome t) :
    s.registry.Spares s.registry.size t.registry ∧
      (∀ other, other ≠ groupChapter family → t.inventory.store other = s.inventory.store other) ∧
      ((∃ e, outcome = .error e ∧ LoadError.OfSection (groupChapter family) document e ∧
          t.inventory = s.inventory) ∨
        outcome = .ok () ∧ ∃ found made, entries document (groupChapter family) = .ok found ∧
          (s.inventory.groupStore family).Gains (t.inventory.groupStore family) made ∧
          (∀ g ∈ made, Made t.registry g) ∧ NewNames (s.inventory.find family) made ∧
          List.Forall₂ (GroupOf family (t.inventory.find family) t.registry) found made) := by
  have builds : Builds s.registry.size _ (Legible document) _ _ := .groups family (·.writable)
  rcases builds.ends_bind ends with ⟨e, rfl, known, same, spares⟩ | ⟨made, m, extracted, same, spares, ends⟩
  · exact ⟨spares, fun _ _ => by rw [same], Or.inl ⟨e, rfl, known.mono id fun _ _ => False.elim, same⟩⟩
  · obtain ⟨found, read, each, numbers, names⟩ := ends_groups_ok extracted
    obtain ⟨rfl, registry, gains, elsewhere⟩ := ends_keepGroups ends
    rw [same] at gains elsewhere
    refine ⟨registry ▸ spares, elsewhere, Or.inr ⟨rfl, found, made, read, gains, ?_, names, ?_⟩⟩
    · exact registry ▸ numbers
    · rwa [registry, find_eq_findAmong gains elsewhere names.free]

/-- Extracting the rules fails before anything is stored, or stores the rule of each entry. -/
theorem ends_extractRules {outcome : Extracted Unit} (numbered : Numbered s.inventory)
    (ends : Ends (stage document .rules) s outcome t) :
    s.registry.Spares s.registry.size t.registry ∧
      ((∃ e, outcome = .error e ∧ LoadError.OfSection .rules document e ∧ t.inventory = s.inventory) ∨
        outcome = .ok () ∧ ∃ found made, entries document .rules = .ok found ∧
          Inserts made s.inventory t.inventory ∧ (∀ rule ∈ made, RuleMade t.registry rule) ∧
          List.Forall₂ (RuleOf t.inventory.find t.registry) found made) := by
  have builds : Builds s.registry.size _ (Legible document) _ _ := .rules (·.writable)
  rcases builds.ends_bind ends with ⟨e, rfl, known, same, spares⟩ | ⟨made, m, extracted, same, spares, ends⟩
  · exact ⟨spares, Or.inl ⟨e, rfl, known.mono id fun _ _ => False.elim, same⟩⟩
  · obtain ⟨found, read, each, numbers⟩ := ends_rules_ok extracted
    obtain ⟨rfl, registry, inserts⟩ := ends_keepAll_rules (forall_isNumbered each) (same ▸ numbered) ends
    rw [same] at inserts
    have names : t.inventory.find = s.inventory.find := by
      funext family
      exact find_congr fun other listed => inserts.elsewhere other (ne_rules_of_mem listed)
    refine ⟨registry ▸ spares, Or.inr ⟨rfl, found, made, read, inserts, registry ▸ numbers, ?_⟩⟩
    rwa [names, registry]

theorem Settled.advances_of_inventory_eq (settled : Settled s) (same : t.inventory = s.inventory)
    (spares : s.registry.Spares s.registry.size t.registry) : Advances chapter s t where
  elsewhere _ _ := by rw [same]
  order := by rw [same]
  spares := spares
  settled := settled.grow spares.size_le (fun _ _ stored => Or.inl (same ▸ stored)) fun _ stored =>
    Or.inl (same ▸ stored)

/-- Whatever its outcome, the extraction of a section advances the store of that section only. -/
theorem Settled.advances (settled : Settled s) {outcome : Extracted Unit}
    (ends : Ends (stage document chapter) s outcome t) : Advances chapter s t := by
  rcases chapter.leaves_or_groups_or_rules with ⟨leafSection, given⟩ | ⟨family, rfl⟩ | rfl
  · rw [stage_leaves given] at ends
    rcases ends_extractLeaves ends with ⟨e, _, _, rfl⟩ | ⟨kept, rest, _, registry, appends, _⟩
    · exact settled.advances_of_inventory_eq rfl (.refl _ _)
    · have spares : s.registry.Spares s.registry.size t.registry := registry ▸ .refl _ _
      refine ⟨appends.elsewhere, appends.here.sublist, spares, settled.grow spares.size_le ?_ ?_⟩
      · intro family g stored
        have same := groupStore_congr (appends.elsewhere _ (leafSection.ne_groupChapter family).symm)
        exact Or.inl (same ▸ stored)
      · intro rule stored
        exact Or.inl (appends.elsewhere _ leafSection.ne_rules.symm ▸ stored)
  · rw [stage_groups] at ends
    obtain ⟨spares, elsewhere, ⟨e, _, _, same⟩ | ⟨_, found, made, _, gains, numbers, _, _⟩⟩ := ends_extractGroups ends
    · exact settled.advances_of_inventory_eq same spares
    · refine ⟨elsewhere, ?_, spares, settled.grow spares.size_le ?_ ?_⟩
      · cases family <;> exact gains.sublist
      · intro other g stored
        by_cases same : other = family
        · subst same
          rw [gains.values_eq] at stored
          exact (List.mem_append.mp stored).imp_right (numbers g)
        · exact Or.inl (groupStore_congr (elsewhere _ (groupChapter_ne same)) ▸ stored)
      · intro rule stored
        exact Or.inl (elsewhere _ (groupChapter_ne_rules family).symm ▸ stored)
  · obtain ⟨spares, ⟨e, _, _, same⟩ | ⟨_, found, made, _, inserts, numbers, each⟩⟩ :=
      ends_extractRules settled.numbered ends
    · exact settled.advances_of_inventory_eq same spares
    · refine ⟨inserts.elsewhere, inserts.order, spares, settled.grow spares.size_le ?_ ?_⟩
      · intro family g stored
        exact Or.inl (groupStore_congr (inserts.elsewhere _ (groupChapter_ne_rules family)) ▸ stored)
      · intro rule stored
        exact (List.mem_append.mp (inserts.here.mem_iff.mp stored)).symm.imp_right fun new =>
          ⟨numbers rule new, forall_isNumbered each rule new⟩

/-- A section that is extracted without a failure is stored completely. -/
theorem Settled.complete (settled : Settled s) (ends : Ends (stage document chapter) s (.ok ()) t) :
    Complete document chapter s.inventory t where
  leaves leafSection given := by
    rw [stage_leaves given] at ends
    rcases ends_extractLeaves ends with ⟨e, _, failed, _⟩ | ⟨kept, rest, read, _, appends, _, ended⟩
    · cases failed
    · rcases ended with ⟨rfl, _⟩ | ⟨x, more, _, _, failed⟩
      · exact ⟨kept, by simpa using read, appends.here⟩
      · cases failed
  groups family same := by
    subst same
    rw [stage_groups] at ends
    obtain ⟨_, _, ⟨e, failed, _⟩ | ⟨_, found, made, read, gains, _, _, each⟩⟩ := ends_extractGroups ends
    · cases failed
    · exact ⟨found, made, read, gains, each⟩
  rules same := by
    subst same
    obtain ⟨_, ⟨e, failed, _⟩ | ⟨_, found, made, read, inserts, _, each⟩⟩ := ends_extractRules settled.numbered ends
    · cases failed
    · exact ⟨found, made, read, inserts.here, each⟩

/-- A section that fails does so with a defect of its own or a numeral, and is given up. -/
theorem Settled.stops (settled : Settled s) {e : LoadError} (ends : Ends (stage document chapter) s (.error e) t) :
    LoadError.OfSection chapter document e ∧ Stops document chapter s.inventory s.inventory t.inventory := by
  rcases chapter.leaves_or_groups_or_rules with ⟨leafSection, given⟩ | ⟨family, rfl⟩ | rfl
  · rw [stage_leaves given] at ends
    have only (other : LeafSection chapter) (listed : chapter.leafSection? = some other) : other = leafSection := by
      simpa [given, eq_comm] using listed
    rcases ends_extractLeaves ends with ⟨e, failed, same, rfl⟩ | ⟨kept, rest, read, _, appends, free, ended⟩
    · cases same
      refine ⟨fails_leaves leafSection.fails e failed, fun other listed => ?_, by simp [given]⟩
      obtain rfl := only other listed
      exact Or.inl ⟨⟨e, failed⟩, rfl⟩
    · rcases ended with ⟨_, passed⟩ | ⟨x, more, rfl, taken, failed⟩
      · cases passed
      · cases failed
        refine ⟨.defect _, fun other listed => ?_, by simp [given]⟩
        obtain rfl := only other listed
        exact Or.inr ⟨kept, x, more, read, appends.here, free, taken⟩
  · rw [stage_groups] at ends
    obtain ⟨_, _, ⟨e, failed, known, same⟩ | ⟨passed, _⟩⟩ := ends_extractGroups ends
    · cases failed
      refine ⟨known, fun other listed => ?_, fun _ => by rw [same]⟩
      exact absurd rfl (other.ne_groupChapter family)
    · cases passed
  · obtain ⟨_, ⟨e, failed, known, same⟩ | ⟨passed, _⟩⟩ := ends_extractRules settled.numbered ends
    · cases failed
      exact ⟨known, fun other listed => absurd rfl other.ne_rules, fun _ => by rw [same]⟩
    · cases passed

end Policy

end Rulebase
