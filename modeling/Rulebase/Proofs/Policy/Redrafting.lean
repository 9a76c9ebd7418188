import Rulebase.Proofs.Policy.Drafting
import Rulebase.Proofs.Policy.Fidelity

/-!
# A section of groups in another order

The same entries in another order ask for the same groups, each with the same objects, only that the groups are made in
another order. So what the section is in one order can be carried out in the other, too, unless a group is refused an
object that overlaps.
-/

namespace Rulebase

namespace Policy

variable {s t : Loading} {family : Family} {find find' : String → Option Object} {names : List Value}
  {xs xs' : List Object} {made made' : List Group}

/-- Under names that stand for related objects, related objects are found. -/
theorem Reads.exists_related {R : Object → Object → Prop} (found : ∀ name, Option.Rel R (find name) (find' name))
    (reads : Reads find names xs) : ∃ xs', Reads find' names xs' ∧ List.Forall₂ R xs xs' := by
  induction reads with
  | nil => exact ⟨[], .nil, .nil⟩
  | @cons v x _ _ head _ ih =>
    obtain ⟨name, shown, here⟩ := head
    obtain ⟨rest', reads', related⟩ := ih
    have pair := found name
    rw [here] at pair
    generalize there : find' name = other at pair
    cases pair with
    | some level => exact ⟨_, .cons ⟨name, shown, there⟩ reads', .cons level related⟩

theorem Reads.unique (left : Reads find names xs) (right : Reads find names xs') : xs = xs' := by
  induction left generalizing xs' with
  | nil =>
    cases right
    rfl
  | cons head _ ih =>
    cases right with
    | cons head' tail' =>
      obtain ⟨name, shown, here⟩ := head
      obtain ⟨name', shown', here'⟩ := head'
      cases shown.symm.trans shown'
      cases here.symm.trans here'
      rw [ih tail']

/-- Among groups of the same names, those that are found by one name are of that name. -/
theorem rel_find?_name {R : Group → Group → Prop}
    (level : ∀ g ∈ made, ∀ g' ∈ made', g.name = g'.name → R g g')
    (same : ∀ name, name ∈ made.map (·.name) ↔ name ∈ made'.map (·.name)) (name : String) :
    Option.Rel R (made.find? (·.name = name)) (made'.find? (·.name = name)) := by
  cases left : made.find? (·.name = name) with
  | none =>
    have absent : name ∉ made.map (·.name) := by simpa using left
    have absent' : made'.find? (·.name = name) = none := by simpa using fun listed => absent ((same name).mpr listed)
    rw [absent']
    exact .none
  | some g =>
    have listed := List.mem_of_find?_eq_some left
    have named : g.name = name := by simpa using List.find?_some left
    cases right : made'.find? (·.name = name) with
    | none =>
      have absent : name ∉ made'.map (·.name) := by simpa using right
      exact absurd ((same name).mp (named ▸ List.mem_map_of_mem listed)) absent
    | some g' =>
      have named' : g'.name = name := by simpa using List.find?_some right
      exact .some (level g listed g' (List.mem_of_find?_eq_some right) (named.trans named'.symm))

/-- Related objects are found where the groups in the making are related, and what is stored is. -/
theorem rel_findAmong {R : Group → Group → Prop} {name : String}
    (among : Option.Rel R (made.find? (·.name = name)) (made'.find? (·.name = name)))
    (stored : Option.Rel (Registry.Related R) (find name) (find' name)) :
    Option.Rel (Registry.Related R) (findAmong made find name) (findAmong made' find' name) := by
  unfold findAmong
  generalize made.find? (·.name = name) = left at among ⊢
  generalize made'.find? (·.name = name) = right at among ⊢
  cases among with
  | some level => exact .some (.group level)
  | none => exact stored

/-- Where no groups of a family are stored, only leaves are found. -/
theorem exists_leaf_of_find {inventory : Inventory} (none_stored : (inventory.groupStore family).values = [])
    {name : String} {x : Object} (found : inventory.find family name = some x) : ∃ y, x = .leaf y := by
  cases x with
  | leaf y => exact ⟨y, rfl⟩
  | group g =>
    have stored := group_mem_objects.mp (mem_objects_of_find found).1
    rw [none_stored] at stored
    cases stored

/-- The group of an entry has the label that the entry gives, and the objects it is to be given are those that the
names in the entry stand for. -/
def Row (family : Family) (find : String → Option Object) (fields : Fields) (entry : Group × List Object) : Prop :=
  Labels family fields entry.1.toLabel ∧
    ∃ names, memberNames (groupChapter family) fields "members" = .ok names ∧ Reads find names entry.2

theorem Labels.unique {fields : Fields} {given given' : Label} (left : Labels family fields given)
    (right : Labels family fields given') : given = given' := by
  have named : given.name = given'.name := Except.ok.inj (left.1.symm.trans right.1)
  have labelled := left.2
  rw [named] at labelled
  exact Except.ok.inj (labelled.symm.trans right.2)

/-- Rows of the same fields are alike, where names stand for related objects. -/
theorem Row.alike {fields : Fields} {plan plan' : Plan} {entry entry' : Group × List Object}
    (found : ∀ name, Option.Rel (Registry.Related (Namesakes plan plan')) (find name) (find' name))
    (left : Row family find fields entry) (right : Row family find' fields entry') : Alike plan plan' entry entry' := by
  obtain ⟨labelled, names, listed, reads⟩ := left
  obtain ⟨labelled', names', listed', reads'⟩ := right
  cases listed.symm.trans listed'
  obtain ⟨xs', others, related⟩ := reads.exists_related found
  rw [others.unique reads'] at related
  exact ⟨congrArg (·.name) (labelled.unique labelled'), related⟩

namespace Draft

variable {document document' : Fields} {found found' : List Fields} {labels labels' : List Label} {plan plan' : Plan}
  {entry : Group × List Object} {fields : Fields} {g : Group}

theorem length_eq (draft : Draft document family s found labels plan) :
    found.length = (Registry.createAll family s.registry labels).1.length := by
  rw [draft.labelled.length_eq, ← List.length_map Group.toLabel, Registry.map_toLabel_createAll]

theorem map_fst (draft : Draft document family s found labels plan) :
    plan.map Prod.fst = (Registry.createAll family s.registry labels).1 := by
  have planned := draft.planned.imp fun _ _ row => row.1
  calc plan.map Prod.fst
      = (found.zip (Registry.createAll family s.registry labels).1).map Prod.snd := by
        rw [← List.forall₂_eq_eq_eq, List.forall₂_map_left_iff, List.forall₂_map_right_iff]
        exact planned.flip
    _ = (Registry.createAll family s.registry labels).1 := List.map_snd_zip draft.length_eq.ge

theorem rows (draft : Draft document family s found labels plan) :
    List.Forall₂ (Row family (findAmong (Registry.createAll family s.registry labels).1 (s.inventory.find family)))
      found plan := by
  have labelled := draft.labelled
  rw [← Registry.map_toLabel_createAll family s.registry labels, List.forall₂_map_right_iff] at labelled
  have planned := draft.planned
  generalize (Registry.createAll family s.registry labels).1 = made at labelled planned ⊢
  generalize findAmong made (s.inventory.find family) = find at planned ⊢
  clear draft
  induction labelled generalizing plan with
  | nil =>
    cases planned
    exact .nil
  | cons head _ ih =>
    cases planned with
    | cons first rest => exact .cons ⟨first.1 ▸ head, first.2⟩ (ih rest)

theorem map_name (draft : Draft document family s found labels plan) :
    plan.map (·.1.name) = labels.map (·.name) := by
  rw [← Registry.map_name_createAll family s.registry labels, ← draft.map_fst, List.map_map]
  rfl

theorem map_serial (draft : Draft document family s found labels plan) :
    plan.map (·.1.serial) = List.range' (s.registry.size + 1) labels.length := by
  rw [← Registry.map_serial_createAll family s.registry labels, ← draft.map_fst, List.map_map]
  rfl

end Draft

section Made

variable {R : Group → Group → Prop} {labels labels' : List Label}

/-- Under some labels in two orders, groups of the same names are made. -/
theorem rel_find?_createAll (perm : labels'.Perm labels)
    (level : ∀ g ∈ (Registry.createAll family s.registry labels).1,
      ∀ g' ∈ (Registry.createAll family s.registry labels').1, g.name = g'.name → R g g') (name : String) :
    Option.Rel R ((Registry.createAll family s.registry labels).1.find? (·.name = name))
      ((Registry.createAll family s.registry labels').1.find? (·.name = name)) := by
  refine rel_find?_name level (fun name => ?_) name
  rw [Registry.map_name_createAll, Registry.map_name_createAll]
  exact (perm.map _).mem_iff.symm

/-- With them in the making, names stand for the same leaves or for groups of one name. -/
theorem rel_find_createAll (perm : labels'.Perm labels) (none_stored : (s.inventory.groupStore family).values = [])
    (level : ∀ g ∈ (Registry.createAll family s.registry labels).1,
      ∀ g' ∈ (Registry.createAll family s.registry labels').1, g.name = g'.name → R g g') (name : String) :
    Option.Rel (Registry.Related R)
      (findAmong (Registry.createAll family s.registry labels).1 (s.inventory.find family) name)
      (findAmong (Registry.createAll family s.registry labels').1 (s.inventory.find family) name) := by
  refine rel_findAmong (rel_find?_createAll perm level name) ?_
  cases found : s.inventory.find family name with
  | none => exact .none
  | some x =>
    obtain ⟨y, rfl⟩ := exists_leaf_of_find none_stored found
    exact .some (.leaf y)

end Made

namespace Draft

variable {document document' : Fields} {found found' : List Fields} {labels labels' : List Label} {plan plan' : Plan}
  {groups : List Group}

/-- The same entries in another order have a draft, too. -/
theorem exists_of_perm (draft : Draft document family s found labels plan)
    (none_stored : (s.inventory.groupStore family).values = [])
    (read' : entries document' (groupChapter family) = .ok found') (perm : found'.Perm found) :
    ∃ labels' plan', labels'.Perm labels ∧ Draft document' family s found' labels' plan' := by
  obtain ⟨labels', labelled', perm'⟩ := List.perm_comp_forall₂ perm draft.labelled
  have each : ∀ pair ∈ found'.zip (Registry.createAll family s.registry labels').1, ∃ entry,
      Plans (groupChapter family) (findAmong (Registry.createAll family s.registry labels').1 (s.inventory.find family))
        pair entry := by
    rintro ⟨fields, g⟩ listed
    obtain ⟨entry, _, _, names, known, reads⟩ :=
      exists_of_forall₂ draft.rows.flip (perm.mem_iff.mp (List.of_mem_zip listed).1)
    obtain ⟨xs', reads', _⟩ := reads.exists_related
      (rel_find_createAll (R := fun _ _ => True) perm' none_stored fun _ _ _ _ _ => trivial)
    exact ⟨(g, xs'), rfl, names, known, reads'⟩
  obtain ⟨plan', planned'⟩ := exists_forall₂ each
  refine ⟨labels', plan', perm', read', labelled', fun given listed => draft.free given (perm'.mem_iff.mp listed), ?_,
    planned'⟩
  exact (perm'.map _).nodup_iff.mpr draft.distinct

/-- Where no groups of the family are stored, the plan is one for groups that hold nothing. -/
theorem heapPlans (draft : Draft document family s found labels plan)
    (none_stored : (s.inventory.groupStore family).values = [])
    (reachable : Heap.Reachable { registry := s.registry, groups }) :
    (Heap.createAll { registry := s.registry, groups } family labels).Plans family plan := by
  have made {entry} (listed : entry ∈ plan) : entry.1 ∈ (Registry.createAll family s.registry labels).1 :=
    draft.map_fst ▸ List.mem_map_of_mem listed
  have closed := reachable.sound.toClosed
  constructor
  case made => exact fun entry listed => List.mem_append_right _ (made listed)
  case kin => exact fun entry listed => Registry.family_of_mem_createAll (made listed)
  case empty =>
    intro entry listed
    rw [Heap.createAll, Registry.content_createAll]
    exact Registry.content_eq_empty (Registry.not_registered_of_mem_createAll (made listed))
  case closed =>
    intro entry listed g member
    obtain ⟨fields, _, _, names, _, reads⟩ := exists_of_forall₂ draft.rows listed
    obtain ⟨v, _, name, _, found⟩ := exists_of_forall₂ reads member
    rw [draft.map_fst]
    -- what is found and is not in the making is a leaf
    rw [findAmong, Option.orElse_eq_orElse, Option.orElse_eq_or] at found
    rcases Option.or_eq_some_iff.mp found with among | ⟨_, stored⟩
    · obtain ⟨_, here, ⟨⟩⟩ := Option.map_eq_some_iff.mp among
      exact List.mem_of_find?_eq_some here
    · obtain ⟨y, isLeaf⟩ := exists_leaf_of_find none_stored stored
      cases isLeaf
  case apart => exact draft.map_name ▸ draft.distinct
  case fresh =>
    intro g k nested entry listed same
    rw [Heap.createAll, Registry.nested_createAll] at nested
    have registered : k.serial ∈ s.registry.serials := closed.registered (closed.mem_of_nested nested)
    exact Registry.not_registered_of_mem_createAll (made listed) (same ▸ registered)

theorem namesakes (draft : Draft document family s found labels plan)
    (draft' : Draft document' family s found' labels' plan') :
    ∀ g ∈ (Registry.createAll family s.registry labels).1, ∀ g' ∈ (Registry.createAll family s.registry labels').1,
      g.name = g'.name → Namesakes plan plan' g g' :=
  fun _ made _ made' same => ⟨draft.map_fst ▸ made, draft'.map_fst ▸ made', same⟩

theorem replans (draft : Draft document family s found labels plan)
    (draft' : Draft document' family s found' labels' plan') (perm : found'.Perm found) (perm' : labels'.Perm labels)
    (none_stored : (s.inventory.groupStore family).values = [])
    (reachable : Heap.Reachable { registry := s.registry, groups }) :
    Heap.Replans family (Heap.createAll { registry := s.registry, groups } family labels)
      (Heap.createAll { registry := s.registry, groups } family labels') plan plan' := by
  have named := rel_find_createAll perm' none_stored (draft.namesakes draft')
  constructor
  case first => exact draft.heapPlans none_stored reachable
  case second => exact draft'.heapPlans none_stored reachable
  case reachable => exact reachable.createAll family labels
  case reachable' => exact reachable.createAll family labels'
  case registry => exact Registry.createAll_registry_congr perm'.length_eq
  case serials =>
    intro n
    rw [draft.map_serial, draft'.map_serial, perm'.length_eq]
  case forth =>
    intro entry listed
    obtain ⟨fields, inside, row⟩ := exists_of_forall₂ draft.rows listed
    obtain ⟨entry', listed', row'⟩ := exists_of_forall₂ draft'.rows.flip (perm.mem_iff.mpr inside)
    exact ⟨entry', listed', Row.alike named row row'⟩
  case back =>
    intro entry' listed'
    obtain ⟨fields, inside, row'⟩ := exists_of_forall₂ draft'.rows listed'
    obtain ⟨entry, listed, row⟩ := exists_of_forall₂ draft.rows.flip (perm.mem_iff.mp inside)
    exact ⟨entry, listed, Row.alike named row row'⟩

end Draft

end Policy

end Rulebase
