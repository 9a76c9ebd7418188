import Rulebase.Proofs.Policy.Twin

/-!
# A policy with a section of groups rearranged

A policy that is extracted into an inventory with nothing stored is extracted as well when the entries of a section of
groups stand in another order, and every group has the same direct members then, unless some group is refused an object
as one that it has already. This comes about only where a group is to hold an object directly next to a group that has
it, too: whether it is refused depends on which of the two groups was filled first.
-/

namespace Rulebase

/-- What can be said of a group by name: its own name, the leaves that it directly holds, each list in its order, and
the names of the groups nested directly in it. -/
def Registry.roster (registry : Registry) (g : Group) : String × (Kind → List Leaf) × List String :=
  (g.name, (registry.content g).leaves, (registry.nested g).map (·.name))

section Spared

variable {registry after : Registry} {g : Group} {x : Object}

theorem Registry.Holds.serial_le (held : registry.Holds g x) : g.serial ≤ registry.size := by
  by_contra beyond
  have unregistered : g.serial ∉ registry.serials := by
    rw [Registry.serials, List.mem_range'_1]
    omega
  have empty := Registry.content_eq_empty unregistered
  cases x with
  | leaf y =>
    rw [Registry.Holds, empty] at held
    cases held
  | group h =>
    rw [Registry.Holds, Registry.nested, empty] at held
    cases held

/-- What a group holds it holds still when the groups made so far are left alone. -/
theorem Registry.Holds.spared (held : registry.Holds g x) (spares : registry.Spares registry.size after) :
    after.Holds g x := by
  have same := spares.content_eq g held.serial_le
  cases x with
  | leaf y =>
    rw [Registry.Holds, same]
    exact held
  | group h =>
    rw [Registry.Holds, Registry.nested, same]
    exact held

theorem Registry.Overlaps.spared (overlaps : registry.Overlaps g x) (spares : registry.Spares registry.size after) :
    after.Overlaps g x := by
  obtain ⟨held, k, m, below, holds, clash⟩ := overlaps
  refine ⟨held.spared spares, k, m, ?_, holds.spared spares, clash⟩
  exact Relation.TransGen.mono (fun _ b nests => Registry.Holds.spared (x := .group b) nests spares) _ _ below

end Spared

namespace Policy

variable {R : Group → Group → Prop} {document document' : Fields} {chapter : Chapter} {family : Family}
  {s t t' m : Loading}

/-- One policy is another one with the entries of a section in another order. -/
structure Rearranges (chapter : Chapter) (document document' : Fields) : Prop where
  here : ∃ items items', field document chapter.key = .list items ∧ field document' chapter.key = .list items' ∧
    items'.Perm items
  elsewhere : ∀ other, other ≠ chapter → field document' other.key = field document other.key

theorem Rearranges.symm (rearranges : Rearranges chapter document document') :
    Rearranges chapter document' document where
  here := by
    obtain ⟨items, items', left, right, perm⟩ := rearranges.here
    exact ⟨items', items, right, left, perm.symm⟩
  elsewhere other differ := (rearranges.elsewhere other differ).symm

theorem entries_congr (same : field document' chapter.key = field document chapter.key) :
    entries document' chapter = entries document chapter := by
  rw [entries, entries, same]

theorem entries_of_list {items : List Value} (listed : field document chapter.key = .list items) :
    entries document chapter = items.mapM (fieldsOf chapter) := by
  rw [entries, listed]
  cases items <;> rfl

theorem Rearranges.exists_entries (rearranges : Rearranges chapter document document') {found : List Fields}
    (read : entries document chapter = .ok found) :
    ∃ found', entries document' chapter = .ok found' ∧ found'.Perm found := by
  obtain ⟨items, items', left, right, perm⟩ := rearranges.here
  rw [entries_of_list left] at read
  obtain ⟨found', each, perm'⟩ := List.perm_comp_forall₂ perm (forall₂_of_mapM read)
  refine ⟨found', ?_, perm'⟩
  rw [entries_of_list right]
  exact mapM_of_forall₂ each

theorem stage_congr (same : entries document' chapter = entries document chapter) :
    stage document' chapter = stage document chapter := by
  cases chapter <;> simp only [stage, extractLeaves, leaves, extractGroups, groups, rules, groupChapter, same]

theorem stages_congr {chapters : List Chapter}
    (same : ∀ chapter ∈ chapters, entries document' chapter = entries document chapter) :
    stages document' chapters = stages document chapters := by
  induction chapters with
  | nil => rfl
  | cons chapter rest ih =>
    obtain ⟨here, later⟩ := List.forall_mem_cons.mp same
    rw [stages, stages, stage_congr here, ih later]

/-- A section that is extracted with success leads from groups that can come about to such groups again. -/
theorem reachable_of_stage (other : chapter ≠ .rules)
    (none_stored : ∀ family, chapter = groupChapter family → (s.inventory.groupStore family).values = [])
    (reachable : ∃ groups, Heap.Reachable { registry := s.registry, groups })
    (ends : Ends (stage document chapter) s (.ok ()) t) :
    ∃ groups, Heap.Reachable { registry := t.registry, groups } := by
  obtain ⟨groups, reachable⟩ := reachable
  rcases chapter.leaves_or_groups_or_rules with ⟨leafSection, given⟩ | ⟨family, rfl⟩ | rfl
  · obtain ⟨_, _, registry, _⟩ := ends_leaves_ok given ends
    exact ⟨groups, registry ▸ reachable⟩
  · rw [stage_groups] at ends
    obtain ⟨made, m, extracted, kept⟩ := ends_ok_bind.mp ends
    obtain ⟨_, registry, _⟩ := ends_keepGroups kept
    obtain ⟨found, labels, plan, draft⟩ := exists_draft extracted
    have plans := draft.heapPlans (none_stored family rfl) reachable
    obtain ⟨_, _, filled⟩ := draft.ends_groups_ok extracted
    exact ⟨_, registry ▸ plans.reachable (reachable.createAll family labels) (fun _ planned => planned) filled⟩
  · exact absurd rfl other

theorem Progress.reachable {done rest back : List Chapter} (progress : Progress document s done m)
    (empty : Empty s.inventory) (split : done ++ (rest ++ back) = Chapter.order) (others : Chapter.rules ∉ rest)
    (reachable : ∃ groups, Heap.Reachable { registry := m.registry, groups })
    (ends : Ends (stages document rest) m (.ok ()) t) :
    ∃ groups, Heap.Reachable { registry := t.registry, groups } := by
  induction rest generalizing done m with
  | nil =>
    obtain ⟨_, rfl⟩ := ends_pure.mp ends
    exact reachable
  | cons chapter rest ih =>
    obtain ⟨_, n, extracted, later⟩ := ends_ok_bind.mp ends
    obtain ⟨notRules, others⟩ := not_or.mp fun inside => others (List.mem_cons.mpr inside)
    have next := progress.step split extracted
    refine ih next (by simpa using split) others ?_ later
    refine reachable_of_stage (Ne.symm notRules) ?_ reachable extracted
    rintro family rfl
    have fresh : groupChapter family ∉ done := fun listed => ((Chapter.mem_front_iff split).mp listed).ne rfl
    rw [groupStore_congr (progress.pending _ fresh)]
    exact empty.groups family

/-- Groups that were made and stored at some point are there still after further sections. -/
theorem Settled.keeps (settled : Settled m) {chapters : List Chapter} {outcome : Extracted Unit}
    (ends : Ends (stages document chapters) m outcome t) :
    m.registry.Spares m.registry.size t.registry ∧
      ∀ family, (m.inventory.groupStore family).values ⊆ (t.inventory.groupStore family).values := by
  induction chapters generalizing m with
  | nil =>
    obtain ⟨_, rfl⟩ := ends_pure.mp ends
    exact ⟨.refl _ _, fun _ => .refl _⟩
  | cons chapter rest ih =>
    have kept {n : Loading} {outcome : Extracted Unit} (ran : Ends (stage document chapter) m outcome n)
        (family : Family) : (m.inventory.groupStore family).values ⊆ (n.inventory.groupStore family).values := by
      have advances := settled.advances ran
      by_cases same : groupChapter family = chapter
      · subst same
        have order := advances.order.map Prod.snd
        cases family <;> exact order.subset
      · rw [groupStore_congr (advances.elsewhere _ same)]
        exact List.Subset.refl _
    rw [stages, ends_bind] at ends
    rcases ends with ⟨e, failed, _⟩ | ⟨_, n, extracted, later⟩
    · exact ⟨(settled.advances failed).spares, kept failed⟩
    · have advances := settled.advances extracted
      obtain ⟨spares, order⟩ := ih advances.settled later
      exact ⟨advances.spares.trans (spares.mono advances.spares.size_le), fun family =>
        List.Subset.trans (kept extracted family) (order family)⟩

/-- A group was refused an object as one that it has already. A group of its name directly holds that object next to a
group that has it, too. -/
def Contested (family : Family) (t : Loading) (outcome : Extracted Unit) : Prop :=
  ∃ g' x', outcome = .error (.defect (groupChapter family) (.refused g'.name (.duplicate g' x'))) ∧
    ∃ g ∈ (t.inventory.groupStore family).values, ∃ x, g.name = g'.name ∧ x.name = x'.name ∧ t.registry.Overlaps g x

section Section

variable {found found' : List Fields} {labels labels' : List Label} {plan plan' : Plan} {groups made made' : List Group}

/-- A group that was there before, or that is yet to be made, is related to itself. -/
theorem Draft.along_self (draft : Draft document family s found labels plan) {g : Group}
    (outside : g.serial ≤ s.registry.size ∨ s.registry.size + labels.length < g.serial) : Along plan plan' g g := by
  refine Or.inr ⟨rfl, ?_⟩
  rw [draft.map_serial, List.mem_range'_1]
  omega

/-- One section in two orders leads to twins. -/
theorem Draft.twin (draft : Draft document family s found labels plan)
    (draft' : Draft document' family s found' labels' plan') (perm : found'.Perm found) (perm' : labels'.Perm labels)
    (settled : Settled s) (none_stored : (s.inventory.groupStore family).values = [])
    (reachable : Heap.Reachable { registry := s.registry, groups })
    (ends : Ends (Policy.groups document family) s (.ok made) t)
    (ends' : Ends (Policy.groups document' family) s (.ok made') t') : Twin (Along plan plan') t t' := by
  have replans := draft.replans draft' perm perm' none_stored reachable
  obtain ⟨inventory, _, filled⟩ := draft.ends_groups_ok ends
  obtain ⟨inventory', _, filled'⟩ := draft'.ends_groups_ok ends'
  constructor
  case parallel => exact replans.parallel filled filled'
  case later =>
    intro g beyond
    rw [Registry.size_addAll filled, Registry.size_createAll] at beyond
    exact draft.along_self (Or.inr beyond)
  case leaves =>
    intro _ chapter _
    rw [inventory, inventory']
  case groups =>
    intro other name
    rw [inventory, inventory']
    cases found : (s.inventory.groupStore other).values.find? (·.name = name) with
    | none => exact .none
    | some g =>
      have old := settled.made g (Or.inl ⟨other, List.mem_of_find?_eq_some found⟩)
      exact .some (draft.along_self (Or.inl old))
  case numbered =>
    rw [inventory, inventory']
    exact ⟨settled.numbered, settled.numbered⟩

/-- Where a section of groups is extracted with success, its entries in another order lead to a twin, or a group is
refused an object that its namesake directly holds next to a group that has it, too. -/
theorem ends_section_of_perm {outcome : Extracted Unit} (settled : Settled s)
    (none_stored : (s.inventory.groupStore family).values = [])
    (reachable : Heap.Reachable { registry := s.registry, groups })
    (read : entries document (groupChapter family) = .ok found)
    (read' : entries document' (groupChapter family) = .ok found') (perm : found'.Perm found)
    (ends : Ends (stage document (groupChapter family)) s (.ok ()) t)
    (ends' : Ends (stage document' (groupChapter family)) s outcome t') :
    outcome = .ok () ∧ (∃ R, Twin R t t') ∨ Contested family t outcome := by
  rw [stage_groups] at ends ends'
  obtain ⟨made, m, extracted, kept⟩ := ends_ok_bind.mp ends
  obtain ⟨found₁, labels, plan, draft⟩ := exists_draft extracted
  cases draft.read.symm.trans read
  obtain ⟨labels', plan', perm', draft'⟩ := draft.exists_of_perm none_stored read' perm
  obtain ⟨_, rfl, filled⟩ := draft.ends_groups_ok extracted
  rcases ends_bind.mp ends' with ⟨e, failed, rfl⟩ | ⟨made', m', extracted', kept'⟩
  · have replans := draft.replans draft' perm perm' none_stored reachable
    obtain ⟨_, registry, gains, _⟩ := ends_keepGroups kept
    obtain ⟨g', x', cause, rfl, refuses⟩ := draft'.ends_groups_error failed
    obtain ⟨rfl, g, x, namesakes, related, overlaps⟩ := replans.duplicate_of_refuses filled refuses
    refine Or.inr ⟨g', x', rfl, g, ?_, x, namesakes.2.2, ?_, registry ▸ overlaps⟩
    · rw [gains.values_eq]
      exact List.mem_append_right _ (draft.map_fst ▸ namesakes.1)
    · cases related with
      | leaf y => rfl
      | group below => exact below.2.2
  · obtain ⟨_, rfl, _⟩ := draft'.ends_groups_ok extracted'
    obtain ⟨rfl, _⟩ := ends_keepGroups kept'
    have twin := draft.twin draft' perm perm' settled none_stored reachable extracted extracted'
    have level := rel_find?_createAll (R := Along plan plan') perm' fun g made g' made' same =>
      Or.inl (draft.namesakes draft' g made g' made' same)
    exact Or.inl ⟨rfl, _, twin.storeGroups level kept kept'⟩

end Section

theorem roster_eq {registry other : Registry} {g g' : Group} (parallel : Registry.Parallel R registry other)
    (level : R g g') : registry.roster g = other.roster g' := by
  have nested : (registry.nested g).map (·.name) = (other.nested g').map (·.name) := by
    rw [← List.forall₂_eq_eq_eq, List.forall₂_map_left_iff, List.forall₂_map_right_iff]
    exact (parallel.nested level).imp fun _ _ => parallel.name
  rw [Registry.roster, Registry.roster, parallel.name level, parallel.leaves level, nested]

end Policy

theorem Inventory.Unambiguous.nodup_names {inventory : Inventory} (unambiguous : inventory.Unambiguous)
    (family : Family) : ((inventory.groupStore family).values.map (·.name)).Nodup := by
  have names := unambiguous family
  cases family with
  | address =>
    rw [objects, List.map_append, List.map_map] at names
    exact (List.nodup_append.mp names).2.1
  | service =>
    rw [objects, List.map_append, List.map_map] at names
    exact (List.nodup_append.mp names).2.1

namespace Policy

variable {R : Group → Group → Prop} {document document' : Fields} {family : Family} {s t t' m : Loading}

theorem Twin.rosters_perm (twin : Twin R t t') (left : t.inventory.Unambiguous) (right : t'.inventory.Unambiguous)
    (family : Family) :
    ((t'.inventory.groupStore family).values.map t'.registry.roster).Perm
      ((t.inventory.groupStore family).values.map t.registry.roster) := by
  have distinct {inventory : Inventory} (registry : Registry) (unambiguous : inventory.Unambiguous) :
      ((inventory.groupStore family).values.map registry.roster).Nodup := by
    have names := unambiguous.nodup_names family
    refine List.Nodup.of_map Prod.fst ?_
    rw [List.map_map]
    exact names
  refine (List.perm_ext_iff_of_nodup (distinct _ right) (distinct _ left)).mpr fun row => ?_
  constructor
  · intro listed
    obtain ⟨g', stored', rfl⟩ := List.mem_map.mp listed
    have pair := twin.groups family g'.name
    rw [find?_name_of_mem (right.nodup_names family) stored'] at pair
    generalize found : (t.inventory.groupStore family).values.find? (·.name = g'.name) = other at pair
    cases pair with
    | some level =>
      rw [← roster_eq twin.parallel level]
      exact List.mem_map_of_mem (List.mem_of_find?_eq_some found)
  · intro listed
    obtain ⟨g, stored, rfl⟩ := List.mem_map.mp listed
    have pair := twin.groups family g.name
    rw [find?_name_of_mem (left.nodup_names family) stored] at pair
    generalize found : (t'.inventory.groupStore family).values.find? (·.name = g.name) = other at pair
    cases pair with
    | some level =>
      rw [roster_eq twin.parallel level]
      exact List.mem_map_of_mem (List.mem_of_find?_eq_some found)

theorem rules_notMem_front {front back : List Chapter} (split : front ++ groupChapter family :: back = Chapter.order) :
    Chapter.rules ∉ front := by
  intro listed
  have before := (Chapter.mem_front_iff split).mp listed
  revert before
  cases family <;> decide

/-- Where two extractions of a policy with its entries in two orders come to the section of groups, they go on as twins,
or a group is refused an object. -/
theorem Progress.ends_section {front back : List Chapter} {n n' : Loading} {outcome : Extracted Unit}
    (progress : Progress document s front m) (empty : Empty s.inventory)
    (split : front ++ groupChapter family :: back = Chapter.order)
    (reachable : ∃ groups, Heap.Reachable { registry := m.registry, groups })
    (rearranges : Rearranges (groupChapter family) document document')
    (ends : Ends (stage document (groupChapter family)) m (.ok ()) n)
    (ends' : Ends (stage document' (groupChapter family)) m outcome n') :
    outcome = .ok () ∧ (∃ R, Twin R n n') ∨ Contested family n outcome := by
  obtain ⟨groups, reachable⟩ := reachable
  obtain ⟨found, _, read, _⟩ := (progress.settled.complete ends).groups family rfl
  obtain ⟨found', read', perm⟩ := rearranges.exists_entries read
  have pending := progress.pending (groupChapter family) fun listed => ((Chapter.mem_front_iff split).mp listed).ne rfl
  have none_stored : (m.inventory.groupStore family).values = [] := by
    rw [groupStore_congr pending]
    exact empty.groups family
  exact ends_section_of_perm progress.settled none_stored reachable read read' perm ends ends'

/-- A policy that is extracted with success is extracted with success when it is rearranged, and then leads to the same
groups by name, or a group is refused an object. -/
theorem ends_extract_rearranged {groups : List Group} {outcome : Extracted Unit} (empty : Empty s.inventory)
    (reachable : Heap.Reachable { registry := s.registry, groups })
    (rearranges : Rearranges (groupChapter family) document document')
    (ends : Ends (extract document) s (.ok ()) t) (ends' : Ends (extract document') s outcome t') :
    (outcome = .ok () ∧ ∀ other, ((t'.inventory.groupStore other).values.map t'.registry.roster).Perm
        ((t.inventory.groupStore other).values.map t.registry.roster)) ∨ Contested family t outcome := by
  obtain ⟨log, ends⟩ := exists_ends_stages ends
  obtain ⟨log', ends'⟩ := exists_ends_stages ends'
  have unambiguous := empty.settled.unambiguous_stages empty.unambiguous ends
  have unambiguous' := empty.settled.unambiguous_stages empty.unambiguous ends'
  obtain ⟨front, back, order⟩ : ∃ front back, Chapter.order = front ++ groupChapter family :: back :=
    List.append_of_mem (by cases family <;> decide)
  have before : stages document' front = stages document front := stages_congr fun chapter listed =>
    entries_congr (rearranges.elsewhere chapter ((Chapter.mem_front_iff order.symm).mp listed).ne)
  have after : ∀ chapter ∈ back, entries document' chapter = entries document chapter := fun chapter listed =>
    entries_congr (rearranges.elsewhere chapter (Chapter.before_of_mem_back order.symm listed).ne.symm)
  rw [order, stages_append] at ends ends'
  rw [before] at ends'
  obtain ⟨_, m, ran, ends⟩ := ends_ok_bind.mp ends
  obtain ⟨_, n, extracted, later⟩ := ends_ok_bind.mp ends
  -- up to the section, the two extractions are one
  rcases ends_bind.mp ends' with ⟨e, failed, _⟩ | ⟨_, m', ran', ends'⟩
  · cases (ends_unique ran failed).1
  obtain ⟨_, rfl⟩ := ends_unique ran ran'
  have start : Progress document s [] s := .start empty.settled
  have progress := start.run_ok order.symm ran
  have made := start.reachable empty order.symm (rules_notMem_front order.symm) ⟨groups, reachable⟩ ran
  have settled := (progress.settled.advances extracted).settled
  obtain ⟨spares, stored⟩ := settled.keeps later
  rcases ends_bind.mp ends' with ⟨e, extracted', rfl⟩ | ⟨_, n', extracted', later'⟩
  · rcases progress.ends_section empty order.symm made rearranges extracted extracted' with ⟨done, _⟩ | contested
    · cases done
    · obtain ⟨g', x', failed, g, listed, x, named, same, overlaps⟩ := contested
      cases failed
      exact Or.inr ⟨g', x', rfl, g, stored family listed, x, named, same, overlaps.spared spares⟩
  · rcases progress.ends_section empty order.symm made rearranges extracted extracted' with ⟨_, R, twin⟩ | contested
    · -- from the section on, the second follows the first
      obtain ⟨_, u, followed, twin', _⟩ := follows_stages after n n' () _ twin later
      obtain ⟨rfl, rfl⟩ := ends_unique followed later'
      exact Or.inl ⟨rfl, twin'.rosters_perm unambiguous unambiguous'⟩
    · obtain ⟨_, _, failed, _⟩ := contested
      cases failed

def groupEntry (name : String) (members : List String) : Value :=
  .mapping [(.text "name", .text name), (.text "members", .list (members.map .text))]

def grouping (entries : List Value) : Fields :=
  [(.text "hosts", .list [
      .mapping [(.text "name", .text "web"), (.text "address", .text "10.0.0.1")],
      .mapping [(.text "name", .text "mail"), (.text "address", .text "10.0.0.2")]]),
    (.text "groups", .list entries)]

theorem rearranges_grouping {items items' : List Value} (perm : items'.Perm items) :
    Rearranges .groups (grouping items) (grouping items') where
  here := ⟨items, items', rfl, rfl, perm⟩
  elsewhere other differ := by
    cases other <;> first | rfl | contradiction

/-- When the entries of a section of groups stand in another order, a policy is extracted into an inventory with nothing
stored, next to any groups that can come about, either with success in both orders, and then to the same groups with the
same direct members by name, or in none; except that in one order a group may be refused an object as one that it has
already, when in the other order the group comes to hold that object directly next to a group that has it, too. -/
theorem extract_rearranged (family : Family) {groups : List Group} {outcome outcome' : Extracted Unit}
    (empty : Empty s.inventory)
    (reachable : Heap.Reachable { registry := s.registry, groups })
    (rearranges : Rearranges (groupChapter family) document document')
    (ends : Ends (extract document) s outcome t) (ends' : Ends (extract document') s outcome' t') :
    ((outcome = .ok () ↔ outcome' = .ok ()) ∧
        (outcome = .ok () → ∀ other, ((t'.inventory.groupStore other).values.map t'.registry.roster).Perm
          ((t.inventory.groupStore other).values.map t.registry.roster))) ∨
      (outcome = .ok () ∧ Contested family t outcome') ∨ (outcome' = .ok () ∧ Contested family t' outcome) := by
  by_cases first : outcome = .ok ()
  · subst first
    rcases ends_extract_rearranged empty reachable rearranges ends ends' with ⟨second, rosters⟩ | contested
    · exact Or.inl ⟨iff_of_true rfl second, fun _ => rosters⟩
    · exact Or.inr (Or.inl ⟨rfl, contested⟩)
  · by_cases second : outcome' = .ok ()
    · subst second
      rcases ends_extract_rearranged empty reachable rearranges.symm ends' ends with ⟨done, _⟩ | contested
      · exact absurd done first
      · exact Or.inr (Or.inr ⟨rfl, contested⟩)
    · exact Or.inl ⟨iff_of_false first second, fun done => absurd done first⟩

/-- A host in the group that nests another one, and another host in the nested one: in both orders, the groups are the
same. -/
theorem extract_rearranged_grouping :
    Empty blank.inventory ∧
      Rearranges .groups (grouping [groupEntry "all" ["inner", "mail"], groupEntry "inner" ["web"]])
        (grouping [groupEntry "inner" ["web"], groupEntry "all" ["inner", "mail"]]) ∧
      ∃ t t', Ends (extract (grouping [groupEntry "all" ["inner", "mail"], groupEntry "inner" ["web"]])) blank
          (.ok ()) t ∧
        Ends (extract (grouping [groupEntry "inner" ["web"], groupEntry "all" ["inner", "mail"]])) blank (.ok ()) t' ∧
        t.inventory.groups.values.map (·.name) = ["all", "inner"] ∧
        t'.inventory.groups.values.map (·.name) = ["inner", "all"] ∧
        (t'.inventory.groups.values.map t'.registry.roster).Perm (t.inventory.groups.values.map t.registry.roster) := by
  have empty : Empty blank.inventory := empty_new "" ""
  have rearranges : Rearranges .groups (grouping [groupEntry "all" ["inner", "mail"], groupEntry "inner" ["web"]])
      (grouping [groupEntry "inner" ["web"], groupEntry "all" ["inner", "mail"]]) :=
    rearranges_grouping (.swap _ _ _)
  obtain ⟨t, ends, names⟩ :
      ∃ t, Ends (extract (grouping [groupEntry "all" ["inner", "mail"], groupEntry "inner" ["web"]])) blank
          (.ok ()) t ∧ t.inventory.groups.values.map (·.name) = ["all", "inner"] :=
    ⟨_, ends_of_eq (by decide +kernel), by decide +kernel⟩
  obtain ⟨t', ends', names'⟩ :
      ∃ t', Ends (extract (grouping [groupEntry "inner" ["web"], groupEntry "all" ["inner", "mail"]])) blank
          (.ok ()) t' ∧ t'.inventory.groups.values.map (·.name) = ["inner", "all"] :=
    ⟨_, ends_of_eq (by decide +kernel), by decide +kernel⟩
  refine ⟨empty, rearranges, t, t', ends, ends', names, names', ?_⟩
  have reachable : Heap.Reachable { registry := blank.registry } := .empty
  rcases extract_rearranged .address empty reachable rearranges ends ends' with ⟨_, rosters⟩ | ⟨_, contested⟩ |
    ⟨_, contested⟩
  · exact rosters rfl .address
  · obtain ⟨_, _, failed, _⟩ := contested
    cases failed
  · obtain ⟨_, _, failed, _⟩ := contested
    cases failed

def outer : Group where
  name := "all"
  serial := 2
  family := .address

/-- A host in a group and in the group nested in it: the outer group takes it when it is filled first, and refuses it
when the nested group is. -/
theorem extract_rearranged_refused :
    Rearranges .groups (grouping [groupEntry "all" ["inner", "web"], groupEntry "inner" ["web"]])
        (grouping [groupEntry "inner" ["web"], groupEntry "all" ["inner", "web"]]) ∧
      (∃ t, Ends (extract (grouping [groupEntry "all" ["inner", "web"], groupEntry "inner" ["web"]])) blank
        (.ok ()) t) ∧
      ∃ t, Ends (extract (grouping [groupEntry "inner" ["web"], groupEntry "all" ["inner", "web"]])) blank
        (.error (.defect .groups (.refused "all" (.duplicate outer (.leaf Heap.web))))) t := by
  exact ⟨rearranges_grouping (.swap _ _ _), ⟨_, ends_of_eq (by decide +kernel)⟩, ⟨_, ends_of_eq (by decide +kernel)⟩⟩

end Policy

end Rulebase
