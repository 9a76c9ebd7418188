import Rulebase.Proofs.Group.Refilling
import Rulebase.Proofs.Policy.Filling

/-!
# What a section of groups asks for

The entries of a section of groups give labels, and then, with the groups made under these labels, a plan of what each
group is to be given. Extracting the section makes the groups and carries out the plan: it succeeds when every object
of the plan is taken, and fails at the first that is refused.
-/

namespace Rulebase

namespace Registry

variable {registry : Registry} {family : Family} {g : Group}

def createAll (family : Family) : Registry → List Label → List Group × Registry
  | registry, [] => ([], registry)
  | registry, given :: rest =>
    let first := registry.create family given
    let later := createAll family first.2 rest
    (first.1 :: later.1, later.2)

theorem size_createAll (family : Family) (registry : Registry) (labels : List Label) :
    (createAll family registry labels).2.size = registry.size + labels.length := by
  induction labels generalizing registry with
  | nil => rfl
  | cons given rest ih =>
    rw [createAll, ih, size_create, List.length_cons]
    omega

theorem map_serial_createAll (family : Family) (registry : Registry) (labels : List Label) :
    (createAll family registry labels).1.map Group.serial = List.range' (registry.size + 1) labels.length := by
  induction labels generalizing registry with
  | nil => rfl
  | cons given rest ih =>
    rw [createAll, List.map_cons, ih, size_create, List.length_cons, List.range'_succ]
    rfl

theorem map_toLabel_createAll (family : Family) (registry : Registry) (labels : List Label) :
    (createAll family registry labels).1.map Group.toLabel = labels := by
  induction labels generalizing registry with
  | nil => rfl
  | cons given rest ih =>
    rw [createAll, List.map_cons, ih]
    rfl

theorem map_name_createAll (family : Family) (registry : Registry) (labels : List Label) :
    (createAll family registry labels).1.map (·.name) = labels.map (·.name) := by
  calc (createAll family registry labels).1.map (·.name)
      = ((createAll family registry labels).1.map Group.toLabel).map (·.name) := by rw [List.map_map]; rfl
    _ = labels.map (·.name) := by rw [map_toLabel_createAll]

theorem family_of_mem_createAll {labels : List Label} (made : g ∈ (createAll family registry labels).1) :
    g.family = family := by
  induction labels generalizing registry with
  | nil => cases made
  | cons given rest ih =>
    rcases List.mem_cons.mp made with rfl | later
    · rfl
    · exact ih later

@[simp] theorem content_createAll (family : Family) (registry : Registry) (labels : List Label) (g : Group) :
    (createAll family registry labels).2.content g = registry.content g := by
  induction labels generalizing registry with
  | nil => rfl
  | cons given rest ih => rw [createAll, ih, content_create]

@[simp] theorem nested_createAll (family : Family) (registry : Registry) (labels : List Label) (g : Group) :
    (createAll family registry labels).2.nested g = registry.nested g := by
  rw [nested, nested, content_createAll]

/-- The registry depends on how many groups are made, and not on their labels. -/
theorem createAll_registry_congr {labels labels' : List Label} (same : labels.length = labels'.length) :
    (createAll family registry labels).2 = (createAll family registry labels').2 := by
  induction labels generalizing registry labels' with
  | nil =>
    obtain rfl := List.length_eq_zero_iff.mp same.symm
    rfl
  | cons given rest ih =>
    cases labels' with
    | nil => cases same
    | cons given' rest' => exact ih (Nat.succ.inj same)

theorem not_registered_of_mem_createAll {labels : List Label} (made : g ∈ (createAll family registry labels).1) :
    g.serial ∉ registry.serials := by
  have listed : g.serial ∈ (createAll family registry labels).1.map Group.serial := List.mem_map_of_mem made
  rw [map_serial_createAll, List.mem_range'_1] at listed
  rw [serials, List.mem_range'_1]
  omega

end Registry

def Heap.createAll (heap : Heap) (family : Family) (labels : List Label) : Heap where
  registry := (Registry.createAll family heap.registry labels).2
  groups := heap.groups ++ (Registry.createAll family heap.registry labels).1

theorem Heap.Reachable.createAll {heap : Heap} (reachable : heap.Reachable) (family : Family) (labels : List Label) :
    (heap.createAll family labels).Reachable := by
  induction labels generalizing heap with
  | nil =>
    have same : heap.createAll family [] = heap := by simp [Heap.createAll, Registry.createAll]
    rwa [same]
  | cons given rest ih =>
    have same : heap.createAll family (given :: rest) = (heap.create family given).createAll family rest := by
      simp [Heap.createAll, Registry.createAll, Heap.create]
    rw [same]
    exact ih (reachable.create family given)

namespace Policy

variable {s t : Loading} {chapter : Chapter} {family : Family} {find : String → Option Object}

/-- A part of loading makes a series of additions, up to the first that is refused, and stores nothing. -/
def CarriesOut (chapter : Chapter) (x : Load Unit) (adds : List (Group × Object)) : Prop :=
  ∀ s outcome t, Ends x s outcome t → t.inventory = s.inventory ∧
    (outcome = .ok () ∧ s.registry.addAll adds = .ok t.registry ∨
      ∃ g y cause, outcome = .error (.defect chapter (.refused g.name cause)) ∧ s.registry.Refuses adds g y cause)

namespace CarriesOut

variable {x y : Load Unit} {front back : List (Group × Object)}

theorem nothing : CarriesOut chapter (pure ()) [] := by
  intro s outcome t ends
  obtain ⟨rfl, rfl⟩ := ends_pure.mp ends
  exact ⟨rfl, Or.inl ⟨rfl, rfl⟩⟩

theorem append (first : CarriesOut chapter x front) (second : CarriesOut chapter y back) :
    CarriesOut chapter (do x; y) (front ++ back) := by
  intro s outcome t ends
  rcases ends_bind.mp ends with ⟨e, failed, rfl⟩ | ⟨_, m, passed, rest⟩
  · obtain ⟨same, ⟨done, _⟩ | ⟨g, z, cause, known, refuses⟩⟩ := first _ _ _ failed
    · cases done
    · exact ⟨same, Or.inr ⟨g, z, cause, known, refuses.append_right back⟩⟩
  · obtain ⟨same, ⟨_, taken⟩ | ⟨_, _, _, failed, _⟩⟩ := first _ _ _ passed
    · obtain ⟨still, ⟨done, more⟩ | ⟨g, z, cause, known, refuses⟩⟩ := second _ _ _ rest
      · refine ⟨still.trans same, Or.inl ⟨done, ?_⟩⟩
        rw [Registry.addAll_append, taken]
        exact more
      · exact ⟨still.trans same, Or.inr ⟨g, z, cause, known, refuses.append_left taken⟩⟩
    · cases failed

theorem extracted {α : Type} {read : Extracted α} {a : α} {f : α → Load Unit} (done : read = .ok a)
    (rest : CarriesOut chapter (f a) back) : CarriesOut chapter (extracted read >>= f) back := by
  intro s outcome t ends
  rcases ends_extracted_bind.mp ends with ⟨e, failed, _⟩ | ⟨b, passed, ends⟩
  · cases done.symm.trans failed
  · cases done.symm.trans passed
    exact rest _ _ _ ends

theorem noted (event : Loading → Event) : CarriesOut chapter (do record (event (← get))) [] := by
  intro s outcome t ends
  obtain ⟨rfl, rfl⟩ := ends_record.mp (ends_get_bind.mp ends)
  exact ⟨rfl, Or.inl ⟨rfl, rfl⟩⟩

theorem addMember (g : Group) (x : Object) : CarriesOut chapter (addMember chapter g x) [(g, x)] := by
  intro s outcome t ends
  rw [Policy.addMember, ends_get_bind] at ends
  cases offered : s.registry.add g x with
  | error cause =>
    simp only [offered, ends_throw] at ends
    obtain ⟨rfl, rfl⟩ := ends
    exact ⟨rfl, Or.inr ⟨g, x, cause, rfl, Registry.refuses_singleton offered⟩⟩
  | ok registry =>
    simp only [offered, ends_bind, ends_set, ends_record] at ends
    rcases ends with ⟨e, ⟨failed, _⟩, _⟩ | ⟨_, m, ⟨_, rfl⟩, rfl, rfl⟩
    · cases failed
    · exact ⟨rfl, Or.inl ⟨rfl, Registry.addAll_singleton.trans offered⟩⟩

end CarriesOut

def Reads (find : String → Option Object) : List Value → List Object → Prop :=
  List.Forall₂ fun v x => ∃ name, written v = .ok name ∧ find name = some x

/-- The objects that are found under some names are added to a group. -/
theorem Reads.carriesOut {names : List Value} {xs : List Object} (reads : Reads find names xs) (g : Group) :
    CarriesOut chapter (addMembers chapter g find names) (xs.map fun x => (g, x)) := by
  induction reads with
  | nil => exact .nothing
  | cons head _ ih =>
    obtain ⟨name, shown, found⟩ := head
    rw [addMembers]
    refine .extracted shown ?_
    simp only [found]
    exact (CarriesOut.addMember g _).append ih

/-- Members are added with success only when each name is read and stands for an object. -/
theorem exists_reads {g : Group} {names : List Value} (ends : Ends (addMembers chapter g find names) s (.ok ()) t) :
    ∃ xs, Reads find names xs := by
  induction names generalizing s with
  | nil => exact ⟨[], .nil⟩
  | cons v rest ih =>
    rw [addMembers, ends_extracted_ok_bind] at ends
    obtain ⟨name, shown, ends⟩ := ends
    cases found : find name with
    | none =>
      simp only [found] at ends
      obtain ⟨_, _, refused, _⟩ := ends_ok_bind.mp ends
      cases (ends_throw.mp refused).1
    | some x =>
      simp only [found] at ends
      obtain ⟨_, m, _, ends⟩ := ends_ok_bind.mp ends
      obtain ⟨xs, reads⟩ := ih ends
      exact ⟨x :: xs, .cons ⟨name, shown, found⟩ reads⟩

/-- The entry of a plan for a group with the fields of an entry: the objects that its names stand for. -/
def Plans (chapter : Chapter) (find : String → Option Object) (pair : Fields × Group)
    (entry : Group × List Object) : Prop :=
  entry.1 = pair.2 ∧ ∃ names, memberNames chapter pair.1 "members" = .ok names ∧ Reads find names entry.2

theorem carriesOut_fillGroups {pairs : List (Fields × Group)} {plan : Plan}
    (planned : List.Forall₂ (Plans (groupChapter family) find) pairs plan) :
    CarriesOut (groupChapter family) (fillGroups family find pairs) (additions plan) := by
  induction planned with
  | nil => exact .nothing
  | @cons pair entry _ _ head _ ih =>
    obtain ⟨fields, g⟩ := pair
    obtain ⟨k, xs⟩ := entry
    obtain ⟨rfl, names, listed, reads⟩ := head
    rw [fillGroups]
    refine .extracted listed ?_
    exact (reads.carriesOut k).append ((CarriesOut.noted fun state => .extracted k (state.registry.count k)).append ih)

/-- Groups are filled with success only when there is a plan for them. -/
theorem exists_plan {pairs : List (Fields × Group)} (ends : Ends (fillGroups family find pairs) s (.ok ()) t) :
    ∃ plan, List.Forall₂ (Plans (groupChapter family) find) pairs plan := by
  induction pairs generalizing s with
  | nil => exact ⟨[], .nil⟩
  | cons pair rest ih =>
    obtain ⟨fields, g⟩ := pair
    rw [fillGroups, ends_extracted_ok_bind] at ends
    obtain ⟨names, listed, ends⟩ := ends
    obtain ⟨_, m, added, ends⟩ := ends_ok_bind.mp ends
    rw [ends_get_bind] at ends
    obtain ⟨_, n, _, ends⟩ := ends_ok_bind.mp ends
    obtain ⟨xs, reads⟩ := exists_reads added
    obtain ⟨plan, planned⟩ := ih ends
    exact ⟨(g, xs) :: plan, .cons ⟨rfl, names, listed, reads⟩ planned⟩

/-- The label that an entry of a section of groups gives. -/
def Labels (family : Family) (fields : Fields) (given : Label) : Prop :=
  requireText (groupChapter family) fields "name" = .ok given.name ∧ label fields given.name = .ok given

/-- Groups are made under the labels of their entries when these have new names, all different. -/
theorem ends_createGroups (s : Loading) (taken : String → Bool) (created : List Group) {found : List Fields}
    {labels : List Label}
    (labelled : List.Forall₂ (Labels family) found labels) (free : ∀ given ∈ labels, taken given.name = false)
    (distinct : (created.map (·.name) ++ labels.map (·.name)).Nodup) :
    Ends (createGroups family taken created found) s
      (.ok (created ++ (Registry.createAll family s.registry labels).1))
      { s with registry := (Registry.createAll family s.registry labels).2 } := by
  induction labelled generalizing s created with
  | nil => simp [createGroups, Registry.createAll]
  | @cons fields given _ rest head _ ih =>
    obtain ⟨named, labelled⟩ := head
    obtain ⟨here, others⟩ := List.forall_mem_cons.mp free
    have apart : created.any (fun g => decide (g.name = given.name)) = false := by
      rw [List.any_eq_false]
      intro g earlier same
      refine (List.nodup_append.mp distinct).2.2 g.name (List.mem_map_of_mem earlier) given.name ?_
        (of_decide_eq_true same)
      exact List.mem_map_of_mem List.mem_cons_self
    have later := ih { s with registry := (s.registry.create family given).2 }
      (created ++ [(s.registry.create family given).1]) others (by
        rw [List.map_append, List.append_assoc]
        exact distinct)
    rw [createGroups, ends_extracted_ok_bind]
    refine ⟨given.name, named, ?_⟩
    simp only [apart, here, Bool.or_self, Bool.false_eq_true, if_false]
    rw [ends_extracted_ok_bind]
    refine ⟨given, labelled, ?_⟩
    rw [ends_newGroup_bind]
    simpa [Registry.createAll] using later

/-- What a section of groups asks for: labels for the groups of its entries, under new names that are all different,
and a plan for these groups. -/
structure Draft (document : Fields) (family : Family) (s : Loading) (found : List Fields) (labels : List Label)
    (plan : Plan) : Prop where
  read : entries document (groupChapter family) = .ok found
  labelled : List.Forall₂ (Labels family) found labels
  free : ∀ given ∈ labels, s.inventory.find family given.name = none
  distinct : (labels.map (·.name)).Nodup
  planned : List.Forall₂ (Plans (groupChapter family)
    (findAmong (Registry.createAll family s.registry labels).1 (s.inventory.find family)))
    (found.zip (Registry.createAll family s.registry labels).1) plan

namespace Draft

variable {document : Fields} {found : List Fields} {labels : List Label} {plan : Plan}

/-- The groups are made, and the plan is carried out up to the first object that is refused. -/
theorem ends_groups (draft : Draft document family s found labels plan) {outcome : Extracted (List Group)}
    (ends : Ends (groups document family) s outcome t) :
    t.inventory = s.inventory ∧
      (outcome = .ok (Registry.createAll family s.registry labels).1 ∧
          (Registry.createAll family s.registry labels).2.addAll (additions plan) = .ok t.registry ∨
        ∃ g x cause, outcome = .error (.defect (groupChapter family) (.refused g.name cause)) ∧
          (Registry.createAll family s.registry labels).2.Refuses (additions plan) g x cause) := by
  have made := ends_createGroups s (fun name => (s.inventory.find family name).isSome) [] draft.labelled
    (fun given listed => by simp [draft.free given listed]) draft.distinct
  rw [groups, ends_get_bind, ends_extracted_bind] at ends
  rcases ends with ⟨e, failed, _⟩ | ⟨found', read, ends⟩
  · cases draft.read.symm.trans failed
  · cases draft.read.symm.trans read
    rcases ends_bind.mp ends with ⟨e, failed, _⟩ | ⟨created, m, passed, rest⟩
    · cases (ends_unique made failed).1
    · obtain ⟨same, rfl⟩ := ends_unique made passed
      cases same
      rcases ends_bind.mp rest with ⟨e, failed, rfl⟩ | ⟨_, n, filled, last⟩
      · obtain ⟨same, ⟨done, _⟩ | ⟨g, x, cause, known, refuses⟩⟩ := carriesOut_fillGroups draft.planned _ _ _ failed
        · cases done
        · cases known
          exact ⟨same, Or.inr ⟨g, x, cause, rfl, refuses⟩⟩
      · obtain ⟨same, ⟨_, taken⟩ | ⟨_, _, _, failed, _⟩⟩ := carriesOut_fillGroups draft.planned _ _ _ filled
        · obtain ⟨rfl, rfl⟩ := ends_pure.mp last
          exact ⟨same, Or.inl ⟨rfl, taken⟩⟩
        · cases failed

/-- When the section is extracted with success, every object of the plan is taken. -/
theorem ends_groups_ok (draft : Draft document family s found labels plan) {made : List Group}
    (ends : Ends (groups document family) s (.ok made) t) :
    t.inventory = s.inventory ∧ made = (Registry.createAll family s.registry labels).1 ∧
      (Registry.createAll family s.registry labels).2.addAll (additions plan) = .ok t.registry := by
  obtain ⟨same, ⟨done, filled⟩ | ⟨_, _, _, failed, _⟩⟩ := draft.ends_groups ends
  · exact ⟨same, Except.ok.inj done, filled⟩
  · cases failed

theorem ends_groups_error (draft : Draft document family s found labels plan) {e : LoadError}
    (ends : Ends (groups document family) s (.error e) t) :
    ∃ g x cause, e = .defect (groupChapter family) (.refused g.name cause) ∧
      (Registry.createAll family s.registry labels).2.Refuses (additions plan) g x cause := by
  obtain ⟨_, ⟨done, _⟩ | ⟨g, x, cause, failed, refuses⟩⟩ := draft.ends_groups ends
  · cases done
  · exact ⟨g, x, cause, Except.error.inj failed, refuses⟩

end Draft

/-- A section of groups is extracted with success only when there is a draft of it. -/
theorem exists_draft {document : Fields} {made : List Group} (ends : Ends (groups document family) s (.ok made) t) :
    ∃ found labels plan, Draft document family s found labels plan := by
  rw [groups, ends_get_bind, ends_extracted_ok_bind] at ends
  obtain ⟨found, read, ends⟩ := ends
  obtain ⟨created, m, ran, ends⟩ := ends_ok_bind.mp ends
  obtain ⟨_, n, filled, _⟩ := ends_ok_bind.mp ends
  obtain ⟨new, same, _, _, _, free, distinct, each⟩ := ends_createGroups_ok ran
  rw [List.nil_append] at same
  subst same
  have labelled : List.Forall₂ (Labels family) found (created.map Group.toLabel) := by
    rw [List.forall₂_map_right_iff]
    exact each.imp fun _ _ known => known.2
  have free' : ∀ given ∈ created.map Group.toLabel, (s.inventory.find family given.name).isSome = false :=
    List.forall_mem_map.mpr free
  have distinct' : ((created.map Group.toLabel).map (·.name)).Nodup := by
    rw [List.map_map]
    exact distinct .nil
  have made := ends_createGroups s (fun name => (s.inventory.find family name).isSome) [] labelled free' distinct'
  obtain ⟨same, rfl⟩ := ends_unique made ran
  rw [List.nil_append, Except.ok.injEq] at same
  obtain ⟨plan, planned⟩ := exists_plan filled
  refine ⟨found, created.map Group.toLabel, plan, read, labelled, ?_, distinct', ?_⟩
  · exact fun given listed => by simpa using free' given listed
  · rw [same]
    exact planned

end Policy

end Rulebase
