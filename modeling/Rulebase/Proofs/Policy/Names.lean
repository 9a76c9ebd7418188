import Rulebase.Proofs.Policy.Sections

/-!
# A name stands for one object

No two objects that are stored in a family have the same name, whatever was extracted into the inventory and however
that ended. The names of leaves are looked up before the leaves are stored, and those of groups before the groups are
made, there also among the groups in front of them. So a look-up by the name of a stored object finds that object.
-/

namespace Rulebase

namespace Inventory

/-- The objects that are stored in a family, in the order in which names are looked up. -/
def objects (inventory : Inventory) : Family → List Object
  | .address =>
    inventory.hosts.values.map (.leaf <| .host ·) ++ inventory.networks.values.map (.leaf <| .network ·) ++
      inventory.ranges.values.map (.leaf <| .range ·) ++ inventory.groups.values.map .group
  | .service =>
    inventory.ports.values.map (.leaf <| .port ·) ++ inventory.portRanges.values.map (.leaf <| .portRange ·) ++
      inventory.portGroups.values.map .group

def objectsOf (inventory : Inventory) (chapter : Policy.Chapter) : List Object :=
  (inventory.store chapter).values.filterMap chapter.object?

theorem objects_eq_flatMap (inventory : Inventory) (family : Family) :
    inventory.objects family = family.chapters.flatMap inventory.objectsOf := by
  have mapped {α : Type} (make : α → Object) (xs : List α) : xs.map make = xs.filterMap fun x => some (make x) :=
    (congrFun List.filterMap_eq_map xs).symm
  cases family with
  | address =>
    simp only [objects, mapped, List.append_assoc]
    rw [← List.append_nil ((groups inventory).values.filterMap _)]
    rfl
  | service =>
    simp only [objects, mapped, List.append_assoc]
    rw [← List.append_nil ((portGroups inventory).values.filterMap _)]
    rfl

/-- No two objects of a family have the same name. -/
def Unambiguous (inventory : Inventory) : Prop :=
  ∀ family, ((inventory.objects family).map Object.name).Nodup

end Inventory

namespace Policy

variable {inventory before after : Inventory} {family : Family} {chapter : Chapter} {document : Fields} {s t : Loading}

theorem Chapter.name_object? (chapter : Chapter) (x : chapter.Content) :
    (chapter.object? x).map Object.name = Stored.name? x := by
  cases chapter <;> rfl

theorem Chapter.map_name_objects (chapter : Chapter) (xs : List chapter.Content) :
    (xs.filterMap chapter.object?).map Object.name = xs.filterMap Stored.name? := by
  rw [List.map_filterMap]
  exact congrArg (List.filterMap · xs) (funext chapter.name_object?)

theorem lookUp_eq_find? (inventory : Inventory) (name : String) (chapter : Chapter) :
    lookUp inventory name chapter = (inventory.objectsOf chapter).find? (·.name = name) := by
  have same (x : chapter.Content) : (Stored.name? x == some name) = (chapter.object? x).any (·.name = name) := by
    rw [← chapter.name_object? x]
    cases chapter.object? x with
    | none => rfl
    | some object => simp [beq_eq_decide]
  rw [lookUp, Store.find?_eq, Inventory.objectsOf, List.find?_filterMap]
  simp only [same]

theorem find_eq_find? (inventory : Inventory) (family : Family) (name : String) :
    inventory.find family name = (inventory.objects family).find? (·.name = name) := by
  rw [find_eq_findSome?, Inventory.objects_eq_flatMap, List.find?_flatMap]
  simp only [← lookUp_eq_find?]

theorem find_eq_none_iff {name : String} :
    inventory.find family name = none ↔ name ∉ (inventory.objects family).map Object.name := by
  rw [find_eq_find?, List.find?_eq_none]
  simp

/-- Where no two items have the same name, each is the first of its name. -/
theorem find?_name_of_mem {α : Type} {name : α → String} {xs : List α} (distinct : (xs.map name).Nodup) {x : α}
    (listed : x ∈ xs) : xs.find? (name · = name x) = some x := by
  cases found : xs.find? (name · = name x) with
  | none =>
    have missing := List.find?_eq_none.mp found x listed
    simp at missing
  | some y =>
    have named : name y = name x := by simpa using List.find?_some found
    exact congrArg some (List.inj_on_of_nodup_map distinct (List.mem_of_find?_eq_some found) listed named)

/-- Where names are unambiguous, each object is found by its name. -/
theorem find_name_of_mem (unambiguous : inventory.Unambiguous) {x : Object} (stored : x ∈ inventory.objects family) :
    inventory.find family x.name = some x := by
  rw [find_eq_find?]
  exact find?_name_of_mem (unambiguous family) stored

theorem mem_objects_of_find {name : String} {x : Object} (found : inventory.find family name = some x) :
    x ∈ inventory.objects family ∧ x.name = name := by
  rw [find_eq_find?] at found
  exact ⟨List.mem_of_find?_eq_some found, by simpa using List.find?_some found⟩

theorem objects_congr (same : ∀ chapter ∈ family.chapters, after.store chapter = before.store chapter) :
    after.objects family = before.objects family := by
  rw [Inventory.objects_eq_flatMap, Inventory.objects_eq_flatMap]
  refine List.flatMap_congr fun chapter listed => ?_
  rw [Inventory.objectsOf, Inventory.objectsOf, same chapter listed]

theorem nodup_chapters (family : Family) : family.chapters.Nodup := by
  cases family <;> decide

theorem family_eq_of_mem_chapters {other : Family} (left : chapter ∈ family.chapters)
    (right : chapter ∈ other.chapters) : family = other := by
  revert left right
  cases family <;> cases other <;> cases chapter <;> decide

theorem Appends.objects {xs : List chapter.Content} (appends : Appends chapter xs before after)
    (joins : chapter ∈ family.chapters) :
    (after.objects family).Perm (xs.filterMap chapter.object? ++ before.objects family) := by
  rw [Inventory.objects_eq_flatMap, Inventory.objects_eq_flatMap]
  refine Registry.perm_flatMap_of_perm (nodup_chapters family) joins ?_ fun other differ => ?_
  · rw [Inventory.objectsOf, Inventory.objectsOf, appends.here.values_eq, List.filterMap_append]
    exact List.perm_append_comm
  · rw [Inventory.objectsOf, Inventory.objectsOf, appends.elsewhere other differ]

/-- Names stay unambiguous when objects are stored under different names that were free. -/
theorem Appends.unambiguous {xs : List chapter.Content} (appends : Appends chapter xs before after)
    (joins : chapter ∈ family.chapters) (unambiguous : before.Unambiguous)
    (distinct : (xs.filterMap Stored.name?).Nodup)
    (free : ∀ name ∈ xs.filterMap Stored.name?, before.find family name = .none) : after.Unambiguous := by
  intro other
  by_cases same : other = family
  · subst same
    have names := (appends.objects joins).map Object.name
    rw [List.map_append, chapter.map_name_objects] at names
    rw [names.nodup_iff, List.nodup_append']
    exact ⟨distinct, unambiguous other, fun name new old => find_eq_none_iff.mp (free name new) old⟩
  · rw [objects_congr fun listed inside => appends.elsewhere listed ?_]
    · exact unambiguous other
    · rintro rfl
      exact same (family_eq_of_mem_chapters inside joins)

/-- Leaves whose names are not taken have different names, all of them free. -/
theorem nodup_of_not_taken {leaves : LeafSection chapter} {kept : List chapter.Content}
    (free : ∀ front x back, kept = front ++ x :: back → ¬ Taken inventory leaves front x) :
    (kept.map leaves.name).Nodup ∧ ∀ x ∈ kept, inventory.find leaves.family (leaves.name x) = none := by
  induction kept using List.reverseRecOn with
  | nil => simp
  | append_singleton init last ih =>
    obtain ⟨distinct, absent⟩ := ih fun front x back split => free front x (back ++ [last]) (by simp [split])
    obtain ⟨new, apart⟩ := not_or.mp (free init last [] rfl)
    rw [Bool.not_eq_true, Option.isSome_eq_false_iff, Option.isNone_iff_eq_none] at new
    constructor
    · rw [List.map_append, List.nodup_append']
      refine ⟨distinct, List.nodup_singleton _, fun name listed here => apart ?_⟩
      obtain ⟨x, earlier, rfl⟩ := List.mem_map.mp listed
      exact ⟨x, earlier, List.mem_singleton.mp here⟩
    · exact List.forall_mem_append.mpr ⟨absent, by simpa using new⟩

theorem LeafSection.filterMap_name? (leaves : LeafSection chapter) (xs : List chapter.Content) :
    xs.filterMap Stored.name? = xs.map leaves.name := by
  rw [← List.filterMap_eq_map]
  exact congrArg (List.filterMap · xs) (funext leaves.named)

theorem NewNames.unambiguous {made : List Group} (names : NewNames (before.find family) made)
    (unambiguous : before.Unambiguous) (gains : (before.groupStore family).Gains (after.groupStore family) made)
    (elsewhere : ∀ other, other ≠ groupChapter family → after.store other = before.store other) :
    after.Unambiguous := by
  have named : made.filterMap Stored.name? = made.map (·.name) := congrFun List.filterMap_eq_map made
  have free : ∀ name ∈ made.filterMap Stored.name?, before.find family name = none := by
    rw [named]
    exact List.forall_mem_map.mpr names.free
  have distinct : (made.filterMap Stored.name?).Nodup := named ▸ names.distinct
  cases family with
  | address =>
    have appends : Appends .groups made before after := ⟨gains, elsewhere⟩
    have joins : Chapter.groups ∈ Family.address.chapters := by decide
    exact appends.unambiguous joins unambiguous distinct free
  | service =>
    have appends : Appends .portGroups made before after := ⟨gains, elsewhere⟩
    have joins : Chapter.portGroups ∈ Family.service.chapters := by decide
    exact appends.unambiguous joins unambiguous distinct free

/-- Names stay unambiguous when a section is extracted, whatever comes of it. -/
theorem Settled.unambiguous (settled : Settled s) (unambiguous : s.inventory.Unambiguous) {outcome : Extracted Unit}
    (ends : Ends (stage document chapter) s outcome t) : t.inventory.Unambiguous := by
  rcases chapter.leaves_or_groups_or_rules with ⟨leaves, given⟩ | ⟨family, rfl⟩ | rfl
  · rw [stage_leaves given] at ends
    rcases ends_extractLeaves ends with ⟨e, _, _, rfl⟩ | ⟨kept, rest, _, _, appends, free, _⟩
    · exact unambiguous
    · obtain ⟨distinct, absent⟩ := nodup_of_not_taken free
      refine appends.unambiguous leaves.mem_chapters unambiguous ?_ ?_
      · rwa [leaves.filterMap_name?]
      · rw [leaves.filterMap_name?]
        exact List.forall_mem_map.mpr absent
  · rw [stage_groups] at ends
    obtain ⟨_, elsewhere, ⟨_, _, _, same⟩ | ⟨_, found, made, _, gains, _, names, _⟩⟩ := ends_extractGroups ends
    · rwa [same]
    · exact names.unambiguous unambiguous gains elsewhere
  · intro family
    rw [objects_congr fun other listed => (settled.advances ends).elsewhere other (ne_rules_of_mem listed)]
    exact unambiguous family

theorem Settled.unambiguous_stages (settled : Settled s) (unambiguous : s.inventory.Unambiguous)
    {chapters : List Chapter} {outcome : Extracted Unit} (ends : Ends (stages document chapters) s outcome t) :
    t.inventory.Unambiguous :=
  settled.invariant_stages (fun settled extracted names => settled.unambiguous names extracted) unambiguous ends

theorem Empty.unambiguous (empty : Empty inventory) : inventory.Unambiguous := by
  intro family
  have nothing : inventory.objects family = [] := by
    rw [Inventory.objects_eq_flatMap, List.flatMap_eq_nil_iff]
    intro chapter _
    rw [Inventory.objectsOf, empty chapter, List.filterMap_nil]
  rw [nothing]
  exact .nil

theorem Reached.unambiguous (reached : Reached s) : s.inventory.Unambiguous :=
  reached.invariant (fun _ empty => empty.unambiguous) fun settled extracted names =>
    settled.unambiguous names extracted

def gathering : Fields :=
  [(.text "groups", .list [.mapping [(.text "name", .text "all"), (.text "members", .list [.text "lan", .text "web"])]])]

/-- After any extractions, whatever their outcome, the objects that are stored in a family have different names, and
each of them is what is found by its name. -/
theorem names_unambiguous (reached : Reached s) (family : Family) :
    ((s.inventory.objects family).map Object.name).Nodup ∧
      ∀ x ∈ s.inventory.objects family, s.inventory.find family x.name = some x :=
  ⟨reached.unambiguous family, fun _ stored => find_name_of_mem reached.unambiguous stored⟩

theorem names_unambiguous_gathering :
    ∃ s t, Ends (extract clashing) blank (.error (.defect .networks (.taken "web"))) s ∧
      Ends (extract gathering) s (.ok ()) t ∧ Reached t ∧
      (t.inventory.objects .address).map Object.name = ["web", "lan", "all"] ∧
      ∀ x ∈ t.inventory.objects .address, t.inventory.find .address x.name = some x := by
  obtain ⟨s, t, first, second, names⟩ :
      ∃ s t, Ends (extract clashing) blank (.error (.defect .networks (.taken "web"))) s ∧
        Ends (extract gathering) s (.ok ()) t ∧
        (t.inventory.objects .address).map Object.name = ["web", "lan", "all"] :=
    ⟨_, _, ends_of_eq (by decide +kernel), ends_of_eq (by decide +kernel), by decide +kernel⟩
  have reached : Reached t := .extract (.extract reached_blank first) second
  exact ⟨s, t, first, second, reached, names, (names_unambiguous reached .address).2⟩

end Policy

end Rulebase
