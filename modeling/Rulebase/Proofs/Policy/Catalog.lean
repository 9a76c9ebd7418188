import Rulebase.Proofs.Policy.Rearrangement
import Rulebase.Proofs.Query.Naming

/-!
# The catalog hides what shares a name

Extractions keep names apart within a family only, while the catalog has one entry for a name in both. So it has every
group of addresses under its name, and a group of services unless a group of addresses shares its name. What the catalog
has is found by queries, under a name that can be written; what it does not have no query finds.
-/

namespace Rulebase

section Names

variable {α : Type} {name : α → String} {xs : List α} {x : α} {n : String}

/-- Where no two items have the same name, the first of a name is the one that has it. -/
theorem find?_name_eq_some_iff (distinct : (xs.map name).Nodup) :
    xs.find? (name · = n) = some x ↔ x ∈ xs ∧ name x = n := by
  constructor
  · intro found
    exact ⟨List.mem_of_find?_eq_some found, by simpa using List.find?_some found⟩
  · rintro ⟨listed, rfl⟩
    exact Policy.find?_name_of_mem distinct listed

/-- Where no two items have the same name, the last of a name is the first one. -/
theorem find?_name_reverse (distinct : (xs.map name).Nodup) :
    xs.reverse.find? (name · = n) = xs.find? (name · = n) := by
  have backwards : (xs.reverse.map name).Nodup := by
    rw [List.map_reverse]
    exact List.nodup_reverse.mpr distinct
  ext x
  rw [find?_name_eq_some_iff distinct, find?_name_eq_some_iff backwards, List.mem_reverse]

theorem eraseDups_eq_self {names : List String} (distinct : names.Nodup) : names.eraseDups = names := by
  induction names with
  | nil => rfl
  | cons n names ih =>
    obtain ⟨absent, distinct⟩ := List.nodup_cons.mp distinct
    have kept : names.filter (fun m => !m == n) = names := by
      refine List.filter_eq_self.mpr fun m listed => ?_
      have differ : m ≠ n := fun same => absent (same ▸ listed)
      simpa using differ
    rw [List.eraseDups_cons, kept, ih distinct]

/-- Of two lists that repeat nothing, joined, what is in both is left out once. -/
theorem nodup_eraseDups_append {ns ms : List String} (left : ns.Nodup) (right : ms.Nodup) :
    (ns ++ ms).eraseDups.Nodup ∧
      (ns ++ ms).eraseDups.length + (ns.filter (· ∈ ms)).length = ms.length + ns.length := by
  have joined : (ns ++ ms).eraseDups = ns ++ ms.filter (· ∉ ns) := by
    have removed : ms.removeAll ns = ms.filter (· ∉ ns) := by simp [List.removeAll]
    rw [List.eraseDups_append, removed, eraseDups_eq_self left, eraseDups_eq_self (right.filter _)]
  have nodup (as : List String) {bs : List String} (one : as.Nodup) (other : bs.Nodup) :
      (as ++ bs.filter (· ∉ as)).Nodup := by
    refine List.nodup_append'.mpr ⟨one, other.filter _, fun n inside found => ?_⟩
    simp only [List.mem_filter, decide_eq_true_eq] at found
    exact found.2 inside
  have swapped : (ns ++ ms.filter (· ∉ ns)).Perm (ms ++ ns.filter (· ∉ ms)) := by
    rw [List.perm_ext_iff_of_nodup (nodup ns left right) (nodup ms right left)]
    intro n
    simp only [List.mem_append, List.mem_filter, decide_eq_true_eq]
    tauto
  have split := List.length_eq_length_filter_add (l := ns) (· ∈ ms)
  rw [joined, swapped.length_eq, List.length_append]
  refine ⟨nodup ns left right, ?_⟩
  simp only [decide_not]
  omega

end Names

namespace Inventory

variable {inventory : Inventory} {name : String} {g : Group}

/-- Each stored group is of the family it is stored in. -/
def Divided (inventory : Inventory) : Prop :=
  ∀ family, ∀ g ∈ (inventory.groupStore family).values, g.family = family

/-- The groups of services whose names groups of addresses have, too. -/
def hidden (inventory : Inventory) : List Group :=
  inventory.portGroups.values.filter fun g => g.name ∈ inventory.groups.values.map (·.name)

/-- A name is looked up among the groups of addresses, and then among those of services. That later groups take the
place of earlier ones shows only between the families. -/
theorem Unambiguous.catalog_eq (unambiguous : inventory.Unambiguous) (name : String) :
    inventory.catalog name = ((inventory.groups.values.find? (·.name = name)).or
      (inventory.portGroups.values.find? (·.name = name))).map .group := by
  have addresses : (inventory.groups.values.map (·.name)).Nodup := unambiguous.nodup_names .address
  have services : (inventory.portGroups.values.map (·.name)).Nodup := unambiguous.nodup_names .service
  rw [catalog, List.reverse_append, List.find?_append, find?_name_reverse addresses, find?_name_reverse services]

theorem Unambiguous.catalog_eq_some_iff (unambiguous : inventory.Unambiguous) :
    inventory.catalog name = some (.group g) ↔
      g ∈ inventory.groups.values ∧ g.name = name ∨
        g ∈ inventory.portGroups.values ∧ g.name = name ∧ ∀ h ∈ inventory.groups.values, h.name ≠ name := by
  have addresses : (inventory.groups.values.map (·.name)).Nodup := unambiguous.nodup_names .address
  have services : (inventory.portGroups.values.map (·.name)).Nodup := unambiguous.nodup_names .service
  rw [unambiguous.catalog_eq, Option.map_eq_some_iff]
  simp only [Object.group.injEq, exists_eq_right, Option.or_eq_some_iff, find?_name_eq_some_iff addresses,
    find?_name_eq_some_iff services, List.find?_eq_none, decide_eq_true_eq]
  tauto

theorem Unambiguous.catalog_address (unambiguous : inventory.Unambiguous) (stored : g ∈ inventory.groups.values) :
    inventory.catalog g.name = some (.group g) :=
  unambiguous.catalog_eq_some_iff.mpr (Or.inl ⟨stored, rfl⟩)

/-- A group of services is what the catalog has under its name unless a group of addresses has the name. -/
theorem Unambiguous.catalog_service_iff (unambiguous : inventory.Unambiguous) (divided : inventory.Divided)
    (stored : g ∈ inventory.portGroups.values) :
    inventory.catalog g.name = some (.group g) ↔ ∀ h ∈ inventory.groups.values, h.name ≠ g.name := by
  have apart : g ∉ inventory.groups.values := fun address => by
    cases (divided .service g stored).symm.trans (divided .address g address)
  rw [unambiguous.catalog_eq_some_iff]
  constructor
  · rintro (⟨address, _⟩ | ⟨_, _, alone⟩)
    · exact absurd address apart
    · exact alone
  · intro alone
    exact Or.inr ⟨stored, rfl, alone⟩

/-- The catalog has a stored group under its own name or not at all. -/
theorem Unambiguous.name_of_catalog (unambiguous : inventory.Unambiguous)
    (listed : inventory.catalog name = some (.group g)) : g.name = name := by
  rcases unambiguous.catalog_eq_some_iff.mp listed with ⟨_, named⟩ | ⟨_, named, _⟩ <;> exact named

/-- The names of the catalog are those that it has something under. -/
theorem mem_catalogNames_iff : name ∈ inventory.catalogNames ↔ (inventory.catalog name).isSome := by
  rw [catalogNames, List.mem_eraseDups, catalog, Option.isSome_map, List.find?_isSome]
  simp [or_and_right, exists_or, or_comm]

/-- The names of the catalog are different, and as many as there are groups, less those that are hidden. -/
theorem Unambiguous.length_catalogNames (unambiguous : inventory.Unambiguous) :
    inventory.catalogNames.Nodup ∧
      inventory.catalogNames.length + inventory.hidden.length = inventory.groups.size + inventory.portGroups.size := by
  have addresses : (inventory.groups.values.map (·.name)).Nodup := unambiguous.nodup_names .address
  have services : (inventory.portGroups.values.map (·.name)).Nodup := unambiguous.nodup_names .service
  have sizes (store : Store Group) : (store.values.map (·.name)).length = store.size := by
    rw [List.length_map, Store.values, List.length_map, Store.size]
  obtain ⟨distinct, lengths⟩ := nodup_eraseDups_append services addresses
  rw [List.filter_map, List.length_map, sizes, sizes] at lengths
  rw [catalogNames, List.map_append]
  exact ⟨distinct, lengths⟩

end Inventory

namespace Policy

open Query

variable {document : Fields} {chapter : Chapter} {outcome : Extracted Unit} {s t : Loading}

theorem Settled.divided (settled : Settled s) (ends : Ends (stage document chapter) s outcome t)
    (divided : s.inventory.Divided) : t.inventory.Divided := by
  intro family
  by_cases same : chapter = groupChapter family
  · subst same
    rw [stage_groups] at ends
    obtain ⟨_, _, ⟨_, _, _, same⟩ | ⟨_, found, made, _, gains, _, _, each⟩⟩ := ends_extractGroups ends
    · rw [same]
      exact divided family
    · rw [gains.values_eq]
      refine List.forall_mem_append.mpr ⟨divided family, fun g new => ?_⟩
      obtain ⟨fields, _, groupOf⟩ := exists_of_forall₂ each new
      exact groupOf.joins
  · rw [groupStore_congr ((settled.advances ends).elsewhere _ (Ne.symm same))]
    exact divided family

theorem Empty.divided {inventory : Inventory} (empty : Empty inventory) : inventory.Divided := by
  intro family g stored
  rw [empty.groups family] at stored
  cases stored

theorem Reached.divided (reached : Reached s) : s.inventory.Divided :=
  reached.invariant (fun _ empty => empty.divided) fun settled ends divided => settled.divided ends divided

def overlapping : Fields :=
  let one (name : String) (others : List (Value × Value)) : Value :=
    .list [.mapping ((.text "name", .text name) :: others)]
  let members (name : String) : Value × Value := (.text "members", .list [.text name])
  [(.text "hosts", one "srv" [(.text "address", .text "10.0.0.1")]),
    (.text "groups", one "web" [members "srv"]),
    (.text "ports", one "https" [(.text "port", .int 443)]),
    (.text "port_groups", .list [.mapping [(.text "name", .text "web"), members "https"],
      .mapping [(.text "name", .text "tls"), members "https"]])]

theorem extract_overlapping :
    ∃ t, Ends (extract overlapping) blank (.ok ()) t ∧ Reached t ∧
      t.inventory.groups.values.map (·.name) = ["web"] ∧ t.inventory.portGroups.values.map (·.name) = ["web", "tls"] ∧
      parse (some t.inventory.catalog) (testText .has "web" "svc") = .error (.malformed .addressInService 14) := by
  obtain ⟨t, ends, addresses, services, answered⟩ :
      ∃ t, Ends (extract overlapping) blank (.ok ()) t ∧ t.inventory.groups.values.map (·.name) = ["web"] ∧
        t.inventory.portGroups.values.map (·.name) = ["web", "tls"] ∧
        (match parse (some t.inventory.catalog) (testText .has "web" "svc") with
          | .error (.malformed .addressInService 14) => true
          | _ => false) = true :=
    ⟨_, ends_of_eq (by decide +kernel), by decide +kernel, by decide +kernel, by decide +kernel⟩
  have refused : parse (some t.inventory.catalog) (testText .has "web" "svc") =
      .error (.malformed .addressInService 14) := by
    split at answered
    next refused => exact refused
    next => cases answered
  exact ⟨t, ends, .extract reached_blank ends, addresses, services, refused⟩

/-- After any extractions, whatever their outcome, the catalog has every group of addresses under its name, and a group
of services just when no group of addresses has the name. It has as many names as there are groups, less one for each
group of services that is hidden. A stored group is tested by some query just when the catalog has it under its name and
the name can be written; then it is tested by whatever is written as a test of the name, on each of its own sides. -/
theorem catalog_resolves (reached : Reached s) :
    (∀ g ∈ s.inventory.groups.values, s.inventory.catalog g.name = some (.group g)) ∧
      (∀ g ∈ s.inventory.portGroups.values,
        s.inventory.catalog g.name = some (.group g) ↔ ∀ h ∈ s.inventory.groups.values, h.name ≠ g.name) ∧
      ((∀ name, name ∈ s.inventory.catalogNames ↔ (s.inventory.catalog name).isSome) ∧
        s.inventory.catalogNames.Nodup ∧
        s.inventory.catalogNames.length + s.inventory.hidden.length =
          s.inventory.groups.size + s.inventory.portGroups.size) ∧
      ∀ family, ∀ g ∈ (s.inventory.groupStore family).values, g.family = family ∧
        ((∃ text side, ∃ verb : Verb,
            parse (some s.inventory.catalog) text = .ok (.test (verb.atom (.group g) side))) ↔
          s.inventory.catalog g.name = some (.group g) ∧ IsName g.name) ∧
        (s.inventory.catalog g.name = some (.group g) → IsName g.name →
          ∀ (verb : Verb) (selection : Selection) (side : Side) (text : String), selection.Names (.group g) side →
            (Sentence.test verb g.name selection).Renders text →
              parse (some s.inventory.catalog) text = .ok (.test (verb.atom (.group g) side))) := by
  have unambiguous := reached.unambiguous
  have divided := reached.divided
  refine ⟨fun g stored => unambiguous.catalog_address stored,
    fun g stored => unambiguous.catalog_service_iff divided stored,
    ⟨fun name => Inventory.mem_catalogNames_iff, unambiguous.length_catalogNames⟩,
    fun family g stored => ⟨divided family g stored, ?_, ?_⟩⟩
  · rw [exists_parse_group_iff]
    constructor
    · rintro ⟨name, named, listed⟩
      cases unambiguous.name_of_catalog listed
      exact ⟨listed, named⟩
    · rintro ⟨listed, named⟩
      exact ⟨g.name, named, listed⟩
  · intro listed named verb selection side text names renders
    exact named.parse_eq listed names renders

theorem catalog_resolves_overlapping :
    ∃ t, Reached t ∧ ∃ g ∈ t.inventory.portGroups.values, g.name = "tls" ∧
      t.inventory.catalog g.name = some (.group g) ∧ IsName g.name ∧
        parse (some t.inventory.catalog) "(has \"tls\")" = .ok (.test (.has (.group g) .service)) := by
  obtain ⟨t, _, reached, addresses, services, _⟩ := extract_overlapping
  obtain ⟨_, hides, _, queries⟩ := catalog_resolves reached
  obtain ⟨g, stored, named⟩ : ∃ g ∈ t.inventory.portGroups.values, g.name = "tls" :=
    List.mem_map.mp (by simp [services])
  have alone : ∀ h ∈ t.inventory.groups.values, h.name ≠ g.name := by
    intro h address
    have listed : h.name ∈ t.inventory.groups.values.map (·.name) := List.mem_map_of_mem address
    rw [addresses, List.mem_singleton] at listed
    rw [listed, named]
    decide
  have listed := (hides g stored).mpr alone
  have isName : IsName g.name := named ▸ by decide
  obtain ⟨family, _, every⟩ := queries .service g stored
  refine ⟨t, reached, g, stored, named, listed, isName, every listed isName .has .absent .service _ ?_ ?_⟩
  · rw [Selection.names_absent_iff, Object.family, family]
    rfl
  · have padded : PadsTo "tls" "tls" := ⟨[], [], List.forall_mem_nil _, List.forall_mem_nil _, rfl⟩
    rw [named]
    refine ⟨_, .test padded, ?_⟩
    have nothing : IsSpacing [] := List.forall_mem_nil _
    have words := @Layout.finish false [] nothing
    have words := @Layout.closing false [] _ _ nothing words
    have words := @Layout.quoted true [' '] _ "tls" _ (by decide) words
    exact @Layout.opening false [] [] _ "has" _ nothing nothing words

/-- A group of services is hidden by the group of addresses of its name, and a query for it on its own side is
refused. -/
theorem catalog_hides_namesake :
    ∃ t, Ends (extract overlapping) blank (.ok ()) t ∧
      t.inventory.catalogNames.length < t.inventory.groups.size + t.inventory.portGroups.size ∧
      ∃ g ∈ t.inventory.portGroups.values, g.family = .service ∧ IsName g.name ∧
        t.inventory.catalog g.name ≠ some (.group g) ∧
        parse (some t.inventory.catalog) (testText .has g.name "svc") = .error (.malformed .addressInService 14) := by
  obtain ⟨t, ends, reached, addresses, services, refused⟩ := extract_overlapping
  obtain ⟨g, stored, named⟩ : ∃ g ∈ t.inventory.portGroups.values, g.name = "web" :=
    List.mem_map.mp (by simp [services])
  obtain ⟨h, address, shared⟩ : ∃ h ∈ t.inventory.groups.values, h.name = "web" :=
    List.mem_map.mp (by simp [addresses])
  have hidden : g ∈ t.inventory.hidden := by simp [Inventory.hidden, stored, named, addresses]
  have counted := reached.unambiguous.length_catalogNames.2
  have some_hidden := List.length_pos_of_mem hidden
  have isName : IsName g.name := named ▸ by decide
  refine ⟨t, ends, by omega, g, stored, reached.divided .service g stored, isName, ?_, named ▸ refused⟩
  intro listed
  have alone := (reached.unambiguous.catalog_service_iff reached.divided stored).mp listed
  exact alone h address (shared.trans named.symm)

end Policy

end Rulebase
