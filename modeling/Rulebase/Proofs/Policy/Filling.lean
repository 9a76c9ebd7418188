import Rulebase.Proofs.Policy.Building

/-!
# What groups and rules are filled with

When making groups succeeds, there is one group for each entry, with the entry's name, and its direct members
are the objects that the names in the entry's list stand for, each once. A rule comes with three groups of its
own, filled in the same way from the lists of its sides.
-/

namespace Rulebase.Policy

variable {s t : Loading} {chapter : Chapter}

def Resolves (find : String → Option Object) : List Value → List Object → Prop :=
  List.Forall₂ fun v x => find (textOf v) = some x

/-- The objects that the names stand for join the direct members of the group, and no other group changes. -/
theorem ends_addMembers_ok {g : Group} {find : String → Option Object} {names : List Value}
    (registered : g.serial ∈ s.registry.serials) (ends : Ends (addMembers chapter g find names) s (.ok ()) t) :
    ∃ xs, Resolves find names xs ∧ (t.registry.objects g).Perm (xs ++ s.registry.objects g) ∧
      Registry.Alters g s.registry t.registry := by
  induction names generalizing s with
  | nil =>
    obtain ⟨_, rfl⟩ := ends_pure.mp ends
    exact ⟨[], .nil, .refl _, .refl g _⟩
  | cons v rest ih =>
    rw [addMembers, ends_extracted_ok_bind] at ends
    obtain ⟨name, shown, ends⟩ := ends
    cases found : find name with
    | none =>
      simp only [found] at ends
      obtain ⟨_, _, refused, _⟩ := ends_ok_bind.mp ends
      cases (ends_throw.mp refused).1
    | some x =>
      simp only [found] at ends
      obtain ⟨_, m, added, ends⟩ := ends_ok_bind.mp ends
      rcases ends_addMember added with ⟨_, family, _, grown⟩ | ⟨cause, failed, _⟩
      · obtain ⟨xs, resolved, members, alters⟩ := ih (by rwa [grown, Registry.serials_insert]) ends
        rw [grown] at members alters
        have all := (Registry.Alters.insert _ g x).trans alters
        refine ⟨x :: xs, .cons (written_eq_ok shown ▸ found) resolved, ?_, all⟩
        exact members.trans (((Registry.objects_insert registered family).append_left xs).trans List.perm_middle)
      · cases failed

theorem name_of_label {fields : Fields} {name : String} {given : Label} (labelled : label fields name = .ok given) :
    given.name = name := by
  obtain ⟨comment, _, made⟩ := bind_eq_ok_iff.mp labelled
  cases made
  rfl

/-- Groups of different names, none of them an object's. -/
structure NewNames (find : String → Option Object) (groups : List Group) : Prop where
  free : ∀ g ∈ groups, find g.name = none
  distinct : (groups.map (·.name)).Nodup

/-- The groups of some entries are new, one for each entry and with its name and comment; their names are not taken,
and their serial numbers are the next ones. -/
theorem ends_createGroups_ok {family : Family} {taken : String → Bool} {created groups : List Group}
    {entries : List Fields} (ends : Ends (createGroups family taken created entries) s (.ok groups) t) :
    ∃ new, groups = created ++ new ∧ t.registry.size = s.registry.size + new.length ∧
      new.map Group.serial = List.range' (s.registry.size + 1) new.length ∧
      (∀ g, s.registry.Fresh g ∨ g ∈ new → t.registry.Fresh g) ∧ (∀ g ∈ new, taken g.name = false) ∧
      ((created.map (·.name)).Nodup → (groups.map (·.name)).Nodup) ∧
      List.Forall₂ (fun fields g => g.family = family ∧
        requireText (groupChapter family) fields "name" = .ok g.name ∧
          label fields g.name = .ok g.toLabel) entries new := by
  induction entries generalizing s created with
  | nil =>
    obtain ⟨same, rfl⟩ := ends_pure.mp ends
    cases same
    exact ⟨[], by simp, rfl, rfl, by simp, by simp, id, .nil⟩
  | cons fields rest ih =>
    rw [createGroups, ends_extracted_ok_bind] at ends
    obtain ⟨name, named, ends⟩ := ends
    dsimp only at ends
    split at ends
    · obtain ⟨_, _, refused, _⟩ := ends_ok_bind.mp ends
      cases (ends_throw.mp refused).1
    next free =>
      obtain ⟨label, labelled, ends⟩ := ends_extracted_ok_bind.mp ends
      obtain ⟨g, m, made, ends⟩ := ends_ok_bind.mp ends
      obtain ⟨same, rfl⟩ := ends_newGroup.mp made
      cases same
      obtain ⟨new, rfl, size, serials, fresh, names, distinct, each⟩ := ih ends
      obtain rfl := name_of_label labelled
      simp only [Bool.or_eq_true, not_or, Bool.not_eq_true] at free
      refine ⟨(s.registry.create family label).1 :: new, by simp, ?_, ?_, fun h known => fresh h ?_, ?_, fun others => ?_,
        .cons ?_ each⟩
      · rw [size, Registry.size_create, List.length_cons]
        omega
      · rw [List.map_cons, serials, List.length_cons, List.range'_succ, Registry.size_create]
        rfl
      · rcases known with old | listed
        · exact Or.inl (old.create family label)
        · rcases List.mem_cons.mp listed with rfl | later
          · exact Or.inl (.of_create s.registry family label)
          · exact Or.inr later
      · exact List.forall_mem_cons.mpr ⟨free.2, names⟩
      · refine distinct ?_
        rw [List.map_append]
        refine List.nodup_append.mpr ⟨others, List.nodup_singleton _, fun other listed name here same => ?_⟩
        obtain ⟨g, earlier, rfl⟩ := List.mem_map.mp listed
        have apart := List.any_eq_false.mp free.1 g earlier
        cases List.mem_singleton.mp here
        exact apart (decide_eq_true same)
      · exact ⟨rfl, named, labelled⟩

/-- The names in a field of an entry stand for the direct members of a group, each for one of them. -/
def Filled (chapter : Chapter) (find : String → Option Object) (registry : Registry) (fields : Fields) (key : String)
    (g : Group) : Prop :=
  ∃ names xs, memberNames chapter fields key = .ok names ∧ Resolves find names xs ∧ (registry.objects g).Perm xs

theorem Filled.congr {find : String → Option Object} {registry after : Registry} {fields : Fields} {key : String}
    {g : Group} (filled : Filled chapter find registry fields key g)
    (same : after.content g = registry.content g) : Filled chapter find after fields key g := by
  obtain ⟨names, xs, listed, resolved, members⟩ := filled
  exact ⟨names, xs, listed, resolved, Registry.objects_congr same ▸ members⟩

/-- Each group comes to hold the objects that its entry names, and no other group changes. -/
theorem ends_fillGroups_ok {family : Family} {find : String → Option Object} {pairs : List (Fields × Group)}
    (fresh : ∀ pair ∈ pairs, s.registry.Fresh pair.2) (once : (pairs.map (·.2.serial)).Nodup)
    (ends : Ends (fillGroups family find pairs) s (.ok ()) t) :
    t.registry.size = s.registry.size ∧
      (∀ h : Group, h.serial ∉ pairs.map (·.2.serial) → t.registry.content h = s.registry.content h) ∧
      ∀ pair ∈ pairs, Filled (groupChapter family) find t.registry pair.1 "members" pair.2 := by
  induction pairs generalizing s with
  | nil =>
    obtain ⟨_, rfl⟩ := ends_pure.mp ends
    exact ⟨rfl, fun _ _ => rfl, by simp⟩
  | cons pair rest ih =>
    obtain ⟨fields, g⟩ := pair
    obtain ⟨absent, later⟩ := List.nodup_cons.mp once
    obtain ⟨here, others⟩ := List.forall_mem_cons.mp fresh
    rw [fillGroups, ends_extracted_ok_bind] at ends
    obtain ⟨names, listed, ends⟩ := ends
    obtain ⟨_, m, added, ends⟩ := ends_ok_bind.mp ends
    obtain ⟨xs, resolved, members, alters⟩ := ends_addMembers_ok here.registered added
    rw [ends_get_bind] at ends
    obtain ⟨_, n, recorded, ends⟩ := ends_ok_bind.mp ends
    obtain ⟨_, rfl⟩ := ends_record.mp recorded
    have unfilled (pair) (found : pair ∈ rest) : m.registry.Fresh pair.2 := by
      have apart : pair.2.serial ≠ g.serial := fun same => absent (List.mem_map.mpr ⟨pair, found, same⟩)
      exact (others pair found).alters apart alters
    obtain ⟨size, elsewhere, each⟩ := ih (by exact unfilled) later ends
    refine ⟨size.trans alters.size_eq, fun h outside => ?_, List.forall_mem_cons.mpr ⟨?_, each⟩⟩
    · obtain ⟨other, outside⟩ := not_or.mp (fun inside => outside (List.mem_cons.mpr inside))
      exact (elsewhere h outside).trans (alters.content_eq h other)
    · refine Filled.congr ⟨names, xs, listed, resolved, ?_⟩ (elsewhere g absent)
      simpa [here.objects_eq_nil] using members

/-- The group of an entry: it has the entry's name and comment, and the objects that the names in the entry's
list stand for are its direct members. -/
structure GroupOf (family : Family) (find : String → Option Object) (registry : Registry) (fields : Fields)
    (g : Group) : Prop where
  joins : g.family = family
  named : requireText (groupChapter family) fields "name" = .ok g.name
  labelled : label fields g.name = .ok g.toLabel
  members : Filled (groupChapter family) find registry fields "members" g

theorem GroupOf.congr {family : Family} {find : String → Option Object} {registry after : Registry} {fields : Fields}
    {g : Group} (groupOf : GroupOf family find registry fields g) (same : after.content g = registry.content g) :
    GroupOf family find after fields g :=
  { groupOf with members := groupOf.members.congr same }

/-- A group has one of the serial numbers given out so far, or none. -/
def Made (registry : Registry) (g : Group) : Prop :=
  g.serial ≤ registry.size

/-- Extracting a section of groups gives the group of each entry, under a name that was free. -/
theorem ends_groups_ok {document : Fields} {family : Family} {made : List Group}
    (ends : Ends (groups document family) s (.ok made) t) :
    ∃ found, entries document (groupChapter family) = .ok found ∧
      List.Forall₂ (GroupOf family (findAmong made (s.inventory.find family)) t.registry) found made ∧
      (∀ g ∈ made, Made t.registry g) ∧ NewNames (s.inventory.find family) made := by
  rw [groups, ends_get_bind, ends_extracted_ok_bind] at ends
  obtain ⟨found, listed, ends⟩ := ends
  obtain ⟨created, m, ran, ends⟩ := ends_ok_bind.mp ends
  obtain ⟨_, n, filled, ends⟩ := ends_ok_bind.mp ends
  obtain ⟨same, rfl⟩ := ends_pure.mp ends
  cases same
  obtain ⟨new, same, size, serials, fresh, free, distinct, each⟩ := ends_createGroups_ok ran
  rw [List.nil_append] at same
  subst same
  have lengths : found.length = made.length := each.length_eq
  have numbers : (found.zip made).map (·.2.serial) = made.map Group.serial := by
    calc (found.zip made).map (·.2.serial)
        = ((found.zip made).map Prod.snd).map Group.serial := by rw [List.map_map]; rfl
      _ = made.map Group.serial := by rw [List.map_snd_zip (Nat.le_of_eq lengths.symm)]
  obtain ⟨resized, _, filled⟩ := ends_fillGroups_ok
    (fun pair inside => fresh pair.2 (Or.inr (List.of_mem_zip inside).2))
    (by rw [numbers, serials]; exact List.nodup_range') filled
  refine ⟨found, listed, ?_, fun g inside => ?_, fun g inside => ?_, distinct .nil⟩
  · refine List.forall₂_iff_zip.mpr ⟨lengths, fun {fields g} inside => ?_⟩
    obtain ⟨joins, named, labelled⟩ := (List.forall₂_iff_zip.mp each).2 inside
    exact ⟨joins, named, labelled, filled _ inside⟩
  · rw [Made, resized]
    exact (fresh g (Or.inr inside)).serial_le
  · simpa using free g inside

def RuleMade (registry : Registry) (rule : Rule) : Prop :=
  Made registry rule.source ∧ Made registry rule.destination ∧ Made registry rule.service

theorem RuleMade.mono {before after : Registry} {rule : Rule} (made : RuleMade before rule)
    (grown : before.size ≤ after.size) : RuleMade after rule :=
  ⟨Nat.le_trans made.1 grown, Nat.le_trans made.2.1 grown, Nat.le_trans made.2.2 grown⟩

/-- The rule of an entry: it has the entry's number, action and comment, and each of its groups is called by the
number and holds the objects that the names of its side stand for. -/
structure RuleOf (find : Family → String → Option Object) (registry : Registry) (fields : Fields) (rule : Rule) :
    Prop where
  numbered : ∃ number allowed, ruleNumber fields = .ok number ∧ rule.number = .int number ∧
    ruleAction fields number = .ok allowed ∧ rule.action = .bool allowed
  commented : written (field fields "comment") = .ok rule.comment
  titled : ∃ numeral, written rule.number = .ok numeral ∧ rule.source.name = "rule-" ++ numeral ++ "-" ++ "source" ∧
    rule.destination.name = "rule-" ++ numeral ++ "-" ++ "destination" ∧
    rule.service.name = "rule-" ++ numeral ++ "-" ++ "service"
  source : Filled .rules (find .address) registry fields "source" rule.source
  destination : Filled .rules (find .address) registry fields "destination" rule.destination
  service : Filled .rules (find .service) registry fields "service" rule.service

theorem RuleOf.isNumbered {find : Family → String → Option Object} {registry : Registry} {fields : Fields}
    {rule : Rule} (ruleOf : RuleOf find registry fields rule) : rule.IsNumbered := by
  obtain ⟨number, _, _, same, _⟩ := ruleOf.numbered
  exact ⟨number, same⟩

theorem forall_isNumbered {find : Family → String → Option Object} {registry : Registry} {found : List Fields}
    {made : List Rule} (each : List.Forall₂ (RuleOf find registry) found made) : ∀ rule ∈ made, rule.IsNumbered := by
  intro rule listed
  obtain ⟨fields, _, ruleOf⟩ := exists_of_forall₂ each listed
  exact ruleOf.isNumbered

theorem RuleOf.spared {find : Family → String → Option Object} {registry after : Registry} {fields : Fields}
    {rule : Rule} (ruleOf : RuleOf find registry fields rule) (made : RuleMade registry rule)
    (spares : registry.Spares registry.size after) : RuleOf find after fields rule :=
  { ruleOf with
    source := ruleOf.source.congr (spares.content_eq _ made.1)
    destination := ruleOf.destination.congr (spares.content_eq _ made.2.1)
    service := ruleOf.service.congr (spares.content_eq _ made.2.2) }

theorem ends_fillSide_ok {fields : Fields} {g : Group} {find : String → Option Object} {side : String}
    (fresh : s.registry.Fresh g) (ends : Ends (fillSide fields g find side) s (.ok ()) t) :
    Filled .rules find t.registry fields side g ∧ Registry.Alters g s.registry t.registry := by
  obtain ⟨names, listed, ends⟩ := ends_extracted_ok_bind.mp ends
  obtain ⟨xs, resolved, members, alters⟩ := ends_addMembers_ok fresh.registered ends
  refine ⟨⟨names, xs, listed, resolved, ?_⟩, alters⟩
  simpa [fresh.objects_eq_nil] using members

/-- Three groups are filled one after another, each without a change to the others. -/
theorem ends_fillSides_ok {m n : Loading} {fields : Fields} {source destination service : Group}
    {addresses services : String → Option Object}
    (first : Ends (fillSide fields source addresses "source") s (.ok ()) m)
    (second : Ends (fillSide fields destination addresses "destination") m (.ok ()) n)
    (third : Ends (fillSide fields service services "service") n (.ok ()) t)
    (fresh : s.registry.Fresh source ∧ s.registry.Fresh destination ∧ s.registry.Fresh service)
    (apart : [source.serial, destination.serial, service.serial].Nodup) :
    t.registry.size = s.registry.size ∧ Filled .rules addresses t.registry fields "source" source ∧
      Filled .rules addresses t.registry fields "destination" destination ∧
      Filled .rules services t.registry fields "service" service := by
  obtain ⟨⟨afterSource, serviceSource⟩, serviceDestination⟩ :
      (source.serial ≠ destination.serial ∧ source.serial ≠ service.serial) ∧
        destination.serial ≠ service.serial := by simpa using apart
  obtain ⟨here, left⟩ := ends_fillSide_ok fresh.1 first
  obtain ⟨there, middle⟩ := ends_fillSide_ok (fresh.2.1.alters afterSource.symm left) second
  obtain ⟨beyond, right⟩ := ends_fillSide_ok
    ((fresh.2.2.alters serviceSource.symm left).alters serviceDestination.symm middle) third
  refine ⟨right.size_eq.trans (middle.size_eq.trans left.size_eq), here.congr ?_, there.congr ?_, beyond⟩
  · exact (right.content_eq _ serviceSource).trans (middle.content_eq _ afterSource)
  · exact right.content_eq _ serviceDestination

/-- The rule of an entry comes with groups of its own, filled from the lists of its sides. -/
theorem ends_rule_ok {inventory : Inventory} {fields : Fields} {made : Rule}
    (ends : Ends (rule inventory fields) s (.ok made) t) :
    RuleOf inventory.find t.registry fields made ∧ RuleMade t.registry made := by
  simp only [rule, ends_extracted_ok_bind, sideGroup, ends_newGroup_bind] at ends
  obtain ⟨number, integer, allowed, action, numeral, shown, ends⟩ := ends
  obtain ⟨_, m, first, ends⟩ := ends_ok_bind.mp ends
  obtain ⟨_, n, second, ends⟩ := ends_ok_bind.mp ends
  obtain ⟨_, o, third, ends⟩ := ends_ok_bind.mp ends
  obtain ⟨comment, commented, ends⟩ := ends_extracted_ok_bind.mp ends
  obtain ⟨same, rfl⟩ := ends_pure.mp ends
  cases same
  obtain ⟨size, source, destination, service⟩ := ends_fillSides_ok first second third
    (by simp [Registry.Fresh.of_create, Registry.Fresh.create])
    (by simp only [Registry.serial_create, Registry.size_create]; simp)
  simp only [Registry.size_create] at size
  refine ⟨⟨⟨number, allowed, integer, rfl, action, rfl⟩, commented, ⟨numeral, shown, rfl, rfl, rfl⟩, source,
    destination, service⟩, ?_, ?_, ?_⟩ <;>
    simp only [Made, Registry.serial_create, Registry.size_create, size] <;> omega

theorem ends_rules_ok {document : Fields} {made : List Rule} (ends : Ends (rules document) s (.ok made) t) :
    ∃ found, entries document .rules = .ok found ∧
      List.Forall₂ (RuleOf s.inventory.find t.registry) found made ∧ ∀ rule ∈ made, RuleMade t.registry rule := by
  rw [rules, ends_get_bind, ends_extracted_ok_bind] at ends
  obtain ⟨found, read, ends⟩ := ends
  refine ⟨found, read, ?_⟩
  clear read
  generalize s.inventory = inventory at ends ⊢
  induction found generalizing s made with
  | nil =>
    obtain ⟨same, rfl⟩ := ends_pure.mp ends
    cases same
    exact ⟨.nil, by simp⟩
  | cons fields rest ih =>
    obtain ⟨head, m, first, ends⟩ := ends_ok_bind.mp ends
    obtain ⟨tail, n, later, ends⟩ := ends_ok_bind.mp ends
    obtain ⟨same, rfl⟩ := ends_pure.mp ends
    cases same
    obtain ⟨ruleOf, numbers⟩ := ends_rule_ok first
    obtain ⟨each, others⟩ := ih later
    have builds : Builds m.registry.size .rules False (ruleList inventory rest) _ := .ruleList inventory False.elim
    have spares := (builds.spares (Nat.le_refl _) later).2
    exact ⟨.cons (ruleOf.spared numbers spares) each,
      List.forall_mem_cons.mpr ⟨numbers.mono spares.size_le, others⟩⟩

end Rulebase.Policy
