import Rulebase.Proofs.Policy.Redrafting

/-!
# Loading from twin states

Two states are twins when they have the same leaves stored, groups of the same names, and parallel registries. What is
extracted with success from one of them is extracted with success from the other, and leads to twins again. So from
where two extractions have made the same groups in different orders, they go on alike.
-/

namespace Rulebase.Policy

variable {α β γ δ : Type} {R : Group → Group → Prop} {s s' t : Loading} {chapter : Chapter} {family : Family}

/-- Nothing tells two states apart but the serial numbers of related groups; groups that are yet to be made are related
to themselves. -/
structure Twin (R : Group → Group → Prop) (s s' : Loading) : Prop where
  parallel : Registry.Parallel R s.registry s'.registry
  later : ∀ g : Group, s.registry.size < g.serial → R g g
  leaves : ∀ family : Family, ∀ chapter ∈ family.leafChapters,
    (s.inventory.store chapter).values = (s'.inventory.store chapter).values
  groups : ∀ family name, Option.Rel R ((s.inventory.groupStore family).values.find? (·.name = name))
    ((s'.inventory.groupStore family).values.find? (·.name = name))
  numbered : Numbered s.inventory ∧ Numbered s'.inventory

/-- Twins stay twins when something is stored and no group is made or changed. -/
theorem Twin.store {t' : Loading} (twin : Twin R s s') (registry : t.registry = s.registry)
    (registry' : t'.registry = s'.registry)
    (leaves : ∀ family : Family, ∀ chapter ∈ family.leafChapters,
      (t.inventory.store chapter).values = (t'.inventory.store chapter).values)
    (groups : ∀ family name, Option.Rel R ((t.inventory.groupStore family).values.find? (·.name = name))
      ((t'.inventory.groupStore family).values.find? (·.name = name)))
    (numbered : Numbered t.inventory ∧ Numbered t'.inventory) : Twin R t t' := by
  refine ⟨?_, ?_, leaves, groups, numbered⟩
  · rw [registry, registry']
    exact twin.parallel
  · rw [registry]
    exact twin.later

theorem exists_leaf_of_findSome? {inventory : Inventory} {name : String} {x : Object}
    (found : family.leafChapters.findSome? (lookUp inventory name) = some x) : ∃ y, x = .leaf y := by
  obtain ⟨chapter, listed, here⟩ := List.exists_of_findSome?_eq_some found
  obtain ⟨y, _, same⟩ := Option.bind_eq_some_iff.mp here
  cases chapter with
  | groups | portGroups | rules => exact absurd listed (by cases family <;> decide)
  | _ =>
    cases same
    exact ⟨_, rfl⟩

theorem Twin.find (twin : Twin R s s') (family : Family) (name : String) :
    Option.Rel (Registry.Related R) (s.inventory.find family name) (s'.inventory.find family name) := by
  rw [find_eq_or, find_eq_or, ← findSome?_lookUp_congr (twin.leaves family)]
  cases found : family.leafChapters.findSome? (lookUp s.inventory name) with
  | some x =>
    obtain ⟨y, rfl⟩ := exists_leaf_of_findSome? found
    exact .some (.leaf y)
  | none =>
    have groups := twin.groups family name
    generalize (s.inventory.groupStore family).values.find? (·.name = name) = left at groups ⊢
    generalize (s'.inventory.groupStore family).values.find? (·.name = name) = right at groups ⊢
    cases groups with
    | none => exact .none
    | some level => exact .some (.group level)

theorem Twin.isSome_find (twin : Twin R s s') (family : Family) (name : String) :
    (s.inventory.find family name).isSome = (s'.inventory.find family name).isSome := by
  have pair := twin.find family name
  generalize s.inventory.find family name = left at pair ⊢
  generalize s'.inventory.find family name = right at pair ⊢
  cases pair <;> rfl

/-- A part of loading that succeeds from a state is followed from its twin by another part, with a result that goes with
its own. -/
def Follows (R : Group → Group → Prop) (x : Load α) (x' : Load β) (A : α → β → Prop) : Prop :=
  ∀ s s' a t, Twin R s s' → Ends x s (.ok a) t → ∃ a' t', Ends x' s' (.ok a') t' ∧ Twin R t t' ∧ A a a'

namespace Follows

variable {A : α → β → Prop} {B : γ → δ → Prop}

theorem pure {a : α} {a' : β} (level : A a a') : Follows R (pure a) (pure a') A := by
  intro s s' b t twin ends
  obtain ⟨same, rfl⟩ := ends_pure.mp ends
  cases same
  exact ⟨a', s', ends_pure.mpr ⟨rfl, rfl⟩, twin, level⟩

theorem bind {x : Load α} {x' : Load β} {f : α → Load γ} {f' : β → Load δ} (first : Follows R x x' A)
    (second : ∀ a a', A a a' → Follows R (f a) (f' a') B) : Follows R (x >>= f) (x' >>= f') B := by
  intro s s' c t twin ends
  obtain ⟨a, m, left, right⟩ := ends_ok_bind.mp ends
  obtain ⟨a', m', left', between, level⟩ := first s s' a m twin left
  obtain ⟨c', t', right', after, level'⟩ := second a a' level m m' c t between right
  exact ⟨c', t', ends_ok_bind.mpr ⟨a', m', left', right'⟩, after, level'⟩

theorem throw (e : LoadError) (x' : Load β) : Follows R (throw e : Load α) x' fun _ _ => False := by
  intro s s' a t _ ends
  cases (ends_throw.mp ends).1

theorem extracted {read : Extracted α} {f : α → Load γ} {f' : α → Load δ}
    (rest : ∀ a, Follows R (f a) (f' a) B) : Follows R (extracted read >>= f) (extracted read >>= f') B := by
  intro s s' c t twin ends
  obtain ⟨a, done, ends⟩ := ends_extracted_ok_bind.mp ends
  obtain ⟨c', t', ends', found⟩ := rest a s s' c t twin ends
  exact ⟨c', t', ends_extracted_ok_bind.mpr ⟨a, done, ends'⟩, found⟩

theorem get {f f' : Loading → Load γ} {C : γ → γ → Prop}
    (rest : ∀ s s', Twin R s s' → Follows R (f s) (f' s') C) : Follows R (get >>= f) (get >>= f') C := by
  intro s s' c t twin ends
  obtain ⟨c', t', ends', found⟩ := rest s s' twin s s' c t twin (ends_get_bind.mp ends)
  exact ⟨c', t', ends_get_bind.mpr ends', found⟩

theorem record (event event' : Event) : Follows R (record event) (record event') fun _ _ => True := by
  intro s s' _ t twin ends
  obtain ⟨_, rfl⟩ := ends_record.mp ends
  exact ⟨(), _, ends_record.mpr ⟨rfl, rfl⟩, { twin with }, trivial⟩

theorem newGroup (family : Family) (label : Label) :
    Follows R (newGroup family label) (newGroup family label) fun g g' => R g.1 g'.1 := by
  intro s s' g t twin ends
  obtain ⟨same, rfl⟩ := ends_newGroup.mp ends
  cases same
  have new : R (s.registry.create family label).1 (s.registry.create family label).1 :=
    twin.later _ (Nat.lt_succ_self _)
  obtain ⟨same, parallel⟩ := twin.parallel.create family label new
  refine ⟨_, _, ends_newGroup.mpr ⟨rfl, rfl⟩, { twin with parallel, later := fun h beyond => ?_ }, ?_⟩
  · rw [Registry.size_create] at beyond
    exact twin.later h (Nat.lt_of_succ_lt beyond)
  · show R _ (s'.registry.create family label).1
    rw [same]
    exact new

end Follows

theorem ends_addMember_ok {g : Group} {x : Object} :
    Ends (addMember chapter g x) s (.ok ()) t ↔ ∃ after, s.registry.add g x = .ok after ∧
      t = { s with registry := after, log := s.log ++ [.added x g (s.registry.slot g x)] } := by
  rw [addMember, ends_get_bind]
  cases offered : s.registry.add g x with
  | error cause => simp
  | ok after => simp [ends_ok_bind]

theorem rel_find?_of_forall₂ {made made' : List Group} (named : ∀ g g', R g g' → g.name = g'.name)
    (related : List.Forall₂ R made made') (name : String) :
    Option.Rel R (made.find? (·.name = name)) (made'.find? (·.name = name)) := by
  induction related with
  | nil => exact .none
  | @cons g g' _ _ level _ ih =>
    have same := named g g' level
    by_cases here : g.name = name
    · rw [List.find?_cons_of_pos (by simpa using here), List.find?_cons_of_pos (by simpa [← same] using here)]
      exact .some level
    · rw [List.find?_cons_of_neg (by simpa using here), List.find?_cons_of_neg (by simpa [← same] using here)]
      exact ih

namespace Follows

variable {g g' : Group}

theorem addMember (chapter : Chapter) {x x' : Object} (level : R g g') (offered : Registry.Related R x x') :
    Follows R (addMember chapter g x) (addMember chapter g' x') fun _ _ => True := by
  intro s s' _ t twin ends
  obtain ⟨after, taken, rfl⟩ := ends_addMember_ok.mp ends
  obtain ⟨after', taken', parallel⟩ := twin.parallel.add level offered taken
  refine ⟨(), _, ends_addMember_ok.mpr ⟨after', taken', rfl⟩, { twin with parallel, later := fun h beyond => ?_ },
    trivial⟩
  obtain ⟨_, _, _, rfl⟩ := Registry.add_eq_ok.mp taken
  rw [Registry.size_insert] at beyond
  exact twin.later h beyond

theorem addMembers (chapter : Chapter) {find find' : String → Option Object} (level : R g g')
    (found : ∀ name, Option.Rel (Registry.Related R) (find name) (find' name)) (names : List Value) :
    Follows R (addMembers chapter g find names) (addMembers chapter g' find' names) fun _ _ => True := by
  induction names with
  | nil => exact pure trivial
  | cons v rest ih =>
    refine extracted fun name => ?_
    have pair := found name
    generalize find name = left at pair ⊢
    generalize find' name = right at pair ⊢
    cases pair with
    | none => exact (throw _ _).bind fun _ _ never => never.elim
    | some offered => exact (addMember chapter level offered).bind fun _ _ _ => ih

theorem createGroups (family : Family) (taken : String → Bool) (found : List Fields) {created created' : List Group}
    (named : ∀ g g', R g g' → g.name = g'.name) (related : List.Forall₂ R created created') :
    Follows R (createGroups family taken created found) (createGroups family taken created' found)
      (List.Forall₂ R) := by
  induction found generalizing created created' with
  | nil => exact pure related
  | cons fields rest ih =>
    refine extracted fun name => ?_
    have same : created.any (·.name = name) = created'.any (·.name = name) :=
      any_eq_of_forall₂ related fun g g' level => by rw [named g g' level]
    rw [same]
    split
    · exact (throw _ _).bind fun _ _ never => never.elim
    · exact extracted fun given => (newGroup family given).bind fun g g' level =>
        ih (List.rel_append related (.cons level .nil))

theorem fillGroups (family : Family) {find find' : String → Option Object}
    (found : ∀ name, Option.Rel (Registry.Related R) (find name) (find' name)) {pairs pairs' : List (Fields × Group)}
    (related : List.Forall₂ (fun pair pair' => pair.1 = pair'.1 ∧ R pair.2 pair'.2) pairs pairs') :
    Follows R (fillGroups family find pairs) (fillGroups family find' pairs') fun _ _ => True := by
  induction related with
  | nil => exact pure trivial
  | @cons pair pair' _ _ head _ ih =>
    obtain ⟨fields, g⟩ := pair
    obtain ⟨fields', g'⟩ := pair'
    obtain ⟨rfl, level⟩ := head
    refine extracted fun names => (addMembers _ level found names).bind fun _ _ _ => ?_
    exact get fun state state' _ => (record _ _).bind fun _ _ _ => ih

theorem groups {document document' : Fields} (family : Family)
    (same : entries document' (groupChapter family) = entries document (groupChapter family)) :
    Follows R (groups document family) (groups document' family) (List.Forall₂ R) := by
  refine get fun s s' twin => ?_
  dsimp only
  rw [same]
  refine extracted fun found => ?_
  have taken : (fun name => (s.inventory.find family name).isSome) =
      fun name => (s'.inventory.find family name).isSome := funext fun name => twin.isSome_find family name
  rw [taken]
  refine (createGroups family _ found (fun _ _ => twin.parallel.name) .nil).bind fun created created' related => ?_
  refine (fillGroups family (fun name => ?_) (forall₂_zip related found)).bind fun _ _ _ => pure related
  exact rel_findAmong (rel_find?_of_forall₂ (fun _ _ => twin.parallel.name) related name) (twin.find family name)

theorem fillSide (fields : Fields) {find find' : String → Option Object} (level : R g g')
    (found : ∀ name, Option.Rel (Registry.Related R) (find name) (find' name)) (side : String) :
    Follows R (fillSide fields g find side) (fillSide fields g' find' side) fun _ _ => True :=
  extracted fun names => addMembers .rules level found names

theorem rule {inventory inventory' : Inventory} (fields : Fields)
    (found : ∀ family name, Option.Rel (Registry.Related R) (inventory.find family name)
      (inventory'.find family name)) :
    Follows R (rule inventory fields) (rule inventory' fields) fun _ _ => True := by
  refine extracted fun number => extracted fun allowed => extracted fun numeral => ?_
  refine (newGroup _ _).bind fun source source' here => (newGroup _ _).bind fun destination destination' there => ?_
  refine (newGroup _ _).bind fun service service' beyond => ?_
  refine (fillSide fields here (found .address) "source").bind fun _ _ _ => ?_
  refine (fillSide fields there (found .address) "destination").bind fun _ _ _ => ?_
  refine (fillSide fields beyond (found .service) "service").bind fun _ _ _ => ?_
  exact extracted fun comment => pure trivial

theorem ruleList {inventory inventory' : Inventory} (entries : List Fields)
    (found : ∀ family name, Option.Rel (Registry.Related R) (inventory.find family name)
      (inventory'.find family name)) :
    Follows R (ruleList inventory entries) (ruleList inventory' entries) fun _ _ => True := by
  induction entries with
  | nil => exact pure trivial
  | cons fields rest ih => exact (rule fields found).bind fun _ _ _ => ih.bind fun _ _ _ => pure trivial

theorem rules {document document' : Fields} (same : entries document' .rules = entries document .rules) :
    Follows R (rules document) (rules document') fun _ _ => True := by
  refine get fun s s' twin => ?_
  dsimp only
  rw [same]
  exact extracted fun found => ruleList found twin.find

end Follows

theorem Twin.storeGroups {t' : Loading} {made made' : List Group} {outcome outcome' : Extracted Unit}
    (twin : Twin R s s')
    (level : ∀ name, Option.Rel R (made.find? (·.name = name)) (made'.find? (·.name = name)))
    (kept : Ends (keepAll (groupShelf family) made) s outcome t)
    (kept' : Ends (keepAll (groupShelf family) made') s' outcome' t') : Twin R t t' := by
  obtain ⟨_, registry, gains, elsewhere⟩ := ends_keepGroups kept
  obtain ⟨_, registry', gains', elsewhere'⟩ := ends_keepGroups kept'
  have notRules := (groupChapter_ne_rules family).symm
  apply twin.store registry registry'
  case leaves =>
    intro other chapter listed
    have notGroups : chapter ≠ groupChapter family := ne_groupChapter_of_mem listed
    rw [elsewhere chapter notGroups, elsewhere' chapter notGroups]
    exact twin.leaves other chapter listed
  case groups =>
    intro other name
    have before := twin.groups other name
    by_cases same : other = family
    · subst same
      rw [gains.values_eq, gains'.values_eq, List.find?_append, List.find?_append]
      generalize (s.inventory.groupStore other).values.find? (·.name = name) = left at before ⊢
      generalize (s'.inventory.groupStore other).values.find? (·.name = name) = right at before ⊢
      cases before with
      | some level => exact .some level
      | none => exact level name
    · rw [groupStore_congr (elsewhere _ (groupChapter_ne same)), groupStore_congr (elsewhere' _ (groupChapter_ne same))]
      exact before
  case numbered =>
    rw [Numbered, Numbered, elsewhere _ notRules, elsewhere' _ notRules]
    exact twin.numbered

section Stages

variable {document document' : Fields} {leafSection : LeafSection chapter} {xs : List chapter.Content}

/-- Leaves are extracted with success when every entry is read and no name is taken. -/
theorem ends_leaves_ok (given : chapter.leafSection? = some leafSection)
    (ends : Ends (stage document chapter) s (.ok ()) t) :
    ∃ xs, leaves document chapter leafSection.read = .ok xs ∧ t.registry = s.registry ∧
      Appends chapter xs s.inventory t.inventory ∧
      ∀ front x back, xs = front ++ x :: back → ¬ Taken s.inventory leafSection front x := by
  rw [stage_leaves given] at ends
  rcases ends_extractLeaves ends with ⟨e, _, failed, _⟩ |
    ⟨kept, rest, read, registry, appends, free, ⟨rfl, _⟩ | ⟨_, _, _, _, failed⟩⟩
  · cases failed
  · rw [List.append_nil] at read
    exact ⟨kept, read, registry, appends, free⟩
  · cases failed

theorem exists_ends_leaves (given : chapter.leafSection? = some leafSection)
    (read : leaves document chapter leafSection.read = .ok xs)
    (free : ∀ front x back, xs = front ++ x :: back → ¬ Taken s.inventory leafSection front x) :
    ∃ t, Ends (stage document chapter) s (.ok ()) t := by
  obtain ⟨outcome, t, ends⟩ := exists_ends (stage document chapter) s
  refine ⟨t, ?_⟩
  rw [stage_leaves given] at ends ⊢
  rcases ends_extractLeaves ends with ⟨e, failed, _⟩ |
    ⟨kept, rest, read', _, _, _, ⟨_, rfl⟩ | ⟨x, more, rfl, taken, _⟩⟩
  · cases read.symm.trans failed
  · exact ends
  · exact absurd taken (free kept x more (Except.ok.inj (read.symm.trans read')))

/-- Leaves that are stored from one state are stored from its twin. -/
theorem follows_leaves (given : chapter.leafSection? = some leafSection)
    (same : entries document' chapter = entries document chapter) :
    Follows R (stage document chapter) (stage document' chapter) fun _ _ => True := by
  intro s s' _ t twin ends
  obtain ⟨xs, read, registry, appends, free⟩ := ends_leaves_ok given ends
  have read' : leaves document' chapter leafSection.read = .ok xs := by
    rw [leaves, same]
    exact read
  obtain ⟨t', ends'⟩ := exists_ends_leaves (s := s') given read' fun front x back split => by
    rw [Taken, ← twin.isSome_find]
    exact free front x back split
  obtain ⟨xs', reread, registry', appends', _⟩ := ends_leaves_ok given ends'
  cases read'.symm.trans reread
  refine ⟨(), t', ends', ?_, trivial⟩
  apply twin.store registry registry'
  case leaves =>
    intro family other listed
    by_cases here : other = chapter
    · subst here
      rw [appends.here.values_eq, appends'.here.values_eq, twin.leaves family other listed]
    · rw [appends.elsewhere other here, appends'.elsewhere other here]
      exact twin.leaves family other listed
  case groups =>
    intro family name
    rw [groupStore_congr (appends.elsewhere _ (leafSection.ne_groupChapter family).symm),
      groupStore_congr (appends'.elsewhere _ (leafSection.ne_groupChapter family).symm)]
    exact twin.groups family name
  case numbered =>
    have notRules := leafSection.ne_rules.symm
    rw [Numbered, Numbered, appends.elsewhere _ notRules, appends'.elsewhere _ notRules]
    exact twin.numbered

/-- Groups that are stored from one state are stored from its twin. -/
theorem follows_groups (same : entries document' (groupChapter family) = entries document (groupChapter family)) :
    Follows R (stage document (groupChapter family)) (stage document' (groupChapter family)) fun _ _ => True := by
  intro s s' _ t twin ends
  rw [stage_groups] at ends ⊢
  obtain ⟨made, m, extracted, kept⟩ := ends_ok_bind.mp ends
  obtain ⟨made', m', extracted', between, related⟩ := Follows.groups family same s s' made m twin extracted
  obtain ⟨outcome, t', kept'⟩ := exists_ends (keepAll (groupShelf family) made') m'
  obtain ⟨rfl, _⟩ := ends_keepGroups kept'
  have level := rel_find?_of_forall₂ (fun _ _ => between.parallel.name) related
  exact ⟨(), t', ends_ok_bind.mpr ⟨made', m', extracted', kept'⟩, between.storeGroups level kept kept', trivial⟩

/-- Rules that are stored from one state are stored from its twin. -/
theorem follows_rules (same : entries document' .rules = entries document .rules) :
    Follows R (stage document .rules) (stage document' .rules) fun _ _ => True := by
  intro s s' _ t twin ends
  obtain ⟨made, m, extracted, kept⟩ := ends_ok_bind.mp ends
  obtain ⟨made', m', extracted', between, _⟩ := Follows.rules same s s' made m twin extracted
  obtain ⟨outcome, t', kept'⟩ := exists_ends (keepAll (Chapter.shelf .rules) made') m'
  obtain ⟨_, _, each, _⟩ := ends_rules_ok extracted
  obtain ⟨_, _, each', _⟩ := ends_rules_ok extracted'
  obtain ⟨_, registry, inserts⟩ := ends_keepAll_rules (forall_isNumbered each) between.numbered.1 kept
  obtain ⟨rfl, registry', inserts'⟩ := ends_keepAll_rules (forall_isNumbered each') between.numbered.2 kept'
  refine ⟨(), t', ends_ok_bind.mpr ⟨made', m', extracted', kept'⟩, ?_, trivial⟩
  apply between.store registry registry'
  case leaves =>
    intro family chapter listed
    have notRules := ne_rules_of_mem (List.mem_append_left _ listed)
    rw [inserts.elsewhere chapter notRules, inserts'.elsewhere chapter notRules]
    exact between.leaves family chapter listed
  case groups =>
    intro family name
    have notRules := groupChapter_ne_rules family
    rw [groupStore_congr (inserts.elsewhere _ notRules), groupStore_congr (inserts'.elsewhere _ notRules)]
    exact between.groups family name
  case numbered =>
    exact ⟨inserts.numbered (forall_isNumbered each) between.numbered.1,
      inserts'.numbered (forall_isNumbered each') between.numbered.2⟩

theorem follows_stages {chapters : List Chapter}
    (same : ∀ chapter ∈ chapters, entries document' chapter = entries document chapter) :
    Follows R (stages document chapters) (stages document' chapters) fun _ _ => True := by
  induction chapters with
  | nil => exact .pure trivial
  | cons chapter rest ih =>
    obtain ⟨here, later⟩ := List.forall_mem_cons.mp same
    have stage : Follows R (stage document chapter) (stage document' chapter) fun _ _ => True := by
      rcases chapter.leaves_or_groups_or_rules with ⟨leafSection, given⟩ | ⟨family, rfl⟩ | rfl
      · exact follows_leaves given here
      · exact follows_groups here
      · exact follows_rules here
    exact stage.bind fun _ _ _ => ih later

end Stages

end Rulebase.Policy
