import Rulebase.Proofs.Group.Growth
import Rulebase.Proofs.Group.Invariant
import Rulebase.Proofs.Policy.Chapters

/-!
# What making groups leaves alone

While groups are made and filled, nothing is stored and no group made before is touched. It fails only with a
defect of the section at hand or with a number that cannot be written; no numeral is read from a text. This is
shown of the parts that read, make groups and add members, and holds of every sequence of such parts.
-/

namespace Rulebase.Policy

variable {α β : Type} {s t : Loading} {chapter : Chapter} {legible : Prop} {first : Nat}

/-- A part of loading stores nothing and spares the groups with the first serial numbers; its results have a
property, and its failures belong to a section. -/
structure Builds (first : Nat) (chapter : Chapter) (legible : Prop) (x : Load α) (Good : α → Prop) : Prop where
  spares : ∀ {s outcome t}, first ≤ s.registry.size → Ends x s outcome t →
    t.inventory = s.inventory ∧ s.registry.Spares first t.registry
  good : ∀ {s a t}, first ≤ s.registry.size → Ends x s (.ok a) t → Good a
  fails : ∀ {s e t}, first ≤ s.registry.size → Ends x s (.error e) t →
    LoadError.Of chapter legible (fun _ => False) e

namespace Builds

variable {Good : α → Prop} {Fine : β → Prop}

theorem pure {a : α} (good : Good a) : Builds first chapter legible (pure a) Good where
  spares _ ends := by
    obtain ⟨_, rfl⟩ := ends_pure.mp ends
    exact ⟨rfl, .refl _ _⟩
  good _ ends := by
    cases (ends_pure.mp ends).1
    exact good
  fails _ ends := by
    cases (ends_pure.mp ends).1

theorem throw (cause : Defect) :
    Builds first chapter legible (throw (.defect chapter cause) : Load α) fun _ => False where
  spares _ ends := by
    obtain ⟨_, rfl⟩ := ends_throw.mp ends
    exact ⟨rfl, .refl _ _⟩
  good _ ends := by
    cases (ends_throw.mp ends).1
  fails _ ends := by
    cases (ends_throw.mp ends).1
    exact .defect cause

theorem extracted {x : Extracted α} (fails : FailsWith (LoadError.Of chapter legible fun _ => False) x) :
    Builds first chapter legible (extracted x) fun a => x = .ok a where
  spares _ ends := by
    obtain ⟨_, rfl⟩ := ends_extracted.mp ends
    exact ⟨rfl, .refl _ _⟩
  good _ ends := (ends_extracted.mp ends).1.symm
  fails _ ends := fails _ (ends_extracted.mp ends).1.symm

theorem get : Builds first chapter legible (get : Load Loading) fun _ => True where
  spares _ ends := by
    obtain ⟨_, rfl⟩ := ends_get.mp ends
    exact ⟨rfl, .refl _ _⟩
  good _ _ := trivial
  fails _ ends := by
    cases (ends_get.mp ends).1

theorem record (event : Event) : Builds first chapter legible (record event) fun _ => True where
  spares _ ends := by
    obtain ⟨_, rfl⟩ := ends_record.mp ends
    exact ⟨rfl, .refl _ _⟩
  good _ _ := trivial
  fails _ ends := by
    cases (ends_record.mp ends).1

theorem bind {x : Load α} {f : α → Load β} (before : Builds first chapter legible x Good)
    (after : ∀ a, Good a → Builds first chapter legible (f a) Fine) :
    Builds first chapter legible (x >>= f) Fine where
  spares known ends := by
    rcases ends_bind.mp ends with ⟨e, left, _⟩ | ⟨a, m, left, right⟩
    · exact before.spares known left
    · obtain ⟨same, spared⟩ := before.spares known left
      obtain ⟨still, more⟩ := (after a (before.good known left)).spares (Nat.le_trans known spared.size_le) right
      exact ⟨still.trans same, spared.trans more⟩
  good known ends := by
    obtain ⟨a, m, left, right⟩ := ends_ok_bind.mp ends
    have grown := (before.spares known left).2.size_le
    exact (after a (before.good known left)).good (Nat.le_trans known grown) right
  fails known ends := by
    rcases ends_bind.mp ends with ⟨e, left, same⟩ | ⟨a, m, left, right⟩
    · cases same
      exact before.fails known left
    · have grown := (before.spares known left).2.size_le
      exact (after a (before.good known left)).fails (Nat.le_trans known grown) right

end Builds

theorem ends_newGroup {family : Family} {label : Label} {outcome : Extracted { g : Group // g.family = family }} :
    Ends (newGroup family label) s outcome t ↔
      outcome = .ok ⟨(s.registry.create family label).1, rfl⟩ ∧
        t = { s with registry := (s.registry.create family label).2 } := by
  rw [newGroup, ends_get_bind]
  simp only [ends_bind, ends_set, ends_pure]
  constructor
  · rintro (⟨e, ⟨failed, _⟩, _⟩ | ⟨_, m, ⟨_, rfl⟩, rfl, rfl⟩)
    · cases failed
    · exact ⟨rfl, rfl⟩
  · rintro ⟨rfl, rfl⟩
    exact Or.inr ⟨(), _, ⟨trivial, rfl⟩, rfl, rfl⟩

theorem ends_newGroup_bind {family : Family} {label : Label} {f : { g : Group // g.family = family } → Load β}
    {outcome : Extracted β} :
    Ends (newGroup family label >>= f) s outcome t ↔
      Ends (f ⟨(s.registry.create family label).1, rfl⟩)
        { s with registry := (s.registry.create family label).2 } outcome t := by
  simp [ends_bind, ends_newGroup, and_assoc]

theorem ends_addMember {g : Group} {x : Object} {outcome : Extracted Unit}
    (ends : Ends (addMember chapter g x) s outcome t) :
    (outcome = .ok () ∧ x.family = g.family ∧ t.inventory = s.inventory ∧
        t.registry = s.registry.insert g x) ∨
      ∃ cause, outcome = .error (.defect chapter (.refused g.name cause)) ∧ t = s := by
  rw [addMember, ends_get_bind] at ends
  cases offered : s.registry.add g x with
  | error cause =>
    simp only [offered, ends_throw] at ends
    exact Or.inr ⟨cause, ends⟩
  | ok registry =>
    obtain ⟨family, _, _, rfl⟩ := Registry.add_eq_ok.mp offered
    simp only [offered, ends_bind, ends_set, ends_record] at ends
    rcases ends with ⟨e, ⟨failed, _⟩, _⟩ | ⟨_, m, ⟨_, rfl⟩, rfl, rfl⟩
    · cases failed
    · exact Or.inl ⟨rfl, family, rfl, rfl⟩

namespace Builds

theorem newGroup (family : Family) (label : Label) :
    Builds first chapter legible (newGroup family label) fun g => first < g.1.serial where
  spares _ ends := by
    obtain ⟨_, rfl⟩ := ends_newGroup.mp ends
    exact ⟨rfl, .create _ _ family label⟩
  good known ends := by
    cases (ends_newGroup.mp ends).1
    exact Nat.lt_succ_of_le known
  fails _ ends := by
    cases (ends_newGroup.mp ends).1

theorem addMember {g : Group} (later : first < g.serial) (x : Object) :
    Builds first chapter legible (addMember chapter g x) fun _ => True where
  spares _ ends := by
    rcases ends_addMember ends with ⟨_, _, same, grown⟩ | ⟨_, _, rfl⟩
    · exact ⟨same, grown ▸ .insert later⟩
    · exact ⟨rfl, .refl _ _⟩
  good _ _ := trivial
  fails _ ends := by
    rcases ends_addMember ends with ⟨passed, _⟩ | ⟨cause, same, _⟩
    · cases passed
    · cases same
      exact .defect _

theorem addMembers {g : Group} (later : first < g.serial) (find : String → Option Object) {names : List Value}
    (writable : legible → ∀ v ∈ names, v.isWritable = true) :
    Builds first chapter legible (addMembers chapter g find names) fun _ => True := by
  induction names with
  | nil => exact pure trivial
  | cons v rest ih =>
    refine (extracted (fails_written fun holds => writable holds v List.mem_cons_self)).bind fun name _ => ?_
    have others := ih fun holds v listed => writable holds v (List.mem_cons_of_mem _ listed)
    dsimp only
    split
    · exact (throw _).bind fun _ never => never.elim
    · exact (addMember later _).bind fun _ _ => others

theorem createGroups (family : Family) (taken : String → Bool) {created : List Group}
    (later : ∀ g ∈ created, first < g.serial) {entries : List Fields}
    (writable : legible → ∀ fields ∈ entries, Writable fields) :
    Builds first (groupChapter family) legible (createGroups family taken created entries)
      fun groups => ∀ g ∈ groups, first < g.serial := by
  induction entries generalizing created with
  | nil => exact pure later
  | cons fields rest ih =>
    have here (holds : legible) : Writable fields := writable holds fields List.mem_cons_self
    refine (extracted (fails_requireText here "name")).bind fun name _ => ?_
    have go : Builds first (groupChapter family) legible (do
        let g ← Policy.newGroup family (← Policy.extracted (label fields name))
        Policy.createGroups family taken (created ++ [g.1]) rest) fun groups => ∀ g ∈ groups, first < g.serial := by
      refine (extracted (fails_label here name)).bind fun label _ => ?_
      refine (newGroup family label).bind fun g new => ih ?_ fun holds fields listed => ?_
      · exact List.forall_mem_append.mpr ⟨later, by simpa using new⟩
      · exact writable holds fields (List.mem_cons_of_mem _ listed)
    dsimp only
    split
    · exact (throw _).bind fun _ never => never.elim
    · exact go

theorem fillGroups (family : Family) (find : String → Option Object) {pairs : List (Fields × Group)}
    (later : ∀ pair ∈ pairs, first < pair.2.serial) (writable : legible → ∀ pair ∈ pairs, Writable pair.1) :
    Builds first (groupChapter family) legible (fillGroups family find pairs) fun _ => True := by
  induction pairs with
  | nil => exact pure trivial
  | cons pair rest ih =>
    obtain ⟨head, tail⟩ := List.forall_mem_cons.mp later
    have others := ih tail fun holds pair listed => writable holds pair (List.mem_cons_of_mem _ listed)
    refine (extracted (fails_memberNames "members")).bind fun names listed => ?_
    refine (addMembers head find fun holds => ?_).bind fun _ _ => get.bind fun state _ => ?_
    · exact (writable holds pair List.mem_cons_self).memberNames listed
    · exact (record _).bind fun _ _ => others

theorem groups (family : Family) {document : Fields} (writable : legible → Writable document) :
    Builds first (groupChapter family) legible (groups document family)
      fun groups => ∀ g ∈ groups, first < g.serial := by
  refine get.bind fun state _ => (extracted (fails_entries writable)).bind fun entries read => ?_
  have each (holds : legible) := (writable holds).entries read
  refine (createGroups family _ (by simp) each).bind fun created new => ?_
  refine (fillGroups family _ (fun pair listed => ?_) fun holds pair listed => ?_).bind fun _ _ => pure new
  · exact new pair.2 (List.of_mem_zip listed).2
  · exact each holds pair.1 (List.of_mem_zip listed).1

theorem fillSide {g : Group} (later : first < g.serial) {fields : Fields} (writable : legible → Writable fields)
    (find : String → Option Object) (side : String) :
    Builds first .rules legible (fillSide fields g find side) fun _ => True :=
  (extracted (fails_memberNames side)).bind fun _ listed =>
    addMembers later find fun holds => (writable holds).memberNames listed

theorem rule (inventory : Inventory) {fields : Fields} (writable : legible → Writable fields) :
    Builds first .rules legible (rule inventory fields) fun _ => True := by
  refine (extracted (fails_ruleNumber writable)).bind fun number found => ?_
  have numeral (holds : legible) : Text.isWritable number = true := (writable holds).ruleNumber found
  refine (extracted (fails_ruleAction writable numeral)).bind fun allowed _ => ?_
  refine (extracted (fails_written fun holds => ?_)).bind fun shown _ => ?_
  · rw [Value.isWritable]
    exact numeral holds
  refine (newGroup _ _).bind fun source here => (newGroup _ _).bind fun destination there => ?_
  refine (newGroup _ _).bind fun service beyond => ?_
  refine (fillSide here writable _ _).bind fun _ _ => (fillSide there writable _ _).bind fun _ _ => ?_
  refine (fillSide beyond writable _ _).bind fun _ _ => ?_
  exact (extracted (fails_written fun holds => (writable holds).field "comment")).bind fun comment _ => pure trivial

theorem ruleList (inventory : Inventory) {entries : List Fields}
    (writable : legible → ∀ fields ∈ entries, Writable fields) :
    Builds first .rules legible (ruleList inventory entries) fun _ => True := by
  induction entries with
  | nil => exact pure trivial
  | cons fields rest ih =>
    have others := ih fun holds fields listed => writable holds fields (List.mem_cons_of_mem _ listed)
    refine (rule inventory fun holds => writable holds fields List.mem_cons_self).bind fun head _ => ?_
    exact others.bind fun tail _ => pure trivial

theorem rules {document : Fields} (writable : legible → Writable document) :
    Builds first .rules legible (rules document) fun _ => True :=
  get.bind fun state _ => (extracted (fails_entries writable)).bind fun _ read =>
    ruleList state.inventory fun holds => (writable holds).entries read

/-- What is built and then stored fails before it is stored, or is stored from a state with the same inventory. -/
theorem ends_bind {Good : α → Prop} {x : Load α} {f : α → Load β} {outcome : Extracted β}
    (builds : Builds s.registry.size chapter legible x Good) (ends : Ends (x >>= f) s outcome t) :
    (∃ e, outcome = .error e ∧ LoadError.Of chapter legible (fun _ => False) e ∧ t.inventory = s.inventory ∧
        s.registry.Spares s.registry.size t.registry) ∨
      ∃ a m, Ends x s (.ok a) m ∧ m.inventory = s.inventory ∧ s.registry.Spares s.registry.size m.registry ∧
        Ends (f a) m outcome t := by
  have known : s.registry.size ≤ s.registry.size := Nat.le_refl _
  rcases Policy.ends_bind.mp ends with ⟨e, failed, rfl⟩ | ⟨a, m, built, rest⟩
  · obtain ⟨same, spares⟩ := builds.spares known failed
    exact Or.inl ⟨e, rfl, builds.fails known failed, same, spares⟩
  · obtain ⟨same, spares⟩ := builds.spares known built
    exact Or.inr ⟨a, m, built, same, spares, rest⟩

end Builds

end Rulebase.Policy
