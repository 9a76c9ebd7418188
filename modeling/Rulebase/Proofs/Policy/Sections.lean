import Rulebase.Proofs.Policy.Stages

/-!
# Where an extraction stops

The sections are extracted in a fixed order, and the first failure ends the extraction. What was extracted up
to there is complete, what comes later is as it was, and in the section that failed nothing is stored, except
for the leaves in front of the first one whose name is taken. Whatever the outcome, what was stored before is
stored still, in the same order, and the groups made before are as they were.
-/

namespace Rulebase.Policy

variable {document : Fields} {chapter : Chapter} {s t m : Loading} {outcome : Extracted Unit}

def stages (document : Fields) : List Chapter → Load Unit
  | [] => return
  | chapter :: rest => do
    stage document chapter
    stages document rest

/-- A policy is extracted section by section, and then the log is written. -/
theorem exists_ends_stages (ends : Ends (extract document) s outcome t) :
    ∃ log, Ends (stages document Chapter.order) s outcome { t with log } := by
  have split : extract document = (do
      stages document Chapter.order
      let inventory := (← get).inventory
      record (.loaded inventory.rules.size inventory.groups.size inventory.portGroups.size) : Load Unit) := by
    simp only [extract, stages, stage, Chapter.order, bind_assoc, pure_bind]
  rw [split, ends_bind] at ends
  rcases ends with ⟨e, failed, rfl⟩ | ⟨_, m, ran, ends⟩
  · exact ⟨t.log, failed⟩
  · rw [ends_get_bind] at ends
    obtain ⟨rfl, rfl⟩ := ends_record.mp ends
    exact ⟨m.log, ran⟩

/-- What has been reached when some sections have been extracted. -/
structure Progress (document : Fields) (s : Loading) (done : List Chapter) (m : Loading) : Prop where
  settled : Settled m
  order : ∀ chapter, (s.inventory.store chapter).entries.Sublist (m.inventory.store chapter).entries
  spares : s.registry.Spares s.registry.size m.registry
  complete : ∀ chapter ∈ done, Complete document chapter s.inventory m
  pending : ∀ chapter, chapter ∉ done → m.inventory.store chapter = s.inventory.store chapter

theorem Progress.start (settled : Settled s) : Progress document s [] s where
  settled := settled
  order _ := .refl _
  spares := .refl _ _
  complete := by simp
  pending _ _ := rfl

theorem Complete.of_store_eq {before other : Inventory} (complete : Complete document chapter before t)
    (same : before.store chapter = other.store chapter) : Complete document chapter other t where
  leaves leafSection given := by
    obtain ⟨xs, read, gains⟩ := complete.leaves leafSection given
    exact ⟨xs, read, same ▸ gains⟩
  groups family group := by
    obtain ⟨found, made, read, gains, each⟩ := complete.groups family group
    subst group
    exact ⟨found, made, read, groupStore_congr same ▸ gains, each⟩
  rules is := by
    subst is
    rw [← same]
    exact complete.rules rfl

/-- A section that is complete stays so while later sections are extracted. -/
theorem Complete.later {before : Inventory} {next : Chapter} (complete : Complete document chapter before m)
    (settled : Settled m) (earlier : chapter.Before next) (advances : Advances next m t) :
    Complete document chapter before t where
  leaves leafSection given := by
    obtain ⟨xs, read, gains⟩ := complete.leaves leafSection given
    exact ⟨xs, read, advances.elsewhere chapter earlier.ne ▸ gains⟩
  groups family same := by
    subst same
    obtain ⟨found, made, read, gains, each⟩ := complete.groups family rfl
    have kept := groupStore_congr (advances.elsewhere _ earlier.ne)
    have names : t.inventory.find family = m.inventory.find family := by
      refine find_congr fun other listed => advances.elsewhere other ?_
      rintro rfl
      exact Chapter.notMem_chapters_of_before earlier listed
    refine ⟨found, made, read, kept ▸ gains, ?_⟩
    rw [names]
    obtain ⟨lengths, each⟩ := List.forall₂_iff_zip.mp each
    refine List.forall₂_iff_zip.mpr ⟨lengths, fun {fields g} listed => ?_⟩
    have stored : g ∈ (m.inventory.groupStore family).values := by
      rw [gains.values_eq]
      exact List.mem_append_right _ (List.of_mem_zip listed).2
    have same := advances.spares.content_eq g (settled.made g (Or.inl ⟨family, stored⟩))
    exact (each listed).congr same
  rules same := by
    subst same
    exact absurd earlier (by cases next <;> decide)

theorem Progress.relog {done : List Chapter} {log : List Event} (progress : Progress document s done { t with log }) :
    Progress document s done t where
  settled := ⟨progress.settled.made, progress.settled.numbered⟩
  order := progress.order
  spares := progress.spares
  complete chapter listed :=
    have complete := progress.complete chapter listed
    ⟨complete.leaves, complete.groups, complete.rules⟩
  pending := progress.pending

section Onward

variable {done rest : List Chapter}

/-- What was stored at the start keeps its order, whatever comes of the next section. -/
theorem Progress.order_of_advances (progress : Progress document s done m) (advances : Advances chapter m t)
    (other : Chapter) : (s.inventory.store other).entries.Sublist (t.inventory.store other).entries := by
  by_cases same : other = chapter
  · subst same
    exact (progress.order other).trans advances.order
  · exact advances.elsewhere other same ▸ progress.order other

/-- The groups of the start are left alone, whatever comes of the next section. -/
theorem Progress.spares_of_advances (progress : Progress document s done m) (advances : Advances chapter m t) :
    s.registry.Spares s.registry.size t.registry :=
  progress.spares.trans (advances.spares.mono progress.spares.size_le)

/-- The sections in front of the next one stay complete, whatever comes of it. -/
theorem Progress.complete_of_advances (progress : Progress document s done m)
    (split : done ++ chapter :: rest = Chapter.order) (advances : Advances chapter m t) {earlier : Chapter}
    (listed : earlier ∈ done) : Complete document earlier s.inventory t :=
  (progress.complete earlier listed).later progress.settled ((Chapter.mem_front_iff split).mp listed) advances

/-- The sections behind the next one are as they were, whatever comes of it. -/
theorem Progress.pending_of_advances (progress : Progress document s done m) (advances : Advances chapter m t)
    {later : Chapter} (behind : later ∉ done) (differ : later ≠ chapter) :
    t.inventory.store later = s.inventory.store later :=
  (advances.elsewhere later differ).trans (progress.pending later behind)

end Onward

theorem Progress.step {done rest : List Chapter} (progress : Progress document s done m)
    (split : done ++ chapter :: rest = Chapter.order) (ends : Ends (stage document chapter) m (.ok ()) t) :
    Progress document s (done ++ [chapter]) t := by
  have advances := progress.settled.advances ends
  have fresh : chapter ∉ done := fun listed => ((Chapter.mem_front_iff split).mp listed).ne rfl
  refine ⟨advances.settled, progress.order_of_advances advances, progress.spares_of_advances advances, ?_, ?_⟩
  · intro other listed
    rcases List.mem_append.mp listed with earlier | last
    · exact progress.complete_of_advances split advances earlier
    · obtain rfl := List.mem_singleton.mp last
      exact (progress.settled.complete ends).of_store_eq (progress.pending other fresh)
  · intro other absent
    obtain ⟨behind, differ⟩ : other ∉ done ∧ other ≠ chapter := by simpa using absent
    exact progress.pending_of_advances advances behind differ

theorem Progress.run {done rest : List Chapter} (progress : Progress document s done m)
    (split : done ++ rest = Chapter.order) (ends : Ends (stages document rest) m outcome t) :
    (outcome = .ok () ∧ Progress document s Chapter.order t) ∨
      ∃ done chapter rest e n, done ++ chapter :: rest = Chapter.order ∧ Progress document s done n ∧
        outcome = .error e ∧ Ends (stage document chapter) n (.error e) t := by
  induction rest generalizing done m with
  | nil =>
    obtain ⟨rfl, rfl⟩ := ends_pure.mp ends
    rw [List.append_nil] at split
    exact Or.inl ⟨rfl, split ▸ progress⟩
  | cons chapter rest ih =>
    rw [stages, ends_bind] at ends
    rcases ends with ⟨e, failed, rfl⟩ | ⟨_, n, extracted, ends⟩
    · exact Or.inr ⟨done, chapter, rest, e, m, split, progress, rfl, failed⟩
    · exact ih (progress.step split extracted) (by simpa using split) ends

/-- How an extraction from a settled state ends: with every section extracted, or in a section that fails. -/
theorem Settled.extract (settled : Settled s) (ends : Ends (extract document) s outcome t) :
    (outcome = .ok () ∧ Progress document s Chapter.order t) ∨
      ∃ done chapter rest e n, done ++ chapter :: rest = Chapter.order ∧ Progress document s done n ∧
        outcome = .error e ∧ LoadError.OfSection chapter document e ∧ Advances chapter n t ∧
        Stops document chapter n.inventory n.inventory t.inventory := by
  obtain ⟨log, ends⟩ := exists_ends_stages ends
  rcases (Progress.start settled).run rfl ends with ⟨passed, progress⟩ |
    ⟨done, chapter, rest, e, n, split, progress, failed, ends⟩
  · exact Or.inl ⟨passed, progress.relog⟩
  · obtain ⟨known, stops⟩ := progress.settled.stops ends
    have advances := progress.settled.advances ends
    refine Or.inr ⟨done, chapter, rest, e, n, split, progress, failed, known, ?_, stops⟩
    exact ⟨advances.elsewhere, advances.order, advances.spares, ⟨advances.settled.made, advances.settled.numbered⟩⟩

/-- A state that loading can be in between two extractions: an inventory starts with nothing stored, next to
any groups that came about elsewhere, and policies are extracted into it, with whatever outcome. -/
inductive Reached : Loading → Prop where
  | empty {heap : Heap} (made : heap.Reachable) (name sourceFile : String) (log : List Event) :
      Reached { registry := heap.registry, inventory := { name, sourceFile }, log }
  | extract {s t : Loading} (before : Reached s) {document : Fields} {outcome : Extracted Unit}
      (ends : Ends (extract document) s outcome t) : Reached t

theorem Reached.settled (reached : Reached s) : Settled s := by
  induction reached with
  | empty made name sourceFile log => exact (empty_new name sourceFile).settled
  | extract _ ends ih =>
    rcases ih.extract ends with ⟨_, progress⟩ | ⟨_, _, _, _, _, _, _, _, _, advances, _⟩
    · exact progress.settled
    · exact advances.settled

section Invariant

variable {P : Inventory → Prop}

/-- What no section breaks, whatever comes of it, holds after any sections. -/
theorem Settled.invariant_stages (settled : Settled s)
    (step : ∀ {chapter outcome s t}, Settled s → Ends (stage document chapter) s outcome t →
      P s.inventory → P t.inventory)
    (start : P s.inventory) {chapters : List Chapter} (ends : Ends (stages document chapters) s outcome t) :
    P t.inventory := by
  induction chapters generalizing s with
  | nil =>
    obtain ⟨_, rfl⟩ := ends_pure.mp ends
    exact start
  | cons chapter rest ih =>
    rw [stages, ends_bind] at ends
    rcases ends with ⟨e, failed, _⟩ | ⟨_, m, extracted, later⟩
    · exact step settled failed start
    · exact ih (settled.advances extracted).settled (step settled extracted start) later

/-- What holds where nothing is stored, and no section breaks, holds after any extractions. -/
theorem Reached.invariant (reached : Reached s) (empty : ∀ inventory, Empty inventory → P inventory)
    (step : ∀ {document chapter outcome s t}, Settled s → Ends (stage document chapter) s outcome t →
      P s.inventory → P t.inventory) :
    P s.inventory := by
  induction reached with
  | empty made name sourceFile log => exact empty _ (empty_new name sourceFile)
  | @extract s t before document outcome ends ih =>
    obtain ⟨log, ran⟩ := exists_ends_stages ends
    exact before.settled.invariant_stages (t := { t with log }) step ih ran

end Invariant

/-- The inventory with the store of one section as it was before. -/
def restore (after : Inventory) (chapter : Chapter) (before : Inventory) : Inventory :=
  chapter.shelf.write after (before.store chapter)

theorem Stops.congr {found before upon after : Inventory} (stops : Stops document chapter found found after)
    (here : found.store chapter = before.store chapter) (same : ∀ other, found.store other = upon.store other) :
    Stops document chapter before upon after where
  leaves leafSection given := by
    have taken (front : List chapter.Content) (x : chapter.Content) :
        Taken upon leafSection front x ↔ Taken found leafSection front x := by
      rw [Taken, Taken, find_congr fun other _ => same other]
    rw [← here]
    simpa only [taken] using stops.leaves leafSection given
  others none := here ▸ stops.others none

def blank : Loading := { registry := {}, inventory := {} }

/-- A policy with a network of a host's name. -/
def clashing : Fields :=
  [(.text "hosts", .list [.mapping [(.text "name", .text "web"), (.text "address", .text "10.0.0.1")]]),
    (.text "networks", .list [
      .mapping [(.text "name", .text "lan"), (.text "address", .text "10.0.0.0/24")],
      .mapping [(.text "name", .text "web"), (.text "address", .text "10.1.0.0/16")]]),
    (.text "ports", .list [.mapping [(.text "name", .text "https"), (.text "port", .int 443)]])]

theorem reached_blank : Reached blank :=
  .empty .empty "" "" []

/-- An extraction, whatever its outcome, leaves every stored entry where it is among the others, and every
group that the inventory refers to as it is. If a section fails, every section before it is stored completely,
as it is when none fails; every section after it is as it was; and it is given up, so a section of groups or
rules is as it was, and a section of leaves has what stands in front of the first leaf whose name is taken, or
nothing new when an entry cannot be read. -/
theorem extract_stops_at_failure (reached : Reached s) (ends : Ends (extract document) s outcome t) :
    (∀ chapter, (s.inventory.store chapter).entries.Sublist (t.inventory.store chapter).entries) ∧
    (∀ g, s.inventory.Refers g → t.registry.content g = s.registry.content g) ∧
    (outcome = .ok () → ∀ chapter, Complete document chapter s.inventory t) ∧
    ∀ chapter cause, outcome = .error (.defect chapter cause) →
      (∀ earlier, earlier.Before chapter → Complete document earlier s.inventory t) ∧
      (∀ later, chapter.Before later → t.inventory.store later = s.inventory.store later) ∧
      Stops document chapter s.inventory (restore t.inventory chapter s.inventory) t.inventory := by
  have settled := reached.settled
  rcases settled.extract ends with ⟨rfl, progress⟩ |
    ⟨done, chapter, rest, e, n, split, progress, rfl, known, advances, stops⟩
  · refine ⟨progress.order, fun g refers => progress.spares.content_eq g (settled.made g refers), fun _ chapter => ?_,
      fun _ _ failed => by cases failed⟩
    exact progress.complete chapter (by cases chapter <;> decide)
  · have absent : chapter ∉ done := fun listed => ((Chapter.mem_front_iff split).mp listed).ne rfl
    have spares := progress.spares_of_advances advances
    have here := progress.pending chapter absent
    refine ⟨progress.order_of_advances advances, fun g refers => spares.content_eq g (settled.made g refers),
      fun passed => (by cases passed), fun _ cause failed => ?_⟩
    cases known with
    | numeral _ => cases failed
    | defect _ =>
      cases failed
      refine ⟨fun earlier before => ?_, fun later after => ?_, stops.congr here fun other => ?_⟩
      · exact progress.complete_of_advances split advances ((Chapter.mem_front_iff split).mpr before)
      · have behind : later ∉ done := fun listed => after.asymm ((Chapter.mem_front_iff split).mp listed)
        exact progress.pending_of_advances advances behind after.ne.symm
      · by_cases same : other = chapter
        · subst same
          rw [restore, store_write, here]
        · rw [restore, store_write_of_ne _ same, advances.elsewhere other same]

theorem extract_clashing_stops :
    Reached blank ∧ ∃ t, Ends (extract clashing) blank (.error (.defect .networks (.taken "web"))) t ∧
      t.inventory.hosts.values.map (·.name) = ["web"] ∧ t.inventory.networks.values.map (·.name) = ["lan"] ∧
      Complete clashing .hosts blank.inventory t ∧ t.inventory.store .ports = blank.inventory.store .ports ∧
      Stops clashing .networks blank.inventory (restore t.inventory .networks blank.inventory) t.inventory := by
  obtain ⟨t, ends, hosts, networks⟩ :
      ∃ t, Ends (extract clashing) blank (.error (.defect .networks (.taken "web"))) t ∧
        t.inventory.hosts.values.map (·.name) = ["web"] ∧ t.inventory.networks.values.map (·.name) = ["lan"] :=
    ⟨_, ends_of_eq (by decide +kernel), by decide +kernel, by decide +kernel⟩
  obtain ⟨_, _, _, stops⟩ := extract_stops_at_failure reached_blank ends
  obtain ⟨earlier, later, here⟩ := stops _ _ rfl
  exact ⟨reached_blank, t, ends, hosts, networks, earlier .hosts (by decide), later .ports (by decide), here⟩

end Rulebase.Policy
