import Rulebase.Proofs.Group.Addition
import Rulebase.Proofs.Group.Growth
import Rulebase.Proofs.Group.Match
import Rulebase.Proofs.Order.Related
import Rulebase.Proofs.Order.Stable

/-!
# Parallel registries

Two registries are parallel along a relation when related groups have one name and one family, are told apart alike by
their serial numbers, hold the same leaves, and nest groups that are related one by one. What one registry says of a
group, the other one says of a related group: it is walked through alike, it has related objects or does not, and it
takes them or refuses them alike. So a registry can be followed by another one that numbers its groups differently.
-/

namespace Rulebase

namespace Registry

variable {R : Group → Group → Prop} {registry other : Registry} {g g' h h' : Group}

/-- Related groups agree in all but their serial numbers, which tell them apart alike. -/
structure Parallel (R : Group → Group → Prop) (registry other : Registry) : Prop where
  size : other.size = registry.size
  name : ∀ {g g'}, R g g' → g.name = g'.name
  family : ∀ {g g'}, R g g' → g.family = g'.family
  serial : ∀ {g g' h h'}, R g g' → R h h' → (g.serial = h.serial ↔ g'.serial = h'.serial)
  registered : ∀ {g g'}, R g g' → (g.serial ∈ registry.serials ↔ g'.serial ∈ other.serials)
  leaves : ∀ {g g'}, R g g' → (registry.content g).leaves = (other.content g').leaves
  nested : ∀ {g g'}, R g g' → List.Forall₂ R (registry.nested g) (other.nested g')

inductive Related (R : Group → Group → Prop) : Object → Object → Prop where
  | leaf (x : Leaf) : Related R (.leaf x) (.leaf x)
  | group {g g' : Group} (related : R g g') : Related R (.group g) (.group g')

def Paired (R : Group → Group → Prop) (pair pair' : Group × Group) : Prop :=
  R pair.1 pair'.1 ∧ R pair.2 pair'.2

/-- What is put in a group without a registered number is lost. -/
theorem insert_of_not_registered {x : Object} (unregistered : g.serial ∉ registry.serials) :
    registry.insert g x = registry := by
  unfold insert setContent
  cases number : g.serial with
  | zero => rfl
  | succ index =>
    have beyond : registry.contents.length ≤ index := by
      simp only [serials, size, List.mem_range'_1, number] at unregistered
      omega
    dsimp only
    rw [List.set_eq_of_length_le beyond]

namespace Parallel

theorem nesting (parallel : Parallel R registry other) :
    Order.Graph.Corresponds registry.nesting other.nesting R where
  key := parallel.serial
  next := parallel.nested

theorem walk (parallel : Parallel R registry other) (related : R g g') :
    List.Forall₂ R (registry.walk g) (other.walk g') :=
  parallel.nesting.reach related

theorem alike_eq (parallel : Parallel R registry other) {gs gs' hs hs' : List Group}
    (left : List.Forall₂ R gs gs') (right : List.Forall₂ R hs hs') : Group.alike gs hs = Group.alike gs' hs' := by
  induction left generalizing hs hs' with
  | nil => cases right <;> rfl
  | cons head _ ih =>
    cases right with
    | nil => rfl
    | cons head' tail' =>
      simp only [Group.alike, parallel.name head, parallel.name head', parallel.family head, parallel.family head',
        ih tail']

theorem agree_eq (parallel : Parallel R registry other) {pair pair' : Group × Group} (related : Paired R pair pair') :
    registry.agree pair = other.agree pair' := by
  simp only [agree, parallel.family related.1, parallel.leaves related.1, parallel.leaves related.2,
    parallel.alike_eq (parallel.nested related.1) (parallel.nested related.2)]

theorem pairing (parallel : Parallel R registry other) :
    Order.Graph.Corresponds registry.pairing other.pairing (Paired R) where
  key {_ _ _ _} left right := by
    simp only [Registry.pairing, Prod.mk.injEq, parallel.serial left.1 right.1, parallel.serial left.2 right.2]
  next {pair pair'} related := by
    have below : ∀ {gs gs' hs hs' : List Group}, List.Forall₂ R gs gs' → List.Forall₂ R hs hs' →
        List.Forall₂ (Paired R) (gs.zip hs) (gs'.zip hs') := by
      intro gs gs' hs hs' left right
      induction left generalizing hs hs' with
      | nil => exact .nil
      | cons head _ ih =>
        cases right with
        | nil => exact .nil
        | cons head' tail' => exact .cons ⟨head, head'⟩ (ih tail')
    exact List.rel_reverse (below (parallel.nested related.1) (parallel.nested related.2))

theorem sameContent_eq (parallel : Parallel R registry other) (left : R g g') (right : R h h') :
    registry.sameContent g h = other.sameContent g' h' := by
  have met : List.Forall₂ (Paired R) (registry.pairing.reach (g, h)) (other.pairing.reach (g', h')) :=
    parallel.pairing.reach ⟨left, right⟩
  exact all_eq_of_forall₂ met fun _ _ related => parallel.agree_eq related

theorem sameGroup_eq (parallel : Parallel R registry other) (left : R g g') (right : R h h') :
    registry.sameGroup g h = other.sameGroup g' h' := by
  simp only [sameGroup, parallel.sameContent_eq left right, parallel.name left, parallel.name right,
    parallel.family left, parallel.family right]

variable {x x' : Object}

theorem object_family (parallel : Parallel R registry other) (related : Related R x x') : x.family = x'.family := by
  cases related with
  | leaf y => rfl
  | group related => exact parallel.family related

theorem owns_eq (parallel : Parallel R registry other) (related : R g g') (offered : Related R x x') :
    registry.owns g x = other.owns g' x' := by
  cases offered with
  | leaf y => simp only [owns, parallel.leaves related]
  | @group h h' level =>
    simp only [owns]
    rw [parallel.name level]
    have found := Order.forall₂_candidates nameBefore (fun g : Group => g.name) parallel.name
      (parallel.nested related) h'.name
    exact any_eq_of_forall₂ found fun _ _ below => parallel.sameGroup_eq below level

/-- A group has an object just when the related group has the related object. -/
theorem hasObject_ok_iff (parallel : Parallel R registry other) (related : R g g') (offered : Related R x x')
    {answer : Bool} : registry.hasObject g x = .ok answer ↔ other.hasObject g' x' = .ok answer := by
  have found : (registry.walk g).any (registry.owns · x) = (other.walk g').any (other.owns · x') :=
    any_eq_of_forall₂ (parallel.walk related) fun _ _ below => parallel.owns_eq below offered
  simp only [hasObject, parallel.family related, parallel.object_family offered, found]
  split <;> simp

theorem isWithin_eq (parallel : Parallel R registry other) (related : R g g') (offered : Related R x x') :
    registry.isWithin g x = other.isWithin g' x' := by
  cases offered with
  | leaf y => rfl
  | group level =>
    refine any_eq_of_forall₂ (parallel.walk level) fun k k' below => ?_
    rw [Bool.eq_iff_iff, beq_iff_eq, beq_iff_eq, parallel.serial below related]

theorem slot_eq (parallel : Parallel R registry other) (related : R g g') (offered : Related R x x') :
    registry.slot g x = other.slot g' x' := by
  cases offered with
  | leaf y => simp only [slot, parallel.leaves related]
  | group level =>
    simp only [slot]
    rw [parallel.name level]
    refine Order.slot_congr nameBefore _ ?_
    rw [← List.forall₂_eq_eq_eq, List.forall₂_map_left_iff, List.forall₂_map_right_iff]
    exact (parallel.nested related).imp fun _ _ => parallel.name

/-- Registries stay parallel when related objects are put in related groups. -/
theorem insert (parallel : Parallel R registry other) (related : R g g') (offered : Related R x x') :
    Parallel R (registry.insert g x) (other.insert g' x') := by
  by_cases registered : g.serial ∈ registry.serials
  · have registered' := (parallel.registered related).mp registered
    refine ⟨by simp [parallel.size], parallel.name, parallel.family, parallel.serial, ?_, ?_, ?_⟩
    · intro k k' level
      simpa only [serials_insert] using parallel.registered level
    · intro k k' level
      funext kind
      cases offered with
      | leaf y =>
        rw [leaves_insert_leaf registered, leaves_insert_leaf registered', parallel.leaves related,
          parallel.leaves level, parallel.slot_eq related (.leaf y)]
        simp only [parallel.serial level related]
      | group h => rw [leaves_insert_group registered, leaves_insert_group registered', parallel.leaves level]
    · intro k k' level
      cases offered with
      | leaf y =>
        rw [nested_insert_leaf registered, nested_insert_leaf registered']
        exact parallel.nested level
      | group h =>
        rw [nested_insert_group registered, nested_insert_group registered', ← parallel.slot_eq related (.group h)]
        by_cases same : k.serial = g.serial
        · rw [if_pos same, if_pos ((parallel.serial level related).mp same)]
          exact forall₂_insertIdx (parallel.nested related) h _
        · rw [if_neg same, if_neg fun same' => same ((parallel.serial level related).mpr same')]
          exact parallel.nested level
  · rw [insert_of_not_registered registered, insert_of_not_registered fun registered' =>
      registered ((parallel.registered related).mpr registered')]
    exact parallel

theorem add (parallel : Parallel R registry other) (related : R g g') (offered : Related R x x') {after : Registry}
    (taken : registry.add g x = .ok after) :
    ∃ after', other.add g' x' = .ok after' ∧ Parallel R after after' := by
  obtain ⟨family, absent, away, rfl⟩ := add_eq_ok.mp taken
  refine ⟨other.insert g' x', add_eq_ok.mpr ⟨?_, ?_, ?_, rfl⟩, parallel.insert related offered⟩
  · rw [← parallel.object_family offered, ← parallel.family related, family]
  · exact (parallel.hasObject_ok_iff related offered).mp absent
  · rw [← parallel.isWithin_eq related offered, away]

/-- Registries stay parallel when a group is made in both that is related to itself. -/
theorem create (parallel : Parallel R registry other) (family : Family) (label : Label)
    (new : R (registry.create family label).1 (registry.create family label).1) :
    (other.create family label).1 = (registry.create family label).1 ∧
      Parallel R (registry.create family label).2 (other.create family label).2 := by
  have same : (other.create family label).1 = (registry.create family label).1 := by
    simp [Registry.create, parallel.size]
  refine ⟨same, ?_, parallel.name, parallel.family, parallel.serial, ?_, ?_, ?_⟩
  · simp [parallel.size]
  · intro g g' related
    have next := parallel.serial related new
    have before := parallel.registered related
    simp only [serials, List.mem_range'_1, size_create, serial_create, parallel.size] at before next ⊢
    omega
  · intro g g' related
    rw [content_create, content_create]
    exact parallel.leaves related
  · intro g g' related
    rw [nested_create, nested_create]
    exact parallel.nested related

end Parallel

end Registry

end Rulebase
