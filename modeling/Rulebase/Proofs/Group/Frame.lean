import Rulebase.Proofs.Group.Match

/-!
# What is out of reach

What a registry says of a group depends on the groups that can be reached from it, and on no others. Two
registries that agree there walk through it alike, find the same leaves in it and compare it alike.
-/

namespace Rulebase.Registry

variable {registry other : Registry} {g h : Group} {x y : Object}

/-- Two registries have the same content for every group that can be reached from one. -/
def AgreesBelow (registry other : Registry) (g : Group) : Prop :=
  ∀ h, registry.Reaches g h → registry.content h = other.content h

namespace AgreesBelow

theorem nested_eq (agrees : registry.AgreesBelow other g) (reaches : registry.Reaches g h) :
    registry.nested h = other.nested h :=
  congrArg Content.groups (agrees h reaches)

/-- What can be reached in one registry can be reached in the other. -/
theorem reaches (agrees : registry.AgreesBelow other g) (reaches : registry.Reaches g h) :
    other.Reaches g h := by
  induction reaches with
  | refl => exact .refl
  | @tail k l before nests ih => exact ih.tail (show l ∈ other.nested k from agrees.nested_eq before ▸ nests)

theorem symm (agrees : registry.AgreesBelow other g) : other.AgreesBelow registry g := by
  have back : ∀ h, other.Reaches g h → registry.Reaches g h := by
    intro h reaches
    induction reaches with
    | refl => exact .refl
    | @tail k l _ nests ih => exact ih.tail (show l ∈ registry.nested k from (agrees.nested_eq ih).symm ▸ nests)
  exact fun h reaches => (agrees h (back h reaches)).symm

theorem holds_iff (agrees : registry.AgreesBelow other g) (reaches : registry.Reaches g h) :
    registry.Holds h x ↔ other.Holds h x := by
  cases x with
  | leaf l => rw [Holds, Holds, agrees h reaches]
  | group k => rw [Holds, Holds, agrees.nested_eq reaches]

theorem holdsWithin_iff (agrees : registry.AgreesBelow other g) :
    registry.HoldsWithin g x ↔ other.HoldsWithin g x := by
  constructor
  · rintro ⟨h, reaches, held⟩
    exact ⟨h, agrees.reaches reaches, (agrees.holds_iff reaches).mp held⟩
  · rintro ⟨h, reaches, held⟩
    exact ⟨h, agrees.symm.reaches reaches, (agrees.symm.holds_iff reaches).mp held⟩

theorem walk_eq (agrees : registry.AgreesBelow other g) : registry.walk g = other.walk g := by
  refine Order.Graph.reach_congr registry.nesting other.nesting rfl fun h reaches => ?_
  exact agrees.nested_eq reaches

theorem members_eq (agrees : registry.AgreesBelow other g) :
    registry.members g = other.members g := by
  rw [members, members, ← agrees.walk_eq]
  refine List.flatMap_congr fun h met => ?_
  rw [ownLeaves, ownLeaves, agrees h (Order.Graph.reaches_of_mem_reach met)]

/-- Two groups have the same content in one registry just when they have it in the other. -/
theorem sameContent_eq (left : registry.AgreesBelow other g) (right : registry.AgreesBelow other h) :
    registry.sameContent g h = other.sameContent g h := by
  have walked : registry.pairing.reach (g, h) = other.pairing.reach (g, h) := by
    refine Order.Graph.reach_congr registry.pairing other.pairing rfl fun pair reaches => ?_
    obtain ⟨upper, lower⟩ := reaches_of_pairing_reaches reaches
    simp only [pairing, left.nested_eq upper, right.nested_eq lower]
  rw [sameContent, sameContent, ← walked]
  rw [Bool.eq_iff_iff, List.all_eq_true, List.all_eq_true]
  refine forall₂_congr fun pair met => ?_
  obtain ⟨upper, lower⟩ := reaches_of_pairing_reaches (Order.Graph.reaches_of_mem_reach met)
  rw [agree, agree, left.nested_eq upper, right.nested_eq lower, left _ upper, right _ lower]

end AgreesBelow

/-- Two registries agree on a leaf, and on a group when they agree on what can be reached from it. -/
def AgreesOn (registry other : Registry) : Object → Prop
  | .leaf _ => True
  | .group g => registry.AgreesBelow other g

theorem AgreesOn.leavesOf_eq (agrees : registry.AgreesOn other x) :
    registry.leavesOf x = other.leavesOf x := by
  cases x with
  | leaf l => rfl
  | group g => exact agrees.members_eq

theorem AgreesOn.sameObject_eq (left : registry.AgreesOn other x) (right : registry.AgreesOn other y) :
    registry.sameObject x y = other.sameObject x y := by
  cases x with
  | leaf l => cases y <;> rfl
  | group g =>
    cases y with
    | leaf k => rfl
    | group h => rw [sameObject, sameObject, sameGroup, sameGroup, left.sameContent_eq right]

end Rulebase.Registry
